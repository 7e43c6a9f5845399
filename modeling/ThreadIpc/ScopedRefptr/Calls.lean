import ThreadIpc.ScopedRefptr.Counting

/-!
# How calls begin
-/

namespace ThreadIpc.ScopedRefptr

open Lib

variable {T X O : Type} {members : O → Nat} {s after : State T X O} {pending : Instr X O → Prop}
  {h : Holder X O} {o : O}

namespace Sound

theorem same (sound : Sound members s pending) {later : Instr X O → Prop} (ptr : after.ptr = s.ptr)
    (live : after.live = s.live) (temps : after.temps = s.temps) (count : after.count = s.count)
    (stage : after.stage = s.stage) (equal : ∀ i, later i ↔ pending i) : Sound members after later := by
  obtain rfl : later = pending := funext fun i => propext (equal i)
  obtain ⟨ptr', live', temps', count', stage', todo', broken'⟩ := after
  subst ptr live temps count stage
  exact {
    counts := sound.counts
    shared := sound.shared
    positive := sound.positive
    guarded := sound.guarded
    alone := sound.alone
    awaited := sound.awaited
    unique := sound.unique
    guardIdle := sound.guardIdle
    live := sound.live
    guardLive := sound.guardLive
    dead := sound.dead
    later := sound.later
    tmpBusy := sound.tmpBusy
    memberLive := sound.memberLive
    memberDead := sound.memberDead
    doomed := sound.doomed }

theorem condemn (sound : Sound members s pending) {given : Holder X O → Prop}
    (live : ∀ h, given h → s.live h = true) (idle : ∀ h, given h → ∀ i, pending i → i.key ≠ h)
    (unborrowed : ∀ h, given h → ∀ i, pending i → i.guard ≠ some h)
    (doomed : ∀ o i, given (.member o i) → s.stage o = .deleted) :
    Sound members s fun i => pending i ∨ ∃ h, given h ∧ i = .doUnref h := by
  have refs (k : Holder X O) (guard : Option (Holder X O)) :
      (pending (.doRef k guard) ∨ ∃ h, given h ∧ Instr.doRef k guard = .doUnref h) ↔
        pending (.doRef k guard) := by
    refine or_iff_left ?_
    rintro ⟨_, _, same⟩
    cases same
  have same (o : O) (k : Holder X O) :
      Holds s (fun i => pending i ∨ ∃ h, given h ∧ i = .doUnref h) o k ↔ Holds s pending o k :=
    and_congr_right fun _ => forall_congr' fun guard => not_congr (refs k guard)
  exact {
    counts := fun o => ⟨(sound.counts o).1, (sound.counts o).2.congr (same o)⟩
    shared := fun o k holds => sound.shared o k ((same o k).mp holds)
    positive := sound.positive
    guarded := fun k b waits o points =>
      (same o b).mpr (sound.guarded k b ((refs k _).mp waits) o points)
    alone := fun k waits => sound.alone k ((refs k _).mp waits)
    awaited := fun o taken =>
      (sound.awaited o taken).imp fun _ found => ⟨found.1, .inl found.2⟩
    unique := fun i j first second equal => by
      rcases first with first | ⟨k, given_, rfl⟩ <;> rcases second with second | ⟨k', given', rfl⟩
      · exact sound.unique i j first second equal
      · exact absurd equal (idle k' given' i first)
      · exact absurd equal.symm (idle k given_ j second)
      · exact congrArg Instr.doUnref equal
    guardIdle := fun k b waits other i left => by
      have waits' := (refs k _).mp waits
      rcases left with left | ⟨k', given', rfl⟩
      · exact sound.guardIdle k b waits' other i left
      · rintro rfl
        exact unborrowed _ given' _ waits' rfl
    live := fun i left => by
      rcases left with left | ⟨k', given', rfl⟩
      · exact sound.live i left
      · exact live k' given'
    guardLive := fun k b waits => sound.guardLive k b ((refs k _).mp waits)
    dead := sound.dead
    later := sound.later
    tmpBusy := fun n alive => .inl (sound.tmpBusy n alive)
    memberLive := sound.memberLive
    memberDead := sound.memberDead
    doomed := fun o i left => by
      rcases left with left | ⟨k', given', same⟩
      · exact sound.doomed o i left
      · obtain rfl := Instr.doUnref.inj same
        exact doomed o i given' }

variable [DecidableEq O]

theorem make (sound : Sound members s pending) (unmade : s.stage o = .unmade)
    (ptr : after.ptr = s.ptr) (temps : after.temps = s.temps) (count : after.count = s.count)
    (stage : after.stage = Function.update s.stage o .made)
    (live : ∀ k, after.live k = if k.owner = some o then true else s.live k) :
    Sound members after pending := by
  have holds (o' : O) (k : Holder X O) : Holds after pending o' k ↔ Holds s pending o' k := by
    rw [Holds, Holds, ptr]
  have other {o' : O} (there : s.stage o' ≠ .unmade) : after.stage o' = s.stage o' := by
    rw [stage, Function.update_of_ne]
    rintro rfl
    exact there unmade
  have more (k : Holder X O) (alive : s.live k = true) : after.live k = true := by
    rw [live, alive, ite_self]
  exact {
    counts := fun o' => by
      rw [count]
      exact ⟨(sound.counts o').1, (sound.counts o').2.congr (holds o')⟩
    shared := fun o' k held => by
      have before := sound.shared o' k ((holds o' k).mp held)
      exact (other (before ▸ by decide)).trans before
    positive := fun o' shared => by
      rw [count]
      rw [stage] at shared
      by_cases same : o' = o
      · rw [same, Function.update_self] at shared
        cases shared
      · rw [Function.update_of_ne same] at shared
        exact sound.positive o' shared
    guarded := fun k b waits o' points =>
      (holds o' b).mpr (sound.guarded k b waits o' (ptr ▸ points))
    alone := fun k waits o' points => by
      rw [ptr] at points ⊢
      obtain ⟨taken, only⟩ := sound.alone k waits o' points
      exact ⟨(other (taken ▸ by decide)).trans taken, only⟩
    awaited := fun o' taken => by
      rw [stage] at taken
      rw [ptr]
      by_cases same : o' = o
      · rw [same, Function.update_self] at taken
        cases taken
      · rw [Function.update_of_ne same] at taken
        exact sound.awaited o' taken
    unique := sound.unique
    guardIdle := sound.guardIdle
    live := fun i left => more _ (sound.live i left)
    guardLive := fun k b waits => more b (sound.guardLive k b waits)
    dead := fun k gone => by
      rw [ptr]
      exact sound.dead k (Bool.eq_false_iff.mpr fun alive =>
        Bool.false_ne_true (gone.symm.trans (more k alive)))
    later := fun n large => by
      rw [temps] at large
      rw [live, if_neg (Holder.owner_tmp n o)]
      exact sound.later n large
    tmpBusy := fun n alive => by
      rw [live, if_neg (Holder.owner_tmp n o)] at alive
      exact sound.tmpBusy n alive
    memberLive := fun o' there alive i inside => by
      rw [live]
      by_cases same : o' = o
      · exact if_pos (congrArg some same)
      · rw [stage, Function.update_of_ne same] at there alive
        rw [sound.memberLive o' there alive i inside, ite_self]
    memberDead := fun o' i unmade' => by
      rw [stage] at unmade'
      by_cases same : o' = o
      · rw [same, Function.update_self] at unmade'
        cases unmade'
      · rw [Function.update_of_ne same] at unmade'
        rw [live]
        exact (if_neg fun equal => same (Option.some.inj equal)).trans (sound.memberDead o' i unmade')
    doomed := fun o' i left => by
      have gone := sound.doomed o' i left
      exact (other (gone ▸ by decide)).trans gone }

variable [DecidableEq X]

theorem open_ (sound : Sound members s pending) (x : X) :
    Sound members { s with live := Function.update s.live (.variable_ x) true } pending := by
  have more (k : Holder X O) (alive : s.live k = true) :
      Function.update s.live (.variable_ x) true k = true := by
    by_cases same : k = .variable_ x
    · rw [same, Function.update_self]
    · rwa [Function.update_of_ne same]
  exact {
    counts := sound.counts
    shared := sound.shared
    positive := sound.positive
    guarded := sound.guarded
    alone := sound.alone
    awaited := sound.awaited
    unique := sound.unique
    guardIdle := sound.guardIdle
    live := fun i left => more _ (sound.live i left)
    guardLive := fun k b waits => more b (sound.guardLive k b waits)
    dead := fun k gone => sound.dead k (Bool.eq_false_iff.mpr fun alive =>
      Bool.false_ne_true (gone.symm.trans (more k alive)))
    later := sound.later
    tmpBusy := sound.tmpBusy
    memberLive := sound.memberLive
    memberDead := sound.memberDead
    doomed := sound.doomed }

theorem hand (sound : Sound members s pending) (live : s.live h = true)
    (idle : ∀ i, pending i → i.key ≠ h) (unborrowed : ∀ i, pending i → i.guard ≠ some h)
    (ptr : after.ptr = Function.update (Function.update s.ptr (.tmp s.temps) (s.ptr h)) h none)
    (live' : after.live = Function.update s.live (.tmp s.temps) true) (temps : after.temps = s.temps + 1)
    (count : after.count = s.count) (stage : after.stage = s.stage) :
    Sound members after fun i => pending i ∨ i = .doUnref (.tmp s.temps) := by
  have gone : s.live (.tmp s.temps) = false := sound.later _ (Nat.le_refl _)
  have apart : .tmp s.temps ≠ h := by
    rintro rfl
    cases gone.symm.trans live
  have null : s.ptr (.tmp s.temps) = none := sound.dead _ gone
  have ptr_h : after.ptr h = none := by rw [ptr, Function.update_self]
  have ptr_tmp : after.ptr (.tmp s.temps) = s.ptr h := by
    rw [ptr, Function.update_of_ne apart, Function.update_self]
  have ptr_other {k : Holder X O} (one : k ≠ h) (two : k ≠ .tmp s.temps) : after.ptr k = s.ptr k := by
    rw [ptr, Function.update_of_ne one, Function.update_of_ne two]
  have more (k : Holder X O) (alive : s.live k = true) : after.live k = true := by
    by_cases same : k = .tmp s.temps
    · rw [live', same, Function.update_self]
    · rwa [live', Function.update_of_ne same]
  have unused (i : Instr X O) (left : pending i) : i.key ≠ .tmp s.temps := fun same =>
    Bool.false_ne_true (gone.symm.trans (same ▸ sound.live i left))
  have refs (k : Holder X O) (guard : Option (Holder X O)) :
      (pending (.doRef k guard) ∨ Instr.doRef k guard = .doUnref (.tmp s.temps)) ↔
        pending (.doRef k guard) := or_iff_left (Instr.doRef_ne_doUnref _ _ _)
  have holds (o : O) (k : Holder X O) :
      Holds after (fun i => pending i ∨ i = .doUnref (.tmp s.temps)) o k ↔
        k = .tmp s.temps ∧ s.ptr h = some o ∨ Holds s pending o k ∧ k ≠ h := by
    rw [Holds, Holds]
    by_cases one : k = h
    · subst one
      simp [ptr_h, apart.symm]
    · by_cases two : k = .tmp s.temps
      · subst two
        simp only [ptr_tmp, null, refs]
        simp [fun guard => show ¬ pending (.doRef (.tmp s.temps) guard) from fun waits =>
          unused _ waits rfl]
      · simp only [ptr_other one two, refs]
        simp [one, two]
  have away {k : Holder X O} {guard : Option (Holder X O)} (waits : pending (.doRef k guard)) :
      after.ptr k = s.ptr k := ptr_other (idle _ waits) (unused _ waits)
  exact {
    counts := fun o => by
      rw [count]
      refine ⟨(sound.counts o).1, ?_⟩
      by_cases points : s.ptr h = some o
      · have held : Holds s pending o h := ⟨points, fun guard waits => idle _ waits rfl⟩
        have new : ¬ Holds s pending o (.tmp s.temps) := by
          intro held
          cases null.symm.trans held.1
        refine (sound.counts o).2.hand held new fun k => (holds o k).trans ?_
        rw [and_iff_left points]
      · refine (sound.counts o).2.congr fun k => (holds o k).trans ?_
        rw [or_iff_right fun both => points both.2]
        refine and_iff_left_of_imp fun held => ?_
        rintro rfl
        exact points held.1
    shared := fun o k held => by
      rw [stage]
      rcases (holds o k).mp held with ⟨-, points⟩ | ⟨held, -⟩
      · exact sound.shared o h ⟨points, fun guard waits => idle _ waits rfl⟩
      · exact sound.shared o k held
    positive := fun o shared => by
      rw [count]
      exact sound.positive o (stage ▸ shared)
    guarded := fun k b waits o points => by
      rw [refs] at waits
      rw [away waits] at points
      refine (holds o b).mpr (.inr ⟨sound.guarded k b waits o points, ?_⟩)
      rintro rfl
      exact unborrowed _ waits rfl
    alone := fun k waits o points => by
      rw [refs] at waits
      rw [away waits] at points
      obtain ⟨taken, only⟩ := sound.alone k waits o points
      refine ⟨stage ▸ taken, fun other points' => ?_⟩
      by_cases one : other = h
      · rw [one, ptr_h] at points'
        cases points'
      · by_cases two : other = .tmp s.temps
        · rw [two, ptr_tmp] at points'
          exact absurd (only h points').symm (idle _ waits)
        · rw [ptr_other one two] at points'
          exact only other points'
    awaited := fun o taken => by
      rw [stage] at taken
      obtain ⟨k, points, waits⟩ := sound.awaited o taken
      exact ⟨k, (away waits).trans points, .inl waits⟩
    unique := fun i j first second equal => by
      rcases first with first | rfl <;> rcases second with second | rfl
      · exact sound.unique i j first second equal
      · exact absurd equal (unused i first)
      · exact absurd equal.symm (unused j second)
      · rfl
    guardIdle := fun k b waits other i left => by
      rw [refs] at waits
      rcases left with left | rfl
      · exact sound.guardIdle k b waits other i left
      · exact (other s.temps).symm
    live := fun i left => by
      rcases left with left | rfl
      · exact more _ (sound.live i left)
      · show after.live (.tmp s.temps) = true
        rw [live', Function.update_self]
    guardLive := fun k b waits => more b (sound.guardLive k b ((refs k _).mp waits))
    dead := fun k gone' => by
      have before : s.live k = false := Bool.eq_false_iff.mpr fun alive =>
        Bool.false_ne_true (gone'.symm.trans (more k alive))
      have one : k ≠ h := by
        rintro rfl
        cases before.symm.trans live
      have two : k ≠ .tmp s.temps := by
        rintro rfl
        rw [live', Function.update_self] at gone'
        cases gone'
      rw [ptr_other one two]
      exact sound.dead k before
    later := fun n large => by
      rw [temps] at large
      rw [live', Function.update_of_ne]
      · exact sound.later n (by omega)
      · rintro same
        cases same
        omega
    tmpBusy := fun n alive => by
      by_cases same : n = s.temps
      · exact .inr (congrArg _ (congrArg _ same))
      · rw [live', Function.update_of_ne fun equal => same (Holder.tmp.inj equal)] at alive
        exact .inl (sound.tmpBusy n alive)
    memberLive := fun o made alive i inside => by
      rw [stage] at made alive
      exact more _ (sound.memberLive o made alive i inside)
    memberDead := fun o i unmade => by
      rw [stage] at unmade
      have other : (.member o i : Holder X O) ≠ .tmp s.temps := by
        intro same
        cases same
      rw [live', Function.update_of_ne other]
      exact sound.memberDead o i unmade
    doomed := fun o i left => by
      rw [stage]
      rcases left with left | same
      · exact sound.doomed o i left
      · cases same }

theorem take (sound : Sound members s pending) (live : s.live h = true) (null : s.ptr h = none)
    (idle : ∀ i, pending i → i.key ≠ h) (unborrowed : ∀ i, pending i → i.guard ≠ some h)
    {p : Option O} {guard : Option (Holder X O)}
    (guarded : ∀ b, guard = some b → b ≠ h ∧ s.live b = true ∧ (∀ o, p = some o → Holds s pending o b) ∧
      ((∀ n, b ≠ .tmp n) → ∀ i, pending i → i.key ≠ b))
    (fresh : guard = none → ∀ o, p = some o → s.stage o = .made ∧ after.stage o = .taken)
    (ptr : after.ptr = Function.update s.ptr h p) (live' : after.live = s.live)
    (temps : after.temps = s.temps) (count : after.count = s.count)
    (stages : ∀ o, after.stage o = s.stage o ∨
      s.stage o = .made ∧ after.stage o = .taken ∧ guard = none ∧ p = some o) :
    Sound members after fun i => pending i ∨ i = .doRef h guard := by
  have ptr_h : after.ptr h = p := by rw [ptr, Function.update_self]
  have ptr_other {k : Holder X O} (other : k ≠ h) : after.ptr k = s.ptr k := by
    rw [ptr, Function.update_of_ne other]
  have stage {o : O} (old : s.stage o ≠ .made) : after.stage o = s.stage o :=
    (stages o).resolve_right fun new => old new.1
  have before {o : O} {st : Stage} (now : after.stage o = st) (old : st ≠ .taken) : s.stage o = st := by
    rcases stages o with same | ⟨-, taken, -⟩
    · exact same.symm.trans now
    · exact absurd (now.symm.trans taken) old
  have away {k : Holder X O} {guard : Option (Holder X O)} (waits : pending (.doRef k guard)) :
      after.ptr k = s.ptr k := ptr_other (idle _ waits)
  have holds (o : O) (k : Holder X O) :
      Holds after (fun i => pending i ∨ i = .doRef h guard) o k ↔ Holds s pending o k := by
    by_cases same : k = h
    · subst same
      refine iff_of_false (fun held => held.2 guard (.inr rfl)) fun held => ?_
      cases null.symm.trans held.1
    · rw [Holds, Holds, ptr_other same]
      refine and_congr_right fun _ => forall_congr' fun guard' => not_congr (or_iff_left ?_)
      intro equal
      cases equal
      exact same rfl
  exact {
    counts := fun o => by
      rw [count]
      exact ⟨(sound.counts o).1, (sound.counts o).2.congr (holds o)⟩
    shared := fun o k held => by
      have shared := sound.shared o k ((holds o k).mp held)
      exact (stage (shared ▸ by decide)).trans shared
    positive := fun o shared => by
      rw [count]
      exact sound.positive o (before shared (by decide))
    guarded := fun k b waits o points => by
      rw [holds]
      rcases waits with waits | equal
      · rw [away waits] at points
        exact sound.guarded k b waits o points
      · cases equal
        exact (guarded b rfl).2.2.1 o (ptr_h.symm.trans points)
    alone := fun k waits o points => by
      rcases waits with waits | equal
      · rw [away waits] at points
        obtain ⟨taken, only⟩ := sound.alone k waits o points
        refine ⟨(stage (taken ▸ by decide)).trans taken, fun other points' => ?_⟩
        by_cases same : other = h
        · rw [same, ptr_h] at points'
          cases guard with
          | none => cases taken.symm.trans (fresh rfl o points').1
          | some b =>
            have held := (guarded b rfl).2.2.1 o points'
            obtain rfl := only b held.1
            exact absurd waits (held.2 none)
        · rw [ptr_other same] at points'
          exact only other points'
      · cases equal
        rw [ptr_h] at points
        obtain ⟨made, taken⟩ := fresh rfl o points
        refine ⟨taken, fun other points' => by_contra fun different => ?_⟩
        rw [ptr_other different] at points'
        rcases sound.stage_of_ptr points' with shared | taken
        · cases made.symm.trans shared
        · cases made.symm.trans taken
    awaited := fun o taken => by
      rcases stages o with same | ⟨-, -, rfl, points⟩
      · obtain ⟨k, points, waits⟩ := sound.awaited o (same.symm.trans taken)
        exact ⟨k, (away waits).trans points, .inl waits⟩
      · exact ⟨h, ptr_h.trans points, .inr rfl⟩
    unique := fun i j first second equal => by
      rcases first with first | rfl <;> rcases second with second | rfl
      · exact sound.unique i j first second equal
      · exact absurd equal (idle i first)
      · exact absurd equal.symm (idle j second)
      · rfl
    guardIdle := fun k b waits other i left => by
      rcases waits with waits | equal
      · rcases left with left | rfl
        · exact sound.guardIdle k b waits other i left
        · rintro rfl
          exact unborrowed _ waits rfl
      · cases equal
        obtain ⟨apart, -, -, quiet⟩ := guarded b rfl
        rcases left with left | rfl
        · exact quiet other i left
        · exact apart.symm
    live := fun i left => by
      rw [live']
      rcases left with left | rfl
      · exact sound.live i left
      · exact live
    guardLive := fun k b waits => by
      rw [live']
      rcases waits with waits | equal
      · exact sound.guardLive k b waits
      · cases equal
        exact (guarded b rfl).2.1
    dead := fun k gone => by
      rw [live'] at gone
      rw [ptr_other]
      · exact sound.dead k gone
      · rintro rfl
        cases gone.symm.trans live
    later := fun n large => by
      rw [live']
      exact sound.later n (temps ▸ large)
    tmpBusy := fun n alive => .inl (sound.tmpBusy n (live' ▸ alive))
    memberLive := fun o made alive i inside => by
      rw [live']
      rcases stages o with same | ⟨new, -⟩
      · exact sound.memberLive o (same ▸ made) (same ▸ alive) i inside
      · exact sound.memberLive o (new ▸ by decide) (new ▸ by decide) i inside
    memberDead := fun o i unmade => by
      rw [live']
      exact sound.memberDead o i (before unmade (by decide))
    doomed := fun o i left => by
      have gone := sound.doomed o i (left.resolve_right (Instr.doRef_ne_doUnref _ _ _).symm)
      exact (stage (gone ▸ by decide)).trans gone }

end Sound

end ThreadIpc.ScopedRefptr
