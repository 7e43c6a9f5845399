import ThreadIpc.Lib.RefCount
import ThreadIpc.ScopedRefptr.Model

/-!
# What the counts count

`pending` are the instructions that are left. A pointer whose `DoRef` is one of them is not counted yet.
-/

namespace ThreadIpc.ScopedRefptr

open Lib

variable {T X O : Type} {members : O → Nat} {s : State T X O} {pending : Instr X O → Prop}
  {h : Holder X O} {o : O}

def Holds (s : State T X O) (pending : Instr X O → Prop) (o : O) (h : Holder X O) : Prop :=
  s.ptr h = some o ∧ ∀ guard, ¬ pending (.doRef h guard)

structure Sound (members : O → Nat) (s : State T X O) (pending : Instr X O → Prop) : Prop where
  counts : ∀ o, 0 ≤ s.count o ∧ Counts (Holds s pending o) (s.count o).toNat
  shared : ∀ o h, Holds s pending o h → s.stage o = .shared
  positive : ∀ o, s.stage o = .shared → 0 < s.count o
  guarded : ∀ h b, pending (.doRef h (some b)) → ∀ o, s.ptr h = some o → Holds s pending o b
  alone : ∀ h, pending (.doRef h none) → ∀ o, s.ptr h = some o →
    s.stage o = .taken ∧ ∀ other, s.ptr other = some o → other = h
  awaited : ∀ o, s.stage o = .taken → ∃ h, s.ptr h = some o ∧ pending (.doRef h none)
  unique : ∀ i j, pending i → pending j → i.key = j.key → i = j
  guardIdle : ∀ h b, pending (.doRef h (some b)) → (∀ n, b ≠ .tmp n) → ∀ i, pending i → i.key ≠ b
  live : ∀ i, pending i → s.live i.key = true
  guardLive : ∀ h b, pending (.doRef h (some b)) → s.live b = true
  dead : ∀ h, s.live h = false → s.ptr h = none
  later : ∀ n, s.temps ≤ n → s.live (.tmp n) = false
  tmpBusy : ∀ n, s.live (.tmp n) = true → pending (.doUnref (.tmp n))
  memberLive : ∀ o, s.stage o ≠ .unmade → s.stage o ≠ .deleted → ∀ i < members o,
    s.live (.member o i) = true
  memberDead : ∀ o i, s.stage o = .unmade → s.live (.member o i) = false
  doomed : ∀ o i, pending (.doUnref (.member o i)) → s.stage o = .deleted

namespace Sound

theorem init : Sound members (.init : State T X O) fun _ => False where
  counts o := ⟨Int.le_refl 0, by simp [Counts, Holds, State.init]⟩
  shared _ _ holds := by cases holds.1
  positive _ shared := by cases shared
  guarded _ _ waits := waits.elim
  alone _ waits := waits.elim
  awaited _ taken := by cases taken
  unique _ _ waits := waits.elim
  guardIdle _ _ waits := waits.elim
  live _ waits := waits.elim
  guardLive _ _ waits := waits.elim
  dead _ _ := rfl
  later _ _ := rfl
  tmpBusy _ live := by cases live
  memberLive _ made := (made rfl).elim
  memberDead _ _ _ := rfl
  doomed _ _ waits := waits.elim

theorem stage_of_ptr (sound : Sound members s pending) (points : s.ptr h = some o) :
    s.stage o = .shared ∨ s.stage o = .taken := by
  by_cases waits : ∃ guard, pending (.doRef h guard)
  · obtain ⟨guard, waits⟩ := waits
    cases guard with
    | none => exact .inr (sound.alone h waits o points).1
    | some b => exact .inl (sound.shared o b (sound.guarded h b waits o points))
  · rw [not_exists] at waits
    exact .inl (sound.shared o h ⟨points, waits⟩)

theorem not_waiting (sound : Sound members s pending) (here : pending (.doUnref h))
    (guard : Option (Holder X O)) : ¬ pending (.doRef h guard) := fun waits =>
  nomatch sound.unique _ _ waits here rfl

theorem ref_null (sound : Sound members s pending) (null : s.ptr h = none) (guard : Option (Holder X O)) :
    Sound members s fun i => pending i ∧ i ≠ .doRef h guard := by
  have same (o : O) (k : Holder X O) :
      Holds s (fun i => pending i ∧ i ≠ .doRef h guard) o k ↔ Holds s pending o k := by
    refine and_congr_right fun points => forall_congr' fun guard' => not_congr (and_iff_left ?_)
    rintro ⟨rfl, rfl⟩
    cases points.symm.trans null
  exact {
    counts := fun o => ⟨(sound.counts o).1, (sound.counts o).2.congr (same o)⟩
    shared := fun o k holds => sound.shared o k ((same o k).mp holds)
    positive := sound.positive
    guarded := fun k b waits o points => (same o b).mpr (sound.guarded k b waits.1 o points)
    alone := fun k waits => sound.alone k waits.1
    awaited := fun o taken => by
      obtain ⟨k, points, waits⟩ := sound.awaited o taken
      refine ⟨k, points, waits, fun equal => ?_⟩
      rw [(Instr.doRef.inj equal).1, null] at points
      cases points
    unique := fun i j first second => sound.unique i j first.1 second.1
    guardIdle := fun k b waits other i left => sound.guardIdle k b waits.1 other i left.1
    live := fun i left => sound.live i left.1
    guardLive := fun k b waits => sound.guardLive k b waits.1
    dead := sound.dead
    later := sound.later
    tmpBusy := fun n live => ⟨sound.tmpBusy n live, nofun⟩
    memberLive := sound.memberLive
    memberDead := sound.memberDead
    doomed := fun o i left => sound.doomed o i left.1 }

theorem holds_of_unref (sound : Sound members s pending) (here : pending (.doUnref h))
    (points : s.ptr h = some o) : Holds s pending o h :=
  ⟨points, sound.not_waiting here⟩

variable [DecidableEq O]

theorem ref {guard : Option (Holder X O)} (sound : Sound members s pending)
    (here : pending (.doRef h guard)) (points : s.ptr h = some o) :
    Sound members (s.ref (some o)) (fun i => pending i ∧ i ≠ .doRef h guard) ∧
      (s.ref (some o)).broken = s.broken := by
  have only (guard' : Option (Holder X O)) :
      ¬ (pending (.doRef h guard') ∧ Instr.doRef h guard' ≠ .doRef h guard) := fun ⟨waits, other⟩ =>
    other (sound.unique _ _ waits here rfl)
  have after (o' : O) (k : Holder X O) :
      Holds (s.ref (some o)) (fun i => pending i ∧ i ≠ .doRef h guard) o' k ↔
        k = h ∧ o' = o ∨ Holds s pending o' k := by
    by_cases same : k = h
    · subst same
      have uncounted : ¬ Holds s pending o' k := fun holds => holds.2 guard here
      rw [or_iff_left uncounted, and_iff_right rfl]
      constructor
      · intro holds
        exact Option.some.inj (holds.1.symm.trans points)
      · rintro rfl
        exact ⟨points, only⟩
    · rw [or_iff_right fun both => same both.1]
      refine and_congr_right fun _ => forall_congr' fun guard' => not_congr (and_iff_left ?_)
      rintro ⟨rfl, rfl⟩
      exact same rfl
  have count (o' : O) (other : o' ≠ o) : (s.ref (some o)).count o' = s.count o' :=
    Function.update_of_ne other ..
  have here_ : (s.ref (some o)).count o = s.count o + 1 := Function.update_self ..
  have stage (o' : O) (other : o' ≠ o) : (s.ref (some o)).stage o' = s.stage o' :=
    Function.update_of_ne other ..
  have shared : (s.ref (some o)).stage o = .shared := Function.update_self ..
  have before := sound.stage_of_ptr points
  obtain ⟨nonneg, counts⟩ := sound.counts o
  refine ⟨{
    counts := fun o' => ?_
    shared := fun o' k holds => ?_
    positive := fun o' shared => ?_
    guarded := fun k b waits o' points' => (after o' b).mpr (.inr (sound.guarded k b waits.1 o' points'))
    alone := fun k waits o' points' => ?_
    awaited := fun o' taken => ?_
    unique := fun i j first second => sound.unique i j first.1 second.1
    guardIdle := fun k b waits other i left => sound.guardIdle k b waits.1 other i left.1
    live := fun i left => sound.live i left.1
    guardLive := fun k b waits => sound.guardLive k b waits.1
    dead := sound.dead
    later := sound.later
    tmpBusy := fun n live => ⟨sound.tmpBusy n live, nofun⟩
    memberLive := fun o' made alive => ?_
    memberDead := fun o' i unmade => ?_
    doomed := fun o' i left => ?_ }, ?_⟩
  · by_cases same : o' = o
    · subst same
      rw [here_, show (s.count o' + 1).toNat = (s.count o').toNat + 1 by omega]
      refine ⟨by omega, counts.gain (fun holds => holds.2 guard here) fun k => ?_⟩
      rw [after, and_iff_left rfl]
    · rw [count o' same]
      refine ⟨(sound.counts o').1, (sound.counts o').2.congr fun k => ?_⟩
      rw [after, or_iff_right fun both => same both.2]
  · rcases (after o' k).mp holds with ⟨-, rfl⟩ | holds
    · exact shared
    · by_cases same : o' = o
      · exact same ▸ shared
      · exact (stage o' same).trans (sound.shared o' k holds)
  · by_cases same : o' = o
    · subst same
      rw [here_]
      omega
    · rw [count o' same]
      exact sound.positive o' ((stage o' same).symm.trans shared)
  · obtain ⟨taken, only'⟩ := sound.alone k waits.1 o' points'
    have different : o' ≠ o := by
      rintro rfl
      obtain rfl := only' h points
      exact only none waits
    exact ⟨(stage o' different).trans taken, only'⟩
  · have different : o' ≠ o := by
      rintro rfl
      cases shared.symm.trans taken
    obtain ⟨k, points', waits⟩ := sound.awaited o' ((stage o' different).symm.trans taken)
    refine ⟨k, points', waits, fun equal => different ?_⟩
    rw [(Instr.doRef.inj equal).1] at points'
    exact Option.some.inj (points'.symm.trans points)
  · by_cases same : o' = o
    · subst same
      refine sound.memberLive o' ?_ ?_
      · rcases before with stage | stage <;> rw [stage] <;> exact nofun
      · rcases before with stage | stage <;> rw [stage] <;> exact nofun
    · exact sound.memberLive o' (stage o' same ▸ made) (stage o' same ▸ alive)
  · by_cases same : o' = o
    · rw [same, shared] at unmade
      cases unmade
    · exact sound.memberDead o' i ((stage o' same).symm.trans unmade)
  · have gone := sound.doomed o' i left.1
    by_cases same : o' = o
    · rw [same] at gone
      rcases before with stage | stage <;> cases gone.symm.trans stage
    · exact (stage o' same).trans gone
  · have fine : ¬ (s.stage o ≠ .taken ∧ s.stage o ≠ .shared) := fun both =>
      before.elim both.2 both.1
    rw [State.ref]
    simp only [decide_eq_false fine, Bool.or_false]

variable [DecidableEq X] {after : State T X O}

theorem holds_drop (ptr : after.ptr = Function.update s.ptr h none) (o : O) (k : Holder X O) :
    Holds after (fun i => pending i ∧ i ≠ .doUnref h) o k ↔ Holds s pending o k ∧ k ≠ h := by
  rw [Holds, Holds, ptr]
  by_cases same : k = h
  · subst same
    rw [Function.update_self]
    simp
  · rw [Function.update_of_ne same, and_iff_left same]
    refine and_congr_right fun _ => forall_congr' fun guard => not_congr (and_iff_left ?_)
    exact nofun

theorem drop (sound : Sound members s pending) (here : pending (.doUnref h))
    (unborrowed : ∀ k, ¬ pending (.doRef k (some h)))
    (ptr : after.ptr = Function.update s.ptr h none)
    (live : after.live = Function.update s.live h false) (temps : after.temps = s.temps)
    (counts : ∀ o, 0 ≤ after.count o ∧
      Counts (Holds after (fun i => pending i ∧ i ≠ .doUnref h) o) (after.count o).toNat)
    (stages : ∀ o, after.stage o = s.stage o ∨
      s.stage o = .shared ∧ after.stage o = .deleted ∧ after.count o = 0)
    (positive : ∀ o, after.stage o = .shared → 0 < after.count o) :
    Sound members after fun i => pending i ∧ i ≠ .doUnref h where
  counts := counts
  shared o k holds := by
    have before := sound.shared o k ((holds_drop ptr o k).mp holds).1
    rcases stages o with same | ⟨-, -, zero⟩
    · exact same.trans before
    · have some_ := (counts o).2.pos holds
      rw [zero] at some_
      exact absurd some_ (by decide)
  positive := positive
  guarded k b waits o points := by
    have other : k ≠ h := by
      rintro rfl
      exact sound.not_waiting here _ waits.1
    rw [ptr, Function.update_of_ne other] at points
    refine (holds_drop ptr o b).mpr ⟨sound.guarded k b waits.1 o points, ?_⟩
    rintro rfl
    exact unborrowed k waits.1
  alone k waits o points := by
    have other : k ≠ h := by
      rintro rfl
      exact sound.not_waiting here _ waits.1
    rw [ptr, Function.update_of_ne other] at points
    obtain ⟨taken, only⟩ := sound.alone k waits.1 o points
    refine ⟨?_, fun k' points' => only k' ?_⟩
    · rcases stages o with same | ⟨shared, -⟩
      · exact same.trans taken
      · cases taken.symm.trans shared
    · by_cases same : k' = h
      · rw [ptr, same, Function.update_self] at points'
        cases points'
      · rwa [ptr, Function.update_of_ne same] at points'
  awaited o taken := by
    have before : s.stage o = .taken := by
      rcases stages o with same | ⟨-, deleted, -⟩
      · exact same.symm.trans taken
      · cases deleted.symm.trans taken
    obtain ⟨k, points, waits⟩ := sound.awaited o before
    have other : k ≠ h := by
      rintro rfl
      exact sound.not_waiting here _ waits
    exact ⟨k, by rwa [ptr, Function.update_of_ne other], waits, nofun⟩
  unique i j first second := sound.unique i j first.1 second.1
  guardIdle k b waits other i left := sound.guardIdle k b waits.1 other i left.1
  live i left := by
    have other : i.key ≠ h := fun same => left.2 (sound.unique i _ left.1 here same)
    rw [live, Function.update_of_ne other]
    exact sound.live i left.1
  guardLive k b waits := by
    have other : b ≠ h := by
      rintro rfl
      exact unborrowed k waits.1
    rw [live, Function.update_of_ne other]
    exact sound.guardLive k b waits.1
  dead k gone := by
    by_cases same : k = h
    · rw [ptr, same, Function.update_self]
    · rw [live, Function.update_of_ne same] at gone
      rw [ptr, Function.update_of_ne same]
      exact sound.dead k gone
  later n large := by
    by_cases same : .tmp n = h
    · rw [live, same, Function.update_self]
    · rw [live, Function.update_of_ne same]
      exact sound.later n (temps ▸ large)
  tmpBusy n alive := by
    have other : .tmp n ≠ h := by
      rintro rfl
      rw [live, Function.update_self] at alive
      cases alive
    rw [live, Function.update_of_ne other] at alive
    exact ⟨sound.tmpBusy n alive, fun same => other (congrArg Instr.key same)⟩
  memberLive o made alive i inside := by
    have same : after.stage o = s.stage o := (stages o).resolve_right fun gone => alive gone.2.1
    rw [same] at made alive
    have other : .member o i ≠ h := by
      rintro rfl
      exact alive (sound.doomed o i here)
    rw [live, Function.update_of_ne other]
    exact sound.memberLive o made alive i inside
  memberDead o i unmade := by
    have same : after.stage o = s.stage o := (stages o).resolve_right fun gone => by
      rw [gone.2.1] at unmade
      cases unmade
    by_cases here' : .member o i = h
    · rw [live, here', Function.update_self]
    · rw [live, Function.update_of_ne here']
      exact sound.memberDead o i (same.symm.trans unmade)
  doomed o i left := by
    have gone := sound.doomed o i left.1
    rcases stages o with same | ⟨shared, -⟩
    · exact same.trans gone
    · cases gone.symm.trans shared

theorem unref_null (sound : Sound members s pending) (here : pending (.doUnref h))
    (unborrowed : ∀ k, ¬ pending (.doRef k (some h))) (null : s.ptr h = none) :
    Sound members { s with
      live := Function.update s.live h false, ptr := Function.update s.ptr h none }
      fun i => pending i ∧ i ≠ .doUnref h := by
  refine sound.drop here unborrowed rfl rfl rfl (fun o => ⟨(sound.counts o).1, ?_⟩) (fun o => .inl rfl)
    sound.positive
  refine (sound.counts o).2.congr fun k => (holds_drop rfl o k).trans ?_
  refine and_iff_left_of_imp fun holds => ?_
  rintro rfl
  cases null.symm.trans holds.1

theorem unref (sound : Sound members s pending) (here : pending (.doUnref h))
    (unborrowed : ∀ k, ¬ pending (.doRef k (some h))) (points : s.ptr h = some o)
    (ptr : after.ptr = Function.update s.ptr h none)
    (live : after.live = Function.update s.live h false) (temps : after.temps = s.temps)
    (count : after.count = Function.update s.count o (s.count o - 1))
    (stage : after.stage = if s.count o - 1 = 0 then Function.update s.stage o .deleted else s.stage) :
    Sound members after fun i => pending i ∧ i ≠ .doUnref h := by
  have held := sound.holds_of_unref here points
  have shared := sound.shared o h held
  have some_ := sound.positive o shared
  have other {o' : O} (different : o' ≠ o) :
      after.count o' = s.count o' ∧ after.stage o' = s.stage o' := by
    rw [count, stage, Function.update_of_ne different]
    refine ⟨rfl, ?_⟩
    split
    · exact Function.update_of_ne different ..
    · rfl
  have here_ : after.count o = s.count o - 1 := by rw [count, Function.update_self]
  refine sound.drop here unborrowed ptr live temps (fun o' => ?_) (fun o' => ?_) fun o' shared' => ?_
  · by_cases same : o' = o
    · subst same
      rw [here_, show (s.count o' - 1).toNat = (s.count o').toNat - 1 by omega]
      exact ⟨by omega, (sound.counts o').2.lose held fun k => holds_drop ptr o' k⟩
    · rw [(other same).1]
      refine ⟨(sound.counts o').1, (sound.counts o').2.congr fun k => ?_⟩
      refine (holds_drop ptr o' k).trans (and_iff_left_of_imp fun holds => ?_)
      rintro rfl
      exact same (Option.some.inj (holds.1.symm.trans points))
  · by_cases same : o' = o
    · subst same
      by_cases zero : s.count o' - 1 = 0
      · rw [stage, if_pos zero, Function.update_self]
        exact .inr ⟨shared, rfl, here_.trans zero⟩
      · rw [stage, if_neg zero]
        exact .inl rfl
    · exact .inl (other same).2
  · by_cases same : o' = o
    · subst same
      rw [here_]
      by_cases zero : s.count o' - 1 = 0
      · rw [stage, if_pos zero, Function.update_self] at shared'
        cases shared'
      · omega
    · rw [(other same).1]
      exact sound.positive o' ((other same).2.symm.trans shared')

end Sound

end ThreadIpc.ScopedRefptr
