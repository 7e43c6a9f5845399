import ThreadIpc.ScopedRefptr.Calls

/-!
# The calls of all threads

The instructions of the threads are about different pointers, and a pointer that an instruction borrows
outlives it: the caller keeps it, or it is the `tmp` that the same call gives up later.
-/

namespace ThreadIpc.ScopedRefptr

open Lib

section Calls
variable {T X O : Type} {members : O → Nat} {todo : T → List (Instr X O)} {t : T} {instr : Instr X O}
  {new rest : List (Instr X O)} {h : Holder X O}

def Pending (todo : T → List (Instr X O)) (instr : Instr X O) : Prop :=
  ∃ t, instr ∈ todo t

def TmpLater : List (Instr X O) → Prop
  | [] => True
  | instr :: rest =>
      (∀ n, instr.guard = some (.tmp n) → .doUnref (.tmp n) ∈ rest) ∧ TmpLater rest

structure Apart (todo : T → List (Instr X O)) : Prop where
  nodup : ∀ t, ((todo t).map Instr.key).Nodup
  threads : ∀ t t', t ≠ t' → ∀ i ∈ todo t, ∀ j ∈ todo t', i.key ≠ j.key
  tmpLater : ∀ t, TmpLater (todo t)

namespace TmpLater

theorem mem (later : TmpLater rest) (here : instr ∈ rest) {n : Nat}
    (relies : instr.guard = some (.tmp n)) : .doUnref (.tmp n) ∈ rest := by
  induction rest with
  | nil => cases here
  | cons first rest ih =>
      rcases List.mem_cons.mp here with rfl | here
      · exact List.mem_cons_of_mem _ (later.1 n relies)
      · exact List.mem_cons_of_mem _ (ih later.2 here)

theorem append (later : TmpLater rest)
    (relies : ∀ i ∈ new, ∀ n, i.guard = some (.tmp n) → .doUnref (.tmp n) ∈ rest) :
    TmpLater (new ++ rest) := by
  induction new with
  | nil => exact later
  | cons first new ih =>
      refine ⟨fun n guard => ?_, ih fun i inside => relies i (List.mem_cons_of_mem _ inside)⟩
      exact List.mem_append_right _ (relies first List.mem_cons_self n guard)

end TmpLater

section Threads
variable [DecidableEq T]

theorem pending_prepend :
    Pending (Function.update todo t (new ++ todo t)) instr ↔ Pending todo instr ∨ instr ∈ new := by
  constructor
  · rintro ⟨t', inside⟩
    by_cases same : t' = t
    · rw [same, Function.update_self, List.mem_append] at inside
      exact inside.symm.imp_left fun old => ⟨t, old⟩
    · rw [Function.update_of_ne same] at inside
      exact .inl ⟨t', inside⟩
  · rintro (⟨t', inside⟩ | inside)
    · refine ⟨t', ?_⟩
      by_cases same : t' = t
      · rw [same, Function.update_self]
        exact List.mem_append_right _ (same ▸ inside)
      · rwa [Function.update_of_ne same]
    · refine ⟨t, ?_⟩
      rw [Function.update_self]
      exact List.mem_append_left _ inside

namespace Apart

theorem key_ne (apart : Apart todo) (here : todo t = instr :: rest) {t' : T} {i : Instr X O}
    (inside : i ∈ Function.update todo t rest t') : i.key ≠ instr.key := by
  by_cases same : t' = t
  · rw [same, Function.update_self] at inside
    have nodup := apart.nodup t
    rw [here, List.map_cons, List.nodup_cons] at nodup
    intro equal
    exact nodup.1 (equal ▸ List.mem_map_of_mem inside)
  · rw [Function.update_of_ne same] at inside
    exact apart.threads t' t same i inside instr (here ▸ List.mem_cons_self)

theorem pending_advance (apart : Apart todo) (here : todo t = instr :: rest) {i : Instr X O} :
    Pending (Function.update todo t rest) i ↔ Pending todo i ∧ i ≠ instr := by
  constructor
  · rintro ⟨t', inside⟩
    refine ⟨⟨t', ?_⟩, fun equal => apart.key_ne here inside (congrArg Instr.key equal)⟩
    by_cases same : t' = t
    · rw [same, Function.update_self] at inside
      rw [same, here]
      exact List.mem_cons_of_mem _ inside
    · rwa [Function.update_of_ne same] at inside
  · rintro ⟨⟨t', inside⟩, other⟩
    refine ⟨t', ?_⟩
    by_cases same : t' = t
    · rw [same, here] at inside
      rw [same, Function.update_self]
      exact (List.mem_cons.mp inside).resolve_left other
    · rwa [Function.update_of_ne same]

theorem advance (apart : Apart todo) (here : todo t = instr :: rest) :
    Apart (Function.update todo t rest) := by
  have mem {t' : T} {i : Instr X O} (inside : i ∈ Function.update todo t rest t') : i ∈ todo t' := by
    by_cases same : t' = t
    · rw [same, Function.update_self] at inside
      rw [same, here]
      exact List.mem_cons_of_mem _ inside
    · rwa [Function.update_of_ne same] at inside
  refine ⟨fun t' => ?_, fun t' t'' other i first j second => ?_, fun t' => ?_⟩
  · by_cases same : t' = t
    · have nodup := apart.nodup t
      rw [here, List.map_cons, List.nodup_cons] at nodup
      rw [same, Function.update_self]
      exact nodup.2
    · rw [Function.update_of_ne same]
      exact apart.nodup t'
  · exact apart.threads t' t'' other i (mem first) j (mem second)
  · by_cases same : t' = t
    · have later := apart.tmpLater t
      rw [here] at later
      rw [same, Function.update_self]
      exact later.2
    · rw [Function.update_of_ne same]
      exact apart.tmpLater t'

theorem prepend (apart : Apart todo) (nodup : (new.map Instr.key).Nodup)
    (idle : ∀ i ∈ new, ∀ j, Pending todo j → j.key ≠ i.key)
    (relies : ∀ i ∈ new, ∀ n, i.guard = some (.tmp n) → .doUnref (.tmp n) ∈ todo t) :
    Apart (Function.update todo t (new ++ todo t)) := by
  have other {t' : T} (different : t' ≠ t) {i j : Instr X O} (first : i ∈ new ++ todo t)
      (second : j ∈ todo t') : i.key ≠ j.key := by
    rcases List.mem_append.mp first with first | first
    · exact (idle i first j ⟨t', second⟩).symm
    · exact apart.threads t t' different.symm i first j second
  refine ⟨fun t' => ?_, fun t' t'' different i first j second => ?_, fun t' => ?_⟩
  · by_cases same : t' = t
    · rw [same, Function.update_self, List.map_append, List.nodup_append]
      refine ⟨nodup, apart.nodup t, fun k first k' second => ?_⟩
      obtain ⟨i, inside, rfl⟩ := List.mem_map.mp first
      obtain ⟨j, inside', rfl⟩ := List.mem_map.mp second
      exact (idle i inside j ⟨t, inside'⟩).symm
    · rw [Function.update_of_ne same]
      exact apart.nodup t'
  · by_cases one : t' = t
    · subst one
      rw [Function.update_self] at first
      rw [Function.update_of_ne different.symm] at second
      exact other different.symm first second
    · rw [Function.update_of_ne one] at first
      by_cases two : t'' = t
      · subst two
        rw [Function.update_self] at second
        exact (other one second first).symm
      · rw [Function.update_of_ne two] at second
        exact apart.threads t' t'' different i first j second
  · by_cases same : t' = t
    · rw [same, Function.update_self]
      exact (apart.tmpLater t).append relies
    · rw [Function.update_of_ne same]
      exact apart.tmpLater t'

end Apart

end Threads
end Calls

/-!
# Objects that threads share
-/

variable {T X O : Type} {members : O → Nat} {s : State T X O} {t : T} {rest : List (Instr X O)}
  {h self : Holder X O} {source : Source X O}

structure Orderly (members : O → Nat) (s : State T X O) : Prop where
  sound : Sound members s (Pending s.todo)
  apart : Apart s.todo
  unbroken : s.broken = false

structure Lends (s : State T X O) (t : T) (h b : Holder X O) : Prop where
  other : b ≠ h
  live : s.live b = true
  counted : ∀ guard, ¬ Pending s.todo (.doRef b guard)
  idle : (∀ n, b ≠ .tmp n) → ∀ i, Pending s.todo i → i.key ≠ b
  tmpLater : ∀ n, b = .tmp n → .doUnref b ∈ s.todo t

namespace State

theorem Idle.of_pending (idle : s.Idle h) (i : Instr X O) (left : Pending s.todo i) : i.key ≠ h :=
  left.elim fun t inside => idle t i inside

theorem Unborrowed.of_pending (unborrowed : s.Unborrowed h) (i : Instr X O) (left : Pending s.todo i) :
    i.guard ≠ some h :=
  left.elim fun t inside => unborrowed t i inside

end State

theorem Lends.of_usable (sound : Sound members s (Pending s.todo)) {b : Holder X O} (other : b ≠ h)
    (usable : s.live b = true ∧ s.Idle b) : Lends s t h b where
  other := other
  live := usable.1
  counted guard waits := usable.2.of_pending _ waits rfl
  idle _ := usable.2.of_pending
  tmpLater n equal := by
    subst equal
    exact absurd rfl (usable.2.of_pending _ (sound.tmpBusy n usable.1))

namespace Orderly

theorem unborrowed (orderly : Orderly members s) (here : s.todo t = .doUnref h :: rest) (i : Instr X O)
    (left : Pending s.todo i) : i.guard ≠ some h := by
  intro relies
  obtain ⟨t', inside⟩ := left
  have pending : Pending s.todo (.doUnref h) := ⟨t, here ▸ List.mem_cons_self⟩
  by_cases tmp : ∃ n, h = .tmp n
  · obtain ⟨n, rfl⟩ := tmp
    by_cases same : t' = t
    · subst same
      have nodup := orderly.apart.nodup t'
      have later := orderly.apart.tmpLater t'
      rw [here, List.map_cons, List.nodup_cons] at nodup
      rw [here] at inside later
      rcases List.mem_cons.mp inside with rfl | inside
      · cases relies
      · exact nodup.1 (List.mem_map_of_mem (later.2.mem inside relies))
    · have again := (orderly.apart.tmpLater t').mem inside relies
      exact orderly.apart.threads t' t same _ again _ (here ▸ List.mem_cons_self) rfl
  · cases i with
    | doRef k guard =>
        obtain rfl : guard = some h := relies
        rw [not_exists] at tmp
        exact orderly.sound.guardIdle k h ⟨t', inside⟩ tmp _ pending rfl
    | doUnref k => cases relies

theorem counted {o : O} (orderly : Orderly members s) (here : s.todo t = .doUnref h :: rest)
    (points : s.ptr h = some o) : s.stage o = .shared ∧ 0 < s.count o := by
  have held := orderly.sound.holds_of_unref ⟨t, here ▸ List.mem_cons_self⟩ points
  have shared := orderly.sound.shared o h held
  exact ⟨shared, orderly.sound.positive o shared⟩

variable [DecidableEq T] [DecidableEq X] [DecidableEq O]

theorem acquire (sound : Sound members { s with ptr := Function.update s.ptr h none } (Pending s.todo))
    (apart : Apart s.todo) (unbroken : s.broken = false) (live : s.live h = true)
    (idle : ∀ i, Pending s.todo i → i.key ≠ h) (unborrowed : ∀ i, Pending s.todo i → i.guard ≠ some h)
    (fresh : ∀ o, source = .fresh o → s.stage o = .made)
    (lends : ∀ b, source = .pointer b → Lends s t h (if b = h then self else b)) :
    Orderly members (s.acquire t h self source) := by
  have null : Function.update s.ptr h none h = none := Function.update_self ..
  have ptr (p : Option O) :
      Function.update s.ptr h p = Function.update (Function.update s.ptr h none) h p :=
    (Function.update_idem ..).symm
  have prepend (guard : Option (Holder X O))
      (relies : ∀ n, guard = some (.tmp n) → .doUnref (.tmp n) ∈ s.todo t) :
      Apart (Function.update s.todo t (.doRef h guard :: s.todo t)) := by
    refine @Apart.prepend _ _ _ _ t [.doRef h guard] _ apart (List.nodup_singleton _)
      (fun i inside j left => ?_) fun i inside n guard => ?_
    · obtain rfl := List.mem_singleton.mp inside
      exact idle j left
    · obtain rfl := List.mem_singleton.mp inside
      exact relies n guard
  have pending (guard : Option (Holder X O)) (i : Instr X O) :
      Pending (Function.update s.todo t (.doRef h guard :: s.todo t)) i ↔
        Pending s.todo i ∨ i = .doRef h guard :=
    (@pending_prepend _ _ _ s.todo t i [.doRef h guard] _).trans (or_congr_right List.mem_singleton)
  cases source with
  | null =>
      have taken : Sound members (s.acquire t h self .null)
          (fun i => Pending s.todo i ∨ i = .doRef h none) := by
        refine sound.take live null idle unborrowed nofun (fun _ o points => ?_) (ptr none) rfl rfl rfl
          fun _ => .inl rfl
        cases points
      exact ⟨taken.same rfl rfl rfl rfl rfl (pending none), prepend none nofun, unbroken⟩
  | fresh o =>
      have made := fresh o rfl
      have taken : Sound members (s.acquire t h self (.fresh o))
          (fun i => Pending s.todo i ∨ i = .doRef h none) := by
        refine sound.take live null idle unborrowed nofun (fun _ o' new => ?_) (ptr (some o)) rfl rfl rfl
          fun o' => ?_
        · obtain rfl := Option.some.inj new
          exact ⟨made, Function.update_self ..⟩
        · by_cases same : o' = o
          · subst same
            exact .inr ⟨made, Function.update_self .., rfl, rfl⟩
          · exact .inl (Function.update_of_ne same ..)
      exact ⟨taken.same rfl rfl rfl rfl rfl (pending none), prepend none nofun, unbroken⟩
  | pointer b =>
      have lent := lends b rfl
      have taken : Sound members (s.acquire t h self (.pointer b))
          (fun i => Pending s.todo i ∨ i = .doRef h (some (if b = h then self else b))) := by
        refine sound.take live null idle unborrowed (fun k equal => ?_) nofun (ptr _) rfl rfl rfl
          fun _ => .inl rfl
        obtain rfl := Option.some.inj equal
        refine ⟨lent.other, lent.live, fun o points => ⟨?_, lent.counted⟩, lent.idle⟩
        exact (Function.update_of_ne lent.other ..).trans points
      refine ⟨taken.same rfl rfl rfl rfl rfl (pending _), prepend _ fun n equal => ?_, unbroken⟩
      have is := Option.some.inj equal
      exact is ▸ lent.tmpLater n is

theorem make {o : O} (orderly : Orderly members s) (unmade : s.stage o = .unmade) {after : State T X O}
    (moved : step members s (.make o) = some after) : Orderly members after := by
  cases moved
  exact ⟨orderly.sound.make unmade rfl rfl rfl rfl fun _ => rfl, orderly.apart, orderly.unbroken⟩

theorem construct {x : X} (orderly : Orderly members s) (dead : s.live (.variable_ x) = false)
    (usable : s.Usable source) {after : State T X O}
    (moved : step members s (.construct t x source) = some after) : Orderly members after := by
  cases moved
  have null := orderly.sound.dead _ dead
  have unused (i : Instr X O) (left : Pending s.todo i) : i.key ≠ .variable_ x := fun same =>
    Bool.false_ne_true (dead.symm.trans (same ▸ orderly.sound.live i left))
  refine acquire ?_ orderly.apart orderly.unbroken (Function.update_self ..) unused
    (fun i left relies => ?_) (fun o equal => ?_) fun b equal => ?_
  · refine (orderly.sound.open_ x).same ?_ rfl rfl rfl rfl fun _ => Iff.rfl
    exact Function.update_eq_self_iff.mpr null.symm
  · cases i with
    | doRef k guard =>
        obtain rfl : guard = some (.variable_ x) := relies
        cases dead.symm.trans (orderly.sound.guardLive k _ left)
    | doUnref k => cases relies
  · subst equal
    exact usable
  · subst equal
    have other : b ≠ .variable_ x := by
      rintro rfl
      cases dead.symm.trans usable.1
    rw [if_neg other]
    have lent : Lends s t (.variable_ x) b := .of_usable orderly.sound other usable
    exact ⟨other, (Function.update_of_ne other ..).trans lent.live, lent.counted, lent.idle, lent.tmpLater⟩

theorem reset (orderly : Orderly members s) (live : s.live h = true) (idle : s.Idle h)
    (unborrowed : s.Unborrowed h) (usable : s.Usable source) {after : State T X O}
    (moved : step members s (.reset t h source) = some after) : Orderly members after := by
  cases moved
  have gone : s.live (.tmp s.temps) = false := orderly.sound.later _ (Nat.le_refl _)
  have unused (i : Instr X O) (left : Pending s.todo i) : i.key ≠ .tmp s.temps := fun same =>
    Bool.false_ne_true (gone.symm.trans (same ▸ orderly.sound.live i left))
  have apart : .tmp s.temps ≠ h := by
    rintro rfl
    cases gone.symm.trans live
  have pending (i : Instr X O) :
      Pending (Function.update s.todo t (.doUnref (.tmp s.temps) :: s.todo t)) i ↔
        Pending s.todo i ∨ i = .doUnref (.tmp s.temps) :=
    (@pending_prepend _ _ _ s.todo t i [.doUnref (.tmp s.temps)] _).trans (or_congr_right List.mem_singleton)
  have handed : Sound members
      { s with
        temps := s.temps + 1
        live := Function.update s.live (.tmp s.temps) true
        ptr := Function.update (Function.update s.ptr (.tmp s.temps) (s.ptr h)) h none }
      fun i => Pending s.todo i ∨ i = .doUnref (.tmp s.temps) :=
    orderly.sound.hand live idle.of_pending unborrowed.of_pending rfl rfl rfl rfl rfl
  have todo_t (i : Instr X O) : i ∈ Function.update s.todo t (.doUnref (.tmp s.temps) :: s.todo t) t ↔
      i ∈ .doUnref (.tmp s.temps) :: s.todo t := by rw [Function.update_self]
  refine acquire ?_ ?_ orderly.unbroken ?_ (fun i left => ?_) (fun i left => ?_) (fun o equal => ?_)
    fun b equal => ?_
  · exact handed.same rfl rfl rfl rfl rfl pending
  · refine @Apart.prepend _ _ _ _ t [.doUnref (.tmp s.temps)] _ orderly.apart (List.nodup_singleton _)
      (fun i inside j left => ?_) fun i inside n relies => ?_
    · obtain rfl := List.mem_singleton.mp inside
      exact unused j left
    · obtain rfl := List.mem_singleton.mp inside
      cases relies
  · exact (Function.update_of_ne apart.symm ..).trans live
  · rcases (pending i).mp left with left | rfl
    · exact idle.of_pending i left
    · exact apart
  · rcases (pending i).mp left with left | rfl
    · exact unborrowed.of_pending i left
    · exact Instr.guard_doUnref _ _
  · subst equal
    exact usable
  · subst equal
    by_cases self : b = h
    · rw [if_pos self]
      refine ⟨apart, Function.update_self .., fun guard waits => ?_, fun ordinary => ?_, fun n _ => ?_⟩
      · exact unused _ (((pending _).mp waits).resolve_right (Instr.doRef_ne_doUnref _ _ _)) rfl
      · exact absurd rfl (ordinary s.temps)
      · exact (todo_t _).mpr List.mem_cons_self
    · rw [if_neg self]
      have lent : Lends s t h b := .of_usable orderly.sound self usable
      have other : b ≠ .tmp s.temps := by
        rintro rfl
        cases gone.symm.trans lent.live
      refine ⟨self, (Function.update_of_ne other ..).trans lent.live, fun guard waits => ?_,
        fun _ i left => ?_, fun n equal => ?_⟩
      · exact lent.counted guard (((pending _).mp waits).resolve_right (Instr.doRef_ne_doUnref _ _ _))
      · rcases (pending i).mp left with left | rfl
        · exact usable.2.of_pending i left
        · exact other.symm
      · exact (todo_t _).mpr (List.mem_cons_of_mem _ (lent.tmpLater n equal))

theorem destroy {x : X} (orderly : Orderly members s) (live : s.live (.variable_ x) = true)
    (idle : s.Idle (.variable_ x)) (unborrowed : s.Unborrowed (.variable_ x)) {after : State T X O}
    (moved : step members s (.destroy t x) = some after) : Orderly members after := by
  cases moved
  have condemned : Sound members s fun i => Pending s.todo i ∨ ∃ h, h = .variable_ x ∧ i = .doUnref h :=
    orderly.sound.condemn (fun _ is => is ▸ live) (fun _ is => is ▸ idle.of_pending)
      (fun _ is => is ▸ unborrowed.of_pending) nofun
  refine ⟨condemned.same rfl rfl rfl rfl rfl fun i => ?_, ?_, orderly.unbroken⟩
  · rw [exists_eq_left]
    exact (@pending_prepend _ _ _ s.todo t i [.doUnref (.variable_ x)] _).trans
      (or_congr_right List.mem_singleton)
  · refine @Apart.prepend _ _ _ _ t [.doUnref (.variable_ x)] _ orderly.apart (List.nodup_singleton _)
      (fun i inside j left => ?_) fun i inside n relies => ?_
    · obtain rfl := List.mem_singleton.mp inside
      exact idle.of_pending j left
    · obtain rfl := List.mem_singleton.mp inside
      cases relies

theorem unref {o : O} (orderly : Orderly members s) (here : s.todo t = .doUnref h :: rest)
    (points : s.ptr h = some o) {after : State T X O}
    (ptr : after.ptr = Function.update s.ptr h none) (live : after.live = Function.update s.live h false)
    (temps : after.temps = s.temps) (count : after.count = Function.update s.count o (s.count o - 1))
    (stage : after.stage = if s.count o - 1 = 0 then Function.update s.stage o .deleted else s.stage) :
    Sound members after (Pending (Function.update s.todo t rest)) := by
  have released := orderly.sound.unref ⟨t, here ▸ List.mem_cons_self⟩
    (fun k left => orderly.unborrowed here _ left rfl) points ptr live temps count stage
  exact released.same rfl rfl rfl rfl rfl fun _ => orderly.apart.pending_advance here

theorem delete {o : O} (orderly : Orderly members s) (here : s.todo t = .doUnref h :: rest)
    (points : s.ptr h = some o)
    (quiet : ∀ i < members o, s.Idle (.member o i) ∧ s.Unborrowed (.member o i)) {after : State T X O}
    (sound : Sound members after (Pending (Function.update s.todo t rest)))
    (live : after.live = Function.update s.live h false)
    (stage : after.stage = Function.update s.stage o .deleted) (unbroken : after.broken = false)
    (todo : after.todo = Function.update (Function.update s.todo t rest) t
      ((List.range (members o)).map (fun i => .doUnref (.member o i)) ++ Function.update s.todo t rest t)) :
    Orderly members after := by
  have shared := (orderly.counted here points).1
  have left {i : Instr X O} (left : Pending (Function.update s.todo t rest) i) : Pending s.todo i :=
    ((orderly.apart.pending_advance here).mp left).1
  have condemned : Sound members after fun i => Pending (Function.update s.todo t rest) i ∨
      ∃ k, (∃ i < members o, k = .member o i) ∧ i = .doUnref k := by
    refine sound.condemn (fun k given => ?_) (fun k given j waits => ?_) (fun k given j waits => ?_)
      fun o' i given => ?_
    · obtain ⟨i, inside, rfl⟩ := given
      have other : .member o i ≠ h := by
        rintro rfl
        cases shared.symm.trans (orderly.sound.doomed o i ⟨t, here ▸ List.mem_cons_self⟩)
      rw [live, Function.update_of_ne other]
      exact orderly.sound.memberLive o (shared ▸ by decide) (shared ▸ by decide) i inside
    · obtain ⟨i, inside, rfl⟩ := given
      exact (quiet i inside).1.of_pending j (left waits)
    · obtain ⟨i, inside, rfl⟩ := given
      exact (quiet i inside).2.of_pending j (left waits)
    · obtain ⟨i', inside, equal⟩ := given
      rw [(Holder.member.inj equal).1, stage, Function.update_self]
  refine ⟨condemned.same rfl rfl rfl rfl rfl fun i => ?_, ?_, unbroken⟩
  · rw [todo, pending_prepend, List.mem_map]
    refine or_congr_right ⟨?_, ?_⟩
    · rintro ⟨n, inside, rfl⟩
      exact ⟨_, ⟨n, List.mem_range.mp inside, rfl⟩, rfl⟩
    · rintro ⟨_, ⟨n, inside, rfl⟩, rfl⟩
      exact ⟨n, List.mem_range.mpr inside, rfl⟩
  · rw [todo]
    refine (orderly.apart.advance here).prepend ?_ (fun i inside j waits => ?_) fun i inside n relies => ?_
    · rw [List.map_map]
      exact List.nodup_range.map fun i j equal => (Holder.member.inj equal).2
    · obtain ⟨n, within, rfl⟩ := List.mem_map.mp inside
      exact (quiet n (List.mem_range.mp within)).1.of_pending j (left waits)
    · obtain ⟨n, -, rfl⟩ := List.mem_map.mp inside
      cases relies

theorem advance (orderly : Orderly members s) (may : s.MayAdvance members (s.todo t))
    {after : State T X O} (moved : step members s (.advance t) = some after) : Orderly members after := by
  cases here : s.todo t with
  | nil =>
      rw [step, here] at moved
      cases moved
  | cons instr rest =>
      rw [step, here] at moved
      cases moved
      have pending (i : Instr X O) : Pending (Function.update s.todo t rest) i ↔
          Pending s.todo i ∧ i ≠ instr := orderly.apart.pending_advance here
      have first : Pending s.todo instr := ⟨t, here ▸ List.mem_cons_self⟩
      have apart := orderly.apart.advance here
      rw [here] at may
      cases instr with
      | doRef h guard =>
          show Orderly members (State.ref _ (s.ptr h))
          cases points : s.ptr h with
          | none =>
              have same := orderly.sound.ref_null points guard
              exact ⟨same.same rfl rfl rfl rfl rfl pending, apart, orderly.unbroken⟩
          | some o =>
              obtain ⟨sound, broken⟩ := orderly.sound.ref first points
              exact ⟨sound.same rfl rfl rfl rfl rfl pending, apart, broken.trans orderly.unbroken⟩
      | doUnref h =>
          show Orderly members (State.unref members _ t (s.ptr h))
          cases points : s.ptr h with
          | none =>
              have same := orderly.sound.unref_null first
                (fun k left => orderly.unborrowed here _ left rfl) points
              exact ⟨same.same rfl rfl rfl rfl rfl pending, apart, orderly.unbroken⟩
          | some o =>
              obtain ⟨shared, some_⟩ := orderly.counted here points
              have unbroken : (s.broken || decide (s.stage o ≠ .shared) ||
                  decide (s.count o - 1 < 0)) = false := by
                simp only [orderly.unbroken, shared]
                simp
                omega
              by_cases last : s.count o - 1 = 0
              · rw [State.unref]
                simp only [if_pos last]
                refine orderly.delete here points (may o points (by omega)) ?_ rfl rfl unbroken rfl
                exact orderly.unref here points rfl rfl rfl rfl (if_pos last).symm
              · rw [State.unref]
                simp only [if_neg last]
                refine ⟨?_, apart, unbroken⟩
                exact orderly.unref here points rfl rfl rfl rfl (if_neg last).symm

end Orderly

theorem Orderly.between (orderly : Orderly members s) (quiet : ∀ t, s.todo t = [])
    (o : O) : Counts (fun h => s.ptr h = some o) (s.count o).toNat ∧
      ((∃ h, s.ptr h = some o) ↔ s.stage o = .shared) ∧ s.stage o ≠ .taken := by
  have none_ (i : Instr X O) : ¬ Pending s.todo i := by
    rintro ⟨t, inside⟩
    rw [quiet t] at inside
    cases inside
  have holds (h : Holder X O) : s.ptr h = some o ↔ Holds s (Pending s.todo) o h :=
    (and_iff_left fun _ => none_ _).symm
  have untaken : s.stage o ≠ .taken := fun taken => by
    obtain ⟨h, -, waits⟩ := orderly.sound.awaited o taken
    exact none_ _ waits
  refine ⟨(orderly.sound.counts o).2.congr holds, ⟨?_, fun shared => ?_⟩, untaken⟩
  · rintro ⟨h, points⟩
    exact orderly.sound.shared o h ((holds h).mp points)
  · by_contra nowhere
    rw [not_exists] at nowhere
    have zero := (orderly.sound.counts o).2.eq_zero fun h held => nowhere h ((holds h).mpr held)
    have some_ := orderly.sound.positive o shared
    omega

variable [DecidableEq T] [DecidableEq X] [DecidableEq O]

omit [DecidableEq T] [DecidableEq X] [DecidableEq O] in
theorem Orderly.init : Orderly members (.init : State T X O) := by
  refine ⟨Sound.init.same rfl rfl rfl rfl rfl fun i => ?_, ⟨fun _ => List.nodup_nil, ?_, ?_⟩, rfl⟩
  · exact iff_of_false (fun left => nomatch left) id
  · exact fun _ _ _ _ inside => nomatch inside
  · exact fun _ => trivial

theorem Orderly.reachable (reach : Reachable (step members) (permitted members) .init s) :
    Orderly members s := by
  induction reach with
  | start => exact .init
  | @next _ _ action _ allowed moved ih =>
      cases action with
      | make o => exact ih.make allowed moved
      | construct t x source => exact ih.construct allowed.1 allowed.2 moved
      | reset t h source => exact ih.reset allowed.1 allowed.2.1 allowed.2.2.1 allowed.2.2.2 moved
      | destroy t x => exact ih.destroy allowed.1 allowed.2.1 allowed.2.2 moved
      | advance t => exact ih.advance allowed moved

end ThreadIpc.ScopedRefptr
