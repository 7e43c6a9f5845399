import ThreadIpc.ThreadMessageWindow.Delivery
import ThreadIpc.Win32ThreadMessageQueue.Model

/-!
# The window that `Send` finds is there
-/

namespace ThreadIpc.Win32ThreadMessageQueue

variable {T D : Type} [DecidableEq T] {s after : State T D} {t : T} {w : Nat}

/-- What the windows of the queue and the threads have to do with each other. -/
structure Owned (s : State T D) : Prop where
  unbroken : s.broken = false
  run : ∀ w, ThreadMessageWindow.Reached (s.window w)
  held : ∀ t w, s.tls t = some w → w < s.created ∧ s.alive w = true
  single : ∀ t t' w, s.tls t = some w → s.tls t' = some w → t = t'
  alive : ∀ w, s.alive w = true → ∃ t, s.tls t = some w
  registered : ∀ t, s.find t = if s.phase t = .idle then s.tls t else none
  busy : ∀ t, s.phase t ≠ .idle → s.tls t ≠ none
  made : ∀ t, s.phase t = .idle → s.tls t ≠ none → s.threadMap ≠ none

namespace Owned

omit [DecidableEq T] in
theorem init : Owned (.init : State T D) where
  unbroken := rfl
  run _ := .start
  held _ _ held := by cases held
  single _ _ _ held := by cases held
  alive _ alive := by cases alive
  registered _ := rfl
  busy _ busy := absurd rfl busy
  made _ _ some_ := absurd rfl some_

theorem initThreadMessageQueue (owned : Owned s) (idle : s.phase t = .idle) :
    Owned (s.initThreadMessageQueue t) := by
  rw [State.initThreadMessageQueue]
  split
  · exact owned
  · rename_i absent
    have fresh (t' : T) : s.tls t' ≠ some s.created := fun held =>
      Nat.lt_irrefl _ (owned.held t' _ held).1
    have find (t' : T) : s.find t' = if Function.update s.phase t .registering t' = .idle then
        Function.update s.tls t (some s.created) t' else none := by
      rw [owned.registered t']
      by_cases same : t' = t
      · subst same
        rw [idle, absent, Function.update_self]
        rfl
      · rw [Function.update_of_ne same, Function.update_of_ne same]
    exact {
      unbroken := owned.unbroken
      run := owned.run
      held := fun t' w held => by
        replace held : Function.update s.tls t (some s.created) t' = some w := held
        by_cases same : t' = t
        · rw [same, Function.update_self] at held
          obtain rfl := Option.some.inj held
          exact ⟨Nat.lt_succ_self _, Function.update_self ..⟩
        · rw [Function.update_of_ne same] at held
          obtain ⟨older, alive⟩ := owned.held t' w held
          exact ⟨Nat.lt_succ_of_lt older, (Function.update_of_ne (Nat.ne_of_lt older) ..).trans alive⟩
      single := fun t' t'' w one two => by
        replace one : Function.update s.tls t (some s.created) t' = some w := one
        replace two : Function.update s.tls t (some s.created) t'' = some w := two
        by_cases same : t' = t <;> by_cases also : t'' = t
        · rw [same, also]
        · rw [same, Function.update_self] at one
          rw [Function.update_of_ne also] at two
          exact absurd (two.trans one.symm) (fresh t'')
        · rw [also, Function.update_self] at two
          rw [Function.update_of_ne same] at one
          exact absurd (one.trans two.symm) (fresh t')
        · rw [Function.update_of_ne same] at one
          rw [Function.update_of_ne also] at two
          exact owned.single t' t'' w one two
      alive := fun w alive => by
        by_cases new : w = s.created
        · exact ⟨t, new ▸ Function.update_self ..⟩
        · obtain ⟨t', held⟩ := owned.alive w ((Function.update_of_ne new ..).symm.trans alive)
          refine ⟨t', (Function.update_of_ne ?_ ..).trans held⟩
          rintro rfl
          cases absent.symm.trans held
      registered := find
      busy := fun t' busy none_ => by
        replace busy : Function.update s.phase t .registering t' ≠ .idle := busy
        replace none_ : Function.update s.tls t (some s.created) t' = none := none_
        by_cases same : t' = t
        · rw [same, Function.update_self] at none_
          cases none_
        · rw [Function.update_of_ne same] at busy none_
          exact owned.busy t' busy none_
      made := fun t' quiet some_ => by
        replace quiet : Function.update s.phase t .registering t' = .idle := quiet
        replace some_ : Function.update s.tls t (some s.created) t' ≠ none := some_
        by_cases same : t' = t
        · rw [same, Function.update_self] at quiet
          cases quiet
        · rw [Function.update_of_ne same] at quiet some_
          exact owned.made t' quiet some_ }

theorem register (owned : Owned s) (registering : s.phase t = .registering) : Owned (s.register t) where
  unbroken := owned.unbroken
  run := owned.run
  held := owned.held
  single := owned.single
  alive := owned.alive
  registered t' := by
    show Function.update (s.threadMap.getD fun _ => none) t (s.tls t) t' =
      if Function.update s.phase t .idle t' = .idle then s.tls t' else none
    by_cases same : t' = t
    · rw [same, Function.update_self, Function.update_self, if_pos rfl]
    · rw [Function.update_of_ne same, Function.update_of_ne same, ← owned.registered t', State.find]
      cases s.threadMap <;> rfl
  busy t' busy := by
    by_cases same : t' = t
    · exact owned.busy t' (same ▸ registering ▸ by decide)
    · exact owned.busy t' ((Function.update_of_ne same .idle s.phase).symm ▸ busy)
  made _ _ _ := Option.some_ne_none _

omit [DecidableEq T] in
theorem setWindow (owned : Owned s) {window : ThreadMessageWindow.State D}
    (run : ThreadMessageWindow.Reached window) : Owned (s.setWindow w window) where
  unbroken := owned.unbroken
  run w' := by
    by_cases same : w' = w
    · subst same
      simpa [State.setWindow] using run
    · simpa [State.setWindow, same] using owned.run w'
  held := owned.held
  single := owned.single
  alive := owned.alive
  registered := owned.registered
  busy := owned.busy
  made := owned.made

omit [DecidableEq T] in
theorem send (owned : Owned s) (messageType : Int) (messageData : D) :
    Owned (s.send t messageType messageData).2 := by
  rw [State.send]
  split
  · exact owned
  · rename_i w found
    rw [owned.registered t] at found
    have held : s.tls t = some w := by
      split at found
      · exact found
      · cases found
    have unbroken : (s.broken || !s.alive w) = false := by
      rw [owned.unbroken, (owned.held t w held).2]
      rfl
    rw [unbroken, ← owned.unbroken]
    exact owned.setWindow (.next (owned.run w) trivial (show ThreadMessageWindow.step _
      (.postThreadMessage messageType messageData) = _ from rfl))

omit [DecidableEq T] in
theorem own (owned : Owned s) {action : ThreadMessageWindow.Action D}
    (moved : s.own t (ThreadMessageWindow.step · action) = some after) : Owned after := by
  obtain ⟨w, -, moved⟩ := Option.bind_eq_some_iff.mp moved
  obtain ⟨window, stepped, rfl⟩ := Option.map_eq_some_iff.mp moved
  exact owned.setWindow (.next (owned.run w) trivial stepped)

theorem threadEnd (owned : Owned s) (idle : s.phase t = .idle) : Owned (s.threadEnd t) := by
  rw [State.threadEnd]
  split
  · exact owned
  · rename_i w held
    have made : s.threadMap ≠ none := owned.made t idle (held ▸ Option.some_ne_none w)
    obtain ⟨map, is⟩ := Option.ne_none_iff_exists'.mp made
    have find (t' : T) : s.find t' = map t' := by rw [State.find, is]; rfl
    exact {
      unbroken := by
        show (s.broken || s.threadMap.isNone) = false
        rw [owned.unbroken, is]
        rfl
      run := owned.run
      held := owned.held
      single := owned.single
      alive := owned.alive
      registered := fun t' => by
        show (s.threadMap.map fun map => Function.update map t none).bind (fun map => map t') =
          if Function.update s.phase t .ending t' = .idle then s.tls t' else none
        rw [is]
        show Function.update map t none t' = _
        by_cases same : t' = t
        · rw [same, Function.update_self, Function.update_self]
          rfl
        · rw [Function.update_of_ne same, Function.update_of_ne same, ← find, owned.registered]
      busy := fun t' busy => by
        by_cases same : t' = t
        · rw [same]
          exact held ▸ Option.some_ne_none w
        · exact owned.busy t' ((Function.update_of_ne same .ending s.phase).symm ▸ busy)
      made := fun t' _ _ gone => by
        rw [is] at gone
        cases gone }

theorem deleteData (owned : Owned s) (ending : s.phase t = .ending) (moved : s.deleteData t = some after) :
    Owned after := by
  obtain ⟨w, held, rfl⟩ := Option.map_eq_some_iff.mp moved
  have unfound : s.find t = none := by rw [owned.registered t, ending]; rfl
  have other {t' : T} (different : t' ≠ t) {w' : Nat} (held' : s.tls t' = some w') : w' ≠ w := by
    rintro rfl
    exact different (owned.single t' t w' held' held)
  exact {
    unbroken := by
      show (s.broken || !s.alive w) = false
      rw [owned.unbroken, (owned.held t w held).2]
      rfl
    run := owned.run
    held := fun t' w' held' => by
      replace held' : Function.update s.tls t none t' = some w' := held'
      by_cases same : t' = t
      · rw [same, Function.update_self] at held'
        cases held'
      · rw [Function.update_of_ne same] at held'
        obtain ⟨older, alive⟩ := owned.held t' w' held'
        exact ⟨older, (Function.update_of_ne (other same held') ..).trans alive⟩
    single := fun t' t'' w' one two => by
      replace one : Function.update s.tls t none t' = some w' := one
      replace two : Function.update s.tls t none t'' = some w' := two
      by_cases same : t' = t
      · rw [same, Function.update_self] at one
        cases one
      · by_cases also : t'' = t
        · rw [also, Function.update_self] at two
          cases two
        · rw [Function.update_of_ne same] at one
          rw [Function.update_of_ne also] at two
          exact owned.single t' t'' w' one two
    alive := fun w' alive => by
      replace alive : Function.update s.alive w false w' = true := alive
      by_cases same : w' = w
      · rw [same, Function.update_self] at alive
        cases alive
      · rw [Function.update_of_ne same] at alive
        obtain ⟨t', held'⟩ := owned.alive w' alive
        refine ⟨t', (Function.update_of_ne ?_ ..).trans held'⟩
        rintro rfl
        exact same (Option.some.inj (held'.symm.trans held))
    registered := fun t' => by
      show s.find t' =
        if Function.update s.phase t .idle t' = .idle then Function.update s.tls t none t' else none
      by_cases same : t' = t
      · rw [same, unfound, Function.update_self, Function.update_self, if_pos rfl]
      · rw [Function.update_of_ne same, Function.update_of_ne same, owned.registered]
    busy := fun t' busy => by
      replace busy : Function.update s.phase t .idle t' ≠ .idle := busy
      show Function.update s.tls t none t' ≠ none
      by_cases same : t' = t
      · rw [same, Function.update_self] at busy
        exact absurd rfl busy
      · rw [Function.update_of_ne same] at busy ⊢
        exact owned.busy t' busy
    made := fun t' quiet some_ => by
      replace quiet : Function.update s.phase t .idle t' = .idle := quiet
      replace some_ : Function.update s.tls t none t' ≠ none := some_
      by_cases same : t' = t
      · rw [same, Function.update_self] at some_
        exact absurd rfl some_
      · rw [Function.update_of_ne same] at quiet some_
        exact owned.made t' quiet some_ }

theorem reachable (reach : Lib.Reachable step permitted (.init : State T D) s) : Owned s := by
  induction reach with
  | start => exact .init
  | @next _ _ action _ allowed moved ih =>
      cases action with
      | initThreadMessageQueue t =>
          cases moved
          exact ih.initThreadMessageQueue allowed
      | register t =>
          cases moved
          exact ih.register allowed
      | send t messageType messageData =>
          cases moved
          exact ih.send messageType messageData
      | takeMessage t => exact @own _ _ _ _ _ ih .takeMessage moved
      | advance t => exact @own _ _ _ _ _ ih .advance moved
      | threadEnd t =>
          cases moved
          exact ih.threadEnd allowed.1
      | deleteData t => exact ih.deleteData allowed moved

end Owned

/-- The thread ends with an event in its window, and the next one of its id has a window of its own. -/
def sameId : List (Action Bool String) :=
  [.initThreadMessageQueue false, .send false 1 "early", .register false, .send false 1 "first",
    .takeMessage false, .advance false, .send false 1 "second", .advance false, .advance false,
    .advance false, .threadEnd false, .send false 1 "late", .deleteData false,
    .initThreadMessageQueue false, .register false, .send false 1 "next"]

end ThreadIpc.Win32ThreadMessageQueue
