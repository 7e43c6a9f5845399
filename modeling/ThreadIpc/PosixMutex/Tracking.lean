import ThreadIpc.PosixMutex.Model

/-!
# Who owns the mutex

`owner_` is read and written by threads that need not have the mutex. What each reads there is right all the
same, for nobody else writes its own number.
-/

namespace ThreadIpc.PosixMutex

def Stage.hasMutex : Stage → Bool
  | .inside | .locked | .assigning | .clearing _ | .unlocking | .waiting _ => true
  | .outside | .locking | .asleep _ | .waking _ _ => false

def Stage.isOwner : Stage → Bool
  | .inside | .clearing _ => true
  | _ => false

theorem Stage.hasMutex_of_isOwner {stage : Stage} (owner : stage.isOwner = true) : stage.hasMutex = true := by
  cases stage with
  | inside | clearing waits => rfl
  | _ => cases owner

variable {T : Type} {state after : State T} {thread : T} {stage : Stage}

structure Inv (state : State T) : Prop where
  mutex : ∀ thread, state.mutex = some thread ↔ (state.stage thread).hasMutex = true
  owner : ∀ thread, state.owner = some thread ↔ (state.stage thread).isOwner = true

namespace Inv

theorem init : Inv (State.init : State T) where
  mutex _ := ⟨nofun, nofun⟩
  owner _ := ⟨nofun, nofun⟩

theorem unowned (inv : Inv state) (has : (state.stage thread).hasMutex = true)
    (unowned : (state.stage thread).isOwner = false) : state.owner = none := by
  cases owner : state.owner with
  | none => rfl
  | some other =>
      have owns := (inv.owner other).mp owner
      have both := (inv.mutex other).mpr (Stage.hasMutex_of_isOwner owns)
      rw [(inv.mutex thread).mpr has] at both
      cases both
      rw [unowned] at owns
      cases owns

variable [DecidableEq T]

theorem moved (inv : Inv state) (thread : T) (stage : Stage) {mutex owner : Option T}
    (mutex_ : mutex = some thread ↔ stage.hasMutex = true)
    (mutexes : ∀ other ≠ thread, mutex = some other ↔ state.mutex = some other)
    (owner_ : owner = some thread ↔ stage.isOwner = true)
    (owners : ∀ other ≠ thread, owner = some other ↔ state.owner = some other) :
    Inv { state.setStage thread stage with mutex := mutex, owner := owner } where
  mutex other := by
    change mutex = some other ↔ ((state.setStage thread stage).stage other).hasMutex = true
    by_cases here : other = thread
    · rw [here, State.setStage_self]
      exact mutex_
    · rw [mutexes other here, inv.mutex other, State.setStage_of_ne _ _ here]
  owner other := by
    change owner = some other ↔ ((state.setStage thread stage).stage other).isOwner = true
    by_cases here : other = thread
    · rw [here, State.setStage_self]
      exact owner_
    · rw [owners other here, inv.owner other, State.setStage_of_ne _ _ here]

theorem setStage (inv : Inv state) (mutex : stage.hasMutex = (state.stage thread).hasMutex)
    (owner : stage.isOwner = (state.stage thread).isOwner) : Inv (state.setStage thread stage) :=
  inv.moved thread stage (mutex ▸ inv.mutex thread) (fun _ _ => Iff.rfl) (owner ▸ inv.owner thread)
    fun _ _ => Iff.rfl

theorem take (inv : Inv state) (free : state.mutex = none) (has : stage.hasMutex = true)
    (unowned : stage.isOwner = false) :
    Inv { state.setStage thread stage with mutex := some thread } := by
  have before : (state.stage thread).hasMutex ≠ true := by
    rw [ne_eq, ← inv.mutex, free]
    exact nofun
  have other : state.owner ≠ some thread := fun owner =>
    before (Stage.hasMutex_of_isOwner ((inv.owner thread).mp owner))
  refine inv.moved thread stage (iff_of_true rfl has) (fun other different => ?_)
    (iff_of_false other (Bool.eq_false_iff.mp unowned)) fun _ _ => Iff.rfl
  rw [free]
  exact iff_of_false (fun same => different (Option.some.inj same).symm) nofun

theorem drop (inv : Inv state) (had : (state.stage thread).hasMutex = true)
    (unowned : (state.stage thread).isOwner = false) (has : stage.hasMutex = false) :
    Inv { state.setStage thread stage with mutex := none } := by
  have owner : stage.isOwner ≠ true := fun owner => by
    rw [Stage.hasMutex_of_isOwner owner] at has
    cases has
  refine inv.moved thread stage (iff_of_false nofun (Bool.eq_false_iff.mp has)) (fun other different => ?_)
    (iff_of_false ?_ owner) fun _ _ => Iff.rfl
  · rw [(inv.mutex thread).mpr had]
    exact iff_of_false nofun fun same => different (Option.some.inj same).symm
  · have nobody : (state.setStage thread stage).owner = none := inv.unowned had unowned
    rw [nobody]
    exact nofun

theorem acquired (inv : Inv state) (moved : state.acquire thread = some after) : Inv after := by
  rw [State.acquire] at moved
  split at moved
  · cases moved
  · rename_i free
    rw [ne_eq, not_not] at free
    split at moved
    · cases moved
      exact inv.take free rfl rfl
    · cases moved
      split
      · exact inv.take free rfl rfl
      · exact inv.take free rfl rfl
    · cases moved

theorem released (inv : Inv state) (moved : state.release thread = some after) : Inv after := by
  rw [State.release] at moved
  split at moved
  · rename_i stage
    cases moved
    exact inv.drop (by rw [stage]; rfl) (by rw [stage]; rfl) rfl
  · rename_i timed stage
    cases moved
    exact inv.drop (by rw [stage]; rfl) (by rw [stage]; rfl) rfl
  · cases moved

omit [DecidableEq T] in
theorem reads (inv : Inv state) (user : state.runsUserCode thread = true) :
    state.stage thread = .inside ∧ state.owner = some thread ∨
      state.stage thread = .outside ∧ state.owner ≠ some thread := by
  rw [State.runsUserCode, Bool.or_eq_true, decide_eq_true_eq, decide_eq_true_eq] at user
  rcases user with outside | inside
  · refine .inr ⟨outside, fun owner => ?_⟩
    have owns := (inv.owner thread).mp owner
    rw [outside] at owns
    cases owns
  · refine .inl ⟨inside, (inv.owner thread).mpr ?_⟩
    rw [inside]
    rfl

theorem assigned (inv : Inv state) (here : state.stage thread = .assigning) :
    Inv { state.setStage thread .inside with owner := some thread } := by
  have has : (state.stage thread).hasMutex = true := by
    rw [here]
    rfl
  have nobody : state.owner = none := inv.unowned has (by rw [here]; rfl)
  refine inv.moved thread .inside (iff_of_true ((inv.mutex thread).mpr has) rfl) (fun _ _ => Iff.rfl)
    (iff_of_true rfl rfl) fun other different => ?_
  rw [nobody]
  exact iff_of_false (fun same => different (Option.some.inj same).symm) nofun

theorem cleared (inv : Inv state) {waits : Option Bool} (here : state.stage thread = .clearing waits)
    (has : stage.hasMutex = true) (unowned : stage.isOwner = false) :
    Inv { state.setStage thread stage with owner := none } := by
  have had : (state.stage thread).hasMutex = true := by
    rw [here]
    rfl
  have owner : state.owner = some thread := (inv.owner thread).mpr (by rw [here]; rfl)
  refine inv.moved thread stage (iff_of_true ((inv.mutex thread).mpr had) has) (fun _ _ => Iff.rfl)
    (iff_of_false nofun (Bool.eq_false_iff.mp unowned)) fun other different => ?_
  rw [owner]
  exact iff_of_false nofun fun same => different (Option.some.inj same).symm

end Inv

section Run

def Machine.Inv : Machine T → Prop
  | .running state => PosixMutex.Inv state
  | .aborted => True

variable [DecidableEq T]

theorem Machine.Inv.leave (inv : PosixMutex.Inv state) (user : state.runsUserCode thread = true)
    (waits : Option Bool) : (state.leave thread waits).Inv := by
  rw [State.leave]
  split
  · trivial
  · rename_i owner
    rcases inv.reads user with ⟨inside, -⟩ | ⟨-, other⟩
    · exact inv.setStage (by rw [inside]; rfl) (by rw [inside]; rfl)
    · exact absurd other owner

theorem Machine.Inv.step {machine after : Machine T} (inv : machine.Inv) {action : T × Action}
    (moved : step machine action = some after) : after.Inv := by
  cases machine with
  | aborted => cases moved
  | running state =>
      have inv : PosixMutex.Inv state := inv
      obtain ⟨thread, action⟩ := action
      cases action with
      | lock =>
          simp only [PosixMutex.step] at moved
          split at moved
          · rename_i user
            cases moved
            rw [State.lock]
            split
            · trivial
            · rename_i other
              rcases inv.reads user with ⟨-, owner⟩ | ⟨outside, -⟩
              · exact absurd owner other
              · exact inv.setStage (by rw [outside]; rfl) (by rw [outside]; rfl)
          · cases moved
      | unlock | wait timed =>
          simp only [PosixMutex.step] at moved
          split at moved
          · rename_i user
            cases moved
            exact Machine.Inv.leave inv user _
          · cases moved
      | acquire =>
          obtain ⟨state', acquired, rfl⟩ := Option.map_eq_some_iff.mp moved
          exact inv.acquired acquired
      | checkUnowned =>
          simp only [PosixMutex.step] at moved
          split at moved
          · rename_i stage
            cases moved
            split
            · trivial
            · exact inv.setStage (by rw [stage]; rfl) (by rw [stage]; rfl)
          · cases moved
      | assignOwner =>
          simp only [PosixMutex.step] at moved
          split at moved
          · rename_i stage
            cases moved
            exact inv.assigned stage
          · cases moved
      | clearOwner =>
          simp only [PosixMutex.step] at moved
          split at moved
          · rename_i stage
            cases moved
            exact inv.cleared stage rfl rfl
          · rename_i timed stage
            cases moved
            exact inv.cleared stage rfl rfl
          · cases moved
      | release =>
          obtain ⟨state', released, rfl⟩ := Option.map_eq_some_iff.mp moved
          exact inv.released released
      | wake retcode =>
          simp only [PosixMutex.step] at moved
          split at moved
          · rename_i timed stage
            cases moved
            exact inv.setStage (by rw [stage]; rfl) (by rw [stage]; rfl)
          · cases moved

def Machine.Tracks : Machine T → Prop
  | .running state =>
      (∀ thread other, state.stage thread = .inside → state.stage other = .inside → thread = other) ∧
      ∀ action, step (.running state) action = some .aborted ↔ Misuse state action
  | .aborted => True

theorem leave_aborts_iff (inv : PosixMutex.Inv state) (waits : Option Bool) :
    (if state.runsUserCode thread = true then some (state.leave thread waits) else none) =
      some .aborted ↔ state.stage thread = .outside := by
  constructor
  · intro aborted
    split at aborted
    · rename_i user
      rcases inv.reads user with ⟨-, owner⟩ | ⟨outside, -⟩
      · rw [State.leave, if_neg (not_not.mpr owner)] at aborted
        cases aborted
      · exact outside
    · cases aborted
  · intro outside
    have user : state.runsUserCode thread = true := by
      rw [State.runsUserCode, outside]
      rfl
    rcases inv.reads user with ⟨inside, -⟩ | ⟨-, other⟩
    · cases outside.symm.trans inside
    · rw [if_pos user, State.leave, if_pos other]

theorem lock_aborts_iff (inv : PosixMutex.Inv state) :
    (if state.runsUserCode thread = true then some (state.lock thread) else none) = some .aborted ↔
      state.stage thread = .inside := by
  constructor
  · intro aborted
    split at aborted
    · rename_i user
      rcases inv.reads user with ⟨inside, -⟩ | ⟨-, other⟩
      · exact inside
      · rw [State.lock, if_neg other] at aborted
        cases aborted
    · cases aborted
  · intro inside
    have user : state.runsUserCode thread = true := by
      rw [State.runsUserCode, inside]
      rfl
    rcases inv.reads user with ⟨-, owner⟩ | ⟨outside, -⟩
    · rw [if_pos user, State.lock, if_pos owner]
    · cases inside.symm.trans outside

theorem step_aborts_iff (inv : PosixMutex.Inv state) (action : T × Action) :
    step (.running state) action = some .aborted ↔ Misuse state action := by
  obtain ⟨thread, action⟩ := action
  cases action with
  | lock => exact lock_aborts_iff inv
  | unlock => exact leave_aborts_iff inv none
  | wait timed => exact leave_aborts_iff inv (some timed)
  | checkUnowned =>
      refine iff_of_false (fun aborted => ?_) id
      simp only [step] at aborted
      split at aborted
      · rename_i stage
        have nobody : state.owner = none := inv.unowned (by rw [stage]; rfl) (by rw [stage]; rfl)
        rw [nobody, if_neg (not_not.mpr rfl)] at aborted
        cases aborted
      · cases aborted
  | acquire | release =>
      refine iff_of_false (fun aborted => ?_) id
      obtain ⟨state', -, same⟩ := Option.map_eq_some_iff.mp aborted
      cases same
  | assignOwner | wake retcode =>
      refine iff_of_false (fun aborted => ?_) id
      simp only [step] at aborted
      split at aborted <;> cases aborted
  | clearOwner =>
      refine iff_of_false (fun aborted => ?_) id
      simp only [step] at aborted
      split at aborted <;> cases aborted

/-- At most one thread is inside, and an assertion fails exactly where a thread calls what it must not. -/
theorem aborts_iff_misuse {machine : Machine T}
    (reach : Lib.Reachable step Lib.anyAction (.running .init) machine) : machine.Tracks := by
  have start : Machine.Inv (.running (.init : State T)) := PosixMutex.Inv.init
  have inv : machine.Inv := reach.invariant start fun _ _ _ inv _ moved => inv.step moved
  cases machine with
  | aborted => trivial
  | running state =>
      have inv : PosixMutex.Inv state := inv
      refine ⟨fun thread other inside inside' => ?_, step_aborts_iff inv⟩
      have has : state.mutex = some thread := (inv.mutex thread).mpr (by rw [inside]; rfl)
      have has' : state.mutex = some other := (inv.mutex other).mpr (by rw [inside']; rfl)
      exact Option.some.inj (has.symm.trans has')

def waitsAndLocks : List (Bool × Action) :=
  [(true, .lock), (true, .acquire), (true, .checkUnowned), (true, .assignOwner), (false, .lock),
    (true, .wait true), (true, .clearOwner), (true, .release), (false, .acquire), (false, .checkUnowned),
    (true, .wake .interrupted), (false, .assignOwner)]

theorem aborts_iff_misuse_waits :
    (Lib.final step Lib.anyAction (.running .init) waitsAndLocks (by decide +kernel)).Tracks :=
  aborts_iff_misuse (Lib.reachable_final _ _)

end Run

end ThreadIpc.PosixMutex
