import Mathlib.Algebra.Order.Ring.Nat
import Mathlib.Data.Finset.Card
import ThreadIpc.Lib.Reachability

/-!
# `IpcProcessRegistry` and the processes that share it

`mutex_` is held from the lock to the unlock of one method and only its holder writes, so the
writes of a critical section are listed when its body starts, in the order of the source, and made
one step at a time; a process may die between any two steps. `int revision` wraps as the compiler
makes it. The shared memory is created zero filled. `asserts` says whether the assertions in `Add`
are compiled in. An id that `Add` is called with must be absent when its body runs. A record of
the history has the instants between which its operation held the mutex.
-/

namespace ThreadIpc.ProcessRegistry

abbrev IpcProcessId := UInt32

def kInvalidProcessId : IpcProcessId := 0

def kMaxProcesses : Nat := 31

abbrev ValidId := { id : IpcProcessId // id ≠ kInvalidProcessId }

structure Registry where
  revision : Int32
  processes : List IpcProcessId
  size : processes.length = kMaxProcesses
  deriving DecidableEq

inductive Write
  | bumpRevision
  | setProcess (i : Nat) (id : IpcProcessId)
  deriving DecidableEq, Repr

namespace Registry

def created : Registry where
  revision := 0
  processes := List.replicate kMaxProcesses kInvalidProcessId
  size := List.length_replicate

def write (registry : Registry) : Write → Registry
  | .bumpRevision => { registry with revision := registry.revision + 1 }
  | .setProcess i id =>
      { registry with
        processes := registry.processes.set i id
        size := List.length_set.trans registry.size }

def contents (registry : Registry) : List IpcProcessId :=
  registry.processes.takeWhile (· != kInvalidProcessId)

def emptySlot? (registry : Registry) : Option Nat :=
  registry.processes.findIdx? (· == kInvalidProcessId)

def ourIndex? (registry : Registry) (id : ValidId) : Option Nat :=
  registry.processes.findIdx? (· == id.val)

def lastValidIndex (registry : Registry) (ourIndex : Nat) : Nat :=
  ourIndex +
    ((registry.processes.drop (ourIndex + 1)).takeWhile (· != kInvalidProcessId)).length

def processAt (registry : Registry) (i : Nat) : IpcProcessId :=
  registry.processes.getD i kInvalidProcessId

def addWrites (i : Nat) (id : ValidId) : List Write :=
  [.bumpRevision, .setProcess i id.val]

def removeWrites (registry : Registry) (ourIndex : Nat) : List Write :=
  let lastValidIndex := registry.lastValidIndex ourIndex
  if lastValidIndex ≠ ourIndex then
    [.bumpRevision, .setProcess ourIndex (registry.processAt lastValidIndex),
      .setProcess lastValidIndex kInvalidProcessId]
  else [.bumpRevision, .setProcess ourIndex kInvalidProcessId]

def repairWrites (registry : Registry) : List Write :=
  match registry.contents.length with
  | 0 => []
  | lastValid + 1 =>
      if registry.processAt lastValid ∈ registry.processes.take lastValid then
        [.bumpRevision, .setProcess lastValid kInvalidProcessId]
      else []

end Registry

inductive Operation
  | add (id : ValidId)
  | remove (id : ValidId)
  deriving DecidableEq

inductive Task
  | openRegistry
  | assertRemove (id : ValidId)
  | add (id : ValidId)
  | remove (id : ValidId)
  | getAll (start : Nat)
  deriving DecidableEq

def Task.operation? : Task → Option Operation
  | .openRegistry | .getAll _ => none
  | .assertRemove id | .remove id => some (.remove id)
  | .add id => some (.add id)

inductive Ending
  | returned (result : Bool)
  | asserted
  | died
  deriving DecidableEq

structure Record where
  operation : Operation
  ending : Ending
  start : Nat
  finish : Nat
  deriving DecidableEq

def Task.record (task : Task) (ending : Ending) (start finish : Nat) : List Record :=
  (task.operation?.map fun operation => ⟨operation, ending, start, finish⟩).toList

inductive Stage
  | repairing (writes : List Write)
  | checked
  | probing (i : Nat)
  | writing (writes : List Write)
  | leaving (result : Bool)
  deriving DecidableEq, Repr

variable {P : Type}

inductive Mutex (P : Type)
  | free (abandoned : Bool)
  | held (owner : P) (task : Task) (stage : Stage)
  deriving DecidableEq

inductive ProcessState
  | closed
  | idle
  | comparing (start : Nat)
  | acquiring (task : Task)
  | inside
  | dead
  deriving DecidableEq

structure CachedRegistry where
  registry : Registry
  incrementsSeen : Nat
  deriving DecidableEq

structure Instant where
  contents : List IpcProcessId
  live : IpcProcessId → Bool

def Shown {α : Type} (look : Instant → α) (instants : List Instant) (start finish : Nat)
    (value : α) : Prop :=
  ∃ k, start ≤ k ∧ k ≤ finish ∧ instants[k]?.map look = some value

theorem Shown.later {α : Type} {look : Instant → α} {instants : List Instant} {start finish : Nat}
    {value : α} (shown : Shown look instants start finish value) {finish' : Nat}
    (later : finish ≤ finish') (more : List Instant) :
    Shown look (instants ++ more) start finish' value := by
  obtain ⟨k, after_start, before_finish, seen⟩ := shown
  obtain ⟨instant, recorded, same⟩ := Option.map_eq_some_iff.mp seen
  have inside : k < instants.length := (List.getElem?_eq_some_iff.mp recorded).1
  refine ⟨k, after_start, before_finish.trans later, ?_⟩
  rwa [List.getElem?_append_left inside]

structure Returned (P : Type) where
  process : P
  start : Nat
  finish : Nat
  list : List IpcProcessId
  deriving DecidableEq

structure State (P : Type) where
  registry : Registry
  mutex : Mutex P
  process : P → ProcessState
  cached : P → Option CachedRegistry
  live : IpcProcessId → Bool
  increments : Nat
  lockedAt : Nat
  trace : List Instant
  history : List Record
  returned : List (Returned P)

inductive Action (P : Type)
  | openRegistry (p : P)
  | add (p : P) (id : ValidId)
  | remove (p : P) (id : ValidId)
  | getAll (p : P)
  | compare (p : P)
  | acquire (p : P)
  | advance
  | die (p : P)
  | setLive (id : IpcProcessId) (alive : Bool)
  deriving DecidableEq

namespace State

def init (live : IpcProcessId → Bool) : State P where
  registry := .created
  mutex := .free false
  process := fun _ => .closed
  cached := fun _ => none
  live := live
  increments := 0
  lockedAt := 0
  trace := [⟨Registry.created.contents, live⟩]
  history := []
  returned := []

def now (state : State P) : Nat := state.trace.length - 1

def recordInstant (state : State P) : State P :=
  { state with trace := state.trace ++ [⟨state.registry.contents, state.live⟩] }

def write (state : State P) (write : Write) : State P :=
  { state with
    registry := state.registry.write write
    increments := state.increments + if write = .bumpRevision then 1 else 0 }

def stage (state : State P) (p : P) (task : Task) (stage : Stage) : State P :=
  { state with mutex := .held p task stage }

variable [DecidableEq P]

def goto (state : State P) (p : P) (next : ProcessState) : State P :=
  { state with process := Function.update state.process p next }

def readRegistry (state : State P) (p : P) : State P :=
  { state with
    cached := Function.update state.cached p (some ⟨state.registry, state.increments⟩) }

def returnList (state : State P) (p : P) (start : Nat) (list : List IpcProcessId) : State P :=
  State.goto
    { state with returned := state.returned ++ [⟨p, start, state.now, list⟩] } p .idle

def lock (state : State P) (p : P) (task : Task) (abandoned : Bool) : State P :=
  State.goto
    { state with
      mutex := .held p task
        (if abandoned then .repairing state.registry.repairWrites else .checked)
      lockedAt := state.now } p .inside

def unlock (state : State P) (task : Task) (result : Bool) : State P :=
  { state with
    mutex := .free false
    history := state.history ++ task.record (.returned result) state.lockedAt state.now }

def abandon (state : State P) (p : P) (task : Task) (ending : Ending) : State P :=
  State.goto
    { state with
      mutex := .free true
      history := state.history ++ task.record ending state.lockedAt state.now } p .dead

def die (state : State P) (p : P) : State P :=
  match state.mutex with
  | .held owner task _ => if owner = p then state.abandon p task .died else state.goto p .dead
  | .free _ => state.goto p .dead

def leave (state : State P) (p : P) (task : Task) (result : Bool) : State P :=
  match task with
  | .openRegistry | .add _ | .remove _ => (state.unlock task result).goto p .idle
  | .assertRemove id =>
      (state.unlock task result).goto p (if result then .dead else .acquiring (.add id))
  | .getAll start =>
      (state.unlock task result).returnList p start
        (((state.cached p).map (·.registry.contents)).getD [])

def startBody (state : State P) (p : P) (task : Task) : State P :=
  match task with
  | .openRegistry | .getAll _ => (state.readRegistry p).stage p task (.leaving true)
  | .add id => match state.registry.emptySlot? with
      | some i => state.stage p task (.writing (Registry.addWrites i id))
      | none => state.stage p task (.probing 0)
  | .remove id | .assertRemove id => match state.registry.ourIndex? id with
      | some ourIndex => state.stage p task (.writing (state.registry.removeWrites ourIndex))
      | none => state.stage p task (.leaving false)

def probe (asserts : Bool) (state : State P) (p : P) (id : ValidId) (i : Nat) : State P :=
  if i < kMaxProcesses then
    if state.live (state.registry.processAt i) then state.stage p (.add id) (.probing (i + 1))
    else state.stage p (.add id) (.writing (Registry.addWrites i id))
  else if asserts then state.abandon p (.add id) .asserted
  else state.stage p (.add id) (.leaving false)

def advance (asserts : Bool) (state : State P) (p : P) (task : Task) :
    Stage → Option (State P)
  | .repairing [] => some (state.stage p task .checked)
  | .repairing (write :: rest) => some ((state.write write).stage p task (.repairing rest))
  | .checked => some (state.startBody p task)
  | .probing i => match task with
      | .add id => some (state.probe asserts p id i)
      | _ => none
  | .writing [] => some (state.stage p task (.leaving true))
  | .writing (write :: rest) => some ((state.write write).stage p task (.writing rest))
  | .leaving result => some (state.leave p task result)

def compare (state : State P) (p : P) (start : Nat) (cached : CachedRegistry) : State P :=
  if cached.registry.revision = state.registry.revision then
    State.returnList
      { state with
        cached := Function.update state.cached p
          (some { cached with incrementsSeen := state.increments }) }
      p start cached.registry.contents
  else state.goto p (.acquiring (.getAll start))

def act (asserts : Bool) (state : State P) : Action P → Option (State P)
  | .openRegistry p => match state.process p with
      | .closed => some (state.goto p (.acquiring .openRegistry))
      | _ => none
  | .add p id => match state.process p with
      | .idle => some (state.goto p (.acquiring (if asserts then .assertRemove id else .add id)))
      | _ => none
  | .remove p id => match state.process p with
      | .idle => some (state.goto p (.acquiring (.remove id)))
      | _ => none
  | .getAll p => match state.process p with
      | .idle => some (state.goto p (.comparing state.now))
      | _ => none
  | .compare p => match state.process p, state.cached p with
      | .comparing start, some cached => some (state.compare p start cached)
      | _, _ => none
  | .acquire p => match state.process p, state.mutex with
      | .acquiring task, .free abandoned => some (state.lock p task abandoned)
      | _, _ => none
  | .advance => match state.mutex with
      | .held p task stage => state.advance asserts p task stage
      | .free _ => none
  | .die p => some (state.die p)
  | .setLive id alive => some { state with live := Function.update state.live id alive }

def step (asserts : Bool) (state : State P) (action : Action P) : Option (State P) :=
  (state.act asserts action).map recordInstant

def addIsFresh (state : State P) : Action P → Bool
  | .advance => match state.mutex with
      | .held _ (.add id) .checked => id.val ∉ state.registry.processes
      | _ => true
  | _ => true

def fewIncrements (state : State P) : Action P → Bool
  | .compare p => match state.cached p with
      | some cached => state.increments < cached.incrementsSeen + 2 ^ 32
      | none => true
  | _ => true

inductive Moved (asserts : Bool) (state : State P) : Action P → State P → Prop
  | openRegistry {p} (closed : state.process p = .closed) :
      Moved asserts state (.openRegistry p) (state.goto p (.acquiring .openRegistry))
  | add {p id} (idle : state.process p = .idle) :
      Moved asserts state (.add p id)
        (state.goto p (.acquiring (if asserts then .assertRemove id else .add id)))
  | remove {p id} (idle : state.process p = .idle) :
      Moved asserts state (.remove p id) (state.goto p (.acquiring (.remove id)))
  | getAll {p} (idle : state.process p = .idle) :
      Moved asserts state (.getAll p) (state.goto p (.comparing state.now))
  | compare {p start cached} (comparing : state.process p = .comparing start)
      (opened : state.cached p = some cached) :
      Moved asserts state (.compare p) (state.compare p start cached)
  | acquire {p task abandoned} (acquiring : state.process p = .acquiring task)
      (free : state.mutex = .free abandoned) :
      Moved asserts state (.acquire p) (state.lock p task abandoned)
  | advance {p task stage after} (held : state.mutex = .held p task stage)
      (advanced : state.advance asserts p task stage = some after) :
      Moved asserts state .advance after
  | die {p} : Moved asserts state (.die p) (state.die p)
  | setLive {id alive} : Moved asserts state (.setLive id alive)
      { state with live := Function.update state.live id alive }

inductive Advanced (asserts : Bool) (state : State P) (p : P) :
    Task → Stage → State P → Prop
  | repaired {task} :
      Advanced asserts state p task (.repairing []) (state.stage p task .checked)
  | repair {task write rest} :
      Advanced asserts state p task (.repairing (write :: rest))
        ((state.write write).stage p task (.repairing rest))
  | body {task} : Advanced asserts state p task .checked (state.startBody p task)
  | probe {id i} :
      Advanced asserts state p (.add id) (.probing i) (state.probe asserts p id i)
  | written {task} :
      Advanced asserts state p task (.writing []) (state.stage p task (.leaving true))
  | write {task write rest} :
      Advanced asserts state p task (.writing (write :: rest))
        ((state.write write).stage p task (.writing rest))
  | leave {task result} :
      Advanced asserts state p task (.leaving result) (state.leave p task result)

theorem advance_advanced {asserts : Bool} {state after : State P} {p : P} {task : Task}
    {stage : Stage} (advanced : state.advance asserts p task stage = some after) :
    Advanced asserts state p task stage after := by
  cases stage with
  | repairing writes => cases writes <;> exact Option.some.inj advanced ▸ by constructor
  | checked => exact Option.some.inj advanced ▸ .body
  | probing i => cases task with
      | add id => exact Option.some.inj advanced ▸ .probe
      | _ => contradiction
  | writing writes => cases writes <;> exact Option.some.inj advanced ▸ by constructor
  | leaving result => exact Option.some.inj advanced ▸ .leave

theorem act_moved {asserts : Bool} {state after : State P} {action : Action P}
    (acted : state.act asserts action = some after) : Moved asserts state action after := by
  cases action with
  | openRegistry p =>
      simp only [act] at acted
      split at acted
      · rename_i closed
        exact Option.some.inj acted ▸ .openRegistry closed
      · contradiction
  | add p id =>
      simp only [act] at acted
      split at acted
      · rename_i idle
        exact Option.some.inj acted ▸ .add idle
      · contradiction
  | remove p id =>
      simp only [act] at acted
      split at acted
      · rename_i idle
        exact Option.some.inj acted ▸ .remove idle
      · contradiction
  | getAll p =>
      simp only [act] at acted
      split at acted
      · rename_i idle
        exact Option.some.inj acted ▸ .getAll idle
      · contradiction
  | compare p =>
      simp only [act] at acted
      split at acted
      · rename_i comparing opened
        exact Option.some.inj acted ▸ .compare comparing opened
      · contradiction
  | acquire p =>
      simp only [act] at acted
      split at acted
      · rename_i acquiring free
        exact Option.some.inj acted ▸ .acquire acquiring free
      · contradiction
  | advance =>
      simp only [act] at acted
      split at acted
      · rename_i held
        exact .advance held acted
      · contradiction
  | die p => exact Option.some.inj acted ▸ .die
  | setLive id alive => exact Option.some.inj acted ▸ .setLive

end State

end ThreadIpc.ProcessRegistry
