import ThreadIpc.AtomicOps.Model
import ThreadIpc.Lib.LinkedList

/-!
# `AtomicList`, word by word

Any number of threads call `put` and dismiss the iterators it has returned. Every read and write of
`head_`, `value_` and `next_` and every `CompareAndSwap` is a step of its own. Nodes are numbered as
they are allocated; no node is freed. `default` stands for `default_value()`.
-/

namespace ThreadIpc.AtomicList
open AtomicOps (compareAndSwap)

/-- What a thread does next; `node` is the local `head` of `put` and `node` of `push_front`. -/
inductive Phase (V : Type)
  | outside
  | readHead (value : V)
  | testValue (value : V) (node : Nat)
  | reuse (value : V) (node : Nat)
  | readNext (value : V) (node : Nat)
  | allocate (value : V)
  | readOld (value : V) (node : Nat)
  | link (value : V) (node : Nat) (old : Option Nat)
  | publish (value : V) (node : Nat) (old : Option Nat)
  | readValue (put node : Nat)
  | dismiss (put node : Nat) (value : V)
  deriving DecidableEq, Repr

inductive Dismissal (V : Type)
  | notCalled
  | called
  /-- what `dismiss` has returned, and what its `CompareAndSwap` left in the node -/
  | returned (value left : V)
  deriving DecidableEq, Repr

structure Put (V : Type) where
  value : V
  node : Nat
  dismissal : Dismissal V
  deriving DecidableEq, Repr

def Put.live {V : Type} (put : Put V) : Bool :=
  match put.dismissal with
  | .notCalled | .called => true
  | .returned _ _ => false

structure State (T V : Type) where
  head_ : Option Nat
  value_ : Nat → V
  next_ : Nat → Option Nat
  allocated : Nat
  phase : T → Phase V
  puts : List (Put V)

inductive Action (T V : Type)
  | put (thread : T) (value : V)
  | dismiss (thread : T) (put : Nat)
  | advance (thread : T)
  deriving DecidableEq, Repr

variable {T V : Type}

def State.init (default : V) : State T V where
  head_ := none
  value_ := fun _ => default
  next_ := fun _ => none
  allocated := 0
  phase := fun _ => .outside
  puts := []

def Phase.scan (value : V) : Option Nat → Phase V
  | some node => .testValue value node
  | none => .allocate value

namespace State
variable [DecidableEq T] [DecidableEq V] (state : State T V)

def move (thread : T) (phase : Phase V) : State T V :=
  { state with phase := Function.update state.phase thread phase }

def returnPut (thread : T) (value : V) (node : Nat) : State T V :=
  { state.move thread .outside with puts := state.puts ++ [⟨value, node, .notCalled⟩] }

def mark (put : Nat) (dismissal : Dismissal V) : State T V :=
  { state with puts := state.puts.modify put fun entry => { entry with dismissal := dismissal } }

def swapValue (node : Nat) (oldValue newValue : V) : State T V :=
  { state with
    value_ := Function.update state.value_ node (compareAndSwap (state.value_ node) oldValue newValue).2 }

def testValue (default : V) (thread : T) (value : V) (node : Nat) : State T V :=
  if state.value_ node = default then state.move thread (.reuse value node)
  else state.move thread (.readNext value node)

def reuse (default : V) (thread : T) (value : V) (node : Nat) : State T V :=
  if state.value_ node = default then (state.swapValue node default value).returnPut thread value node
  else (state.swapValue node default value).move thread (.readNext value node)

def allocate (thread : T) (value : V) : State T V :=
  { state.move thread (.readOld value state.allocated) with
    value_ := Function.update state.value_ state.allocated value
    next_ := Function.update state.next_ state.allocated none
    allocated := state.allocated + 1 }

def link (thread : T) (value : V) (node : Nat) (old : Option Nat) : State T V :=
  { state.move thread (.publish value node old) with next_ := Function.update state.next_ node old }

def publish (thread : T) (value : V) (node : Nat) (old : Option Nat) : State T V :=
  let swapped := compareAndSwap state.head_ old (some node)
  if swapped.1 = old then { state.returnPut thread value node with head_ := swapped.2 }
  else { state.move thread (.readOld value node) with head_ := swapped.2 }

/-- `dismiss` passes `default_value()` as the old value and what it has read as the new one. -/
def dismiss (default : V) (thread : T) (put node : Nat) (value : V) : State T V :=
  let swapped := state.swapValue node default value
  (swapped.move thread .outside).mark put (.returned (state.value_ node) (swapped.value_ node))

def advance (default : V) (thread : T) : Option (State T V) :=
  match state.phase thread with
  | .outside => none
  | .readHead value => some (state.move thread (.scan value state.head_))
  | .testValue value node => some (state.testValue default thread value node)
  | .reuse value node => some (state.reuse default thread value node)
  | .readNext value node => some (state.move thread (.scan value (state.next_ node)))
  | .allocate value => some (state.allocate thread value)
  | .readOld value node => some (state.move thread (.link value node state.head_))
  | .link value node old => some (state.link thread value node old)
  | .publish value node old => some (state.publish thread value node old)
  | .readValue put node => some (state.move thread (.dismiss put node (state.value_ node)))
  | .dismiss put node value => some (state.dismiss default thread put node value)

def callDismiss (thread : T) (put : Nat) : Option (State T V) :=
  match state.puts[put]? with
  | some entry => some ((state.move thread (.readValue put entry.node)).mark put .called)
  | none => none

end State

def step [DecidableEq T] [DecidableEq V] (default : V) (state : State T V) : Action T V → Option (State T V)
  | .put thread value => match state.phase thread with
      | .outside => some (state.move thread (.readHead value))
      | _ => none
  | .dismiss thread put => match state.phase thread with
      | .outside => state.callDismiss thread put
      | _ => none
  | .advance thread => state.advance default thread

/-- The callers put values other than the default, and dismiss each iterator at most once. -/
def Proper (default : V) (state : State T V) : Action T V → Prop
  | .put _ value => value ≠ default
  | .dismiss _ put => ∀ entry ∈ state.puts[put]?, entry.dismissal = .notCalled
  | .advance _ => True

instance [DecidableEq V] (default : V) (state : State T V) : ∀ action, Decidable (Proper default state action)
  | .put _ value => inferInstanceAs (Decidable (value ≠ default))
  | .dismiss _ put =>
      inferInstanceAs (Decidable (∀ entry ∈ state.puts[put]?, entry.dismissal = .notCalled))
  | .advance _ => inferInstanceAs (Decidable True)

abbrev Reached [DecidableEq T] [DecidableEq V] (default : V) (state : State T V) : Prop :=
  Lib.Reachable (step default) (Proper default) (.init default) state

def State.Reaches (state : State T V) (node : Nat) : Prop :=
  ∃ nodes, Lib.Linked state.next_ state.head_ nodes ∧ node ∈ nodes

structure Kept (state : State T V) : Prop where
  acyclic : ∃ nodes, Lib.Linked state.next_ state.head_ nodes ∧ nodes.Nodup
  held : ∀ put ∈ state.puts, put.live = true → state.Reaches put.node ∧ state.value_ put.node = put.value
  apart : ∀ (first second : Nat) (put other : Put V), state.puts[first]? = some put →
    state.puts[second]? = some other → put.live = true → other.live = true →
    put.node = other.node → first = second
  returned : ∀ put ∈ state.puts, ∀ value left, put.dismissal = .returned value left → value = put.value

structure Integrity (default : V) (state : State T V) : Prop extends Kept state where
  owned : ∀ node, state.Reaches node → state.value_ node ≠ default →
    ∃ put ∈ state.puts, put.live = true ∧ put.node = node
  reset : ∀ put ∈ state.puts, ∀ value left, put.dismissal = .returned value left → left = default

end ThreadIpc.AtomicList
