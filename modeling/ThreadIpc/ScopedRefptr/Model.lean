import Mathlib.Data.Fintype.Basic
import Mathlib.Logic.Function.Basic
import ThreadIpc.Lib.Reachability

/-!
# `scoped_refptr` and `RefCounted`

Threads `T` work on pointers and on the objects `O` they refer to. An object has pointers as members,
which die with it. What `reset` keeps in `tmp` is modelled like one more pointer. Each statement on a
count is a step.
-/

namespace ThreadIpc.ScopedRefptr

inductive Holder (X O : Type)
  | variable_ (x : X)
  | member (o : O) (i : Nat)
  | tmp (n : Nat)
  deriving DecidableEq

def Holder.owner {X O : Type} : Holder X O → Option O
  | .member o _ => some o
  | _ => none

theorem Holder.owner_tmp {X O : Type} (n : Nat) (o : O) : (.tmp n : Holder X O).owner ≠ some o := by
  intro same
  cases same

/-- What is left to do in the calls of a thread. `DoRef` of a pointer relies on another one that keeps
the object, unless the object is new. -/
inductive Instr (X O : Type)
  | doRef (h : Holder X O) (guard : Option (Holder X O))
  | doUnref (h : Holder X O)
  deriving DecidableEq

namespace Instr
variable {X O : Type}

def key : Instr X O → Holder X O
  | doRef h _ | doUnref h => h

def guard : Instr X O → Option (Holder X O)
  | doRef _ guard => guard
  | doUnref _ => none

theorem doRef_ne_doUnref (h k : Holder X O) (guard : Option (Holder X O)) :
    Instr.doRef h guard ≠ .doUnref k := by
  intro same
  cases same

theorem guard_doUnref (h k : Holder X O) : (Instr.doUnref h).guard ≠ some k := by
  intro same
  cases same

end Instr

inductive Stage
  | unmade
  | made
  | taken
  | shared
  | deleted
  deriving DecidableEq

/-- `broken` is set when an assertion fails or the count of a deleted object is touched. -/
structure State (T X O : Type) where
  ptr : Holder X O → Option O
  live : Holder X O → Bool
  temps : Nat
  count : O → Int
  stage : O → Stage
  todo : T → List (Instr X O)
  broken : Bool

/-- A raw pointer may be one that `new` has just returned. -/
inductive Source (X O : Type)
  | null
  | fresh (o : O)
  | pointer (h : Holder X O)
  deriving DecidableEq

inductive Action (T X O : Type)
  | make (o : O)
  | construct (t : T) (x : X) (source : Source X O)
  | reset (t : T) (h : Holder X O) (source : Source X O)
  | destroy (t : T) (x : X)
  | advance (t : T)

section Steps
variable {T X O : Type} [DecidableEq T] [DecidableEq X] [DecidableEq O] (members : O → Nat)

def State.init : State T X O where
  ptr _ := none
  live _ := false
  temps := 0
  count _ := 0
  stage _ := .unmade
  todo _ := []
  broken := false

namespace State
variable (s : State T X O)

def ref : Option O → State T X O
  | none => s
  | some o =>
      { s with
        count := Function.update s.count o (s.count o + 1)
        stage := Function.update s.stage o .shared
        broken := s.broken || decide (s.stage o ≠ .taken ∧ s.stage o ≠ .shared) }

def delete (t : T) (o : O) : State T X O :=
  { s with
    stage := Function.update s.stage o .deleted
    todo := Function.update s.todo t
      ((List.range (members o)).map (fun i => .doUnref (.member o i)) ++ s.todo t) }

def unref (t : T) : Option O → State T X O
  | none => s
  | some o =>
      let count := s.count o - 1
      let s := { s with
        count := Function.update s.count o count
        broken := s.broken || decide (s.stage o ≠ .shared) || decide (count < 0) }
      if count = 0 then s.delete members t o else s

def exec (t : T) : Instr X O → State T X O
  | .doRef h _ => s.ref (s.ptr h)
  | .doUnref h =>
      { s with live := Function.update s.live h false, ptr := Function.update s.ptr h none }.unref
        members t (s.ptr h)

def acquire (t : T) (h : Holder X O) (self : Holder X O) : Source X O → State T X O
  | .null =>
      { s with
        ptr := Function.update s.ptr h none
        todo := Function.update s.todo t (.doRef h none :: s.todo t) }
  | .fresh o =>
      { s with
        ptr := Function.update s.ptr h (some o)
        stage := Function.update s.stage o .taken
        todo := Function.update s.todo t (.doRef h none :: s.todo t) }
  | .pointer b =>
      let guard := if b = h then self else b
      { s with
        ptr := Function.update s.ptr h (s.ptr guard)
        todo := Function.update s.todo t (.doRef h (some guard) :: s.todo t) }

end State

def step (s : State T X O) : Action T X O → Option (State T X O)
  | .make o =>
      some { s with
        stage := Function.update s.stage o .made
        live := fun h => if h.owner = some o then true else s.live h }
  | .construct t x source =>
      some ({ s with live := Function.update s.live (.variable_ x) true }.acquire t (.variable_ x)
        (.variable_ x) source)
  | .reset t h source =>
      let tmp := .tmp s.temps
      some ({ s with
        temps := s.temps + 1
        live := Function.update s.live tmp true
        ptr := Function.update s.ptr tmp (s.ptr h)
        todo := Function.update s.todo t (.doUnref tmp :: s.todo t) }.acquire t h tmp source)
  | .destroy t x =>
      some { s with todo := Function.update s.todo t (.doUnref (.variable_ x) :: s.todo t) }
  | .advance t =>
      match s.todo t with
      | [] => none
      | instr :: rest => some ({ s with todo := Function.update s.todo t rest }.exec members t instr)

namespace State
variable (s : State T X O)

def Idle (h : Holder X O) : Prop := ∀ t, ∀ i ∈ s.todo t, i.key ≠ h

def Unborrowed (h : Holder X O) : Prop := ∀ t, ∀ i ∈ s.todo t, i.guard ≠ some h

def Usable : Source X O → Prop
  | .null => True
  | .fresh o => s.stage o = .made
  | .pointer b => s.live b = true ∧ s.Idle b

/-- The last pointer to an object does not leave it while a call uses a member of the object. -/
def MayAdvance : List (Instr X O) → Prop
  | .doUnref h :: _ => ∀ o ∈ s.ptr h, s.count o = 1 →
      ∀ i < members o, s.Idle (.member o i) ∧ s.Unborrowed (.member o i)
  | _ => True

end State

/-- The discipline for pointers that threads share: none is written while another call uses it. -/
def permitted (s : State T X O) : Action T X O → Prop
  | .make o => s.stage o = .unmade
  | .construct _ x source => s.live (.variable_ x) = false ∧ s.Usable source
  | .reset _ h source => s.live h = true ∧ s.Idle h ∧ s.Unborrowed h ∧ s.Usable source
  | .destroy _ x =>
      s.live (.variable_ x) = true ∧ s.Idle (.variable_ x) ∧ s.Unborrowed (.variable_ x)
  | .advance t => s.MayAdvance members (s.todo t)

section Decidability
variable [Fintype T] (s : State T X O)

instance (h : Holder X O) : Decidable (s.Idle h) :=
  inferInstanceAs (Decidable (∀ t, ∀ i ∈ s.todo t, i.key ≠ h))

instance (h : Holder X O) : Decidable (s.Unborrowed h) :=
  inferInstanceAs (Decidable (∀ t, ∀ i ∈ s.todo t, i.guard ≠ some h))

instance (source : Source X O) : Decidable (s.Usable source) :=
  match source with
  | .null => inferInstanceAs (Decidable True)
  | .fresh o => inferInstanceAs (Decidable (s.stage o = .made))
  | .pointer b => inferInstanceAs (Decidable (s.live b = true ∧ s.Idle b))

instance (instrs : List (Instr X O)) : Decidable (s.MayAdvance members instrs) :=
  match instrs with
  | [] => inferInstanceAs (Decidable True)
  | .doRef _ _ :: _ => inferInstanceAs (Decidable True)
  | .doUnref h :: _ => inferInstanceAs (Decidable (∀ o ∈ s.ptr h, s.count o = 1 →
      ∀ i < members o, s.Idle (.member o i) ∧ s.Unborrowed (.member o i)))

instance (action : Action T X O) : Decidable (permitted members s action) :=
  match action with
  | .make o => inferInstanceAs (Decidable (s.stage o = .unmade))
  | .construct _ x source =>
      inferInstanceAs (Decidable (s.live (.variable_ x) = false ∧ s.Usable source))
  | .reset _ h source =>
      inferInstanceAs (Decidable (s.live h = true ∧ s.Idle h ∧ s.Unborrowed h ∧ s.Usable source))
  | .destroy _ x => inferInstanceAs
      (Decidable (s.live (.variable_ x) = true ∧ s.Idle (.variable_ x) ∧ s.Unborrowed (.variable_ x)))
  | .advance t => inferInstanceAs (Decidable (s.MayAdvance members (s.todo t)))

end Decidability

end Steps

end ThreadIpc.ScopedRefptr
