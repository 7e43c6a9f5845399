import ThreadIpc.Lib.Circle
import ThreadIpc.Lib.Reachability

/-!
# `linked_ptr`

`P` are the pointers, `V` the objects, some of whose members are pointers. A pointer that is NULL holds
no object. Working on a pointer that has been destroyed has no outcome.
-/

namespace ThreadIpc.LinkedPtr

open Lib

/-- The members of an object, in the order of their destructors. -/
structure Layout (P V : Type) where
  fields : V → List P
  nodup : ∀ v, (fields v).Nodup
  apart : ∀ {v w x}, x ∈ fields v → x ∈ fields w → v = w

variable {P V : Type} [DecidableEq P] [DecidableEq V] (layout : Layout P V)

/-- `live` are the pointers that are constructed, `taken` the objects that were taken over and have not
been released since. -/
structure State (P V : Type) where
  live : List P
  next : P → P
  value : P → Option V
  taken : List V
  deleted : List V

namespace State

def delete (s : State P V) : Option V → State P V
  | none => s
  | some v => { s with deleted := v :: s.deleted }

def joinNew (s : State P V) (p : P) : State P V :=
  { s with next := Function.update s.next p p }

/-- `linked_ptr_internal::join`. The fuel of the loop is the number of pointers. -/
def join (s : State P V) (p q : P) : Option (State P V) :=
  (nodeBefore s.next q s.live.length q).map fun last =>
    { s with next := Function.update (Function.update s.next last p) p q }

def linkDepart (s : State P V) (p : P) : Option (State P V × Bool) :=
  if s.next p = p then some (s, true)
  else
    (nodeBefore s.next p s.live.length (s.next p)).map fun last =>
      ({ s with next := Function.update s.next last (s.next p) }, false)

/-- `link_.depart()`, and which object is deleted then. -/
def leave (s : State P V) (p : P) : Option (State P V × Option V) :=
  (s.linkDepart p).map fun (after, last) =>
    if last then (after.delete (after.value p), after.value p) else (after, none)

/-- The destructors of pointers, each with those of the members of what it deletes. -/
def destroyAll : Nat → State P V → List P → Option (State P V)
  | _, s, [] => some s
  | 0, _, _ :: _ => none
  | fuel + 1, s, p :: rest =>
      if p ∈ s.live then
        (s.leave p).bind fun (after, gone) =>
          destroyAll fuel { after with live := after.live.erase p }
            (gone.toList.flatMap layout.fields ++ rest)
      else none

def depart (s : State P V) (p : P) : Option (State P V) :=
  (s.leave p).bind fun (after, gone) =>
    after.destroyAll layout after.live.length (gone.toList.flatMap layout.fields)

def capture (s : State P V) (p : P) (v : Option V) : State P V :=
  { s with value := Function.update s.value p v, taken := v.toList ++ s.taken }.joinNew p

def copy (s : State P V) (p q : P) : Option (State P V) :=
  let s := { s with value := Function.update s.value p (s.value q) }
  if (s.value p).isSome then s.join p q else some (s.joinNew p)

end State

inductive Action (P V : Type)
  | construct (p : P) (v : Option V)
  | copyConstruct (p q : P)
  | assign (p q : P)
  | reset (p : P) (v : Option V)
  | release (p : P)
  | destroy (p : P)

def step (s : State P V) : Action P V → Option (State P V)
  | .construct p v => some ({ s with live := p :: s.live }.capture p v)
  | .copyConstruct p q => { s with live := p :: s.live }.copy p q
  | .assign p q =>
      if q = p then some s
      else
        (s.depart layout p).bind fun after =>
          if p ∈ after.live ∧ q ∈ after.live then after.copy p q else none
  | .reset p v =>
      (s.depart layout p).bind fun after => if p ∈ after.live then some (after.capture p v) else none
  | .release p =>
      (s.linkDepart p).map fun (after, _) =>
        { after with
          value := Function.update after.value p none
          taken := after.taken.filter fun v => after.value p ≠ some v }
  | .destroy p => s.destroyAll layout s.live.length [p]

/-- The pointer is a member of the object, or of one that the object's members lead to. -/
inductive Inside (value : P → Option V) : V → P → Prop
  | member {v : V} {x : P} : x ∈ layout.fields v → Inside value v x
  | beyond {v w : V} {x y : P} : y ∈ layout.fields v → value y = some w → Inside value w x →
      Inside value v x

namespace State
variable (s : State P V)

def Fresh (v : Option V) : Prop :=
  ∀ o ∈ v, o ∉ s.taken ∧ o ∉ s.deleted ∧ ∀ x ∈ layout.fields o, x ∈ s.live

def Sole (p : P) : Prop := ∀ q ∈ s.live, q ≠ p → ∀ o ∈ s.value q, s.value p ≠ some o

/-- If `p` gives up an object that nothing else holds, then what is deleted does not contain `x`. -/
def Spares (p x : P) : Prop := s.Sole p → ∀ v ∈ s.value p, ¬ Inside layout s.value v x

end State

/-- What the class asks of its users: a raw pointer is handed over once, and released by the one
pointer that holds it. Members are destroyed with their object, and no call works on a pointer that it
destroys. -/
def permitted (s : State P V) : Action P V → Prop
  | .construct p v => p ∉ s.live ∧ s.Fresh layout v
  | .copyConstruct p q => p ∉ s.live ∧ q ∈ s.live
  | .assign p q =>
      p ∈ s.live ∧ q ∈ s.live ∧ (q ≠ p → s.Spares layout p p ∧ s.Spares layout p q)
  | .reset p v => p ∈ s.live ∧ s.Fresh layout v ∧ s.Spares layout p p
  | .release p => p ∈ s.live ∧ s.Sole p
  | .destroy p => p ∈ s.live ∧ ∀ v ∈ s.taken, v ∉ s.deleted → p ∉ layout.fields v

def init (next : P → P) (value : P → Option V) : State P V := ⟨[], next, value, [], []⟩

end ThreadIpc.LinkedPtr
