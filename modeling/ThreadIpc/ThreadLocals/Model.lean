import ThreadIpc.Lib.Reachability
import Mathlib.Data.List.Basic

/-!
# `ThreadLocals` of one thread

The locals of a thread from its start to its end. A destructor is user code: while it runs, the
thread may call `SetValue` and `DestroyValue` again, to any depth, so the calls that are open form a
stack. Arrays of entries are numbered as `new Entry[kMaxSlots]` makes them. On Windows the array
stays reachable while `DestroyEntries` runs; pthread (and NSPR) set the key to NULL before they
call the key's destructor, and call it again, a bounded number of times, while the key is set again.
Values are counted as they are stored, so that one pointer stored twice is two values.
-/

namespace ThreadIpc.ThreadLocals

def kMaxSlots : Nat := 64

inductive Platform
  | win32
  | posix (destructorIterations : Nat)
  deriving DecidableEq, Repr

/-- A value (`none` is NULL) with its destructor, as `SetValue` stored them. -/
structure Stored (V D : Type) where
  value : Option V
  destructor : Option D
  deriving DecidableEq, Repr

structure Entry (V D : Type) where
  stored : Stored V D
  valid : Bool
  /-- How many values had been stored before this one. -/
  number : Nat
  deriving DecidableEq, Repr

inductive Frame (V D : Type)
  /-- `DestroyValue`, in the destructor -/
  | destroyValue (array slot : Nat)
  /-- `SetValue`, behind its call of `DestroyValue` -/
  | setValue (slot : Nat) (stored : Stored V D)
  /-- `DestroyEntries` at slot `i`: in its destructor, or about to look at it -/
  | destroyEntries (array i : Nat) (inDestructor : Bool)
  deriving DecidableEq, Repr

structure State (V D : Type) where
  entries : Nat × Nat → Entry V D
  tls : Option Nat
  nextArray : Nat
  frames : List (Frame V D)
  passes : Nat
  gone : Bool
  stored : List (Stored V D)
  /-- The values whose destructor has been called, by number. -/
  destroyed : List Nat

inductive Action (V D : Type)
  | setValue (key : Int) (stored : Stored V D)
  | destroyValue (key : Int)
  | store
  | destructorReturns
  | exit
  | loop
  deriving DecidableEq, Repr

variable {V D : Type}

def Stored.none : Stored V D := ⟨Option.none, Option.none⟩

def Stored.isOwed (stored : Stored V D) : Bool :=
  stored.value.isSome && stored.destructor.isSome

def Entry.empty : Entry V D := ⟨.none, false, 0⟩

def Entry.isOwed (entry : Entry V D) : Bool :=
  entry.valid && entry.stored.isOwed

def Entry.hasDestructor (entry : Entry V D) : Bool :=
  entry.valid && entry.stored.destructor.isSome

def Entry.invalidate (entry : Entry V D) : Entry V D :=
  { entry with valid := false }

def inRange (key : Int) : Bool :=
  !(decide (key < 0) || decide (kMaxSlots ≤ key))

def Frame.isDestructor : Frame V D → Bool
  | .destroyValue _ _ | .destroyEntries _ _ true => true
  | .setValue _ _ | .destroyEntries _ _ false => false

def Frame.cell : Frame V D → Option (Nat × Nat)
  | .destroyValue array slot => some (array, slot)
  | .destroyEntries array i true => some (array, i)
  | .setValue _ _ | .destroyEntries _ _ false => none

def Platform.tlsAtExit (array : Nat) : Platform → Option Nat
  | .win32 => some array
  | .posix _ => none

namespace State

def init : State V D where
  entries := fun _ => .empty
  tls := none
  nextArray := 0
  frames := []
  passes := 0
  gone := false
  stored := []
  destroyed := []

variable (state : State V D)

def runsUserCode : Bool :=
  !state.gone && match state.frames with
    | [] => true
    | frame :: _ => frame.isDestructor

def getValue (key : Int) : Option V :=
  if inRange key then match state.tls with
    | some array =>
        let entry := state.entries (array, key.toNat)
        if entry.valid then entry.stored.value else none
    | none => none
  else none

def hasValue (key : Int) : Bool :=
  inRange key && match state.tls with
    | some array => (state.entries (array, key.toNat)).valid
    | none => false

def invalidate (cell : Nat × Nat) : State V D :=
  { state with entries := Function.update state.entries cell (state.entries cell).invalidate }

def callDestructor (cell : Nat × Nat) (frames : List (Frame V D)) : State V D :=
  { state with frames := frames, destroyed := state.destroyed ++ [(state.entries cell).number] }

def destroyValue (slot : Nat) : State V D :=
  match state.tls with
  | none => state
  | some array =>
      let entry := state.entries (array, slot)
      if entry.valid then
        if entry.stored.destructor.isSome then
          state.callDestructor (array, slot) (.destroyValue array slot :: state.frames)
        else state.invalidate (array, slot)
      else state

def setValue (slot : Nat) (stored : Stored V D) : State V D :=
  { state with frames := .setValue slot stored :: state.frames }.destroyValue slot

/-- `GetEntries(true)` -/
def getEntries : Nat × State V D :=
  match state.tls with
  | some array => (array, state)
  | none => (state.nextArray,
      { state with tls := some state.nextArray, nextArray := state.nextArray + 1 })

def store (slot : Nat) (stored : Stored V D) (outer : List (Frame V D)) : State V D :=
  let (array, state) := state.getEntries
  { state with
    entries := Function.update state.entries (array, slot) ⟨stored, true, state.stored.length⟩
    frames := outer
    stored := state.stored ++ [stored] }

def destroyEntries (platform : Platform) (array : Nat) : State V D :=
  { state with
    tls := platform.tlsAtExit array
    frames := [.destroyEntries array 0 false]
    passes := state.passes + 1 }

def exit (platform : Platform) : State V D :=
  match state.tls with
  | some array => state.destroyEntries platform array
  | none => { state with gone := true }

/-- `delete[] entries` -/
def deleteEntries (array : Nat) : State V D :=
  { state with entries := fun cell => if cell.1 = array then .empty else state.entries cell }

def entriesDestroyed (array : Nat) : Platform → State V D
  | .win32 => { state.deleteEntries array with tls := none, frames := [], gone := true }
  | .posix destructorIterations => match state.tls with
      | some again =>
          if state.passes < destructorIterations then
            (state.deleteEntries array).destroyEntries (.posix destructorIterations) again
          else { state.deleteEntries array with frames := [], gone := true }
      | none => { state.deleteEntries array with frames := [], gone := true }

def loop (platform : Platform) (array i : Nat) (outer : List (Frame V D)) : State V D :=
  if i < kMaxSlots then
    if (state.entries (array, i)).hasDestructor then
      state.callDestructor (array, i) (.destroyEntries array i true :: outer)
    else { state.invalidate (array, i) with frames := .destroyEntries array (i + 1) false :: outer }
  else state.entriesDestroyed array platform

def destructorReturns : Option (State V D) :=
  match state.frames with
  | .destroyValue array slot :: outer =>
      some { state.invalidate (array, slot) with frames := outer }
  | .destroyEntries array i true :: outer =>
      some { state.invalidate (array, i) with frames := .destroyEntries array (i + 1) false :: outer }
  | _ => none

end State

def step (platform : Platform) (state : State V D) : Action V D → Option (State V D)
  | .setValue key stored =>
      if state.runsUserCode then
        some (if inRange key then state.setValue key.toNat stored else state)
      else none
  | .destroyValue key =>
      if state.runsUserCode then
        some (if inRange key then state.destroyValue key.toNat else state)
      else none
  | .store => match state.frames with
      | .setValue slot stored :: outer => some (state.store slot stored outer)
      | _ => none
  | .destructorReturns => state.destructorReturns
  | .exit => if state.frames.isEmpty && !state.gone then some (state.exit platform) else none
  | .loop => match state.frames with
      | .destroyEntries array i false :: outer => some (state.loop platform array i outer)
      | _ => none

abbrev Reached (platform : Platform) (state : State V D) : Prop :=
  Lib.Reachable (step platform) Lib.anyAction .init state

/-- No destructor has been called twice on a non-NULL value, and none has been left out when the
locals are gone. -/
def DestroysExactlyOnce (state : State V D) : Prop :=
  ∀ number stored, state.stored[number]? = some stored → stored.isOwed = true →
    state.destroyed.count number ≤ 1 ∧ (state.gone = true → state.destroyed.count number = 1)

def State.isBeingDestroyed (state : State V D) (slot : Nat) : Bool :=
  match state.tls with
  | some array => (array, slot) ∈ state.frames.filterMap Frame.cell
  | none => false

def State.hasOwed (state : State V D) (array : Nat) : Bool :=
  (List.range kMaxSlots).any fun slot => (state.entries (array, slot)).isOwed

/-- The locals go now, with a value still in them: on Windows one in a slot that the loop has
passed, elsewhere one in the array that the last call of the key's destructor has left. -/
def State.leavesValues (platform : Platform) (state : State V D) : Bool :=
  match state.frames with
  | .destroyEntries array i false :: _ => decide (kMaxSlots ≤ i) && match platform with
      | .win32 => state.hasOwed array
      | .posix destructorIterations =>
          decide (destructorIterations ≤ state.passes) && state.tls.any state.hasOwed
  | _ => false

def destroysApart (platform : Platform) (state : State V D) : Action V D → Prop
  | .setValue key _ | .destroyValue key =>
      inRange key = true → state.isBeingDestroyed key.toNat = false
  | .loop => state.leavesValues platform = false
  | _ => True

instance (platform : Platform) (state : State V D) :
    (action : Action V D) → Decidable (destroysApart platform state action)
  | .setValue key _ =>
      inferInstanceAs (Decidable (inRange key = true → state.isBeingDestroyed key.toNat = false))
  | .destroyValue key =>
      inferInstanceAs (Decidable (inRange key = true → state.isBeingDestroyed key.toNat = false))
  | .store => inferInstanceAs (Decidable True)
  | .destructorReturns => inferInstanceAs (Decidable True)
  | .exit => inferInstanceAs (Decidable True)
  | .loop => inferInstanceAs (Decidable (state.leavesValues platform = false))

end ThreadIpc.ThreadLocals
