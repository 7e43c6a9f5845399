import ThreadIpc.Lib.Reachability

/-!
# `CompareAndSwap` and `LazySingleton`

Any number of threads call `GetInstance`. Every read of `me_` in the source, both ends of the
constructor of `Ty_` and each `CompareAndSwap` is a step of its own, so that each falls at one
moment. A failed assertion is recorded and the run goes on, as in a build without assertions.
-/

namespace ThreadIpc.AtomicOps

/-- The result, which is what `*ptr` held before in any case, and what `*ptr` holds afterwards. -/
def compareAndSwap {W : Type} [DecidableEq W] (content oldValue newValue : W) : W × W :=
  (content, if content = oldValue then newValue else content)

section
variable {W : Type} [DecidableEq W] {content oldValue newValue : W}

@[simp] theorem compareAndSwap_result : (compareAndSwap content oldValue newValue).1 = content := rfl

theorem compareAndSwap_found (found : content = oldValue) :
    (compareAndSwap content oldValue newValue).2 = newValue :=
  if_pos found

theorem compareAndSwap_missed (missed : content ≠ oldValue) :
    (compareAndSwap content oldValue newValue).2 = content :=
  if_neg missed

end

/-- What `me_` holds: `NULL`, -1, or the address of an object. Objects are numbered as their
construction begins. -/
inductive Word
  | null
  | busy
  | object (number : Nat)
  deriving DecidableEq, Repr

inductive Phase
  | outside
  | testNull
  | testBusy
  | claim
  /-- the `if`, with the local `result`, which nothing reads -/
  | testWord (result : Word)
  | construct (number : Nat)
  | publish (number : Nat)
  | assertPublished (number : Nat)
  | readInstance
  deriving DecidableEq, Repr

structure Returned (T : Type) where
  thread : T
  instance_ : Word
  constructed : Bool
  deriving DecidableEq, Repr

structure State (T : Type) where
  me_ : Word
  phase : T → Phase
  allocated : Nat
  constructed : List Nat
  returned : List (Returned T)
  assertFailed : Bool

variable {T : Type}

def State.init : State T where
  me_ := .null
  phase := fun _ => .outside
  allocated := 0
  constructed := []
  returned := []
  assertFailed := false

namespace State
variable (state : State T)

def isConstructed : Word → Bool
  | .object number => state.constructed.contains number
  | .null | .busy => false

variable [DecidableEq T]

def move (thread : T) (phase : Phase) : State T :=
  { state with phase := Function.update state.phase thread phase }

def claim (thread : T) : State T :=
  { state.move thread (.testWord (compareAndSwap state.me_ .null .busy).1) with
    me_ := (compareAndSwap state.me_ .null .busy).2 }

def testWord (thread : T) : State T :=
  if state.me_ = .busy then
    { state.move thread (.construct state.allocated) with allocated := state.allocated + 1 }
  else state.move thread .testNull

def construct (thread : T) (number : Nat) : State T :=
  { state.move thread (.publish number) with constructed := number :: state.constructed }

def publish (thread : T) (number : Nat) : State T :=
  { state.move thread (.assertPublished number) with
    me_ := (compareAndSwap state.me_ .busy (.object number)).2 }

def assertPublished (thread : T) (number : Nat) : State T :=
  { state.move thread .testNull with
    assertFailed := state.assertFailed || state.me_ ≠ .object number }

def readInstance (thread : T) : State T :=
  { state.move thread .outside with
    returned := state.returned ++ [⟨thread, state.me_, state.isConstructed state.me_⟩] }

def advance (thread : T) : State T :=
  match state.phase thread with
  | .outside => state.move thread .testNull
  | .testNull => state.move thread (if state.me_ = .null then .claim else .testBusy)
  | .testBusy => state.move thread (if state.me_ = .busy then .claim else .readInstance)
  | .claim => state.claim thread
  | .testWord _ => state.testWord thread
  | .construct number => state.construct thread number
  | .publish number => state.publish thread number
  | .assertPublished number => state.assertPublished thread number
  | .readInstance => state.readInstance thread

end State

def step [DecidableEq T] (state : State T) (thread : T) : Option (State T) :=
  some (state.advance thread)

structure ConstructsOnce (state : State T) : Prop where
  allocated : state.allocated ≤ 1
  returned : ∀ call ∈ state.returned,
    state.allocated = 1 ∧ call.instance_ = .object 0 ∧ call.constructed = true
  assertFailed : state.assertFailed = false

/-- The `if` finds -1 only in the thread whose own `CompareAndSwap` has put it there. -/
def Allowed (state : State T) (thread : T) : Prop :=
  match state.phase thread with
  | .testWord result => result = .null ∨ state.me_ ≠ .busy
  | _ => True

instance (state : State T) (thread : T) : Decidable (Allowed state thread) :=
  match phase : state.phase thread with
  | .testWord result => decidable_of_iff (result = .null ∨ state.me_ ≠ .busy) (by simp [Allowed, phase])
  | .outside | .testNull | .testBusy | .claim | .construct _ | .publish _ | .assertPublished _
  | .readInstance => .isTrue (by simp [Allowed, phase])

end ThreadIpc.AtomicOps
