import Mathlib.Logic.Function.Basic
import ThreadIpc.ThreadMessageWindow.Model

/-!
# `Win32ThreadMessageQueue`

Windows are numbered as they are created. `InitThreadMessageQueue` creates a window before it takes
`thread_map_mutex_`, and `ThreadEndHook` destroys it after it has let go of the mutex: other threads send
in between. A thread ends outside of all handlers, and its id may be used again.
-/

namespace ThreadIpc.Win32ThreadMessageQueue

open ThreadMessageWindow (MessageEvent)

inductive Phase
  | idle
  | registering
  | ending
  deriving DecidableEq

/-- `tls` is the window in the `TlsData` of a thread. `broken` is set when an assertion fails or a window
that is no longer there is used. -/
structure State (T D : Type) where
  created : Nat
  window : Nat → ThreadMessageWindow.State D
  alive : Nat → Bool
  tls : T → Option Nat
  threadMap : Option (T → Option Nat)
  phase : T → Phase
  broken : Bool

inductive Action (T D : Type)
  | initThreadMessageQueue (t : T)
  | register (t : T)
  | send (t : T) (messageType : Int) (messageData : D)
  | takeMessage (t : T)
  | advance (t : T)
  | threadEnd (t : T)
  | deleteData (t : T)

variable {T D : Type} [DecidableEq T]

namespace State
variable (s : State T D)

def init : State T D where
  created := 0
  window _ := .init
  alive _ := false
  tls _ := none
  threadMap := none
  phase _ := .idle
  broken := false

def find (t : T) : Option Nat := s.threadMap.bind fun map => map t

def initThreadMessageQueue (t : T) : State T D :=
  match s.tls t with
  | some _ => s
  | none =>
      { s with
        created := s.created + 1
        alive := Function.update s.alive s.created true
        tls := Function.update s.tls t (some s.created)
        phase := Function.update s.phase t .registering }

def register (t : T) : State T D :=
  { s with
    threadMap := some (Function.update (s.threadMap.getD fun _ => none) t (s.tls t))
    phase := Function.update s.phase t .idle }

def setWindow (w : Nat) (window : ThreadMessageWindow.State D) : State T D :=
  { s with window := Function.update s.window w window }

def send (t : T) (messageType : Int) (messageData : D) : Bool × State T D :=
  match s.find t with
  | none => (false, s)
  | some w =>
      let s := { s with broken := s.broken || !s.alive w }
      (true, s.setWindow w ((s.window w).postThreadMessage messageType messageData))

def own (t : T) (f : ThreadMessageWindow.State D → Option (ThreadMessageWindow.State D)) :
    Option (State T D) :=
  (s.tls t).bind fun w => (f (s.window w)).map (s.setWindow w)

/-- `ThreadEndHook`, as far as it holds the mutex. -/
def threadEnd (t : T) : State T D :=
  match s.tls t with
  | none => s
  | some _ =>
      { s with
        threadMap := s.threadMap.map fun map => Function.update map t none
        phase := Function.update s.phase t .ending
        broken := s.broken || s.threadMap.isNone }

def deleteData (t : T) : Option (State T D) :=
  (s.tls t).map fun w =>
    { s with
      alive := Function.update s.alive w false
      tls := Function.update s.tls t none
      phase := Function.update s.phase t .idle
      broken := s.broken || !s.alive w }

end State

def step (s : State T D) : Action T D → Option (State T D)
  | .initThreadMessageQueue t => some (s.initThreadMessageQueue t)
  | .register t => some (s.register t)
  | .send t messageType messageData => some (s.send t messageType messageData).2
  | .takeMessage t => s.own t ThreadMessageWindow.State.takeMessage
  | .advance t => s.own t ThreadMessageWindow.State.advance
  | .threadEnd t => some (s.threadEnd t)
  | .deleteData t => s.deleteData t

/-- A thread is at one place of its code. -/
def permitted (s : State T D) : Action T D → Prop
  | .initThreadMessageQueue t | .takeMessage t | .advance t => s.phase t = .idle
  | .register t => s.phase t = .registering
  | .send _ _ _ => True
  | .threadEnd t => s.phase t = .idle ∧ ∀ w ∈ s.tls t, (s.window w).stack = []
  | .deleteData t => s.phase t = .ending

instance [DecidableEq D] (s : State T D) (action : Action T D) : Decidable (permitted s action) :=
  match action with
  | .initThreadMessageQueue t | .takeMessage t | .advance t =>
      inferInstanceAs (Decidable (s.phase t = .idle))
  | .register t => inferInstanceAs (Decidable (s.phase t = .registering))
  | .send _ _ _ => inferInstanceAs (Decidable True)
  | .threadEnd t =>
      inferInstanceAs (Decidable (s.phase t = .idle ∧ ∀ w ∈ s.tls t, (s.window w).stack = []))
  | .deleteData t => inferInstanceAs (Decidable (s.phase t = .ending))

end ThreadIpc.Win32ThreadMessageQueue
