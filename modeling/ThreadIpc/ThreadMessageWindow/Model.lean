import ThreadIpc.Lib.Reachability

/-!
# `ThreadMessageWindow`

The events of one thread, its window messages and the calls of `OnThreadMessage` on its stack. All
of `PostThreadMessage` is under `events_mutex_`, and so is the swap of `OnThreadMessage`: each is one
step. A handler may run a message loop, which takes window messages and so calls `OnThreadMessage`
again; it may also post. `PostMessage` never fails. A failed assertion is recorded and the run goes
on. Events are numbered as they are posted.
-/

namespace ThreadIpc.ThreadMessageWindow

variable {D : Type}

structure MessageEvent (D : Type) where
  messageType : Int
  messageData : D
  number : Nat
  deriving DecidableEq, Repr

/-- A call of `OnThreadMessage` on the stack of the owner. -/
inductive Frame (D : Type)
  | entered
  | loop (localEvents : List (MessageEvent D))
  /-- in the handler of `front`, which is popped when it returns -/
  | handler (front : MessageEvent D) (rest : List (MessageEvent D))
  deriving DecidableEq, Repr

structure State (D : Type) where
  events_ : List (MessageEvent D)
  posted : Nat
  stack : List (Frame D)
  sent : List (MessageEvent D)
  dispatched : List (MessageEvent D)
  assertFailed : Bool

inductive Action (D : Type)
  | postThreadMessage (messageType : Int) (messageData : D)
  | takeMessage
  | advance
  deriving DecidableEq, Repr

def State.init : State D where
  events_ := []
  posted := 0
  stack := []
  sent := []
  dispatched := []
  assertFailed := false

def State.inMessageLoop (state : State D) : Bool :=
  match state.stack with
  | [] | .handler _ _ :: _ => true
  | .entered :: _ | .loop _ :: _ => false

def State.postThreadMessage (state : State D) (messageType : Int) (messageData : D) : State D :=
  let event := ⟨messageType, messageData, state.sent.length⟩
  let events := state.events_ ++ [event]
  { state with
    events_ := events
    posted := if events.length = 1 then state.posted + 1 else state.posted
    sent := state.sent ++ [event] }

def State.takeMessage (state : State D) : Option (State D) :=
  if state.inMessageLoop && 0 < state.posted then
    some { state with posted := state.posted - 1, stack := .entered :: state.stack }
  else none

def State.swap (state : State D) (outer : List (Frame D)) : State D :=
  { state with
    events_ := []
    stack := .loop state.events_ :: outer
    assertFailed := state.assertFailed || state.events_.isEmpty }

def State.advance (state : State D) : Option (State D) :=
  match state.stack with
  | [] => none
  | .entered :: outer => some (state.swap outer)
  | .loop [] :: outer => some { state with stack := outer }
  | .loop (front :: rest) :: outer =>
      some { state with
        stack := .handler front rest :: outer
        dispatched := state.dispatched ++ [front] }
  | .handler _ rest :: outer => some { state with stack := .loop rest :: outer }

def step (state : State D) : Action D → Option (State D)
  | .postThreadMessage messageType messageData => some (state.postThreadMessage messageType messageData)
  | .takeMessage => state.takeMessage
  | .advance => state.advance

abbrev Reached (state : State D) : Prop :=
  Lib.Reachable step Lib.anyAction .init state

def Frame.isEntered : Frame D → Bool
  | .entered => true
  | .loop _ | .handler _ _ => false

def State.outstanding (state : State D) : Nat :=
  state.posted + state.stack.countP Frame.isEntered

structure Delivers (state : State D) : Prop where
  outstanding : state.outstanding = if state.events_ = [] then 0 else 1
  assertFailed : state.assertFailed = false
  once : state.dispatched ⊆ state.sent ∧ (state.dispatched.map MessageEvent.number).Nodup
  all : state.outstanding = 0 → state.stack = [] → state.dispatched.Perm state.sent

end ThreadIpc.ThreadMessageWindow
