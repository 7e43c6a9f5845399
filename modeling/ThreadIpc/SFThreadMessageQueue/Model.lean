import ThreadIpc.Lib.Reachability

/-!
# `SFThreadMessageQueue`

A Mach message tells a thread that there are events for it. The port of a thread holds `limit` Mach
messages at most. All of `Send` is under `message_ports_mutex_`, and so is the swap of `OnThreadMessage`.
A handler may run the run loop again. A thread ends when its stack is empty, and its id may be used again.
-/

namespace ThreadIpc.SFThreadMessageQueue

structure MessageEvent (D : Type) where
  messageType : Int
  messageData : D
  number : Nat
  deriving DecidableEq

/-- A call of `OnThreadMessage`: before the swap, at the test of the loop, or in the handler of an event
that is no longer in the list. -/
inductive Frame (D : Type)
  | entered
  | loop (localEvents : List (MessageEvent D))
  | handler (localEvents : List (MessageEvent D))
  deriving DecidableEq

structure ThreadMessagePort (D : Type) where
  queued : Nat
  events : List (MessageEvent D)

inductive MachMsgReturn
  | success
  | sendTimedOut
  | failed
  deriving DecidableEq

inductive Fate
  | dispatched
  | dropped
  deriving DecidableEq

structure Thread (D : Type) where
  port : Option (ThreadMessagePort D)
  hooked : Bool
  stack : List (Frame D)
  accepted : List (MessageEvent D)
  settled : List (MessageEvent D × Fate)
  nested : Bool

structure State (T D : Type) where
  messagePorts : Bool
  threads : T → Thread D

inductive Action (T D : Type)
  | initThreadMessageQueue (t : T) (created : Bool)
  | send (t : T) (messageType : Int) (messageData : D) (ret : MachMsgReturn)
  | receive (t : T)
  | advance (t : T)
  | threadEnd (t : T)

namespace Thread
variable {D : Type} (thread : Thread D)

def init : Thread D := ⟨none, false, [], [], [], false⟩

def initThreadMessageQueue (created : Bool) : Thread D :=
  match thread.port with
  | some _ => thread
  | none => if created then { thread with port := some ⟨0, []⟩, hooked := true } else thread

def send (messageType : Int) (messageData : D) (ret : MachMsgReturn) : Bool × Thread D :=
  match thread.port with
  | none => (false, thread)
  | some port =>
      let event := ⟨messageType, messageData, thread.accepted.length⟩
      let events := port.events ++ [event]
      match ret with
      | .success =>
          (true, { thread with
            port := some ⟨port.queued + 1, events⟩
            accepted := thread.accepted ++ [event] })
      | .sendTimedOut =>
          (true, { thread with
            port := some ⟨port.queued, events⟩
            accepted := thread.accepted ++ [event] })
      | .failed => (false, { thread with port := some ⟨port.queued, events.dropLast⟩ })

def inRunLoop : Bool :=
  match thread.stack with
  | [] | .handler _ :: _ => true
  | .entered :: _ | .loop _ :: _ => false

def receive : Option (Thread D) :=
  match thread.port with
  | none => none
  | some port =>
      if thread.inRunLoop && 0 < port.queued then
        some { thread with
          port := some { port with queued := port.queued - 1 }
          stack := .entered :: thread.stack
          nested := thread.nested || !thread.stack.isEmpty }
      else none

def advance : Option (Thread D) :=
  match thread.stack with
  | [] => none
  | .entered :: outer =>
      match thread.port with
      | none => some { thread with stack := outer }
      | some port =>
          some { thread with
            port := some { port with events := [] }
            stack := .loop port.events :: outer }
  | .loop [] :: outer => some { thread with stack := outer }
  | .loop (event :: rest) :: outer =>
      some { thread with
        stack := .handler rest :: outer
        settled := thread.settled ++ [(event, .dispatched)] }
  | .handler rest :: outer => some { thread with stack := .loop rest :: outer }

def threadEnd : Thread D :=
  if thread.hooked then
    { thread with
      port := none
      hooked := false
      settled := thread.settled ++
        (thread.port.elim [] ThreadMessagePort.events).map fun event => (event, .dropped) }
  else thread

/-- What the environment guarantees. A full port is what `mach_msg` times out on. -/
def allows (limit : Nat) : MachMsgReturn → Prop
  | .success => ∀ port ∈ thread.port, port.queued < limit
  | .sendTimedOut => ∀ port ∈ thread.port, limit ≤ port.queued
  | .failed => True

end Thread

section Steps
variable {T D : Type} [DecidableEq T]

def State.init : State T D := ⟨false, fun _ => .init⟩

def State.set (s : State T D) (t : T) (thread : Thread D) : State T D :=
  { s with threads := Function.update s.threads t thread }

def State.send (s : State T D) (t : T) (messageType : Int) (messageData : D) (ret : MachMsgReturn) :
    Bool × State T D :=
  if s.messagePorts then
    let (sent, thread) := (s.threads t).send messageType messageData ret
    (sent, s.set t thread)
  else (false, s)

def step (s : State T D) : Action T D → Option (State T D)
  | .initThreadMessageQueue t created =>
      some ({ s with messagePorts := true }.set t ((s.threads t).initThreadMessageQueue created))
  | .send t messageType messageData ret => some (s.send t messageType messageData ret).2
  | .receive t => (s.threads t).receive.map (s.set t)
  | .advance t => (s.threads t).advance.map (s.set t)
  | .threadEnd t => some (s.set t (s.threads t).threadEnd)

def permitted (limit : Nat) (s : State T D) : Action T D → Prop
  | .send t _ _ ret => (s.threads t).allows limit ret
  | .threadEnd t => (s.threads t).stack = []
  | _ => True

instance (thread : Thread D) (limit : Nat) (ret : MachMsgReturn) : Decidable (thread.allows limit ret) :=
  match ret with
  | .success => inferInstanceAs (Decidable (∀ port ∈ thread.port, port.queued < limit))
  | .sendTimedOut => inferInstanceAs (Decidable (∀ port ∈ thread.port, limit ≤ port.queued))
  | .failed => inferInstanceAs (Decidable True)

instance [DecidableEq D] (limit : Nat) (s : State T D) (action : Action T D) :
    Decidable (permitted limit s action) :=
  match action with
  | .send t _ _ ret => inferInstanceAs (Decidable ((s.threads t).allows limit ret))
  | .threadEnd t => inferInstanceAs (Decidable ((s.threads t).stack = []))
  | .initThreadMessageQueue _ _ | .receive _ | .advance _ => inferInstanceAs (Decidable True)

end Steps

def Frame.remaining {D : Type} : Frame D → List (MessageEvent D)
  | .entered => []
  | .loop localEvents | .handler localEvents => localEvents

namespace Thread
variable {D : Type} (thread : Thread D)

def events : List (MessageEvent D) := thread.port.elim [] ThreadMessagePort.events

def waiting : List (MessageEvent D) := thread.stack.flatMap Frame.remaining ++ thread.events

structure Delivers : Prop where
  woken : ∀ port ∈ thread.port, port.events ≠ [] → 0 < port.queued ∨ .entered ∈ thread.stack
  /-- Nothing is lost, and what `Send` returned false for is not delivered. -/
  conserved : (thread.settled.map Prod.fst ++ thread.waiting).Perm thread.accepted
  once : (thread.settled.map fun event => event.1.number).Nodup
  inOrder : thread.nested = false → thread.settled.map Prod.fst ++ thread.waiting = thread.accepted
  released : thread.port.isSome = thread.hooked

end Thread

end ThreadIpc.SFThreadMessageQueue
