import ThreadIpc.Lib.OrderedMap
import ThreadIpc.Lib.Reachability
import Mathlib.Data.String.Basic

/-!
# `MessageService`

What runs under `observer_collections_mutex_` without sending is one step; a notifier keeps the
mutex while it sends one message to each thread in turn. Threads take messages from their queues in
the order in which these were sent. Collections and observer sets have addresses, since a delivery
compares the addresses it has seen after it has called an observer without the lock; a new one may
get the address of one that was deleted. Notifications of other processes arrive through
`HandleIpcMessage` and are posted in the same way.
-/

namespace ThreadIpc.MessageService
open Lib

variable {T O D : Type} [LinearOrder T] [LinearOrder O]

structure ThreadObservers (T O : Type) where
  thread : T
  address : Nat
  observers : List O
  deriving DecidableEq

structure ObserverCollection (T O : Type) where
  topic : String
  address : Nat
  observerSets : List (ThreadObservers T O)
  deriving DecidableEq

abbrev TopicObserverMap (T O : Type) := List (ObserverCollection T O)

def getTopicObserverCollection (collections : TopicObserverMap T O) (topic : String) :
    Option (ObserverCollection T O) :=
  OrderedMap.find (·.topic) topic collections

def ObserverCollection.getThreadObserverSet (collection : ObserverCollection T O) (thread : T) :
    Option (ThreadObservers T O) :=
  OrderedMap.find (·.thread) thread collection.observerSets

/-- A collection and a set that do not exist yet are allocated at the given addresses. -/
def addObserver (collectionAddress setAddress : Nat) (thread : T) (observer : O) (topic : String)
    (collections : TopicObserverMap T O) : TopicObserverMap T O × Bool :=
  if topic = "" then (collections, false)
  else
    let collection := (getTopicObserverCollection collections topic).getD
      ⟨topic, collectionAddress, []⟩
    let set := (collection.getThreadObserverSet thread).getD ⟨thread, setAddress, []⟩
    if observer ∈ set.observers then (collections, false)
    else
      let set := { set with observers := OrderedMap.put id observer set.observers }
      let collection :=
        { collection with observerSets := OrderedMap.put (·.thread) set collection.observerSets }
      (OrderedMap.put (·.topic) collection collections, true)

def ObserverCollection.remove (collection : ObserverCollection T O) (thread : T) (observer : O) :
    Option (ObserverCollection T O) :=
  match collection.getThreadObserverSet thread with
  | none => none
  | some set =>
      if observer ∈ set.observers then
        let set := { set with observers := OrderedMap.erase id observer set.observers }
        some { collection with
          observerSets := if set.observers = [] then
              OrderedMap.erase (·.thread) thread collection.observerSets
            else OrderedMap.put (·.thread) set collection.observerSets }
      else none

def removeObserver (thread : T) (observer : O) (topic : String)
    (collections : TopicObserverMap T O) : TopicObserverMap T O × Bool :=
  if topic = "" then (collections, false)
  else match getTopicObserverCollection collections topic with
    | none => (collections, false)
    | some collection => match collection.remove thread observer with
        | none => (collections, false)
        | some collection =>
            if collection.observerSets = [] then
              (OrderedMap.erase (·.topic) topic collections, true)
            else (OrderedMap.put (·.topic) collection collections, true)

def ObserverCollection.removeObserversForThread (thread : T)
    (collection : ObserverCollection T O) : ObserverCollection T O :=
  { collection with observerSets := OrderedMap.erase (·.thread) thread collection.observerSets }

def removeObserversForThread (thread : T) (collections : TopicObserverMap T O) :
    TopicObserverMap T O :=
  (collections.map (ObserverCollection.removeObserversForThread thread)).filter
    fun collection => collection.observerSets ≠ []

structure Notification (D : Type) where
  topic : String
  data : D
  isLocal : Bool
  deriving DecidableEq

/-- A call of `OnNotify`, and what is left of the copied set behind it. -/
structure Delivery (O D : Type) where
  notification : Notification D
  collectionAddress : Nat
  setAddress : Nat
  observer : O
  rest : List O
  deriving DecidableEq

inductive Handling (O D : Type)
  | idle
  | taken (notification : Notification D)
  | notifying (delivery : Delivery O D)
  deriving DecidableEq

structure Received (T O D : Type) where
  thread : T
  observer : O
  notification : Notification D
  deriving DecidableEq

structure State (T O D : Type) where
  collections : TopicObserverMap T O
  queue : T → List (Notification D)
  handling : T → Handling O D
  posting : Option (T × Notification D × List T)
  posted : List (Notification D)
  received : List (Received T O D)

/-- From one call of an observer to the next: the loop of `ProcessThreadNotification`. -/
def nextObserver (collections : TopicObserverMap T O) (thread : T) (notification : Notification D)
    (collectionAddress setAddress : Nat) : List O → Handling O D
  | [] => .idle
  | observer :: rest => match getTopicObserverCollection collections notification.topic with
      | none => .idle
      | some collection =>
          if collection.address ≠ collectionAddress then .idle
          else match collection.getThreadObserverSet thread with
            | none => .idle
            | some set =>
                if set.address ≠ setAddress then .idle
                else if observer ∈ set.observers then
                  .notifying ⟨notification, collectionAddress, setAddress, observer, rest⟩
                else nextObserver collections thread notification collectionAddress setAddress rest

def handleThreadMessage (collections : TopicObserverMap T O) (thread : T)
    (notification : Notification D) : Handling O D :=
  match getTopicObserverCollection collections notification.topic with
  | none => .idle
  | some collection => match collection.getThreadObserverSet thread with
      | none => .idle
      | some set => nextObserver collections thread notification collection.address set.address
          set.observers

def Handling.received (thread : T) : Handling O D → List (Received T O D)
  | .notifying delivery => [⟨thread, delivery.observer, delivery.notification⟩]
  | .idle | .taken _ => []

def State.handle (state : State T O D) (thread : T) (handling : Handling O D) : State T O D :=
  { state with
    handling := Function.update state.handling thread handling
    received := state.received ++ handling.received thread }

inductive Action (O D : Type)
  | addObserver (observer : O) (topic : String) (collectionAddress setAddress : Nat)
  | removeObserver (observer : O) (topic : String)
  | removeObserversForThread
  | notifyObservers (notification : Notification D)
  | send
  | takeMessage
  | handleThreadMessage
  | onNotifyReturns
  deriving DecidableEq

def State.runsUserCode (state : State T O D) (thread : T) : Bool :=
  match state.handling thread with
  | .idle | .notifying _ => true
  | .taken _ => false

def step (state : State T O D) : T × Action O D → Option (State T O D)
  | (_, .send) => match state.posting with
      | none => none
      | some (_, _, []) => some { state with posting := none }
      | some (notifier, notification, target :: targets) => some { state with
          queue := Function.update state.queue target (state.queue target ++ [notification])
          posting := some (notifier, notification, targets) }
  | (thread, .takeMessage) => match state.handling thread, state.queue thread with
      | .idle, notification :: later =>
          -- a notifier does not look at its queue before it has posted to everybody
          if state.posting.any fun (notifier, _) => notifier = thread then none
          else some { state with
            queue := Function.update state.queue thread later
            handling := Function.update state.handling thread (.taken notification) }
      | _, _ => none
  | (thread, action) =>
      if state.posting ≠ none then none
      else match action, state.handling thread with
        | .handleThreadMessage, .taken notification =>
            some (state.handle thread
              (handleThreadMessage state.collections thread notification))
        | .onNotifyReturns, .notifying delivery =>
            some (state.handle thread (nextObserver state.collections thread
              delivery.notification delivery.collectionAddress delivery.setAddress delivery.rest))
        | .addObserver observer topic collectionAddress setAddress, _ =>
            if state.runsUserCode thread then some { state with
              collections := (addObserver collectionAddress setAddress thread observer topic
                state.collections).1 }
            else none
        | .removeObserver observer topic, _ =>
            if state.runsUserCode thread then some { state with
              collections := (removeObserver thread observer topic state.collections).1 }
            else none
        | .removeObserversForThread, _ =>
            some { state with
              collections := removeObserversForThread thread state.collections }
        | .notifyObservers notification, _ =>
            if state.runsUserCode thread then
              match getTopicObserverCollection state.collections notification.topic with
              | none => some state
              | some collection => some { state with
                  posting := some (thread, notification, collection.observerSets.map (·.thread))
                  posted := state.posted ++ [notification] }
            else none
        | _, _ => none

def seenBy (received : List (Received T O D)) (topic : String) (thread : T)
    (observer : O) : List (Notification D) :=
  (received.filter fun received => received.thread = thread ∧ received.observer = observer ∧
    received.notification.topic = topic).map (·.notification)

def Handling.inHand (topic : String) (observer : O) :
    Handling O D → List (Notification D)
  | .idle => []
  | .taken notification => if notification.topic = topic then [notification] else []
  | .notifying delivery =>
      if delivery.notification.topic = topic ∧ observer ∈ delivery.rest
        then [delivery.notification] else []

namespace State
variable (state : State T O D) (topic : String) (thread : T)

def postedOn : List (Notification D) :=
  state.posted.filter fun notification => notification.topic = topic

def queuedFor : List (Notification D) :=
  (state.queue thread).filter fun notification => notification.topic = topic

def beingPosted : List (Notification D) :=
  match state.posting with
  | some (_, notification, targets) =>
      if notification.topic = topic ∧ thread ∈ targets then [notification] else []
  | none => []

variable (observer : O)

def receivedBy : List (Notification D) := seenBy state.received topic thread observer

def inHand : List (Notification D) := (state.handling thread).inHand topic observer

def Drained : Prop :=
  state.queue thread = [] ∧ state.handling thread = .idle ∧
    ∀ notifier notification targets, state.posting = some (notifier, notification, targets) →
      thread ∉ targets

end State

end ThreadIpc.MessageService
