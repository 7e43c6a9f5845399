import ThreadIpc.MessageService.Operations
import ThreadIpc.MessageService.Order
import Mathlib.Data.List.Nodup

/-!
# A delivery while the registry changes

One thread handles notifications, one after another. Whenever it does not hold the lock, which is
before a notification is handled and while an observer is being called, any operations of any
threads come in between: those of the other threads, those of the observer that is being called, and
those of the observers that a message loop inside that call has called.
-/

namespace ThreadIpc.MessageService
open Lib

variable {T O D : Type} [LinearOrder T] [LinearOrder O]

structure Called (T O : Type) where
  observer : O
  collections : TopicObserverMap T O

structure Processing (T O D : Type) where
  collections : TopicObserverMap T O
  notification : Option (Notification D)
  handling : Handling O D
  calls : List (Called T O)
  history : List (TopicObserverMap T O)

namespace Processing

inductive Action (T O D : Type)
  | operate (user : T) (operation : Operation O)
  | take (notification : Notification D)
  | handleThreadMessage
  | onNotifyReturns

def init : Processing T O D where
  collections := []
  notification := none
  handling := .idle
  calls := []
  history := []

variable (state : Processing T O D)

def topic : String :=
  (state.notification.map (·.topic)).getD ""

def isHandling : Bool :=
  match state.handling with
  | .idle => false
  | .taken _ | .notifying _ => true

def called (collections : TopicObserverMap T O) : Handling O D → List (Called T O)
  | .notifying delivery => [⟨delivery.observer, collections⟩]
  | .idle | .taken _ => []

def goOn (handling : Handling O D) : Processing T O D :=
  { state with handling, calls := state.calls ++ called state.collections handling }

def operate (user : T) (operation : Operation O) : Processing T O D :=
  let collections := operation.apply user state.collections
  { state with
    collections
    history := if state.isHandling then state.history ++ [collections] else state.history }

def step (thread : T) (state : Processing T O D) : Action T O D → Option (Processing T O D)
  | .operate user operation => some (state.operate user operation)
  | .take notification => match state.handling with
      | .idle => some { state with
          notification := some notification
          handling := .taken notification
          calls := []
          history := [state.collections] }
      | _ => none
  | .handleThreadMessage => match state.handling with
      | .taken notification => some (state.goOn
          (MessageService.handleThreadMessage state.collections thread notification))
      | _ => none
  | .onNotifyReturns => match state.handling with
      | .notifying delivery => some (state.goOn (nextObserver state.collections thread
          delivery.notification delivery.collectionAddress delivery.setAddress delivery.rest))
      | _ => none

abbrev Reached (thread : T) (state : Processing T O D) : Prop :=
  Lib.Reachable (step thread) Lib.anyAction .init state

def observers : List O :=
  state.calls.map (·.observer)

/-- Registered in every state of the registry since the handling has begun. -/
def Stays (thread : T) (observer : O) : Prop :=
  ∀ collections ∈ state.history, Registered collections state.topic thread observer

def rest : List O :=
  match state.handling with
  | .notifying delivery => delivery.rest
  | .idle | .taken _ => []

end Processing

section
variable {collections : TopicObserverMap T O} {thread : T} {notification : Notification D}

theorem nextObserver_registered {collectionAddress setAddress : Nat} {observers : List O}
    {delivery : Delivery O D}
    (next : nextObserver collections thread notification collectionAddress setAddress observers =
      .notifying delivery) : Registered collections notification.topic thread delivery.observer := by
  induction observers with
  | nil => contradiction
  | cons observer rest ih =>
      rw [nextObserver] at next
      split at next
      · contradiction
      · rename_i collection inMap
        split at next
        · contradiction
        · split at next
          · contradiction
          · rename_i set inCollection
            split at next
            · contradiction
            · split at next
              · rename_i registered
                cases next
                refine ⟨⟨collection.address, set.address, set.observers⟩, ?_, registered⟩
                rw [lookUp, inMap, Option.bind_some, inCollection]
                rfl
              · exact ih next

theorem Operation.apply_wellFormed (wellFormed : WellFormed collections) (user : T)
    (operation : Operation O) : WellFormed (operation.apply user collections) := by
  cases operation with
  | addObserver observer topic collectionAddress setAddress =>
      exact wellFormed.addObserver collectionAddress setAddress
  | removeObserver observer topic => exact wellFormed.removeObserver
  | removeObserversForThread => exact wellFormed.removeObserversForThread

theorem Operation.apply_keepsAddresses (wellFormed : WellFormed collections) (user : T)
    (operation : Operation O) : KeepsAddresses collections (operation.apply user collections) := by
  cases operation with
  | addObserver observer topic collectionAddress setAddress =>
      exact addObserver_keepsAddresses collectionAddress setAddress
  | removeObserver observer topic => exact removeObserver_keepsAddresses
  | removeObserversForThread => exact removeObserversForThread_keepsAddresses wellFormed

end

namespace Processing

def Ahead (state : Processing T O D) (thread : T) (collectionAddress setAddress : Nat)
    (copy : List O) (observer : O) : Prop :=
  observer ∈ copy ∧ ∃ place, lookUp state.collections state.topic thread = some place ∧
    place.collectionAddress = collectionAddress ∧ place.setAddress = setAddress

structure Sound (thread : T) (state : Processing T O D) : Prop where
  wellFormed : WellFormed state.collections
  registered : ∀ call ∈ state.calls, Registered call.collections state.topic thread call.observer
  once : (state.observers ++ state.rest).Nodup
  current : state.isHandling = true → state.collections ∈ state.history
  taken : ∀ notification, state.handling = .taken notification →
    state.notification = some notification ∧ state.calls = []
  notifying : ∀ delivery, state.handling = .notifying delivery →
    state.notification = some delivery.notification ∧ ∀ observer, state.Stays thread observer →
      observer ∈ state.observers ∨
        state.Ahead thread delivery.collectionAddress delivery.setAddress delivery.rest observer
  done : state.handling = .idle → state.notification.isSome = true → ∀ observer,
    state.Stays thread observer → observer ∈ state.observers

variable {state : Processing T O D} {thread : T}

theorem sound_init : Sound thread (init : Processing T O D) where
  wellFormed := ⟨.nil, nofun⟩
  registered := nofun
  once := .nil
  current := nofun
  taken := nofun
  notifying := nofun
  done := nofun

theorem Sound.take (sound : Sound thread state) (notification : Notification D) :
    Sound thread { state with
      notification := some notification
      handling := .taken notification
      calls := []
      history := [state.collections] } where
  wellFormed := sound.wellFormed
  registered := nofun
  once := .nil
  current := fun _ => List.mem_singleton.mpr rfl
  taken := by
    rintro _ ⟨⟩
    exact ⟨rfl, rfl⟩
  notifying := nofun
  done := nofun

theorem Sound.operate (sound : Sound thread state) (user : T) (operation : Operation O) :
    Sound thread (state.operate user operation) := by
  have stays (observer : O) (after : (state.operate user operation).Stays thread observer) :
      state.Stays thread observer := by
    intro collections member
    apply after collections
    simp only [Processing.operate]
    split
    · exact List.mem_append_left _ member
    · exact member
  refine ⟨operation.apply_wellFormed sound.wellFormed user, sound.registered, sound.once, ?_,
    sound.taken, ?_, fun idle handled observer after => sound.done idle handled observer (stays _ after)⟩
  · intro handling
    have handling : state.isHandling = true := handling
    simp [Processing.operate, handling]
  · intro delivery notifying
    have notifying : state.handling = .notifying delivery := notifying
    obtain ⟨sameNotification, accounted⟩ := sound.notifying delivery notifying
    refine ⟨sameNotification, fun observer after => ?_⟩
    rcases accounted observer (stays observer after) with called | ⟨later, place, found, addresses⟩
    · exact .inl called
    · have handling : state.isHandling = true := by
        rw [isHandling, notifying]
      obtain ⟨place', found', -⟩ := after (operation.apply user state.collections)
        (by simp [Processing.operate, handling])
      obtain ⟨sameCollection, sameSet⟩ := operation.apply_keepsAddresses sound.wellFormed user
        _ _ _ _ found found'
      exact .inr ⟨later, place', found', sameCollection.trans addresses.1,
        sameSet.trans addresses.2⟩

theorem Sound.goOn (sound : Sound thread state) {notification : Notification D}
    (same : state.notification = some notification) (current : state.collections ∈ state.history)
    {collectionAddress setAddress : Nat} {copy : List O} (once : (state.observers ++ copy).Nodup)
    (accounted : ∀ observer, state.Stays thread observer → observer ∈ state.observers ∨
      state.Ahead thread collectionAddress setAddress copy observer) :
    Sound thread (state.goOn
      (nextObserver state.collections thread notification collectionAddress setAddress copy)) := by
  have topic : state.topic = notification.topic := by
    rw [Processing.topic, same]
    rfl
  have stops {observer : O} (stays : state.Stays thread observer)
      (ahead : state.Ahead thread collectionAddress setAddress copy observer) :
      ∃ delivery, nextObserver state.collections thread notification collectionAddress setAddress
        copy = .notifying delivery ∧ observer ∈ delivery.observer :: delivery.rest := by
    obtain ⟨inCopy, place, found, rfl, rfl⟩ := ahead
    obtain ⟨place', found', registered⟩ := stays _ current
    cases found.symm.trans found'
    rw [topic] at found
    exact nextObserver_stops found registered inCopy
  cases next : nextObserver state.collections thread notification collectionAddress setAddress copy with
  | taken other => exact absurd next nextObserver_ne_taken
  | idle =>
      have observers : (state.goOn .idle).observers = state.observers := by
        simp [Processing.goOn, called, Processing.observers]
      refine ⟨sound.wellFormed, ?_, ?_, nofun, nofun, nofun, ?_⟩
      · intro call member
        rcases List.mem_append.mp member with earlier | now
        · exact sound.registered call earlier
        · cases now
      · rw [observers]
        exact once.sublist (List.Sublist.append_left (List.nil_sublist copy) state.observers)
      · intro _ _ observer stays
        rw [observers]
        rcases accounted observer stays with called | ahead
        · exact called
        · obtain ⟨delivery, notifying, -⟩ := stops stays ahead
          rw [next] at notifying
          contradiction
  | notifying delivery =>
      obtain ⟨sameNotification, sameCollection, sameSet, suffix⟩ := nextObserver_notifying next
      have observers : (state.goOn (.notifying delivery)).observers =
          state.observers ++ [delivery.observer] := by
        simp [Processing.goOn, called, Processing.observers]
      refine ⟨sound.wellFormed, ?_, ?_, fun _ => current, nofun, ?_, nofun⟩
      · intro call member
        rcases List.mem_append.mp member with earlier | now
        · exact sound.registered call earlier
        · rw [List.mem_singleton.mp now]
          show Registered state.collections state.topic thread delivery.observer
          rw [topic]
          exact nextObserver_registered next
      · rw [observers, List.append_assoc]
        exact once.sublist (List.Sublist.append_left suffix.sublist state.observers)
      · rintro _ ⟨⟩
        refine ⟨sameNotification ▸ same, fun observer stays => ?_⟩
        rw [observers]
        rcases accounted observer stays with called | ahead
        · exact .inl (List.mem_append_left _ called)
        · obtain ⟨delivery', notifying, now⟩ := stops stays ahead
          rw [next] at notifying
          cases notifying
          rcases List.mem_cons.mp now with rfl | later
          · exact .inl (List.mem_append_right _ (List.mem_singleton.mpr rfl))
          · rw [sameCollection, sameSet]
            exact .inr ⟨later, ahead.2⟩

theorem Sound.handleThreadMessage (sound : Sound thread state) {notification : Notification D}
    (taken : state.handling = .taken notification) : Sound thread (state.goOn
      (MessageService.handleThreadMessage state.collections thread notification)) := by
  obtain ⟨same, calls⟩ := sound.taken notification taken
  have current := sound.current (by rw [isHandling, taken])
  have observers : state.observers = [] := by
    rw [Processing.observers, calls]
    rfl
  have topic : state.topic = notification.topic := by
    rw [Processing.topic, same]
    rfl
  rcases handleThreadMessage_cases state.collections thread notification with
    ⟨missing, idle⟩ | ⟨place, found⟩
  · rw [idle]
    show Sound thread (state.goOn (nextObserver state.collections thread notification 0 0 []))
    refine sound.goOn same current (by simp [observers]) fun observer stays => ?_
    obtain ⟨place, found, -⟩ := stays _ current
    rw [topic, missing] at found
    contradiction
  · rw [handleThreadMessage_eq found]
    refine sound.goOn same current ?_ fun observer stays => .inr ?_
    · rw [observers]
      exact sound.wellFormed.observers_nodup found
    · obtain ⟨place', found', registered⟩ := stays _ current
      rw [topic, found] at found'
      cases found'
      exact ⟨registered, place, topic ▸ found, rfl, rfl⟩

theorem Sound.onNotifyReturns (sound : Sound thread state) {delivery : Delivery O D}
    (notifying : state.handling = .notifying delivery) : Sound thread (state.goOn
      (nextObserver state.collections thread delivery.notification delivery.collectionAddress
        delivery.setAddress delivery.rest)) := by
  obtain ⟨same, accounted⟩ := sound.notifying delivery notifying
  have once := sound.once
  rw [rest, notifying] at once
  exact sound.goOn same (sound.current (by rw [isHandling, notifying])) once accounted

theorem sound_step {after : Processing T O D} {action : Action T O D} (sound : Sound thread state)
    (moved : step thread state action = some after) : Sound thread after := by
  cases action with
  | operate user operation => exact Option.some.inj moved ▸ sound.operate user operation
  | take notification =>
      simp only [step] at moved
      split at moved
      · exact Option.some.inj moved ▸ sound.take notification
      · contradiction
  | handleThreadMessage =>
      simp only [step] at moved
      split at moved
      · rename_i taken
        exact Option.some.inj moved ▸ sound.handleThreadMessage taken
      · contradiction
  | onNotifyReturns =>
      simp only [step] at moved
      split at moved
      · rename_i notifying
        exact Option.some.inj moved ▸ sound.onNotifyReturns notifying
      · contradiction

theorem notifies_each_once (reach : Reached thread state) :
    state.observers.Nodup ∧
    (∀ call ∈ state.calls, Registered call.collections state.topic thread call.observer) ∧
    (state.handling = .idle → state.notification.isSome = true → ∀ observer,
      state.Stays thread observer → state.observers.count observer = 1) := by
  have sound : Sound thread state :=
    reach.invariant sound_init fun _ _ _ sound _ moved => sound_step sound moved
  have once := (List.nodup_append.mp sound.once).1
  refine ⟨once, sound.registered, fun idle handled observer stays => ?_⟩
  exact List.count_eq_one_of_mem once (sound.done idle handled observer stays)

/-- Observer 1 removes itself and observer 2 and adds observer 4, while thread 1 registers too. -/
def mutatingRun : List (Action Nat Nat Unit) :=
  [.operate 0 (.addObserver 1 "topic" 10 20), .operate 0 (.addObserver 2 "topic" 11 21),
   .operate 0 (.addObserver 3 "topic" 11 21), .take ⟨"topic", (), true⟩, .handleThreadMessage,
   .operate 0 (.removeObserver 1 "topic"), .operate 0 (.removeObserver 2 "topic"),
   .operate 1 (.addObserver 1 "topic" 11 22), .operate 0 (.addObserver 4 "topic" 11 21),
   .onNotifyReturns, .onNotifyReturns]

def mutated : Processing Nat Nat Unit :=
  Lib.final (step 0) Lib.anyAction init mutatingRun (by decide)

theorem mutated_notifies : mutated.observers = [1, 3] ∧ mutated.observers.count 3 = 1 := by
  have reach : Reached 0 mutated := Lib.reachable_final mutatingRun (by decide)
  obtain ⟨-, -, complete⟩ := notifies_each_once reach
  refine ⟨by decide, complete (by decide) (by decide) 3 ?_⟩
  intro collections member
  have registered : ∀ collections ∈ mutated.history, 3 ∈ observersOn collections "topic" 0 := by
    decide
  exact registered_iff.mpr (registered collections member)

end Processing

end ThreadIpc.MessageService
