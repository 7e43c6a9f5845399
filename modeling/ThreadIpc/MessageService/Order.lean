import ThreadIpc.MessageService.Agreement

namespace ThreadIpc.MessageService
open Lib

variable {T O D : Type} [LinearOrder T] [LinearOrder O]

inductive Moved (state : State T O D) (thread : T) : State T O D → Prop
  | unheard : Moved state thread state
  | finished {notifier notification} (posting : state.posting = some (notifier, notification, [])) :
      Moved state thread { state with posting := none }
  | sent {notifier notification target targets}
      (posting : state.posting = some (notifier, notification, target :: targets)) :
      Moved state thread { state with
        queue := Function.update state.queue target (state.queue target ++ [notification])
        posting := some (notifier, notification, targets) }
  | taken {notification later} (idle : state.handling thread = .idle)
      (queued : state.queue thread = notification :: later) :
      Moved state thread { state with
        queue := Function.update state.queue thread later
        handling := Function.update state.handling thread (.taken notification) }
  | handled {notification} (taken : state.handling thread = .taken notification) :
      Moved state thread
        (state.handle thread (handleThreadMessage state.collections thread notification))
  | returned {delivery} (notifying : state.handling thread = .notifying delivery) :
      Moved state thread (state.handle thread (nextObserver state.collections thread
        delivery.notification delivery.collectionAddress delivery.setAddress delivery.rest))
  | changed {collections} (stays : WellFormed state.collections → WellFormed collections ∧
        KeepsAddresses state.collections collections) :
      Moved state thread { state with collections }
  | notified {notification collection} (unlocked : state.posting = none)
      (found : getTopicObserverCollection state.collections notification.topic = some collection) :
      Moved state thread { state with
        posting := some (thread, notification, collection.observerSets.map (·.thread))
        posted := state.posted ++ [notification] }

theorem step_moved {state after : State T O D} {thread : T} {action : Action O D}
    (moved : step state (thread, action) = some after) : Moved state thread after := by
  cases action with
  | send =>
      simp only [step] at moved
      split at moved
      · contradiction
      · rename_i posting
        cases moved
        exact .finished posting
      · rename_i posting
        cases moved
        exact .sent posting
  | takeMessage =>
      simp only [step] at moved
      split at moved
      · rename_i idle queued
        split at moved
        · contradiction
        · cases moved
          exact .taken idle queued
      · contradiction
  | handleThreadMessage =>
      simp only [step, Option.ite_none_left_eq_some] at moved
      obtain ⟨_, moved⟩ := moved
      split at moved <;> try contradiction
      rename_i taken
      cases moved
      exact .handled taken
  | onNotifyReturns =>
      simp only [step, Option.ite_none_left_eq_some] at moved
      obtain ⟨_, moved⟩ := moved
      split at moved <;> try contradiction
      rename_i notifying
      cases moved
      exact .returned notifying
  | addObserver observer topic collectionAddress setAddress =>
      simp only [step, Option.ite_none_left_eq_some, Option.ite_none_right_eq_some] at moved
      obtain ⟨_, _, moved⟩ := moved
      cases moved
      exact .changed fun wellFormed => ⟨wellFormed.addObserver collectionAddress setAddress,
        addObserver_keepsAddresses collectionAddress setAddress⟩
  | removeObserver observer topic =>
      simp only [step, Option.ite_none_left_eq_some, Option.ite_none_right_eq_some] at moved
      obtain ⟨_, _, moved⟩ := moved
      cases moved
      exact .changed fun wellFormed =>
        ⟨wellFormed.removeObserver, removeObserver_keepsAddresses⟩
  | removeObserversForThread =>
      simp only [step, Option.ite_none_left_eq_some] at moved
      obtain ⟨_, moved⟩ := moved
      cases moved
      exact .changed fun wellFormed => ⟨wellFormed.removeObserversForThread,
        removeObserversForThread_keepsAddresses wellFormed⟩
  | notifyObservers notification =>
      simp only [step, Option.ite_none_left_eq_some, Option.ite_none_right_eq_some] at moved
      obtain ⟨unlocked, _, moved⟩ := moved
      split at moved
      · cases moved
        exact .unheard
      · rename_i collection found
        cases moved
        exact .notified (not_not.mp unlocked) found

structure Consistent (state : State T O D) : Prop where
  wellFormed : WellFormed state.collections
  targets : ∀ notifier notification targets,
    state.posting = some (notifier, notification, targets) → targets.Nodup
  deliveries : ∀ thread delivery, state.handling thread = .notifying delivery →
    (delivery.observer :: delivery.rest).Nodup

/-- Nothing has been posted yet: any registrations, and no message under way. -/
structure Quiet (state : State T O D) : Prop where
  wellFormed : WellFormed state.collections
  queues : ∀ thread, state.queue thread = []
  handling : ∀ thread, state.handling thread = .idle
  posting : state.posting = none
  posted : state.posted = []
  received : state.received = []

structure Tracked (state : State T O D) (topic : String) (thread : T) (observer : O) : Prop where
  order : state.receivedBy topic thread observer ++ state.inHand topic thread observer ++
    state.queuedFor topic thread ++ state.beingPosted topic thread = state.postedOn topic
  aligned : ∀ delivery, state.handling thread = .notifying delivery →
    delivery.notification.topic = topic → observer ∈ delivery.rest →
      ∀ place, lookUp state.collections topic thread = some place →
        place.collectionAddress = delivery.collectionAddress ∧
          place.setAddress = delivery.setAddress

theorem Quiet.consistent {state : State T O D} (quiet : Quiet state) : Consistent state where
  wellFormed := quiet.wellFormed
  targets := by
    intro notifier notification targets posting
    rw [quiet.posting] at posting
    contradiction
  deliveries := by
    intro thread delivery notifying
    rw [quiet.handling] at notifying
    contradiction

theorem Quiet.tracked {state : State T O D} (quiet : Quiet state) (topic : String) (thread : T)
    (observer : O) : Tracked state topic thread observer where
  order := by
    simp [State.receivedBy, seenBy, State.inHand, Handling.inHand, State.queuedFor,
      State.beingPosted, State.postedOn, quiet.queues, quiet.handling, quiet.posting, quiet.posted,
      quiet.received]
  aligned := by
    intro delivery notifying
    rw [quiet.handling] at notifying
    contradiction

section
variable {state after : State T O D} {thread : T}

theorem Consistent.handle (inv : Consistent state) {handling : Handling O D}
    (nodup : ∀ delivery, handling = .notifying delivery →
      (delivery.observer :: delivery.rest).Nodup) : Consistent (state.handle thread handling) where
  wellFormed := inv.wellFormed
  targets := inv.targets
  deliveries := by
    intro other delivery notifying
    simp only [State.handle, Function.update_apply] at notifying
    split at notifying
    · exact nodup delivery notifying
    · exact inv.deliveries other delivery notifying

theorem WellFormed.observers_nodup {collections : TopicObserverMap T O}
    (wellFormed : WellFormed collections) {topic : String} {place : Place O}
    (found : lookUp collections topic thread = some place) : place.observers.Nodup := by
  obtain ⟨collection, inMap, found⟩ := Option.bind_eq_some_iff.mp found
  obtain ⟨set, inCollection, rfl⟩ := Option.map_eq_some_iff.mp found
  exact ((wellFormed.found inMap).1.found inCollection).1.imp ne_of_lt

theorem handleThreadMessage_nodup (inv : Consistent state) {notification : Notification D}
    {delivery : Delivery O D}
    (handled : handleThreadMessage state.collections thread notification = .notifying delivery) :
    (delivery.observer :: delivery.rest).Nodup := by
  rcases handleThreadMessage_cases state.collections thread notification with
    ⟨_, idle⟩ | ⟨place, found⟩
  · rw [idle] at handled
    contradiction
  · rw [handleThreadMessage_eq found] at handled
    obtain ⟨_, _, _, suffix⟩ := nextObserver_notifying handled
    exact (inv.wellFormed.observers_nodup found).sublist suffix.sublist

theorem Consistent.step (inv : Consistent state) (moved : Moved state thread after) :
    Consistent after := by
  cases moved with
  | unheard => exact inv
  | finished posting => exact ⟨inv.wellFormed, nofun, inv.deliveries⟩
  | sent posting =>
      refine ⟨inv.wellFormed, ?_, inv.deliveries⟩
      rintro _ _ _ ⟨⟩
      exact (List.nodup_cons.mp (inv.targets _ _ _ posting)).2
  | taken idle queued =>
      refine ⟨inv.wellFormed, inv.targets, ?_⟩
      intro other delivery notifying
      simp only [Function.update_apply] at notifying
      split at notifying
      · contradiction
      · exact inv.deliveries other delivery notifying
  | handled taken => exact inv.handle fun delivery => handleThreadMessage_nodup inv
  | @returned delivery notifying =>
      apply inv.handle
      intro next called
      obtain ⟨_, _, _, suffix⟩ := nextObserver_notifying called
      have nodup := (List.nodup_cons.mp (inv.deliveries thread delivery notifying)).2
      exact nodup.sublist suffix.sublist
  | changed stays => exact ⟨(stays inv.wellFormed).1, inv.targets, inv.deliveries⟩
  | @notified notification collection unlocked found =>
      refine ⟨inv.wellFormed, ?_, inv.deliveries⟩
      rintro _ _ _ ⟨⟩
      apply List.pairwise_map.mpr
      exact (inv.wellFormed.found found).1.threads.imp ne_of_lt

theorem seenBy_append {topic : String} {user : T} {observer : O} (received later : List (Received T O D)) :
    seenBy (received ++ later) topic user observer =
      seenBy received topic user observer ++ seenBy later topic user observer := by
  rw [seenBy, List.filter_append, List.map_append]
  rfl

theorem seenBy_other {topic : String} {user : T} {observer : O} (different : user ≠ thread)
    (handling : Handling O D) : seenBy (handling.received thread) topic user observer = [] := by
  cases handling <;> simp [seenBy, Handling.received, different.symm]

theorem Tracked.handle {topic : String} {user : T} {observer : O}
    (tracked : Tracked state topic user observer) {handling : Handling O D}
    (accounts : user = thread → seenBy (handling.received thread) topic user observer ++
      handling.inHand topic observer = state.inHand topic user observer)
    (aligned : user = thread → ∀ delivery, handling = .notifying delivery →
      delivery.notification.topic = topic → observer ∈ delivery.rest →
        ∀ place, lookUp state.collections topic user = some place →
          place.collectionAddress = delivery.collectionAddress ∧
            place.setAddress = delivery.setAddress) :
    Tracked (state.handle thread handling) topic user observer := by
  by_cases same : user = thread
  · constructor
    · refine Eq.trans ?_ tracked.order
      rw [← accounts same]
      simp only [State.receivedBy, State.handle, seenBy_append, State.inHand, same,
        Function.update_self, List.append_assoc]
      rfl
    · intro delivery notifying
      simp only [State.handle, same, Function.update_self] at notifying
      exact aligned same delivery notifying
  · constructor
    · refine Eq.trans ?_ tracked.order
      simp only [State.receivedBy, State.handle, seenBy_append, seenBy_other same, State.inHand,
        Function.update_of_ne same, List.append_nil]
      rfl
    · intro delivery notifying
      simp only [State.handle, Function.update_of_ne same] at notifying
      exact tracked.aligned delivery notifying

theorem handleThreadMessage_accounts {topic : String} {user : T} {observer : O}
    (inv : Consistent state) (registered : Registered state.collections topic user observer)
    (notification : Notification D) :
    let handling := handleThreadMessage state.collections user notification
    seenBy (handling.received user) topic user observer ++ handling.inHand topic observer =
      if notification.topic = topic then [notification] else [] := by
  intro handling
  obtain ⟨place, registered, member⟩ := registered
  have inHand : handling = .idle ∧ notification.topic ≠ topic ∨ ∃ seen : Place O,
      handling = nextObserver state.collections user notification seen.collectionAddress
        seen.setAddress seen.observers ∧ seen.observers.Nodup ∧
      (notification.topic = topic → lookUp state.collections notification.topic user = some seen ∧
        observer ∈ seen.observers) := by
    rcases handleThreadMessage_cases state.collections user notification with
      ⟨absent, idle⟩ | ⟨seen, found⟩
    · refine .inl ⟨idle, ?_⟩
      rintro rfl
      rw [absent] at registered
      contradiction
    · refine .inr ⟨seen, handleThreadMessage_eq found, inv.wellFormed.observers_nodup found, ?_⟩
      rintro rfl
      cases found.symm.trans registered
      exact ⟨found, member⟩
  rcases inHand with ⟨idle, different⟩ | ⟨seen, called, nodup, same⟩
  · rw [idle, if_neg different]
    rfl
  · have aligned (sameTopic : notification.topic = topic) (_ : observer ∈ seen.observers) :
        ∃ place, lookUp state.collections notification.topic user = some place ∧
          place.collectionAddress = seen.collectionAddress ∧ place.setAddress = seen.setAddress ∧
          observer ∈ place.observers :=
      ⟨seen, (same sameTopic).1, rfl, rfl, (same sameTopic).2⟩
    have accounts := nextObserver_accounts nodup aligned
    rw [← called] at accounts
    rw [accounts]
    by_cases sameTopic : notification.topic = topic
    · rw [if_pos ⟨sameTopic, (same sameTopic).2⟩, if_pos sameTopic]
    · rw [if_neg fun both => sameTopic both.1, if_neg sameTopic]

theorem Tracked.handled {topic : String} {user : T} {observer : O} (inv : Consistent state)
    (tracked : Tracked state topic user observer)
    (registered : Registered state.collections topic user observer) {notification : Notification D}
    (taken : state.handling thread = .taken notification) :
    Tracked (state.handle thread (handleThreadMessage state.collections thread notification))
      topic user observer := by
  apply tracked.handle
  · rintro rfl
    rw [State.inHand, taken]
    exact handleThreadMessage_accounts inv registered notification
  · rintro rfl delivery handled sameTopic later place found
    rcases handleThreadMessage_cases state.collections user notification with
      ⟨_, idle⟩ | ⟨seen, known⟩
    · rw [idle] at handled
      contradiction
    · rw [handleThreadMessage_eq known] at handled
      obtain ⟨same, collectionAddress, setAddress, _⟩ := nextObserver_notifying handled
      rw [← same, sameTopic] at known
      cases found.symm.trans known
      exact ⟨collectionAddress.symm, setAddress.symm⟩

theorem Tracked.returned {topic : String} {user : T} {observer : O} (inv : Consistent state)
    (tracked : Tracked state topic user observer)
    (registered : Registered state.collections topic user observer) {delivery : Delivery O D}
    (notifying : state.handling thread = .notifying delivery) :
    Tracked (state.handle thread (nextObserver state.collections thread delivery.notification
      delivery.collectionAddress delivery.setAddress delivery.rest)) topic user observer := by
  apply tracked.handle
  · rintro rfl
    rw [State.inHand, notifying]
    apply nextObserver_accounts (List.nodup_cons.mp (inv.deliveries user delivery notifying)).2
    intro sameTopic later
    obtain ⟨place, found, member⟩ := registered
    have aligned := tracked.aligned delivery notifying sameTopic later place found
    exact ⟨place, sameTopic ▸ found, aligned.1, aligned.2, member⟩
  · rintro rfl next called sameTopic later place found
    obtain ⟨same, collectionAddress, setAddress, suffix⟩ := nextObserver_notifying called
    rw [collectionAddress, setAddress]
    exact tracked.aligned delivery notifying (same ▸ sameTopic)
      (suffix.subset (List.mem_cons_of_mem _ later)) place found

theorem Tracked.sent {topic : String} {user : T} {observer : O} (inv : Consistent state)
    (tracked : Tracked state topic user observer) {notifier target : T} {targets : List T}
    {notification : Notification D}
    (posting : state.posting = some (notifier, notification, target :: targets)) :
    Tracked { state with
      queue := Function.update state.queue target (state.queue target ++ [notification])
      posting := some (notifier, notification, targets) } topic user observer where
  order := by
    have moves : ((Function.update state.queue target (state.queue target ++ [notification])
          user).filter fun notification => notification.topic = topic) ++
        (if notification.topic = topic ∧ user ∈ targets then [notification] else []) =
        state.queuedFor topic user ++ state.beingPosted topic user := by
      simp only [State.beingPosted, State.queuedFor, posting]
      by_cases same : user = target
      · subst same
        have notAgain := (List.nodup_cons.mp (inv.targets _ _ _ posting)).1
        rw [Function.update_self, List.filter_append, if_neg fun both => notAgain both.2]
        by_cases sameTopic : notification.topic = topic
        · simp [sameTopic]
        · simp [sameTopic]
      · rw [Function.update_of_ne same]
        simp only [List.mem_cons, same, false_or]
    refine Eq.trans ?_ tracked.order
    rw [List.append_assoc, List.append_assoc (_ ++ _) (state.queuedFor _ _), ← moves]
    rfl
  aligned := tracked.aligned

theorem Tracked.taken {topic : String} {user : T} {observer : O}
    (tracked : Tracked state topic user observer) {notification : Notification D}
    {later : List (Notification D)} (idle : state.handling thread = .idle)
    (queued : state.queue thread = notification :: later) :
    Tracked { state with
      queue := Function.update state.queue thread later
      handling := Function.update state.handling thread (.taken notification) }
      topic user observer := by
  by_cases same : user = thread
  · subst same
    constructor
    · have moves : (if notification.topic = topic then [notification] else []) ++
          (later.filter fun notification => notification.topic = topic) =
          state.inHand topic user observer ++ state.queuedFor topic user := by
        rw [State.inHand, idle, State.queuedFor, queued]
        by_cases sameTopic : notification.topic = topic
        · simp [sameTopic, Handling.inHand]
        · simp [sameTopic, Handling.inHand]
      refine Eq.trans ?_ tracked.order
      simp only [State.inHand, State.queuedFor, Function.update_self, List.append_assoc] at moves ⊢
      rw [← List.append_assoc (Handling.inHand _ _ (state.handling user)), ← moves,
        List.append_assoc]
      rfl
    · intro delivery notifying
      simp only [Function.update_self] at notifying
      contradiction
  · constructor
    · refine Eq.trans ?_ tracked.order
      simp only [State.inHand, State.queuedFor, Function.update_of_ne same]
      rfl
    · intro delivery notifying
      simp only [Function.update_of_ne same] at notifying
      exact tracked.aligned delivery notifying

theorem Tracked.notified {topic : String} {user : T} {observer : O}
    (tracked : Tracked state topic user observer)
    (registered : Registered state.collections topic user observer) {notification : Notification D}
    {collection : ObserverCollection T O} (unlocked : state.posting = none)
    (found : getTopicObserverCollection state.collections notification.topic = some collection) :
    Tracked { state with
      posting := some (thread, notification, collection.observerSets.map (·.thread))
      posted := state.posted ++ [notification] } topic user observer where
  order := by
    have nothing : state.beingPosted topic user = [] := by rw [State.beingPosted, unlocked]
    have posted : (if notification.topic = topic ∧
          user ∈ collection.observerSets.map (·.thread) then [notification] else []) =
        [notification].filter fun notification => notification.topic = topic := by
      by_cases sameTopic : notification.topic = topic
      · subst sameTopic
        obtain ⟨place, known, _⟩ := registered
        obtain ⟨same, inMap, known⟩ := Option.bind_eq_some_iff.mp known
        cases found.symm.trans inMap
        obtain ⟨set, inCollection, _⟩ := Option.map_eq_some_iff.mp known
        obtain ⟨member, rfl⟩ := OrderedMap.mem_of_find inCollection
        rw [if_pos ⟨rfl, List.mem_map_of_mem member⟩]
        simp
      · simp [sameTopic]
    have order := tracked.order
    rw [nothing, List.append_nil] at order
    show _ ++ (if _ then _ else _) = (state.posted ++ [notification]).filter _
    rw [posted, List.filter_append]
    exact congrArg (· ++ _) order
  aligned := tracked.aligned

theorem Tracked.step {topic : String} {user : T} {observer : O} (inv : Consistent state)
    (tracked : Tracked state topic user observer)
    (registered : Registered state.collections topic user observer)
    (moved : Moved state thread after) : Tracked after topic user observer := by
  cases moved with
  | unheard => exact tracked
  | @finished notifier notification posting =>
      refine ⟨Eq.trans ?_ tracked.order, tracked.aligned⟩
      have nothing : state.beingPosted topic user = [] := by simp [State.beingPosted, posting]
      rw [nothing]
      rfl
  | sent posting => exact tracked.sent inv posting
  | taken idle queued => exact tracked.taken idle queued
  | handled taken => exact tracked.handled inv registered taken
  | returned notifying => exact tracked.returned inv registered notifying
  | changed stays =>
      refine ⟨tracked.order, ?_⟩
      intro delivery notifying sameTopic later place found
      obtain ⟨old, known, _⟩ := registered
      have kept := (stays inv.wellFormed).2 topic user old place known found
      have aligned := tracked.aligned delivery notifying sameTopic later old known
      exact ⟨kept.1.trans aligned.1, kept.2.trans aligned.2⟩
  | notified unlocked found => exact tracked.notified registered unlocked found

end

def Stays (registered : String → T → O → Prop) (state : State T O D) : Prop :=
  ∀ topic thread observer, registered topic thread observer →
    Registered state.collections topic thread observer

theorem Quiet.consistent_reached {start state : State T O D} (quiet : Quiet start)
    {ok : State T O D → T × Action O D → Prop} (reach : Lib.Reachable step ok start state) :
    Consistent state := by
  apply reach.invariant quiet.consistent
  rintro before ⟨thread, action⟩ after consistent _ moved
  exact consistent.step (step_moved moved)

/-- All that stay registered receive the same notifications in the order of posting. -/
theorem observers_receive_posted_in_order {start state : State T O D} (quiet : Quiet start)
    {registered : String → T → O → Prop}
    (reach : Lib.Reachable step (fun state _ => Stays registered state) start state)
    (topic : String) (thread : T) (observer : O) (member : registered topic thread observer) :
    state.receivedBy topic thread observer <+: state.postedOn topic ∧
      (state.receivedBy topic thread observer).filter (·.isLocal) <+:
        (state.postedOn topic).filter (·.isLocal) ∧
      (state.Drained thread →
        state.receivedBy topic thread observer = state.postedOn topic) := by
  have tracked : Tracked state topic thread observer := by
    apply reach.invariant_beside fun state => quiet.consistent_reached
    · exact quiet.tracked topic thread observer
    · rintro before ⟨notifier, action⟩ after consistent tracked stays moved
      exact tracked.step consistent (stays topic thread observer member) (step_moved moved)
  have order := tracked.order
  rw [List.append_assoc, List.append_assoc] at order
  have received : state.receivedBy topic thread observer <+: state.postedOn topic := ⟨_, order⟩
  refine ⟨received, received.filter _, ?_⟩
  rintro ⟨noneQueued, idle, notBeingSent⟩
  have inHand : state.inHand topic thread observer = [] := by
    rw [State.inHand, idle]
    rfl
  have queued : state.queuedFor topic thread = [] := by
    rw [State.queuedFor, noneQueued]
    rfl
  have beingPosted : state.beingPosted topic thread = [] := by
    rw [State.beingPosted]
    split
    · rename_i posting
      rw [if_neg fun both => notBeingSent _ _ _ posting both.2]
    · rfl
  rw [inHand, queued, beingPosted, List.append_nil, List.append_nil, List.append_nil] at order
  exact order

instance (collections : TopicObserverMap T O) (topic : String) (thread : T) (observer : O) :
    Decidable (Registered collections topic thread observer) :=
  inferInstanceAs (Decidable
    (∃ place ∈ lookUp collections topic thread, observer ∈ place.observers))

def fourObservers : State Nat Nat Nat where
  collections := [⟨"topic", 1, [⟨0, 2, [1, 2, 3]⟩, ⟨1, 3, [1]⟩]⟩]
  queue _ := []
  handling _ := .idle
  posting := none
  posted := []
  received := []

theorem fourObservers_quiet : Quiet fourObservers where
  wellFormed := by
    constructor
    · exact List.pairwise_singleton ..
    · intro collection member
      cases List.mem_singleton.mp member
      constructor
      · exact List.Pairwise.cons (by simp) (List.pairwise_singleton ..)
      · intro set member
        have sorted : set.observers.Pairwise (· < ·) := by
          rcases List.mem_pair.mp member with rfl | rfl <;> decide
        exact sorted
  queues _ := rfl
  handling _ := rfl
  posting := rfl
  posted := rfl
  received := rfl

def listeners : List (String × Nat × Nat) := [("topic", 0, 1), ("topic", 0, 3), ("topic", 1, 1)]

def listen (state : State Nat Nat Nat) (_ : Nat × Action Nat Nat) : Prop :=
  ∀ listener ∈ listeners, Registered state.collections listener.1 listener.2.1 listener.2.2

instance (state : State Nat Nat Nat) (move : Nat × Action Nat Nat) : Decidable (listen state move) :=
  inferInstanceAs (Decidable (∀ listener ∈ listeners, _))

/-- The first observer removes the second one before its turn; another one notifies in turn. -/
def twoNotifiers : List (Nat × Action Nat Nat) :=
  [(0, .notifyObservers ⟨"topic", 10, true⟩), (0, .send), (0, .send), (1, .takeMessage), (0, .send),
    (0, .takeMessage), (0, .handleThreadMessage), (0, .removeObserver 2 "topic"),
    (1, .handleThreadMessage), (1, .notifyObservers ⟨"topic", 11, true⟩), (1, .send), (1, .send),
    (1, .send), (0, .onNotifyReturns), (0, .onNotifyReturns), (0, .takeMessage),
    (0, .handleThreadMessage), (0, .onNotifyReturns), (0, .onNotifyReturns), (1, .onNotifyReturns)]

def delivered : State Nat Nat Nat :=
  Lib.final step listen fourObservers twoNotifiers (by decide +kernel)

theorem fourObservers_agree : delivered.receivedBy "topic" 0 1 <+: delivered.postedOn "topic" ∧
    delivered.receivedBy "topic" 0 3 = [⟨"topic", 10, true⟩, ⟨"topic", 11, true⟩] := by
  have reach : Lib.Reachable step listen fourObservers delivered :=
    Lib.reachable_final twoNotifiers (by decide +kernel)
  have stays := reach.weaken fun state _ (listen : ∀ listener ∈ listeners, _) topic thread observer
    (member : (topic, thread, observer) ∈ listeners) => listen (topic, thread, observer) member
  have drained : delivered.Drained 0 := ⟨by decide +kernel, by decide +kernel, fun _ _ _ posting => by
    have idle : delivered.posting = none := by decide +kernel
    rw [idle] at posting
    contradiction⟩
  have first := observers_receive_posted_in_order fourObservers_quiet stays "topic" 0 1 (by decide)
  have third := observers_receive_posted_in_order fourObservers_quiet stays "topic" 0 3 (by decide)
  have posted : delivered.postedOn "topic" = [⟨"topic", 10, true⟩, ⟨"topic", 11, true⟩] := by
    decide +kernel
  exact ⟨first.1, (third.2.2 drained).trans posted⟩

end ThreadIpc.MessageService
