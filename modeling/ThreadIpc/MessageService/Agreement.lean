import ThreadIpc.MessageService.Registry

/-!
# Observers of a topic see one order

A notification that is posted has been received by a given observer, is handled by its thread, waits
in the queue of that thread, or has still to be sent there, and the four keep the order of posting.
-/

namespace ThreadIpc.MessageService
open Lib

variable {T O D : Type} [LinearOrder T] [LinearOrder O]

section
variable {collections : TopicObserverMap T O} {thread : T} {notification : Notification D}

theorem nextObserver_eq {place : Place O}
    (found : lookUp collections notification.topic thread = some place) (observers : List O) :
    nextObserver collections thread notification place.collectionAddress place.setAddress observers =
      match observers.dropWhile (· ∉ place.observers) with
      | [] => .idle
      | observer :: rest => .notifying
          ⟨notification, place.collectionAddress, place.setAddress, observer, rest⟩ := by
  obtain ⟨collection, inMap, found⟩ := Option.bind_eq_some_iff.mp found
  obtain ⟨set, inCollection, rfl⟩ := Option.map_eq_some_iff.mp found
  induction observers with
  | nil => rfl
  | cons observer rest ih =>
      rw [nextObserver, inMap]
      simp only [ne_eq, not_true_eq_false, if_false, inCollection]
      by_cases registered : observer ∈ set.observers
      · rw [if_pos registered, List.dropWhile_cons_of_neg (by simpa using registered)]
      · rw [if_neg registered, List.dropWhile_cons_of_pos (by simpa using registered)]
        exact ih

theorem handleThreadMessage_eq {place : Place O}
    (found : lookUp collections notification.topic thread = some place) :
    handleThreadMessage collections thread notification =
      nextObserver collections thread notification place.collectionAddress place.setAddress
        place.observers := by
  obtain ⟨collection, inMap, found⟩ := Option.bind_eq_some_iff.mp found
  obtain ⟨set, inCollection, rfl⟩ := Option.map_eq_some_iff.mp found
  rw [handleThreadMessage, inMap]
  simp only [inCollection]

theorem nextObserver_notifying {collectionAddress setAddress : Nat} {observers : List O}
    {delivery : Delivery O D}
    (next : nextObserver collections thread notification collectionAddress setAddress observers =
      .notifying delivery) :
    delivery.notification = notification ∧ delivery.collectionAddress = collectionAddress ∧
      delivery.setAddress = setAddress ∧ delivery.observer :: delivery.rest <:+ observers := by
  induction observers with
  | nil => contradiction
  | cons observer rest ih =>
      rw [nextObserver] at next
      split at next
      · contradiction
      · split at next
        · contradiction
        · split at next
          · contradiction
          · split at next
            · contradiction
            · split at next
              · cases next
                exact ⟨rfl, rfl, rfl, List.suffix_refl _⟩
              · obtain ⟨same, sameCollection, sameSet, suffix⟩ := ih next
                exact ⟨same, sameCollection, sameSet, suffix.trans (List.suffix_cons observer rest)⟩

theorem nextObserver_ne_taken {collectionAddress setAddress : Nat} {observers : List O}
    {other : Notification D} :
    nextObserver collections thread notification collectionAddress setAddress observers ≠
      .taken other := by
  induction observers with
  | nil => exact nofun
  | cons observer rest ih =>
      rw [nextObserver]
      split
      · exact nofun
      · split
        · exact nofun
        · split
          · exact nofun
          · split
            · exact nofun
            · split
              · exact nofun
              · exact ih

theorem handleThreadMessage_cases (collections : TopicObserverMap T O) (thread : T)
    (notification : Notification D) :
    lookUp collections notification.topic thread = none ∧
        handleThreadMessage collections thread notification = .idle ∨
      ∃ place, lookUp collections notification.topic thread = some place := by
  cases found : lookUp collections notification.topic thread with
  | some place => exact .inr ⟨place, rfl⟩
  | none =>
      refine .inl ⟨rfl, ?_⟩
      rw [handleThreadMessage]
      split
      · rfl
      · rename_i collection inMap
        rw [lookUp, inMap, Option.bind_some, Option.map_eq_none_iff] at found
        rw [found]

theorem nextObserver_stops {place : Place O} {observers : List O} {observer : O}
    (found : lookUp collections notification.topic thread = some place)
    (registered : observer ∈ place.observers) (inCopy : observer ∈ observers) :
    ∃ delivery, nextObserver collections thread notification place.collectionAddress
        place.setAddress observers = .notifying delivery ∧
      observer ∈ delivery.observer :: delivery.rest := by
  have stops : observer ∈ observers.dropWhile (· ∉ place.observers) := by
    have whole : observers.takeWhile (· ∉ place.observers) ++
        observers.dropWhile (· ∉ place.observers) = observers := List.takeWhile_append_dropWhile
    rw [← whole] at inCopy
    rcases List.mem_append.mp inCopy with passed | left
    · have skipped := List.all_eq_true.mp List.all_takeWhile observer passed
      exact absurd registered (by simpa using skipped)
    · exact left
  have equal := nextObserver_eq found observers
  cases rest : observers.dropWhile (· ∉ place.observers) with
  | nil =>
      rw [rest] at stops
      contradiction
  | cons next rest' =>
      rw [rest] at equal stops
      exact ⟨_, equal, stops⟩

theorem nextObserver_accounts {topic : String} {observer : O} {collectionAddress setAddress : Nat}
    {observers : List O} (nodup : observers.Nodup)
    (aligned : notification.topic = topic → observer ∈ observers → ∃ place,
      lookUp collections notification.topic thread = some place ∧
        place.collectionAddress = collectionAddress ∧ place.setAddress = setAddress ∧
        observer ∈ place.observers) :
    let handling := nextObserver collections thread notification collectionAddress setAddress observers
    seenBy (handling.received thread) topic thread observer ++ handling.inHand topic observer =
      if notification.topic = topic ∧ observer ∈ observers then [notification] else [] := by
  intro handling
  have member (sameTopic : notification.topic = topic) (inCopy : observer ∈ observers) :
      ∃ delivery, handling = .notifying delivery ∧
        observer ∈ delivery.observer :: delivery.rest := by
    obtain ⟨place, found, rfl, rfl, registered⟩ := aligned sameTopic inCopy
    exact nextObserver_stops found registered inCopy
  cases next : handling with
  | idle =>
      rw [if_neg]
      · rfl
      · rintro ⟨sameTopic, inCopy⟩
        obtain ⟨delivery, notifying, _⟩ := member sameTopic inCopy
        rw [next] at notifying
        contradiction
  | taken other => exact absurd next nextObserver_ne_taken
  | notifying delivery =>
      obtain ⟨same, _, _, suffix⟩ := nextObserver_notifying next
      obtain ⟨notAgain, _⟩ := List.nodup_cons.mp (nodup.sublist suffix.sublist)
      have seen : seenBy ((Handling.notifying delivery).received thread) topic thread observer =
          if delivery.observer = observer ∧ notification.topic = topic then [notification] else [] := by
        simp only [Handling.received, seenBy, List.filter_cons, List.filter_nil, same, true_and,
          decide_eq_true_eq]
        split <;> simp
      rw [seen, Handling.inHand, same]
      by_cases sameTopic : notification.topic = topic
      · by_cases inCopy : observer ∈ observers
        · obtain ⟨delivery', notifying, called⟩ := member sameTopic inCopy
          cases next.symm.trans notifying
          rw [if_pos (And.intro sameTopic inCopy)]
          rcases List.mem_cons.mp called with rfl | later
          · rw [if_pos ⟨rfl, sameTopic⟩, if_neg fun both => notAgain both.2]
            rfl
          · have other : delivery.observer ≠ observer := fun first => notAgain (first ▸ later)
            rw [if_neg fun both => other both.1, if_pos ⟨sameTopic, later⟩]
            rfl
        · have notCalled : delivery.observer ≠ observer :=
            fun first => inCopy (first ▸ suffix.subset List.mem_cons_self)
          have notLater : observer ∉ delivery.rest :=
            fun later => inCopy (suffix.subset (List.mem_cons_of_mem _ later))
          rw [if_neg fun both => notCalled both.1, if_neg fun both => notLater both.2,
            if_neg fun both => inCopy both.2]
          rfl
      · rw [if_neg fun both => sameTopic both.2, if_neg fun both => sameTopic both.1,
          if_neg fun both => sameTopic both.1]
        rfl

end

end ThreadIpc.MessageService
