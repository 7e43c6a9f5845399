import ThreadIpc.MessageService.Registry
import Mathlib.Data.Set.Insert

/-!
# The registry as a set of registrations

`AddObserver`, `RemoveObserver` and `RemoveObserversForThread`, called by any threads in any order,
keep the nested maps equal to a set of topics, threads and observers, without empty containers.
-/

namespace ThreadIpc.MessageService
open Lib

variable {T O D : Type} [LinearOrder T] [LinearOrder O]

inductive Operation (O : Type)
  | addObserver (observer : O) (topic : String) (collectionAddress setAddress : Nat)
  | removeObserver (observer : O) (topic : String)
  | removeObserversForThread
  deriving DecidableEq

def Operation.apply (thread : T) (collections : TopicObserverMap T O) :
    Operation O → TopicObserverMap T O
  | .addObserver observer topic collectionAddress setAddress =>
      (MessageService.addObserver collectionAddress setAddress thread observer topic collections).1
  | .removeObserver observer topic => (MessageService.removeObserver thread observer topic collections).1
  | .removeObserversForThread => MessageService.removeObserversForThread thread collections

def applyAll (collections : TopicObserverMap T O) (operations : List (T × Operation O)) :
    TopicObserverMap T O :=
  operations.foldl (fun collections operation => operation.2.apply operation.1 collections) collections

/-- The messages that `PostThreadNotifications` sends, in order. -/
def ObserverCollection.postThreadNotifications (collection : ObserverCollection T O)
    (notification : Notification D) : List (T × Notification D) :=
  collection.observerSets.map fun set => (set.thread, notification)

def notifyObserversImpl (collections : TopicObserverMap T O) (notification : Notification D) :
    List (T × Notification D) :=
  match getTopicObserverCollection collections notification.topic with
  | none => []
  | some collection => collection.postThreadNotifications notification

def ObserverCollection.observersOn (collection : ObserverCollection T O) (thread : T) : List O :=
  ((collection.getThreadObserverSet thread).map (·.observers)).getD []

def observersOn (collections : TopicObserverMap T O) (topic : String) (thread : T) : List O :=
  ((getTopicObserverCollection collections topic).map (·.observersOn thread)).getD []

section
variable {collections : TopicObserverMap T O} {topic other : String} {thread user : T} {observer : O}

omit [LinearOrder O] in
theorem registered_iff :
    Registered collections topic thread observer ↔ observer ∈ observersOn collections topic thread := by
  unfold Registered lookUp observersOn
  cases getTopicObserverCollection collections topic with
  | none => simp
  | some collection =>
      simp only [Option.bind_some, Option.map_some, Option.getD_some, ObserverCollection.observersOn]
      cases collection.getThreadObserverSet thread with
      | none => simp
      | some set => simp

omit [LinearOrder O] in
theorem ObserverCollection.observersOn_put (collection : ObserverCollection T O)
    (set : ThreadObservers T O) : ObserverCollection.observersOn { collection with
      observerSets := OrderedMap.put (·.thread) set collection.observerSets } user =
        if user = set.thread then set.observers else collection.observersOn user := by
  unfold ObserverCollection.observersOn ObserverCollection.getThreadObserverSet
  rw [OrderedMap.find_put]
  split <;> rfl

omit [LinearOrder O] in
theorem ObserverCollection.observersOn_erase (collection : ObserverCollection T O) :
    ObserverCollection.observersOn { collection with
      observerSets := OrderedMap.erase (·.thread) thread collection.observerSets } user =
        if user = thread then [] else collection.observersOn user := by
  unfold ObserverCollection.observersOn ObserverCollection.getThreadObserverSet
  rw [OrderedMap.find_erase]
  split <;> rfl

omit [LinearOrder O] in
theorem observersOn_put (collection : ObserverCollection T O) :
    observersOn (OrderedMap.put (·.topic) collection collections) other user =
      if other = collection.topic then collection.observersOn user
      else observersOn collections other user := by
  unfold observersOn getTopicObserverCollection
  rw [OrderedMap.find_put]
  split <;> rfl

omit [LinearOrder O] in
theorem observersOn_erase :
    observersOn (OrderedMap.erase (·.topic) topic collections) other user =
      if other = topic then [] else observersOn collections other user := by
  unfold observersOn getTopicObserverCollection
  rw [OrderedMap.find_erase]
  split <;> rfl

omit [LinearOrder O] in
theorem getD_collection (address : Nat) :
    ((getTopicObserverCollection collections topic).getD ⟨topic, address, []⟩).topic = topic ∧
      ∀ user, ((getTopicObserverCollection collections topic).getD ⟨topic, address, []⟩).observersOn
        user = observersOn collections topic user := by
  unfold observersOn
  cases found : getTopicObserverCollection collections topic with
  | none => exact ⟨rfl, fun _ => rfl⟩
  | some collection => exact ⟨(OrderedMap.mem_of_find found).2, fun _ => rfl⟩

omit [LinearOrder O] in
theorem ObserverCollection.getD_set (collection : ObserverCollection T O) (address : Nat) :
    ((collection.getThreadObserverSet thread).getD ⟨thread, address, []⟩).thread = thread ∧
      ((collection.getThreadObserverSet thread).getD ⟨thread, address, []⟩).observers =
        collection.observersOn thread := by
  unfold ObserverCollection.observersOn
  cases found : collection.getThreadObserverSet thread with
  | none => exact ⟨rfl, rfl⟩
  | some set => exact ⟨(OrderedMap.mem_of_find found).2, rfl⟩

theorem addObserver_eq (collectionAddress setAddress : Nat) (named : topic ≠ "") :
    (addObserver collectionAddress setAddress thread observer topic collections).2 =
        decide (observer ∉ observersOn collections topic thread) ∧
      ∀ other user, observersOn
        (MessageService.addObserver collectionAddress setAddress thread observer topic collections).1 other user =
          if other = topic ∧ user = thread ∧ observer ∉ observersOn collections topic thread then
            OrderedMap.put id observer (observersOn collections topic thread)
          else observersOn collections other user := by
  obtain ⟨sameTopic, sameCollection⟩ :
      ((getTopicObserverCollection collections topic).getD ⟨topic, collectionAddress, []⟩).topic =
        topic ∧ _ := getD_collection collectionAddress
  rw [addObserver, if_neg named]
  generalize (getTopicObserverCollection collections topic).getD ⟨topic, collectionAddress, []⟩ =
    collection at sameTopic sameCollection
  obtain ⟨sameThread, sameObservers⟩ : ((collection.getThreadObserverSet thread).getD
      ⟨thread, setAddress, []⟩).thread = thread ∧ _ := collection.getD_set setAddress
  simp only
  generalize (collection.getThreadObserverSet thread).getD ⟨thread, setAddress, []⟩ = set
    at sameThread sameObservers
  rw [sameCollection] at sameObservers
  rw [← sameObservers]
  by_cases known : observer ∈ set.observers
  · simp [known]
  · rw [if_neg known]
    refine ⟨by simp [known], fun other user => ?_⟩
    rw [observersOn_put]
    by_cases sameOther : other = topic
    · rw [if_pos (sameOther.trans sameTopic.symm), ObserverCollection.observersOn_put,
        sameCollection, sameOther]
      by_cases sameUser : user = thread
      · simp [sameUser, sameThread, known]
      · simp [sameUser, sameThread]
    · have elsewhere : other ≠ collection.topic := fun same => sameOther (same.trans sameTopic)
      simp [sameOther, elsewhere]

theorem ObserverCollection.remove_eq (thread : T) (observer : O) (collection : ObserverCollection T O) :
    (observer ∉ collection.observersOn thread → collection.remove thread observer = none) ∧
    (observer ∈ collection.observersOn thread → ∃ removed,
      collection.remove thread observer = some removed ∧ removed.topic = collection.topic ∧
      ∀ user, removed.observersOn user = if user = thread then
        OrderedMap.erase id observer (collection.observersOn thread)
      else collection.observersOn user) := by
  unfold ObserverCollection.remove
  cases found : collection.getThreadObserverSet thread with
  | none => simp [ObserverCollection.observersOn, found]
  | some set =>
      have observers : collection.observersOn thread = set.observers := by
        rw [ObserverCollection.observersOn, found]
        rfl
      have sameThread : set.thread = thread := (OrderedMap.mem_of_find found).2
      rw [observers]
      refine ⟨fun unknown => by simp [unknown], fun known => ?_⟩
      simp only [if_pos known]
      refine ⟨_, rfl, rfl, fun user => ?_⟩
      split
      · rename_i empty
        rw [ObserverCollection.observersOn_erase, empty]
      · rw [ObserverCollection.observersOn_put, sameThread]

omit [LinearOrder O] in
theorem ObserverCollection.observersOn_nil {collection : ObserverCollection T O}
    (empty : collection.observerSets = []) (user : T) : collection.observersOn user = [] := by
  simp [ObserverCollection.observersOn, ObserverCollection.getThreadObserverSet, OrderedMap.find, empty]

theorem erase_unknown {observers : List O} (unknown : observer ∉ observers) :
    OrderedMap.erase id observer observers = observers := by
  refine List.filter_eq_self.mpr fun one member => ?_
  have different : one ≠ observer := fun same => unknown (same ▸ member)
  simpa using different

theorem removeObserver_eq (named : topic ≠ "") :
    (removeObserver thread observer topic collections).2 =
        decide (observer ∈ observersOn collections topic thread) ∧
      ∀ other user, observersOn (removeObserver thread observer topic collections).1 other user =
          if other = topic ∧ user = thread then
            OrderedMap.erase id observer (observersOn collections topic thread)
          else observersOn collections other user := by
  have unchanged (unknown : observer ∉ observersOn collections topic thread) (other : String)
      (user : T) : observersOn collections other user = if other = topic ∧ user = thread then
        OrderedMap.erase id observer (observersOn collections topic thread)
      else observersOn collections other user := by
    split
    · rename_i here
      rw [erase_unknown unknown, here.1, here.2]
    · rfl
  rw [removeObserver, if_neg named]
  cases found : getTopicObserverCollection collections topic with
  | none =>
      have unknown : observer ∉ observersOn collections topic thread := by
        simp [observersOn, found]
      exact ⟨by simp [unknown], unchanged unknown⟩
  | some collection =>
      have here (user : T) : observersOn collections topic user = collection.observersOn user := by
        rw [observersOn, found]
        rfl
      have sameTopic : collection.topic = topic := (OrderedMap.mem_of_find found).2
      obtain ⟨unremoved, removed⟩ := collection.remove_eq thread observer
      simp only
      by_cases known : observer ∈ observersOn collections topic thread
      · obtain ⟨removed, done, keptTopic, observers⟩ := removed (here thread ▸ known)
        have inTopic (user : T) : removed.observersOn user = if user = thread then
            OrderedMap.erase id observer (observersOn collections topic thread)
            else observersOn collections topic user := by
          rw [observers, here, here]
        rw [done]
        simp only
        split
        · rename_i empty
          refine ⟨by simp [known], fun other user => ?_⟩
          rw [observersOn_erase]
          by_cases sameOther : other = topic
          · have nothing := (inTopic user).symm.trans (removed.observersOn_nil empty user)
            simpa [sameOther] using nothing.symm
          · simp [sameOther]
        · refine ⟨by simp [known], fun other user => ?_⟩
          rw [observersOn_put, keptTopic, sameTopic]
          by_cases sameOther : other = topic
          · simpa [sameOther] using inTopic user
          · simp [sameOther]
      · rw [unremoved (here thread ▸ known)]
        exact ⟨by simp [known], unchanged known⟩

theorem removeObserversForThread_eq (wellFormed : WellFormed collections) (other : String) (user : T) :
    observersOn (removeObserversForThread thread collections) other user =
      if user = thread then [] else observersOn collections other user := by
  have ordered : OrderedMap.Ordered (·.topic)
      (collections.map (ObserverCollection.removeObserversForThread thread)) :=
    List.pairwise_map.mpr wellFormed.topics
  have mapped : OrderedMap.find (·.topic) other
      (collections.map (ObserverCollection.removeObserversForThread thread)) =
        (OrderedMap.find (·.topic) other collections).map
          (ObserverCollection.removeObserversForThread thread) :=
    OrderedMap.find_map (ObserverCollection.removeObserversForThread thread) (fun _ => rfl) other
      collections
  unfold observersOn getTopicObserverCollection removeObserversForThread
  rw [ordered.find_filter, mapped]
  cases OrderedMap.find (·.topic) other collections with
  | none => simp
  | some collection =>
      have erased : (collection.removeObserversForThread thread).observersOn user =
        if user = thread then [] else collection.observersOn user := collection.observersOn_erase
      rw [Option.map_some, Option.map_some, Option.getD_some]
      by_cases empty : (collection.removeObserversForThread thread).observerSets = []
      · rw [Option.filter_some_neg (by simp [empty]), ← erased,
          ObserverCollection.observersOn_nil empty]
        rfl
      · rw [Option.filter_some_pos (by simp [empty]), ← erased]
        rfl

/-- No empty topic, no empty collection and no empty set of a thread. -/
structure Pruned (collections : TopicObserverMap T O) : Prop where
  wellFormed : WellFormed collections
  topics : ∀ collection ∈ collections, collection.topic ≠ ""
  nonempty : ∀ collection ∈ collections, collection.observerSets ≠ []
  sets : ∀ collection ∈ collections, ∀ set ∈ collection.observerSets, set.observers ≠ []

theorem Pruned.filter (pruned : Pruned collections) (p : ObserverCollection T O → Bool) :
    Pruned (collections.filter p) where
  wellFormed := pruned.wellFormed.filter p
  topics := fun collection member => pruned.topics collection (List.mem_filter.mp member).1
  nonempty := fun collection member => pruned.nonempty collection (List.mem_filter.mp member).1
  sets := fun collection member => pruned.sets collection (List.mem_filter.mp member).1

theorem Pruned.put (pruned : Pruned collections) {collection : ObserverCollection T O}
    (wellFormed : collection.WellFormed) (named : collection.topic ≠ "")
    (nonempty : collection.observerSets ≠ [])
    (sets : ∀ set ∈ collection.observerSets, set.observers ≠ []) :
    Pruned (OrderedMap.put (·.topic) collection collections) where
  wellFormed := pruned.wellFormed.put wellFormed
  topics := by
    intro other member
    rcases OrderedMap.mem_put member with rfl | old
    · exact named
    · exact pruned.topics other old
  nonempty := by
    intro other member
    rcases OrderedMap.mem_put member with rfl | old
    · exact nonempty
    · exact pruned.nonempty other old
  sets := by
    intro other member
    rcases OrderedMap.mem_put member with rfl | old
    · exact sets
    · exact pruned.sets other old

theorem Pruned.getD_sets (pruned : Pruned collections) (topic : String) (address : Nat) :
    ∀ set ∈ ((getTopicObserverCollection collections topic).getD ⟨topic, address, []⟩).observerSets,
      set.observers ≠ [] := by
  cases found : getTopicObserverCollection collections topic with
  | none =>
      intro _ member
      cases member
  | some collection => exact pruned.sets collection (OrderedMap.mem_of_find found).1

theorem Pruned.addObserver (pruned : Pruned collections) (collectionAddress setAddress : Nat) :
    Pruned (addObserver collectionAddress setAddress thread observer topic collections).1 := by
  have wellFormed : WellFormed
      (MessageService.addObserver collectionAddress setAddress thread observer topic collections).1 :=
    pruned.wellFormed.addObserver collectionAddress setAddress
  rw [MessageService.addObserver] at wellFormed ⊢
  split
  · exact pruned
  · rename_i named
    simp only
    split
    · exact pruned
    · have collection := pruned.wellFormed.getD topic collectionAddress
      have sameTopic :
          ((getTopicObserverCollection collections topic).getD ⟨topic, collectionAddress, []⟩).topic =
            topic := (getD_collection collectionAddress).1
      refine pruned.put (collection.put ((collection.getD thread setAddress).put observer))
        (fun empty => named (sameTopic.symm.trans empty)) (OrderedMap.put_ne_nil _) ?_
      intro set member
      rcases OrderedMap.mem_put member with rfl | old
      · exact OrderedMap.put_ne_nil observer
      · exact pruned.getD_sets topic collectionAddress set old

theorem Pruned.removeObserver (pruned : Pruned collections) :
    Pruned (removeObserver thread observer topic collections).1 := by
  rw [MessageService.removeObserver]
  split
  · exact pruned
  · split
    · exact pruned
    · rename_i collection found
      split
      · exact pruned
      · rename_i removed done
        split
        · exact pruned.filter _
        · rename_i nonempty
          obtain ⟨member, -⟩ := OrderedMap.mem_of_find found
          have sameTopic := (ObserverCollection.remove_keeps done).2
          refine pruned.put ((pruned.wellFormed.found found).1.remove done)
            (sameTopic ▸ pruned.topics collection member) nonempty ?_
          rw [ObserverCollection.remove] at done
          split at done
          · contradiction
          · split at done
            · cases done
              intro set inSets
              simp only at inSets
              split at inSets
              · exact pruned.sets collection member set (List.mem_filter.mp inSets).1
              · rename_i left
                rcases OrderedMap.mem_put inSets with rfl | old
                · exact left
                · exact pruned.sets collection member set old
            · contradiction

theorem Pruned.removeObserversForThread (pruned : Pruned collections) :
    Pruned (removeObserversForThread thread collections) := by
  refine ⟨pruned.wellFormed.removeObserversForThread, ?_, ?_, ?_⟩
  · intro collection member
    obtain ⟨old, inOld, rfl⟩ := List.mem_map.mp (List.mem_filter.mp member).1
    exact pruned.topics old inOld
  · intro collection member
    exact of_decide_eq_true (List.mem_filter.mp member).2
  · intro collection member set inSets
    obtain ⟨old, inOld, rfl⟩ := List.mem_map.mp (List.mem_filter.mp member).1
    exact pruned.sets old inOld set (List.mem_filter.mp inSets).1

theorem Pruned.apply (pruned : Pruned collections) (operation : Operation O) :
    Pruned (operation.apply thread collections) := by
  cases operation with
  | addObserver observer topic collectionAddress setAddress =>
      exact pruned.addObserver collectionAddress setAddress
  | removeObserver observer topic => exact pruned.removeObserver
  | removeObserversForThread => exact pruned.removeObserversForThread

end

abbrev Registrations (T O : Type) := Set (String × T × O)

def Operation.register (thread : T) (registrations : Registrations T O) :
    Operation O → Registrations T O
  | .addObserver observer topic _ _ =>
      if topic = "" then registrations else insert (topic, thread, observer) registrations
  | .removeObserver observer topic => { registered ∈ registrations | registered ≠ (topic, thread, observer) }
  | .removeObserversForThread => { registered ∈ registrations | registered.2.1 ≠ thread }

def registerAll (registrations : Registrations T O) (operations : List (T × Operation O)) :
    Registrations T O :=
  operations.foldl (fun registrations operation => operation.2.register operation.1 registrations)
    registrations

structure Represents (collections : TopicObserverMap T O) (registrations : Registrations T O) : Prop where
  pruned : Pruned collections
  registered : ∀ topic thread observer,
    Registered collections topic thread observer ↔ (topic, thread, observer) ∈ registrations

section
variable {collections : TopicObserverMap T O} {registrations : Registrations T O}

theorem Represents.named (represents : Represents collections registrations) {topic : String}
    {thread : T} {observer : O} (member : (topic, thread, observer) ∈ registrations) : topic ≠ "" := by
  obtain ⟨place, found, -⟩ := (represents.registered topic thread observer).mpr member
  obtain ⟨collection, inMap, -⟩ := Option.bind_eq_some_iff.mp found
  obtain ⟨inCollections, rfl⟩ := OrderedMap.mem_of_find inMap
  exact represents.pruned.topics collection inCollections

theorem Represents.mem_observersOn (represents : Represents collections registrations) {topic : String}
    {thread : T} {observer : O} : observer ∈ observersOn collections topic thread ↔
      (topic, thread, observer) ∈ registrations := by
  rw [← registered_iff]
  exact represents.registered topic thread observer

theorem Represents.addObserver (represents : Represents collections registrations) (thread : T)
    (observer : O) {topic : String} (named : topic ≠ "") (collectionAddress setAddress : Nat)
    (other : String) (user : T) (one : O) : one ∈ observersOn
      (addObserver collectionAddress setAddress thread observer topic collections).1 other user ↔
        (other, user, one) ∈ insert (topic, thread, observer) registrations := by
  rw [(addObserver_eq collectionAddress setAddress named).2, Set.mem_insert_iff,
    ← represents.mem_observersOn]
  split
  · rename_i here
    obtain ⟨rfl, rfl, -⟩ := here
    rw [OrderedMap.mem_put_id]
    simp
  · rename_i elsewhere
    constructor
    · exact .inr
    · rintro (same | known)
      · obtain ⟨rfl, rfl, rfl⟩ : other = topic ∧ user = thread ∧ one = observer := by
          simpa using same
        simpa using elsewhere
      · exact known

theorem Represents.removeObserver (represents : Represents collections registrations) (thread : T)
    (observer : O) {topic : String} (named : topic ≠ "") (other : String) (user : T) (one : O) :
    one ∈ observersOn (removeObserver thread observer topic collections).1 other user ↔
      (other, user, one) ∈ registrations ∧ (other, user, one) ≠ (topic, thread, observer) := by
  rw [(removeObserver_eq named).2, ← represents.mem_observersOn]
  split
  · rename_i here
    obtain ⟨rfl, rfl⟩ := here
    rw [OrderedMap.mem_erase]
    simp
  · rename_i elsewhere
    have different : (other, user, one) ≠ (topic, thread, observer) := by
      intro same
      exact elsewhere ⟨(Prod.mk.inj same).1, (Prod.mk.inj (Prod.mk.inj same).2).1⟩
    simp [different]

theorem Represents.apply (represents : Represents collections registrations) (thread : T)
    (operation : Operation O) :
    Represents (operation.apply thread collections) (operation.register thread registrations) := by
  refine ⟨represents.pruned.apply operation, fun other user one => ?_⟩
  rw [registered_iff]
  cases operation with
  | addObserver observer topic collectionAddress setAddress =>
      by_cases named : topic = ""
      · have unchanged : MessageService.addObserver collectionAddress setAddress thread observer topic
            collections = (collections, false) := if_pos named
        rw [Operation.apply, unchanged, Operation.register, if_pos named]
        exact represents.mem_observersOn
      · rw [Operation.register, if_neg named]
        exact represents.addObserver thread observer named collectionAddress setAddress other user one
  | removeObserver observer topic =>
      by_cases named : topic = ""
      · have unchanged : MessageService.removeObserver thread observer topic collections =
            (collections, false) := if_pos named
        rw [Operation.apply, unchanged, represents.mem_observersOn]
        refine ⟨fun member => ⟨member, fun same => ?_⟩, fun member => member.1⟩
        exact represents.named member ((Prod.mk.inj same).1.trans named)
      · exact represents.removeObserver thread observer named other user one
  | removeObserversForThread =>
      rw [Operation.apply, removeObserversForThread_eq represents.pruned.wellFormed]
      split
      · rename_i here
        simp [Operation.register, here]
      · rename_i elsewhere
        rw [represents.mem_observersOn]
        exact ⟨fun member => ⟨member, elsewhere⟩, fun member => member.1⟩

theorem Represents.applyAll (represents : Represents collections registrations)
    (operations : List (T × Operation O)) :
    Represents (applyAll collections operations) (registerAll registrations operations) := by
  induction operations generalizing collections registrations with
  | nil => exact represents
  | cons operation rest ih => exact ih (represents.apply operation.1 operation.2)

theorem represents_empty : Represents ([] : TopicObserverMap T O) ∅ where
  pruned := ⟨⟨.nil, nofun⟩, nofun, nofun, nofun⟩
  registered := by simp [registered_iff, observersOn, getTopicObserverCollection,
    OrderedMap.find]

theorem Represents.addObserver_returns (represents : Represents collections registrations)
    (thread : T) (observer : O) (topic : String) (collectionAddress setAddress : Nat) :
    (MessageService.addObserver collectionAddress setAddress thread observer topic collections).2 =
        true ↔ (Operation.addObserver observer topic collectionAddress setAddress).register thread
          registrations ≠ registrations := by
  by_cases named : topic = ""
  · simp [MessageService.addObserver, Operation.register, named]
  · rw [(addObserver_eq collectionAddress setAddress named).1, Operation.register, if_neg named,
      decide_eq_true_eq, represents.mem_observersOn]
    exact not_congr Set.insert_eq_self.symm

theorem Represents.removeObserver_returns (represents : Represents collections registrations)
    (thread : T) (observer : O) (topic : String) :
    (MessageService.removeObserver thread observer topic collections).2 = true ↔
      (Operation.removeObserver observer topic).register thread registrations ≠ registrations := by
  have changes : (Operation.removeObserver observer topic).register thread registrations ≠
      registrations ↔ (topic, thread, observer) ∈ registrations := by
    constructor
    · intro changed
      by_contra missing
      refine changed (Set.ext fun one => ⟨fun member => member.1, fun member => ⟨member, ?_⟩⟩)
      exact fun same => missing (same ▸ member)
    · intro member same
      exact (same.symm ▸ member : _ ∈ (Operation.removeObserver observer topic).register thread
        registrations).2 rfl
  rw [changes]
  by_cases named : topic = ""
  · simp only [MessageService.removeObserver, named, if_true, Bool.false_eq_true, false_iff]
    exact fun member => represents.named member rfl
  · rw [(removeObserver_eq named).1, decide_eq_true_eq, represents.mem_observersOn]

theorem Pruned.hasObserver (pruned : Pruned collections) {collection : ObserverCollection T O}
    {topic : String} (found : getTopicObserverCollection collections topic = some collection)
    (thread : T) : (∃ set ∈ collection.observerSets, set.thread = thread) ↔
      ∃ observer, observer ∈ observersOn collections topic thread := by
  obtain ⟨member, -⟩ := OrderedMap.mem_of_find found
  have here : observersOn collections topic thread = collection.observersOn thread := by
    rw [observersOn, found]
    rfl
  rw [here]
  constructor
  · rintro ⟨set, inSets, rfl⟩
    have foundSet : collection.getThreadObserverSet set.thread = some set :=
      (pruned.wellFormed.each collection member).threads.find_of_mem inSets
    obtain ⟨observer, inSet⟩ := List.exists_mem_of_ne_nil _ (pruned.sets collection member set inSets)
    refine ⟨observer, ?_⟩
    rw [ObserverCollection.observersOn, foundSet]
    exact inSet
  · rintro ⟨observer, inSet⟩
    cases foundSet : collection.getThreadObserverSet thread with
    | none => simp [ObserverCollection.observersOn, foundSet] at inSet
    | some set => exact ⟨set, OrderedMap.mem_of_find foundSet⟩

theorem Represents.posts (represents : Represents collections registrations)
    (notification : Notification D) :
    ((notifyObserversImpl collections notification).map (·.1)).Nodup ∧
    (∀ message ∈ notifyObserversImpl collections notification, message.2 = notification) ∧
    ∀ thread, (∃ message ∈ notifyObserversImpl collections notification, message.1 = thread) ↔
      ∃ observer, (notification.topic, thread, observer) ∈ registrations := by
  have observers (thread : T) :
      (∃ observer, (notification.topic, thread, observer) ∈ registrations) ↔
        ∃ observer, observer ∈ observersOn collections notification.topic thread :=
    exists_congr fun _ => represents.mem_observersOn.symm
  simp only [observers]
  unfold notifyObserversImpl
  cases found : getTopicObserverCollection collections notification.topic with
  | none => simp [observersOn, found]
  | some collection =>
      simp only [ObserverCollection.postThreadNotifications, List.map_map, List.mem_map]
      refine ⟨?_, ?_, fun thread => ?_⟩
      · have threads := (represents.pruned.wellFormed.found found).1.threads
        exact List.pairwise_map.mpr (threads.imp ne_of_lt)
      · rintro _ ⟨set, -, rfl⟩
        rfl
      · rw [← represents.pruned.hasObserver found]
        constructor
        · rintro ⟨_, ⟨set, member, rfl⟩, same⟩
          exact ⟨set, member, same⟩
        · rintro ⟨set, member, same⟩
          exact ⟨_, ⟨set, member, rfl⟩, same⟩

end

/-- The threads that a notifier sends to, one after another, are those of `PostThreadNotifications`. -/
theorem step_notifyObservers {state after : State T O D} {thread : T} {notification : Notification D}
    (moved : step state (thread, .notifyObservers notification) = some after) :
    (after.posting.map (·.2.2)).getD [] =
      (notifyObserversImpl state.collections notification).map (·.1) := by
  simp only [step, Option.ite_none_left_eq_some, Option.ite_none_right_eq_some] at moved
  obtain ⟨unlocked, _, moved⟩ := moved
  unfold notifyObserversImpl
  cases found : getTopicObserverCollection state.collections notification.topic with
  | none =>
      rw [found] at moved
      cases moved
      simp [not_not.mp unlocked]
  | some collection =>
      rw [found] at moved
      cases moved
      simp [ObserverCollection.postThreadNotifications]

theorem registry_represents_registrations (operations : List (T × Operation O)) :
    let collections := applyAll [] operations
    let registrations := registerAll ∅ operations
    (∀ topic thread observer,
      Registered collections topic thread observer ↔ (topic, thread, observer) ∈ registrations) ∧
    (∀ collection ∈ collections, collection.observerSets ≠ [] ∧
      ∀ set ∈ collection.observerSets, set.observers ≠ []) ∧
    (∀ thread observer topic collectionAddress setAddress,
      (addObserver collectionAddress setAddress thread observer topic collections).2 = true ↔
        (Operation.addObserver observer topic collectionAddress setAddress).register thread
          registrations ≠ registrations) ∧
    (∀ thread observer topic, (removeObserver thread observer topic collections).2 = true ↔
      (Operation.removeObserver observer topic).register thread registrations ≠ registrations) ∧
    ∀ notification : Notification D,
      ((notifyObserversImpl collections notification).map (·.1)).Nodup ∧
      (∀ message ∈ notifyObserversImpl collections notification, message.2 = notification) ∧
      ∀ thread, (∃ message ∈ notifyObserversImpl collections notification, message.1 = thread) ↔
        ∃ observer, (notification.topic, thread, observer) ∈ registrations := by
  have represents := (represents_empty : Represents ([] : TopicObserverMap T O) ∅).applyAll operations
  refine ⟨represents.registered, ?_, ?_, ?_, represents.posts⟩
  · intro collection member
    exact ⟨represents.pruned.nonempty collection member, represents.pruned.sets collection member⟩
  · intro thread observer topic collectionAddress setAddress
    exact represents.addObserver_returns thread observer topic collectionAddress setAddress
  · intro thread observer topic
    exact represents.removeObserver_returns thread observer topic

end ThreadIpc.MessageService
