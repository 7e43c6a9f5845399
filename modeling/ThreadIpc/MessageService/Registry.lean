import ThreadIpc.MessageService.Model

/-!
# The nested maps of observers

`lookUp` reads them as one map from a topic and a thread to the observers registered there, with the
addresses that a delivery compares. Every operation changes it in one place only.
-/

namespace ThreadIpc.MessageService
open Lib

variable {T O : Type} [LinearOrder T]

structure Place (O : Type) where
  collectionAddress : Nat
  setAddress : Nat
  observers : List O
  deriving DecidableEq

def lookUp (collections : TopicObserverMap T O) (topic : String) (thread : T) : Option (Place O) :=
  (getTopicObserverCollection collections topic).bind fun collection =>
    (collection.getThreadObserverSet thread).map fun set =>
      ⟨collection.address, set.address, set.observers⟩

def Registered (collections : TopicObserverMap T O) (topic : String) (thread : T) (observer : O) :
    Prop :=
  ∃ place, lookUp collections topic thread = some place ∧ observer ∈ place.observers

def KeepsAddresses (before after : TopicObserverMap T O) : Prop :=
  ∀ topic thread place place', lookUp before topic thread = some place →
    lookUp after topic thread = some place' →
      place'.collectionAddress = place.collectionAddress ∧ place'.setAddress = place.setAddress

section
variable {collections : TopicObserverMap T O} {topic : String}

theorem keepsAddresses_refl : KeepsAddresses collections collections := by
  intro topic thread place place' found found'
  cases found.symm.trans found'
  exact ⟨rfl, rfl⟩

structure ObserverCollection.Keeps (before after : ObserverCollection T O) : Prop where
  address : after.address = before.address
  sets : ∀ thread set set', before.getThreadObserverSet thread = some set →
    after.getThreadObserverSet thread = some set' → set'.address = set.address

theorem keepsAddresses_of_keeps {before after : TopicObserverMap T O}
    (keeps : ∀ topic collection collection', getTopicObserverCollection before topic = some collection →
      getTopicObserverCollection after topic = some collection' → collection.Keeps collection') :
    KeepsAddresses before after := by
  intro topic thread place place' found found'
  obtain ⟨collection, inBefore, found⟩ := Option.bind_eq_some_iff.mp found
  obtain ⟨collection', inAfter, found'⟩ := Option.bind_eq_some_iff.mp found'
  obtain ⟨set, inCollection, rfl⟩ := Option.map_eq_some_iff.mp found
  obtain ⟨set', inCollection', rfl⟩ := Option.map_eq_some_iff.mp found'
  have kept := keeps topic collection collection' inBefore inAfter
  exact ⟨kept.address, kept.sets thread set set' inCollection inCollection'⟩

theorem ObserverCollection.keeps_refl (collection : ObserverCollection T O) :
    collection.Keeps collection where
  address := rfl
  sets := by
    intro thread set set' found found'
    cases found.symm.trans found'
    rfl

theorem keepsAddresses_put {collection : ObserverCollection T O}
    (keeps : ∀ old, getTopicObserverCollection collections collection.topic = some old →
      old.Keeps collection) :
    KeepsAddresses collections (OrderedMap.put (·.topic) collection collections) := by
  apply keepsAddresses_of_keeps
  intro topic old new found found'
  by_cases same : collection.topic = topic
  · subst same
    have found' : some collection = some new := (OrderedMap.find_put_self collection).symm.trans found'
    cases found'
    exact keeps old found
  · have found' := (OrderedMap.find_put_of_ne same).symm.trans found'
    cases found.symm.trans found'
    exact old.keeps_refl

theorem keepsAddresses_erase :
    KeepsAddresses collections (OrderedMap.erase (·.topic) topic collections) := by
  apply keepsAddresses_of_keeps
  intro topic' old new found found'
  by_cases same : topic' = topic
  · subst same
    rw [getTopicObserverCollection, OrderedMap.find_erase_self] at found'
    contradiction
  · rw [getTopicObserverCollection, OrderedMap.find_erase_of_ne same] at found'
    cases found.symm.trans found'
    exact old.keeps_refl

theorem ObserverCollection.keeps_put {collection : ObserverCollection T O}
    {set : ThreadObservers T O}
    (same : ∀ old, collection.getThreadObserverSet set.thread = some old →
      set.address = old.address) : collection.Keeps
        { collection with observerSets := OrderedMap.put (·.thread) set collection.observerSets } where
  address := rfl
  sets := by
    intro thread old new found found'
    by_cases mine : set.thread = thread
    · subst mine
      have found' : some set = some new := (OrderedMap.find_put_self set).symm.trans found'
      cases found'
      exact same old found
    · have found' := (OrderedMap.find_put_of_ne mine).symm.trans found'
      cases found.symm.trans found'
      rfl

theorem ObserverCollection.keeps_erase (collection : ObserverCollection T O) (thread : T) :
    collection.Keeps { collection with
      observerSets := OrderedMap.erase (·.thread) thread collection.observerSets } where
  address := rfl
  sets := by
    intro thread' old new found found'
    by_cases mine : thread' = thread
    · subst mine
      rw [ObserverCollection.getThreadObserverSet, OrderedMap.find_erase_self] at found'
      contradiction
    · rw [ObserverCollection.getThreadObserverSet, OrderedMap.find_erase_of_ne mine] at found'
      cases found.symm.trans found'
      rfl

theorem ObserverCollection.add_keeps (collection : ObserverCollection T O) (thread : T)
    (address : Nat) (observers : List O → List O) : collection.Keeps { collection with
      observerSets := OrderedMap.put (·.thread)
        (let set := (collection.getThreadObserverSet thread).getD ⟨thread, address, []⟩;
          { set with observers := observers set.observers }) collection.observerSets } := by
  apply ObserverCollection.keeps_put
  intro old present
  cases found : collection.getThreadObserverSet thread with
  | none =>
      rw [found] at present
      exact absurd (found.symm.trans present) nofun
  | some set =>
      have mine : set.thread = thread := (OrderedMap.mem_of_find found).2
      subst mine
      rw [found] at present
      cases found.symm.trans present
      rfl

end

variable [LinearOrder O]

structure ObserverCollection.WellFormed (collection : ObserverCollection T O) : Prop where
  threads : OrderedMap.Ordered (·.thread) collection.observerSets
  observers : ∀ set ∈ collection.observerSets, OrderedMap.Ordered id set.observers

structure WellFormed (collections : TopicObserverMap T O) : Prop where
  topics : OrderedMap.Ordered (·.topic) collections
  each : ∀ collection ∈ collections, collection.WellFormed

section
variable {collections : TopicObserverMap T O} {topic : String} {thread : T} {observer : O}

theorem WellFormed.put (wellFormed : WellFormed collections) {collection : ObserverCollection T O}
    (new : collection.WellFormed) : WellFormed (OrderedMap.put (·.topic) collection collections) where
  topics := wellFormed.topics.put collection
  each := by
    intro other member
    rcases OrderedMap.mem_put member with rfl | old
    · exact new
    · exact wellFormed.each other old

theorem WellFormed.filter (wellFormed : WellFormed collections)
    (p : ObserverCollection T O → Bool) : WellFormed (collections.filter p) where
  topics := wellFormed.topics.filter p
  each := fun collection member => wellFormed.each collection (List.mem_filter.mp member).1

theorem ObserverCollection.WellFormed.put {collection : ObserverCollection T O}
    (wellFormed : collection.WellFormed) {set : ThreadObservers T O}
    (new : OrderedMap.Ordered id set.observers) : ObserverCollection.WellFormed
      { collection with observerSets := OrderedMap.put (·.thread) set collection.observerSets } where
  threads := wellFormed.threads.put set
  observers := by
    intro other member
    rcases OrderedMap.mem_put member with rfl | old
    · exact new
    · exact wellFormed.observers other old

theorem ObserverCollection.WellFormed.filter {collection : ObserverCollection T O}
    (wellFormed : collection.WellFormed) (p : ThreadObservers T O → Bool) :
    ObserverCollection.WellFormed
      { collection with observerSets := collection.observerSets.filter p } where
  threads := wellFormed.threads.filter p
  observers := fun set member => wellFormed.observers set (List.mem_filter.mp member).1

theorem WellFormed.found (wellFormed : WellFormed collections)
    {collection : ObserverCollection T O}
    (found : getTopicObserverCollection collections topic = some collection) :
    collection.WellFormed ∧ collection.topic = topic := by
  obtain ⟨member, keyed⟩ := OrderedMap.mem_of_find found
  exact ⟨wellFormed.each collection member, keyed⟩

theorem ObserverCollection.WellFormed.found {collection : ObserverCollection T O}
    (wellFormed : collection.WellFormed) {set : ThreadObservers T O}
    (found : collection.getThreadObserverSet thread = some set) :
    OrderedMap.Ordered id set.observers ∧ set.thread = thread := by
  obtain ⟨member, keyed⟩ := OrderedMap.mem_of_find found
  exact ⟨wellFormed.observers set member, keyed⟩

theorem WellFormed.empty (topic : String) (address : Nat) :
    ObserverCollection.WellFormed (⟨topic, address, []⟩ : ObserverCollection T O) where
  threads := List.Pairwise.nil
  observers _ member := absurd member List.not_mem_nil

theorem WellFormed.getD (wellFormed : WellFormed collections) (topic : String) (address : Nat) :
    ((getTopicObserverCollection collections topic).getD ⟨topic, address, []⟩).WellFormed := by
  cases found : getTopicObserverCollection collections topic with
  | none => exact WellFormed.empty topic address
  | some collection => exact (wellFormed.found found).1

theorem ObserverCollection.WellFormed.getD {collection : ObserverCollection T O}
    (wellFormed : collection.WellFormed) (thread : T) (address : Nat) : OrderedMap.Ordered id
      ((collection.getThreadObserverSet thread).getD ⟨thread, address, []⟩).observers := by
  cases found : collection.getThreadObserverSet thread with
  | none => exact List.Pairwise.nil
  | some set => exact (wellFormed.found found).1

theorem WellFormed.addObserver (wellFormed : WellFormed collections)
    (collectionAddress setAddress : Nat) : WellFormed
      (addObserver collectionAddress setAddress thread observer topic collections).1 := by
  rw [MessageService.addObserver]
  split
  · exact wellFormed
  · simp only
    split
    · exact wellFormed
    · have collection := wellFormed.getD topic collectionAddress
      exact wellFormed.put (collection.put ((collection.getD thread setAddress).put observer))

theorem ObserverCollection.WellFormed.remove {collection removed : ObserverCollection T O}
    (wellFormed : collection.WellFormed) (done : collection.remove thread observer = some removed) :
    removed.WellFormed := by
  rw [ObserverCollection.remove] at done
  split at done
  · contradiction
  · rename_i set found
    split at done
    · cases done
      have observers : OrderedMap.Ordered id (OrderedMap.erase id observer set.observers) :=
        (wellFormed.found found).1.filter _
      split
      · exact wellFormed.filter _
      · exact wellFormed.put observers
    · contradiction

theorem WellFormed.removeObserver (wellFormed : WellFormed collections) :
    WellFormed (removeObserver thread observer topic collections).1 := by
  rw [MessageService.removeObserver]
  split
  · exact wellFormed
  · split
    · exact wellFormed
    · rename_i collection found
      split
      · exact wellFormed
      · rename_i removed done
        split
        · exact wellFormed.filter _
        · exact wellFormed.put ((wellFormed.found found).1.remove done)

theorem WellFormed.removeObserversForThread (wellFormed : WellFormed collections) :
    WellFormed (removeObserversForThread thread collections) := by
  apply WellFormed.filter
  constructor
  · exact List.pairwise_map.mpr wellFormed.topics
  · intro collection member
    obtain ⟨old, inOld, rfl⟩ := List.mem_map.mp member
    exact (wellFormed.each old inOld).filter _

theorem addObserver_keepsAddresses (collectionAddress setAddress : Nat) :
    KeepsAddresses collections
      (addObserver collectionAddress setAddress thread observer topic collections).1 := by
  rw [MessageService.addObserver]
  split
  · exact keepsAddresses_refl
  · simp only
    split
    · exact keepsAddresses_refl
    · apply keepsAddresses_put
      intro old found
      cases known : getTopicObserverCollection collections topic with
      | none =>
          rw [known] at found
          exact absurd (known.symm.trans found) nofun
      | some collection =>
          have keyed : collection.topic = topic := (OrderedMap.mem_of_find known).2
          subst keyed
          rw [known] at found
          cases known.symm.trans found
          exact old.add_keeps thread setAddress (OrderedMap.put id observer)

theorem ObserverCollection.remove_keeps {collection removed : ObserverCollection T O}
    (done : collection.remove thread observer = some removed) :
    collection.Keeps removed ∧ removed.topic = collection.topic := by
  rw [ObserverCollection.remove] at done
  split at done
  · contradiction
  · rename_i set found
    split at done
    · cases done
      refine ⟨?_, rfl⟩
      split
      · exact collection.keeps_erase thread
      · apply ObserverCollection.keeps_put
        intro old present
        have mine : set.thread = thread := (OrderedMap.mem_of_find found).2
        simp only [mine] at present ⊢
        cases found.symm.trans present
        rfl
    · contradiction

theorem removeObserver_keepsAddresses :
    KeepsAddresses collections (removeObserver thread observer topic collections).1 := by
  rw [MessageService.removeObserver]
  split
  · exact keepsAddresses_refl
  · split
    · exact keepsAddresses_refl
    · rename_i collection found
      split
      · exact keepsAddresses_refl
      · rename_i removed done
        obtain ⟨keeps, sameTopic⟩ := ObserverCollection.remove_keeps done
        split
        · exact keepsAddresses_erase
        · apply keepsAddresses_put
          intro old present
          have keyed : collection.topic = topic := (OrderedMap.mem_of_find found).2
          rw [sameTopic, keyed] at present
          cases found.symm.trans present
          exact keeps

theorem removeObserversForThread_keepsAddresses (wellFormed : WellFormed collections) :
    KeepsAddresses collections (removeObserversForThread thread collections) := by
  apply keepsAddresses_of_keeps
  intro topic old new found found'
  obtain ⟨member, keyed⟩ := OrderedMap.mem_of_find found'
  obtain ⟨source, inSource, rfl⟩ := List.mem_map.mp (List.mem_filter.mp member).1
  have same : some source = some old := by
    rw [← found, ← keyed]
    exact (wellFormed.topics.find_of_mem inSource).symm
  cases same
  exact old.keeps_erase thread

end

end ThreadIpc.MessageService
