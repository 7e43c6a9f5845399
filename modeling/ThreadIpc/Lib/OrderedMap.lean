import Mathlib.Data.List.Basic
import Mathlib.Order.Lattice

namespace ThreadIpc.Lib.OrderedMap

variable {κ ν : Type*} [LinearOrder κ] (key : ν → κ)

/-- A map kept as the list of its values in the order of their keys, as an ordered tree visits it. -/
def Ordered (entries : List ν) : Prop :=
  entries.Pairwise fun earlier later => key earlier < key later

def find (k : κ) (entries : List ν) : Option ν :=
  entries.find? fun entry => key entry = k

def put (value : ν) : List ν → List ν
  | [] => [value]
  | head :: rest =>
      if key value < key head then value :: head :: rest
      else if key value = key head then value :: rest
      else head :: put value rest

def erase (k : κ) (entries : List ν) : List ν :=
  entries.filter fun entry => key entry ≠ k

variable {key} {entries : List ν}

theorem mem_of_find {k : κ} {value : ν} (found : find key k entries = some value) :
    value ∈ entries ∧ key value = k :=
  ⟨List.mem_of_find?_eq_some found, by simpa using List.find?_some found⟩

theorem Ordered.find_of_mem (ordered : Ordered key entries) {value : ν} (member : value ∈ entries) :
    find key (key value) entries = some value := by
  induction entries with
  | nil => contradiction
  | cons head rest ih =>
      obtain ⟨smaller, ordered⟩ := List.pairwise_cons.mp ordered
      rcases List.mem_cons.mp member with rfl | later
      · simp [find]
      · have different : key head ≠ key value := (smaller value later).ne
        simpa [find, different] using ih ordered later

theorem Ordered.put_of_find (ordered : Ordered key entries) {value old : ν}
    (found : find key (key value) entries = some old) :
    ∃ before after, entries = before ++ old :: after ∧
      put key value entries = before ++ value :: after := by
  induction entries with
  | nil => contradiction
  | cons head rest ih =>
      obtain ⟨smaller, ordered⟩ := List.pairwise_cons.mp ordered
      by_cases same : key head = key value
      · have first : head = old := by simpa [find, same] using found
        exact ⟨[], rest, by rw [first]; rfl, by simp [put, same]⟩
      · have found : find key (key value) rest = some old := by simpa [find, same] using found
        obtain ⟨member, keyed⟩ := mem_of_find found
        have later : ¬ key value < key head := (keyed ▸ smaller old member).not_gt
        obtain ⟨before, after, split, put⟩ := ih ordered found
        refine ⟨head :: before, after, congrArg (head :: ·) split, ?_⟩
        simp [OrderedMap.put, later, Ne.symm same, put]

theorem put_of_not_find {value : ν} (missing : find key (key value) entries = none) :
    ∃ before after, entries = before ++ after ∧
      put key value entries = before ++ value :: after := by
  induction entries with
  | nil => exact ⟨[], [], rfl, rfl⟩
  | cons head rest ih =>
      by_cases same : key head = key value
      · simp [find, same] at missing
      · by_cases smaller : key value < key head
        · exact ⟨[], head :: rest, rfl, by simp [put, smaller]⟩
        · have missing : find key (key value) rest = none := by simpa [find, same] using missing
          obtain ⟨before, after, split, put⟩ := ih missing
          refine ⟨head :: before, after, congrArg (head :: ·) split, ?_⟩
          simp [OrderedMap.put, smaller, Ne.symm same, put]

theorem mem_put {value entry : ν} (member : entry ∈ put key value entries) :
    entry = value ∨ entry ∈ entries := by
  induction entries with
  | nil => exact .inl (List.mem_singleton.mp member)
  | cons head rest ih =>
      rw [put] at member
      split at member
      · exact List.mem_cons.mp member
      · split at member
        · rcases List.mem_cons.mp member with same | later
          · exact .inl same
          · exact .inr (List.mem_cons_of_mem _ later)
        · rcases List.mem_cons.mp member with rfl | later
          · exact .inr List.mem_cons_self
          · exact (ih later).imp_right (List.mem_cons_of_mem _)

theorem Ordered.put (ordered : Ordered key entries) (value : ν) :
    Ordered key (put key value entries) := by
  induction entries with
  | nil => exact List.pairwise_singleton _ _
  | cons head rest ih =>
      obtain ⟨smaller, ordered'⟩ := List.pairwise_cons.mp ordered
      rw [OrderedMap.put]
      split
      · rename_i first
        refine List.pairwise_cons.mpr ⟨fun entry member => ?_, ordered⟩
        rcases List.mem_cons.mp member with rfl | later
        · exact first
        · exact first.trans (smaller entry later)
      · rename_i notFirst
        split
        · rename_i same
          exact List.pairwise_cons.mpr ⟨fun entry member => same ▸ smaller entry member, ordered'⟩
        · rename_i different
          refine List.pairwise_cons.mpr ⟨fun entry member => ?_, ih ordered'⟩
          rcases mem_put member with rfl | later
          · exact lt_of_le_of_ne (not_lt.mp notFirst) (Ne.symm different)
          · exact smaller entry later

theorem find_put_self (value : ν) : find key (key value) (put key value entries) = some value := by
  induction entries with
  | nil => simp [put, find]
  | cons head rest ih =>
      rw [put]
      split
      · simp [find]
      · split
        · simp [find]
        · rename_i _ different
          simpa [find, Ne.symm different] using ih

theorem find_put_of_ne {value : ν} {k : κ} (different : key value ≠ k) :
    find key k (put key value entries) = find key k entries := by
  induction entries with
  | nil => simp [put, find, different]
  | cons head rest ih =>
      rw [put]
      split
      · simp [find, different]
      · split
        · rename_i _ same
          have headDifferent : key head ≠ k := same ▸ different
          simp [find, different, headDifferent]
        · by_cases first : key head = k
          · simp [find, first]
          · simpa [find, first] using ih

theorem find_put (value : ν) (k : κ) : find key k (put key value entries) =
    if k = key value then some value else find key k entries := by
  split
  · rename_i same
    rw [same, find_put_self]
  · rename_i different
    exact find_put_of_ne (Ne.symm different)

theorem find_erase_of_ne {k other : κ} (different : k ≠ other) :
    find key k (erase key other entries) = find key k entries := by
  rw [find, erase, List.find?_filter, find]
  congr 1
  funext entry
  by_cases wanted : key entry = k
  · simp [wanted, different]
  · simp [wanted]

theorem find_erase_self (k : κ) (entries : List ν) : find key k (erase key k entries) = none := by
  apply List.find?_eq_none.mpr
  intro entry member
  have kept := (List.mem_filter.mp member).2
  simpa using kept

theorem find_erase (k other : κ) (entries : List ν) : find key k (erase key other entries) =
    if k = other then none else find key k entries := by
  split
  · rename_i same
    rw [same, find_erase_self]
  · rename_i different
    exact find_erase_of_ne different

theorem Ordered.filter (ordered : Ordered key entries) (p : ν → Bool) :
    Ordered key (entries.filter p) :=
  List.Pairwise.filter p ordered

theorem mem_put_self (value : ν) : value ∈ put key value entries :=
  (mem_of_find (find_put_self value)).1

theorem mem_put_of_ne {value entry : ν} (member : entry ∈ entries) (different : key value ≠ key entry) :
    entry ∈ put key value entries := by
  induction entries with
  | nil => contradiction
  | cons head rest ih =>
      rw [put]
      split
      · exact List.mem_cons_of_mem _ member
      · split
        · rename_i _ same
          rcases List.mem_cons.mp member with rfl | later
          · exact absurd same different
          · exact List.mem_cons_of_mem _ later
        · rcases List.mem_cons.mp member with rfl | later
          · exact List.mem_cons_self
          · exact List.mem_cons_of_mem _ (ih later)

theorem put_ne_nil (value : ν) : put key value entries ≠ [] :=
  List.ne_nil_of_mem (mem_put_self value)

theorem mem_put_id {members : List κ} {value entry : κ} :
    entry ∈ put id value members ↔ entry = value ∨ entry ∈ members := by
  constructor
  · exact mem_put
  · rintro (rfl | member)
    · exact mem_put_self entry
    · by_cases same : value = entry
      · exact same ▸ mem_put_self value
      · exact mem_put_of_ne member same

theorem mem_erase {k : κ} {entry : ν} :
    entry ∈ erase key k entries ↔ entry ∈ entries ∧ key entry ≠ k := by
  simp [erase]

theorem find_map (f : ν → ν) (sameKey : ∀ entry, key (f entry) = key entry) (k : κ)
    (entries : List ν) : find key k (entries.map f) = (find key k entries).map f := by
  unfold find
  rw [List.find?_map]
  simp only [Function.comp_def, sameKey]

theorem Ordered.find_filter (ordered : Ordered key entries) (p : ν → Bool) (k : κ) :
    find key k (entries.filter p) = (find key k entries).filter p := by
  cases found : find key k entries with
  | none =>
      have missing := List.find?_eq_none.mp found
      exact List.find?_eq_none.mpr fun entry member => missing entry (List.mem_filter.mp member).1
  | some value =>
      obtain ⟨member, rfl⟩ := mem_of_find found
      by_cases kept : p value = true
      · rw [Option.filter_some_pos kept]
        exact (ordered.filter p).find_of_mem (List.mem_filter.mpr ⟨member, kept⟩)
      · rw [Option.filter_some_neg (Bool.eq_false_iff.mpr kept)]
        refine List.find?_eq_none.mpr fun entry inFilter => ?_
        obtain ⟨inEntries, entryKept⟩ := List.mem_filter.mp inFilter
        intro same
        have found' := ordered.find_of_mem inEntries
        rw [of_decide_eq_true same, found] at found'
        exact kept (Option.some.inj found' ▸ entryKept)

end ThreadIpc.Lib.OrderedMap
