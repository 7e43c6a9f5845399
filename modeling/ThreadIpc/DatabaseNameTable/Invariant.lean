import ThreadIpc.DatabaseNameTable.Basename
import Mathlib.Data.List.Pairwise

/-!
# One active row for a name, and no basename used again

Versions are counted: the rows of one origin and name have the versions `0, 1, …` in table order, so
the incremented maximum is the number of rows.
-/

namespace ThreadIpc.DatabaseNameTable

structure Sound (table : Table) : Prop where
  numbered : ∀ origin name,
    versions table origin name = (List.range (versions table origin name).length).map Int.ofNat
  named : ∀ row ∈ table, row.basename = versionBasename row.name row.version
  active : ∀ origin name, table.countP (Row.isActive origin name) ≤ 1
  distinct : table.Pairwise fun row other => row.origin = other.origin →
    row.basename ≠ other.basename

/-- Fewer than `2 ^ 31` versions of every name. -/
def FewVersions (table : Table) : Prop :=
  ∀ row ∈ table, (versions table row.origin row.name).length < 2 ^ 31

theorem sound_nil : Sound [] where
  numbered _ _ := rfl
  named _ member := absurd member List.not_mem_nil
  active _ _ := Nat.zero_le 1
  distinct := List.Pairwise.nil

section
variable {table : Table} {origin name : String}

theorem versions_length_lt (few : FewVersions table) (origin name : String) :
    (versions table origin name).length < 2 ^ 31 := by
  cases found : table.filter fun row => row.origin = origin ∧ row.name = name with
  | nil =>
      rw [versions, found]
      decide
  | cons row rest =>
      have member : row ∈ table.filter fun row => row.origin = origin ∧ row.name = name :=
        found ▸ List.mem_cons_self
      simp only [List.mem_filter, decide_eq_true_eq] at member
      obtain ⟨inTable, rfl, rfl⟩ := member
      exact few row inTable

theorem Sound.version_lt (sound : Sound table) {row : Row} (member : row ∈ table) :
    ∃ version : Nat, row.version = version ∧
      version < (versions table row.origin row.name).length := by
  have listed : row.version ∈ versions table row.origin row.name :=
    List.mem_map_of_mem (List.mem_filter.mpr ⟨member, by simp⟩)
  rw [sound.numbered] at listed
  obtain ⟨version, inRange, equal⟩ := List.mem_map.mp listed
  exact ⟨version, equal.symm, List.mem_range.mp inRange⟩

theorem max?_range (count : Nat) : ((List.range count).map Int.ofNat).max? =
    if count = 0 then none else some ((count - 1 : Nat) : Int) := by
  cases count with
  | zero => rfl
  | succ last =>
      rw [if_neg (Nat.succ_ne_zero last)]
      apply List.max?_eq_some_iff.mpr
      constructor
      · exact List.mem_map.mpr ⟨last, List.mem_range.mpr (Nat.lt_succ_self last), rfl⟩
      · intro version member
        obtain ⟨index, inRange, rfl⟩ := List.mem_map.mp member
        exact Int.ofNat_le.mpr (Nat.le_of_lt_succ (List.mem_range.mp inRange))

theorem Sound.nextVersion (sound : Sound table)
    (few : (versions table origin name).length < 2 ^ 31) :
    nextVersionHelper table origin name = (versions table origin name).length := by
  rw [nextVersionHelper, sound.numbered, max?_range]
  cases counted : (versions table origin name).length with
  | zero => simp
  | succ last =>
      rw [counted] at few
      simp only [List.length_map, List.length_range, Nat.succ_ne_zero, if_false,
        Nat.add_sub_cancel]
      rw [Int.bmod_eq_of_le (by omega) (by omega)]
      rfl

theorem Sound.fresh (sound : Sound table) (few : (versions table origin name).length < 2 ^ 31)
    {row : Row} (member : row ∈ table) (same : row.origin = origin) :
    row.basename ≠ versionBasename name (nextVersionHelper table origin name) := by
  intro equal
  obtain ⟨version, isVersion, bound⟩ := sound.version_lt member
  rw [sound.named row member, sound.nextVersion few, isVersion] at equal
  obtain ⟨rfl, rfl⟩ := versionBasename_injective equal
  subst same
  exact Nat.lt_irrefl _ bound

theorem Sound.insert_ok (sound : Sound table)
    (few : (versions table origin name).length < 2 ^ 31) :
    insertHelper table origin name (nextVersionHelper table origin name)
        (versionBasename name (nextVersionHelper table origin name)) =
      .ok (table ++ [⟨origin, name, nextVersionHelper table origin name,
        versionBasename name (nextVersionHelper table origin name), false, false⟩]) := by
  rw [insertHelper, if_neg]
  intro clash
  obtain ⟨row, member, conflict⟩ := List.any_eq_true.mp clash
  simp only [Row.conflicts, decide_eq_true_eq] at conflict
  obtain ⟨same, sameVersion | sameBasename⟩ := conflict
  · apply sound.fresh few member same.symm
    rw [sound.named row member, ← sameVersion.1, ← sameVersion.2]
  · exact sound.fresh few member same.symm sameBasename.symm

end

theorem versions_append (table : Table) (row : Row) (origin name : String) :
    versions (table ++ [row]) origin name = versions table origin name ++
      if row.origin = origin ∧ row.name = name then [row.version] else [] := by
  rw [versions, List.filter_append, List.map_append]
  by_cases same : row.origin = origin ∧ row.name = name
  · rw [if_pos same, List.filter_cons_of_pos (by simpa using same)]
    rfl
  · rw [if_neg same, List.filter_cons_of_neg (by simpa using same)]
    rfl

theorem Sound.insert {table : Table} {origin name : String} (sound : Sound table)
    (few : FewVersions table) (none : table.countP (Row.isActive origin name) = 0) :
    Sound (table ++ [⟨origin, name, nextVersionHelper table origin name,
      versionBasename name (nextVersionHelper table origin name), false, false⟩]) where
  numbered := by
    intro origin' name'
    rw [versions_append]
    by_cases same : origin = origin' ∧ name = name'
    · obtain ⟨rfl, rfl⟩ := same
      rw [if_pos ⟨rfl, rfl⟩, sound.nextVersion (versions_length_lt few origin name)]
      nth_rewrite 1 [sound.numbered]
      rw [List.length_append, List.length_singleton, List.range_succ, List.map_append]
      rfl
    · rw [if_neg same, List.append_nil]
      exact sound.numbered origin' name'
  named := by
    intro row member
    rcases List.mem_append.mp member with member | member
    · exact sound.named row member
    · cases List.mem_singleton.mp member
      rfl
  active := by
    intro origin' name'
    rw [List.countP_append, List.countP_singleton]
    split
    · rename_i isActive
      simp only [Row.isActive, decide_eq_true_eq] at isActive
      obtain ⟨rfl, rfl, _⟩ := isActive
      exact none ▸ Nat.le_refl 1
    · exact sound.active origin' name'
  distinct := by
    apply List.pairwise_append.mpr
    refine ⟨sound.distinct, List.pairwise_singleton .., ?_⟩
    intro row member other new same
    cases List.mem_singleton.mp new
    exact sound.fresh (versions_length_lt few origin name) member same

def Marks (mark : Row → Row) : Prop :=
  ∀ row, ∃ corrupt, mark row = { row with isCorrupt := corrupt, isDeleted := true }

section
variable {fails : Call → Bool} {mark : Row → Row} {chosen : Row → Bool} {table : Table}

theorem Marks.row (marks : Marks mark) (chosen : Row → Bool) (row : Row) : ∃ corrupt deleted,
    (if chosen row then mark row else row) =
        { row with isCorrupt := corrupt, isDeleted := deleted } ∧
      (row.isDeleted = true → deleted = true) ∧ (chosen row → deleted = true) := by
  by_cases isChosen : chosen row
  · obtain ⟨corrupt, marked⟩ := marks row
    exact ⟨corrupt, true, by rw [if_pos isChosen, marked], fun _ => rfl, fun _ => rfl⟩
  · exact ⟨row.isCorrupt, row.isDeleted, by rw [if_neg isChosen], id, fun is => absurd is isChosen⟩

theorem Marks.versions (marks : Marks mark) (origin name : String) :
    versions (table.map fun row => if chosen row then mark row else row) origin name =
      versions table origin name := by
  simp only [DatabaseNameTable.versions, List.filter_map, List.map_map]
  rw [List.filter_congr fun row _ => ?_]
  · apply List.map_congr_left
    intro row _
    obtain ⟨_, _, equal, _⟩ := marks.row chosen row
    rw [Function.comp_apply, equal]
  · obtain ⟨_, _, equal, _⟩ := marks.row chosen row
    rw [Function.comp_apply, equal]

theorem Marks.sound (marks : Marks mark) (sound : Sound table) :
    Sound (table.map fun row => if chosen row then mark row else row) where
  numbered := by
    intro origin name
    rw [marks.versions]
    exact sound.numbered origin name
  named := by
    intro row member
    obtain ⟨source, inTable, rfl⟩ := List.mem_map.mp member
    obtain ⟨corrupt, deleted, equal, _⟩ := marks.row chosen source
    rw [equal]
    exact sound.named source inTable
  active := by
    intro origin name
    apply Nat.le_trans _ (sound.active origin name)
    rw [List.countP_map]
    apply List.countP_mono_left
    intro row member isActive
    obtain ⟨corrupt, deleted, equal, stays, _⟩ := marks.row chosen row
    simp only [Function.comp_apply, equal, Row.isActive, decide_eq_true_eq] at isActive ⊢
    refine ⟨isActive.1, isActive.2.1, ?_⟩
    by_contra isDeleted
    exact absurd (stays (by simpa using isDeleted)) (by simp [isActive.2.2])
  distinct := by
    apply List.pairwise_map.mpr
    apply sound.distinct.imp
    intro row other different
    obtain ⟨_, _, equal, _⟩ := marks.row chosen row
    obtain ⟨_, _, equal', _⟩ := marks.row chosen other
    rw [equal, equal']
    exact different

end

end ThreadIpc.DatabaseNameTable
