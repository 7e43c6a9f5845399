import ThreadIpc.PermissionsDb.PermissionsList

namespace ThreadIpc.PermissionsDb
open Lib.Queries

variable {Name : Type} [LinearOrder Name] {access locationAccess : AccessTable Name}

def AccessTable.value (table : AccessTable Name) (name : Name) : Option PermissionValue :=
  table.rows.lookup name

def AllowsAny (permissions : OriginPermissions) : Prop :=
  ∃ permission, permissions permission = some permissionAllowed

structure Merged (access locationAccess : AccessTable Name) (listed : PermissionsList Name) :
    Prop where
  once : (listed.map Prod.fst).Nodup
  complete : ∀ name, name ∈ listed.map Prod.fst ↔
    name ∈ access.rows.map Prod.fst ∨ name ∈ locationAccess.rows.map Prod.fst
  localData : ∀ entry ∈ listed, entry.2 .localData = access.value entry.1
  locationData : ∀ entry ∈ listed, entry.2 .locationData = locationAccess.value entry.1
  allowedFirst : listed.Pairwise fun earlier later => AllowsAny later.2 → AllowsAny earlier.2
  sorted : listed.Pairwise fun earlier later =>
    (AllowsAny earlier.2 ↔ AllowsAny later.2) → earlier.1 < later.1

namespace AccessTable
variable {table : AccessTable Name} {name : Name} {value : PermissionValue}

@[simp]
theorem value_eq_some : table.value name = some value ↔ (name, value) ∈ table.rows :=
  lookup_of_unique table.unique

theorem value_eq_none : table.value name = none ↔ name ∉ table.rows.map Prod.fst := by
  rw [Option.eq_none_iff_forall_ne_some]
  simp

theorem value_cases (table : AccessTable Name) (name : Name) :
    table.value name = none ∨ table.value name = some permissionAllowed ∨
      table.value name = some permissionDenied := by
  cases found : table.value name with
  | none => exact Or.inl rfl
  | some value =>
      have either := table.valued _ (value_eq_some.mp found)
      simpa using either

end AccessTable

def MergedRow.Agrees (access locationAccess : AccessTable Name) (row : MergedRow Name) : Prop :=
  row.storage = access.value row.name ∧ row.location = locationAccess.value row.name ∧
    (row.storage ≠ none ∨ row.location ≠ none)

theorem joinedWith_iff {name : Name} {value : PermissionValue}
    {matched : Option (Name × PermissionValue)} :
    JoinedWith (fun row other => decide (row.1 = other.1)) locationAccess.rows (name, value) matched ↔
      matched = (locationAccess.value name).map (name, ·) := by
  cases matched with
  | none =>
      rw [eq_comm, Option.map_eq_none_iff, AccessTable.value_eq_none]
      simp only [JoinedWith, decide_eq_false_iff_not, List.mem_map, not_exists, not_and]
      exact ⟨fun none other member same => none other member same.symm,
        fun none other member same => none other member same.symm⟩
  | some other =>
      obtain ⟨otherName, value⟩ := other
      simp only [JoinedWith, decide_eq_true_eq, eq_comm (a := some _), Option.map_eq_some_iff,
        AccessTable.value_eq_some, Prod.mk.injEq]
      constructor
      · rintro ⟨located, rfl⟩
        exact ⟨value, located, rfl, rfl⟩
      · rintro ⟨_, located, rfl, rfl⟩
        exact ⟨located, rfl⟩

theorem mem_outerJoin {row : MergedRow Name} :
    row ∈ outerJoin access locationAccess ↔
      row.Agrees access locationAccess ∧ row.storage ≠ none := by
  obtain ⟨name, storage, location⟩ := row
  simp only [outerJoin, List.mem_map, Prod.exists, mem_leftOuterJoin, joinedWith_iff,
    MergedRow.mk.injEq, MergedRow.Agrees, ← AccessTable.value_eq_some]
  constructor
  · rintro ⟨name, value, _, ⟨stored, rfl⟩, rfl, rfl, rfl⟩
    simp [stored]
  · rintro ⟨⟨rfl, rfl, _⟩, present⟩
    obtain ⟨value, stored⟩ := Option.ne_none_iff_exists'.mp present
    exact ⟨name, value, _, ⟨stored, rfl⟩, by simp [stored]⟩

theorem mem_onlyLocation {row : MergedRow Name} :
    row ∈ onlyLocation access locationAccess ↔
      row.Agrees access locationAccess ∧ row.storage = none := by
  obtain ⟨name, storage, location⟩ := row
  rw [onlyLocation, mem_distinct, List.mem_map]
  simp only [mem_notIn, Prod.exists, MergedRow.mk.injEq, MergedRow.Agrees,
    ← AccessTable.value_eq_none, ← AccessTable.value_eq_some]
  constructor
  · rintro ⟨name, value, ⟨located, absent⟩, rfl, rfl, rfl⟩
    simp [located, absent]
  · rintro ⟨⟨stored, rfl, present⟩, rfl⟩
    obtain ⟨value, located⟩ := Option.ne_none_iff_exists'.mp (present.resolve_left (by simp))
    exact ⟨name, value, ⟨located, stored.symm⟩, by simp [located]⟩

theorem selectQuery_perm (access locationAccess : AccessTable Name) :
    (selectQuery access locationAccess).Perm
      (union (outerJoin access locationAccess) (onlyLocation access locationAccess)) :=
  orderBy_perm _ _

theorem mem_selectQuery {row : MergedRow Name} :
    row ∈ selectQuery access locationAccess ↔ row.Agrees access locationAccess := by
  rw [(selectQuery_perm access locationAccess).mem_iff, mem_union, mem_outerJoin, mem_onlyLocation]
  tauto

theorem selectQuery_names_nodup (access locationAccess : AccessTable Name) :
    ((selectQuery access locationAccess).map MergedRow.name).Nodup := by
  have rows := (selectQuery_perm access locationAccess).nodup_iff.mpr (union_nodup _ _)
  apply rows.map_on
  intro row member other memberOther same
  obtain ⟨stored, located, _⟩ := mem_selectQuery.mp member
  obtain ⟨storedOther, locatedOther, _⟩ := mem_selectQuery.mp memberOther
  cases row
  cases other
  simp_all

theorem columnPermission_value (table : AccessTable Name) (name : Name) :
    columnPermission (table.value name) = table.value name := by
  rcases table.value_cases name with found | found | found <;> rw [found] <;> rfl

namespace MergedRow
variable {row : MergedRow Name} (agrees : row.Agrees access locationAccess)
include agrees

theorem Agrees.localData : row.permissions .localData = access.value row.name := by
  simp only [permissions, agrees.1, columnPermission_value]

theorem Agrees.locationData : row.permissions .locationData = locationAccess.value row.name := by
  simp only [permissions, agrees.2.1, columnPermission_value]

theorem Agrees.allows_iff : row.allows = true ↔ AllowsAny row.permissions := by
  have any : AllowsAny row.permissions ↔ access.value row.name = some permissionAllowed ∨
      locationAccess.value row.name = some permissionAllowed := by
    rw [← agrees.localData, ← agrees.locationData]
    constructor
    · intro ⟨permission, allowed⟩
      cases permission with
      | localData => exact Or.inl allowed
      | locationData => exact Or.inr allowed
    · intro either
      exact either.elim (⟨_, ·⟩) (⟨_, ·⟩)
  rw [any, allows, agrees.1, agrees.2.1]
  rcases access.value_cases row.name with stored | stored | stored <;>
    rcases locationAccess.value_cases row.name with located | located | located <;>
    rw [stored, located] <;> decide

end MergedRow

theorem mem_selectQuery_names {name : Name} :
    name ∈ (selectQuery access locationAccess).map MergedRow.name ↔
      name ∈ access.rows.map Prod.fst ∨ name ∈ locationAccess.rows.map Prod.fst := by
  rw [← AccessTable.value_eq_none.not_left, ← AccessTable.value_eq_none.not_left, List.mem_map]
  constructor
  · intro ⟨row, member, named⟩
    obtain ⟨stored, located, present⟩ := mem_selectQuery.mp member
    rwa [stored, located, named] at present
  · intro present
    exact ⟨⟨name, access.value name, locationAccess.value name⟩,
      mem_selectQuery.mpr ⟨rfl, rfl, present⟩, rfl⟩

theorem selectQuery_sorted (access locationAccess : AccessTable Name) :
    (selectQuery access locationAccess).Pairwise fun earlier later =>
      (later.allows → earlier.allows) ∧
        (earlier.allows = later.allows → earlier.name < later.name) := by
  have names := List.pairwise_map.mp (selectQuery_names_nodup access locationAccess)
  have ordered := orderBy_sorted (.thenBy (.descending MergedRow.allows) (.ascending MergedRow.name))
    (union (outerJoin access locationAccess) (onlyLocation access locationAccess))
  apply (names.and ordered).imp
  intro earlier later ⟨different, le⟩
  obtain ⟨first, second⟩ : (later.allows → earlier.allows) ∧
      ((earlier.allows → later.allows) → earlier.name ≤ later.name) := by
    simpa [SortOrder.thenBy, SortOrder.descending, SortOrder.ascending, Bool.le_iff_imp,
      imp_iff_not_or] using le
  apply And.intro first
  intro same
  exact lt_of_le_of_ne (second fun allows => same ▸ allows) different

def entry (row : MergedRow Name) : Name × OriginPermissions :=
  (row.name, row.permissions)

theorem selectQuery_merged (access locationAccess : AccessTable Name) :
    Merged access locationAccess ((selectQuery access locationAccess).map entry) where
  once := by simpa [Function.comp_def, entry] using selectQuery_names_nodup access locationAccess
  complete name := by
    rw [← mem_selectQuery_names, List.map_map]
    rfl
  localData := by
    intro listed member
    obtain ⟨row, selected, rfl⟩ := List.mem_map.mp member
    exact (mem_selectQuery.mp selected).localData
  locationData := by
    intro listed member
    obtain ⟨row, selected, rfl⟩ := List.mem_map.mp member
    exact (mem_selectQuery.mp selected).locationData
  allowedFirst := by
    apply List.pairwise_map.mpr
    apply (selectQuery_sorted access locationAccess).imp_of_mem
    intro earlier later member memberLater ⟨first, _⟩
    rwa [entry, entry, ← (mem_selectQuery.mp member).allows_iff,
      ← (mem_selectQuery.mp memberLater).allows_iff]
  sorted := by
    apply List.pairwise_map.mpr
    apply (selectQuery_sorted access locationAccess).imp_of_mem
    intro earlier later member memberLater ⟨_, second⟩
    rwa [entry, entry, ← (mem_selectQuery.mp member).allows_iff,
      ← (mem_selectQuery.mp memberLater).allows_iff, ← Bool.eq_iff_iff]

example : (selectQuery (⟨[(5, 2), (2, 1)], by decide, by decide⟩ : AccessTable Nat)
    ⟨[(7, 1), (2, 2), (3, 2)], by decide, by decide⟩) =
      [⟨2, some 1, some 2⟩, ⟨7, none, some 1⟩, ⟨3, none, some 2⟩, ⟨5, some 2, none⟩] := by
  decide

omit [LinearOrder Name] in
theorem readRows_succeeds_iff {fails : SelectCall → Bool} (rows : List (MergedRow Name))
    (index : Nat) (out : PermissionsList Name) :
    (readRows fails index rows out).1 = true ↔
      ∀ later < rows.length + 1, fails (.step (index + later)) = false := by
  induction rows generalizing index out with
  | nil => simp [readRows]
  | cons row rest ih =>
      rw [List.length_cons, Nat.forall_lt_succ_left]
      by_cases failed : fails (.step index)
      · simp [readRows, failed]
      · simp only [readRows, failed, Bool.false_eq_true, if_false, ih, Nat.add_right_comm index 1]
        simp [failed, Nat.add_assoc]

omit [LinearOrder Name] in
theorem readRows_returns {fails : SelectCall → Bool} (rows : List (MergedRow Name)) (index : Nat)
    (out : PermissionsList Name) (returned : (readRows fails index rows out).1 = true) :
    (readRows fails index rows out).2 = out ++ rows.map entry := by
  induction rows generalizing index out with
  | nil => simp [readRows]
  | cons row rest ih =>
      by_cases failed : fails (.step index)
      · simp [readRows, failed] at returned
      · simp only [readRows, failed, Bool.false_eq_true, if_false] at returned ⊢
        simpa [entry] using ih (index + 1) _ returned

/-- The function returns true if neither the preparation nor a step reports an error, and has then
appended the merged list. -/
theorem getPermissionsSorted_merges (access locationAccess : AccessTable Name)
    (fails : SelectCall → Bool) (out : PermissionsList Name) :
    ∃ listed, Merged access locationAccess listed ∧
      ((getPermissionsSorted access locationAccess fails out).1 = true ↔
        fails .prepare = false ∧ ∀ index ≤ listed.length, fails (.step index) = false) ∧
      ((getPermissionsSorted access locationAccess fails out).1 = true →
        (getPermissionsSorted access locationAccess fails out).2 = out ++ listed) := by
  refine ⟨_, selectQuery_merged access locationAccess, ?_⟩
  rw [List.length_map]
  by_cases failed : fails .prepare
  · simp [getPermissionsSorted, failed]
  · simp only [getPermissionsSorted, failed, Bool.false_eq_true, if_false]
    constructor
    · simpa [Nat.lt_succ_iff] using @readRows_succeeds_iff Name fails (selectQuery access locationAccess) 0 out
    · exact readRows_returns _ 0 out

end ThreadIpc.PermissionsDb
