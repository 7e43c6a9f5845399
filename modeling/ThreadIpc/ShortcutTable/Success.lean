import ThreadIpc.ShortcutTable.Model
import Mathlib.Tactic.FinCases

/-!
# Upgrades that succeed

With no statement made to fail an upgrade only fails when a row breaks a constraint of the new
table. The old tables have the same keys, so that leaves `NOT NULL`, which version 3 does without.
-/

namespace ThreadIpc.ShortcutTable
open Lib.Relational

def tables (shortcut shortcutOld shortcutIcon : Option (Table Column)) : Database
  | .shortcut => shortcut
  | .shortcutOld => shortcutOld
  | .shortcutIcon => shortcutIcon

section Execute
variable {a b c : Option (Table Column)} {table : Table Column}

theorem rename_tables : (tables (some table) none c).execute (.rename .shortcut .shortcutOld) =
    some (tables none (some table) c) := by
  refine congrArg some (funext fun name => ?_)
  cases name <;> rfl

theorem createShortcut_tables (schema : Schema Column) :
    (tables none b c).execute (.createIfNotExists .shortcut schema) =
      some (tables (some ⟨schema, []⟩) b c) := by
  refine congrArg some (funext fun name => ?_)
  cases name <;> rfl

theorem createIcon_tables (schema : Schema Column) :
    (tables a b none).execute (.createIfNotExists .shortcutIcon schema) =
      some (tables a b (some ⟨schema, []⟩)) := by
  refine congrArg some (funext fun name => ?_)
  cases name <;> rfl

theorem dropOld_tables : (tables a (some table) c).execute (.drop .shortcutOld) =
    some (tables a none c) := by
  refine congrArg some (funext fun name => ?_)
  cases name <;> rfl

theorem dropIcon_tables : (tables a b (some table)).execute (.drop .shortcutIcon) =
    some (tables a b none) := by
  refine congrArg some (funext fun name => ?_)
  cases name <;> rfl

variable {target target' : Table Column} {exprs : List (Expr Column)}

theorem fillShortcut_tables (known : exprs.all (Expr.known table.schema) = true)
    (inserted : target.insertAll (table.rows.map (table.project exprs)) = some target') :
    (tables (some target) (some table) c).execute (.insertSelect .shortcut exprs .shortcutOld) =
      some (tables (some target') (some table) c) := by
  have into : tables (some target) (some table) c .shortcut = some target := rfl
  have source : tables (some target) (some table) c .shortcutOld = some table := rfl
  rw [Database.insertSelect_of_insertAll into source known inserted]
  refine congrArg some (funext fun name => ?_)
  cases name <;> rfl

theorem fillIcon_tables (known : exprs.all (Expr.known table.schema) = true)
    (inserted : target.insertAll (table.rows.map (table.project exprs)) = some target') :
    (tables a (some table) (some target)).execute
      (.insertSelect .shortcutIcon exprs .shortcutOld) =
        some (tables a (some table) (some target')) := by
  have into : tables a (some table) (some target) .shortcutIcon = some target := rfl
  have source : tables a (some table) (some target) .shortcutOld = some table := rfl
  rw [Database.insertSelect_of_insertAll into source known inserted]
  refine congrArg some (funext fun name => ?_)
  cases name <;> rfl

end Execute

structure Holds (schema : Schema Column) (table : Table Column) : Prop where
  version : table.schema = schema
  distinct : table.KeysDistinct
  notNull : ∀ row ∈ table.rows, ∀ column ∈ schema.notNull, row.get schema column ≠ .null

def moved (table : Table Column) (exprs : List (Expr Column)) : List Row :=
  table.rows.map fun row => ⟨row.rowid, table.project exprs row⟩

theorem fill_of_moved {table : Table Column} {old : Schema Column} (new : Schema Column)
    (exprs : List (Expr Column)) (version : table.schema = old) (distinct : table.KeysDistinct)
    (aliased : new.rowidAlias = some .shortcutID)
    (given : ∀ row, Row.get new ⟨0, exprs.map (Expr.eval old row)⟩ .shortcutID = .integer row.rowid)
    (sameKey : ∀ row other, Table.sameKey new (exprs.map (Expr.eval old row))
      (exprs.map (Expr.eval old other)) = Table.sameKey old row.values other.values)
    (fits : ∀ row ∈ table.rows, Table.Fits new (table.project exprs row)) :
    (Table.mk new []).insertAll (table.rows.map (table.project exprs)) =
      some ⟨new, moved table exprs⟩ ∧ Holds new ⟨new, moved table exprs⟩ := by
  subst version
  have movedDistinct : Table.KeysDistinct (Table.mk new (moved table exprs)) := by
    refine List.pairwise_map.mpr (distinct.imp ?_)
    intro row other apart
    rw [Table.conflict_eq_false_iff] at apart ⊢
    exact ⟨apart.1, (sameKey row other).trans apart.2⟩
  have values : table.rows.map (table.project exprs) = (moved table exprs).map (·.values) := by
    rw [moved, List.map_map]
    rfl
  constructor
  · rw [values]
    refine Table.insertAll_rows aliased ?_ ?_ movedDistinct
    · intro row member
      obtain ⟨source, -, rfl⟩ := List.mem_map.mp member
      exact given source
    · intro row member
      obtain ⟨source, inTable, rfl⟩ := List.mem_map.mp member
      exact fits source inTable
  · refine ⟨rfl, movedDistinct, ?_⟩
    intro row member
    obtain ⟨source, inTable, rfl⟩ := List.mem_map.mp member
    exact (fits source inTable).2

def NoNulls (table : Table Column) : Prop :=
  ∀ row ∈ table.rows, ∀ column ∈ shortcutVersion3.columns,
    row.get shortcutVersion3 column ≠ .null

section Upgrade
variable {table : Table Column}

theorem populateVersion6_fits (holds : Holds shortcutVersion5 table) :
    ∀ row ∈ table.rows, Table.Fits shortcutVersion6 (table.project populateVersion6 row) := by
  intro row member
  have notNull := holds.notNull row member
  rw [Table.project, holds.version]
  refine ⟨rfl, ?_⟩
  intro column declared
  change column ∈ [Column.origin, .name, .appUrl, .msg, .icon16x16Url, .icon32x32Url,
    .icon48x48Url, .icon128x128Url, .allow] at declared
  fin_cases declared
  · exact notNull .origin (by decide)
  · exact notNull .name (by decide)
  · exact Value.noConfusion
  · exact Value.noConfusion
  · exact Value.noConfusion
  · exact Value.noConfusion
  · exact notNull .appUrl (by decide)
  · exact notNull .msg (by decide)
  · exact notNull .allow (by decide)

theorem upgradeFromVersion5ToVersion6_tables (icon : Table Column)
    (holds : Holds shortcutVersion5 table) :
    ∃ upgraded, upgradeFromVersion5ToVersion6 (fun _ => false)
        (tables (some table) none (some icon)) = some (tables (some upgraded) none none) ∧
      Holds shortcutVersion6 upgraded := by
  have known : populateVersion6.all (Expr.known table.schema) = true := by
    rw [holds.version]
    rfl
  obtain ⟨filled, upgraded⟩ := fill_of_moved shortcutVersion6 populateVersion6 holds.version
    holds.distinct rfl (fun _ => rfl) (fun _ _ => rfl) (populateVersion6_fits holds)
  refine ⟨_, ?_, upgraded⟩
  simp only [upgradeFromVersion5ToVersion6, Database.transaction, Database.executeAll,
    maybeCreateTableVersion6, List.cons_append, List.nil_append, rename_tables,
    createShortcut_tables, fillShortcut_tables known filled, dropOld_tables, dropIcon_tables,
    Option.bind_some, Bool.false_eq_true, if_false]

theorem populateVersion5_fits (holds : Holds shortcutVersion4 table) :
    ∀ row ∈ table.rows, Table.Fits shortcutVersion5 (table.project populateVersion5 row) := by
  intro row member
  have notNull := holds.notNull row member
  rw [Table.project, holds.version]
  refine ⟨rfl, ?_⟩
  intro column declared
  change column ∈ [Column.origin, .name, .appUrl, .msg, .allow] at declared
  fin_cases declared
  · exact notNull .origin (by decide)
  · exact notNull .name (by decide)
  · exact notNull .appUrl (by decide)
  · exact notNull .msg (by decide)
  · exact Value.noConfusion

theorem upgradeFromVersion4ToVersion5_tables (icon : Table Column)
    (holds : Holds shortcutVersion4 table) :
    ∃ upgraded, upgradeFromVersion4ToVersion5 (fun _ => false)
        (tables (some table) none (some icon)) = some (tables (some upgraded) none (some icon)) ∧
      Holds shortcutVersion5 upgraded := by
  have known : populateVersion5.all (Expr.known table.schema) = true := by
    rw [holds.version]
    rfl
  have kept (a b : Option (Table Column)) : (tables a b (some icon)).execute
      (.createIfNotExists .shortcutIcon shortcutIcon) = some (tables a b (some icon)) := rfl
  obtain ⟨filled, upgraded⟩ := fill_of_moved shortcutVersion5 populateVersion5 holds.version
    holds.distinct rfl (fun _ => rfl) (fun _ _ => rfl) (populateVersion5_fits holds)
  refine ⟨_, ?_, upgraded⟩
  simp only [upgradeFromVersion4ToVersion5, Database.transaction, Database.executeAll,
    maybeCreateTableVersion5, List.cons_append, List.nil_append, rename_tables,
    createShortcut_tables, kept, fillShortcut_tables known filled, dropOld_tables,
    Option.bind_some, Bool.false_eq_true, if_false]

theorem populateVersion4_fits (version : table.schema = shortcutVersion3)
    (noNulls : NoNulls table) :
    ∀ row ∈ table.rows, Table.Fits shortcutVersion4 (table.project populateVersion4 row) := by
  intro row member
  have notNull := noNulls row member
  rw [Table.project, version]
  refine ⟨rfl, ?_⟩
  intro column declared
  change column ∈ [Column.origin, .name, .appUrl, .msg] at declared
  fin_cases declared
  · exact notNull .origin (by decide)
  · exact notNull .name (by decide)
  · exact notNull .appUrl (by decide)
  · exact notNull .msg (by decide)

def populateIcon : List (Expr Column) := [.rowid, .column .icoUrl]

theorem populateIcon_fits (version : table.schema = shortcutVersion3) (noNulls : NoNulls table) :
    ∀ row ∈ table.rows, Table.Fits shortcutIcon (table.project populateIcon row) := by
  intro row member
  rw [Table.project, version]
  refine ⟨rfl, ?_⟩
  intro column declared
  change column ∈ [Column.shortcutID, .iconUrl] at declared
  fin_cases declared
  · exact Value.noConfusion
  · exact noNulls row member .icoUrl (by decide)

theorem populateIcon_distinct (version : table.schema = shortcutVersion3)
    (distinct : table.KeysDistinct) :
    (table.rows.map (table.project populateIcon)).Pairwise fun values other =>
      Table.sameKey shortcutIcon values other = false := by
  refine List.pairwise_map.mpr (distinct.imp ?_)
  intro row other apart
  have rowids := ((Table.conflict_eq_false_iff _ _ _).mp apart).1
  rw [Table.project, Table.project, version]
  refine Bool.eq_false_iff.mpr fun same => rowids ?_
  obtain ⟨key, unique, all⟩ := List.any_eq_true.mp same
  rw [List.mem_singleton.mp unique] at all
  have ids := List.all_eq_true.mp all .shortcutID List.mem_cons_self
  exact Value.integer.inj (of_decide_eq_true ids).2

theorem upgradeFromVersion3ToVersion4_tables (version : table.schema = shortcutVersion3)
    (distinct : table.KeysDistinct) (noNulls : NoNulls table) :
    ∃ upgraded icon, upgradeFromVersion3ToVersion4 (fun _ => false)
        (tables (some table) none none) = some (tables (some upgraded) none (some icon)) ∧
      Holds shortcutVersion4 upgraded := by
  have known : populateVersion4.all (Expr.known table.schema) = true := by
    rw [version]
    rfl
  have knownIcon : populateIcon.all (Expr.known table.schema) = true := by
    rw [version]
    rfl
  obtain ⟨filled, upgraded⟩ := fill_of_moved shortcutVersion4 populateVersion4 version
    distinct rfl (fun _ => rfl) (fun _ _ => rfl) (populateVersion4_fits version noNulls)
  obtain ⟨icon, filledIcon⟩ := @Table.insertAll_isSome _ _ (Table.mk shortcutIcon []) _ rfl
    (List.forall_mem_map.mpr (populateIcon_fits version noNulls))
    (populateIcon_distinct version distinct)
  refine ⟨_, icon, ?_, upgraded⟩
  simp only [upgradeFromVersion3ToVersion4, Database.transaction, Database.executeAll,
    maybeCreateTableVersion4, List.cons_append, List.nil_append, rename_tables,
    createShortcut_tables, createIcon_tables, fillShortcut_tables known filled,
    show [Expr.rowid, .column .icoUrl] = populateIcon from rfl,
    fillIcon_tables knownIcon filledIcon, dropOld_tables,
    Option.bind_some, Bool.false_eq_true, if_false]

theorem noNulls_of_upgrade {fails : Nat → Bool} {after : Database}
    (version : table.schema = shortcutVersion3)
    (ran : upgradeFromVersion3ToVersion4 fails (tables (some table) none none) = some after) :
    NoNulls table := by
  have ran := Database.transaction_some ran
  obtain ⟨_, renamed, ran⟩ := Database.executeAll_cons ran
  rw [rename_tables] at renamed
  cases renamed
  obtain ⟨_, created, ran⟩ := Database.executeAll_cons ran
  rw [createShortcut_tables] at created
  cases created
  obtain ⟨_, created, ran⟩ := Database.executeAll_cons ran
  rw [createIcon_tables] at created
  cases created
  have newTable (icon : Option (Table Column)) : tables (some ⟨shortcutVersion4, []⟩) (some table)
    icon .shortcut = some ⟨shortcutVersion4, []⟩ := rfl
  have oldTable (new icon : Option (Table Column)) :
    tables new (some table) icon .shortcutOld = some table := rfl
  obtain ⟨filled, inserted, ran⟩ := Database.executeAll_cons ran
  have fits := Database.insertSelect_fits (newTable _) (oldTable _ _) inserted
  have iconTable : filled .shortcutIcon = some ⟨shortcutIcon, []⟩ :=
    Database.execute_frame (by decide) inserted
  have oldKept : filled .shortcutOld = some table := Database.execute_frame (by decide) inserted
  obtain ⟨_, insertedIcon, -⟩ := Database.executeAll_cons ran
  have fitsIcon := Database.insertSelect_fits iconTable oldKept insertedIcon
  intro row member column declared
  have fits := (fits row member).2
  have fitsIcon := (fitsIcon row member).2
  rw [Table.project, version] at fits fitsIcon
  change column ∈ [Column.origin, .name, .appUrl, .icoUrl, .msg] at declared
  fin_cases declared
  · exact fits .origin (by decide)
  · exact fits .name (by decide)
  · exact fits .appUrl (by decide)
  · exact fitsIcon .iconUrl (by decide)
  · exact fits .msg (by decide)

end Upgrade

end ThreadIpc.ShortcutTable
