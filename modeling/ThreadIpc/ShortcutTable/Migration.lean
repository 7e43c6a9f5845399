import ThreadIpc.ShortcutTable.Model
import Mathlib.Tactic.FinCases

/-!
# What the upgrades of the shortcut table keep

`contents` is what a table means whatever its version. Every upgrade but the last carries it over.
-/

namespace ThreadIpc.ShortcutTable
open Lib.Relational

inductive ColumnType
  | integer | text
  deriving DecidableEq

def Column.type : Column → ColumnType
  | .shortcutID | .allow => .integer
  | .origin | .name | .appUrl | .icoUrl | .msg | .icon16x16Url | .icon32x32Url | .icon48x48Url
  | .icon128x128Url | .iconUrl => .text

def ColumnType.holds : ColumnType → Value → Prop
  | .integer, value => ∃ number, value = .integer number
  | .text, value => ∃ content, value = .text content

def Filled (table : Table Column) : Prop :=
  ∀ row ∈ table.rows, ∀ column ∈ table.schema.columns,
    column.type.holds (row.get table.schema column)

/-- A shortcut as every version stores it; `allow` is true before version 5. -/
structure Stored where
  origin : String
  name : String
  appUrl : String
  msg : String
  allow : Bool
  deriving DecidableEq

def stored (schema : Schema Column) (row : Row) : Stored where
  origin := columnText16Safe (row.get schema .origin)
  name := columnText16Safe (row.get schema .name)
  appUrl := columnText16Safe (row.get schema .appUrl)
  msg := columnText16Safe (row.get schema .msg)
  allow := if .allow ∈ schema.columns then columnInt (row.get schema .allow) ≠ 0 else true

def contents (table : Table Column) : List Stored := table.rows.map (stored table.schema)

def keys (table : Table Column) : List (String × String) :=
  (contents table).map fun shortcut => (shortcut.origin, shortcut.name)

def PreservesMeaning (table : Table Column) (after : Database) : Prop :=
  (∃ upgraded, after .shortcut = some upgraded ∧ ∀ key, key ∈ keys upgraded ↔ key ∈ keys table) ∧
    ∀ shortcut ∈ contents table, getShortcut after shortcut.origin shortcut.name = some {
      appUrl := shortcut.appUrl
      icon16x16Url := ""
      icon32x32Url := ""
      icon48x48Url := ""
      icon128x128Url := ""
      msg := shortcut.msg
      allow := shortcut.allow }

theorem transaction_rebuild {fails : Nat → Bool} {schema : Schema Column}
    {exprs : List (Expr Column)} {between later : List Statement} {db after : Database}
    {content : Table Column} (held : db .shortcut = some content)
    (betweenFrame : ∀ statement ∈ between, TableName.shortcut ∉ Database.touches statement ∧
      TableName.shortcutOld ∉ Database.touches statement)
    (laterFrame : ∀ statement ∈ later, TableName.shortcut ∉ Database.touches statement)
    (ran : Database.transaction fails (.rename .shortcut .shortcutOld ::
      .createIfNotExists .shortcut schema :: (between ++
        .insertSelect .shortcut exprs .shortcutOld :: later)) db = some after) :
    ∃ rebuilt, after .shortcut = some rebuilt ∧ rebuilt.schema = schema ∧ rebuilt.KeysDistinct ∧
      rebuilt.rows.map (·.values) = content.rows.map (content.project exprs) :=
  Database.executeAll_rebuild held TableName.noConfusion betweenFrame laterFrame
    (Database.transaction_some ran)

section
variable {fails : Nat → Bool} {db after : Database} {table : Table Column}

theorem upgradeFromVersion3ToVersion4_rows (held : db .shortcut = some table)
    (ran : upgradeFromVersion3ToVersion4 fails db = some after) :
    ∃ upgraded, after .shortcut = some upgraded ∧ upgraded.schema = shortcutVersion4 ∧
      upgraded.KeysDistinct ∧
      upgraded.rows.map (·.values) = table.rows.map (table.project populateVersion4) := by
  apply transaction_rebuild held _ _ ran
  · simp [Database.touches]
  · simp [Database.touches]

theorem upgradeFromVersion4ToVersion5_rows (held : db .shortcut = some table)
    (ran : upgradeFromVersion4ToVersion5 fails db = some after) :
    ∃ upgraded, after .shortcut = some upgraded ∧ upgraded.schema = shortcutVersion5 ∧
      upgraded.KeysDistinct ∧
      upgraded.rows.map (·.values) = table.rows.map (table.project populateVersion5) := by
  apply transaction_rebuild held _ _ ran
  · simp [Database.touches]
  · simp [Database.touches]

theorem upgradeFromVersion5ToVersion6_rows (held : db .shortcut = some table)
    (ran : upgradeFromVersion5ToVersion6 fails db = some after) :
    ∃ upgraded, after .shortcut = some upgraded ∧ upgraded.schema = shortcutVersion6 ∧
      upgraded.KeysDistinct ∧
      upgraded.rows.map (·.values) = table.rows.map (table.project populateVersion6) := by
  apply transaction_rebuild held (List.forall_mem_nil _) _ ran
  simp [Database.touches]

end

theorem contents_of_values (table : Table Column) : contents table =
    (table.rows.map (·.values)).map fun values => stored table.schema ⟨0, values⟩ := by
  rw [contents, List.map_map]
  rfl

theorem contents_rebuilt {table rebuilt : Table Column} {exprs : List (Expr Column)}
    (rows : rebuilt.rows.map (·.values) = table.rows.map (table.project exprs))
    (same : ∀ row, stored rebuilt.schema ⟨0, table.project exprs row⟩ = stored table.schema row) :
    contents rebuilt = contents table := by
  rw [contents_of_values, rows, List.map_map]
  exact List.map_congr_left fun row _ => same row

theorem filled_rebuilt {table rebuilt : Table Column} {exprs : List (Expr Column)}
    (rows : rebuilt.rows.map (·.values) = table.rows.map (table.project exprs))
    (typed : ∀ row ∈ table.rows, ∀ column ∈ rebuilt.schema.columns,
      column.type.holds (Row.get rebuilt.schema ⟨0, table.project exprs row⟩ column)) :
    Filled rebuilt := by
  intro row member
  have listed : row.values ∈ table.rows.map (table.project exprs) :=
    rows ▸ List.mem_map_of_mem member
  obtain ⟨source, sourced, values⟩ := List.mem_map.mp listed
  intro column declared
  have typed := typed source sourced column declared
  rw [values] at typed
  exact typed

section
variable {fails : Nat → Bool} {db after : Database} {table : Table Column}

theorem upgradeFromVersion3ToVersion4_keeps (held : db .shortcut = some table)
    (version : table.schema = shortcutVersion3) (filled : Filled table)
    (ran : upgradeFromVersion3ToVersion4 fails db = some after) :
    ∃ upgraded, after .shortcut = some upgraded ∧ upgraded.schema = shortcutVersion4 ∧
      Filled upgraded ∧ contents upgraded = contents table := by
  obtain ⟨upgraded, found, schema, _, rows⟩ := upgradeFromVersion3ToVersion4_rows held ran
  refine ⟨upgraded, found, schema, filled_rebuilt rows ?_, contents_rebuilt rows ?_⟩
  · intro row member column declared
    have filled := filled row member
    rw [schema] at declared ⊢
    simp only [version, Table.project] at filled ⊢
    fin_cases declared
    · exact ⟨row.rowid, rfl⟩
    all_goals exact filled _ (by decide)
  · intro row
    rw [schema, version]
    simp only [Table.project, version]
    rfl

theorem upgradeFromVersion4ToVersion5_keeps (held : db .shortcut = some table)
    (version : table.schema = shortcutVersion4) (filled : Filled table)
    (ran : upgradeFromVersion4ToVersion5 fails db = some after) :
    ∃ upgraded, after .shortcut = some upgraded ∧ upgraded.schema = shortcutVersion5 ∧
      Filled upgraded ∧ contents upgraded = contents table := by
  obtain ⟨upgraded, found, schema, _, rows⟩ := upgradeFromVersion4ToVersion5_rows held ran
  refine ⟨upgraded, found, schema, filled_rebuilt rows ?_, contents_rebuilt rows ?_⟩
  · intro row member column declared
    have filled := filled row member
    rw [schema] at declared ⊢
    simp only [version, Table.project] at filled ⊢
    fin_cases declared
    · exact ⟨row.rowid, rfl⟩
    · exact filled .origin (by decide)
    · exact filled .name (by decide)
    · exact filled .appUrl (by decide)
    · exact filled .msg (by decide)
    · exact ⟨1, rfl⟩
  · intro row
    rw [schema, version]
    simp only [Table.project, version]
    rfl

/-- The old URL and message end up in the columns of two icons, which are declared after them. -/
def misplaced (shortcut : Stored) : Shortcut where
  appUrl := ""
  icon16x16Url := ""
  icon32x32Url := ""
  icon48x48Url := shortcut.appUrl
  icon128x128Url := shortcut.msg
  msg := ""
  allow := shortcut.allow

theorem upgradeFromVersion5ToVersion6_keys (held : db .shortcut = some table)
    (version : table.schema = shortcutVersion5)
    (ran : upgradeFromVersion5ToVersion6 fails db = some after) :
    ∃ upgraded, after .shortcut = some upgraded ∧ keys upgraded = keys table := by
  obtain ⟨upgraded, found, schema, _, rows⟩ := upgradeFromVersion5ToVersion6_rows held ran
  refine ⟨upgraded, found, ?_⟩
  rw [keys, contents_of_values, rows, keys, contents]
  simp only [List.map_map]
  apply List.map_congr_left
  intro row _
  simp only [Function.comp_apply, Table.project, schema, version]
  rfl

theorem getShortcut_of_row {db : Database} {table : Table Column} {row : Row}
    {origin name : String} (held : db .shortcut = some table)
    (version : table.schema = shortcutVersion6) (distinct : table.KeysDistinct)
    (member : row ∈ table.rows) (isOrigin : row.get shortcutVersion6 .origin = .text origin)
    (isName : row.get shortcutVersion6 .name = .text name) :
    getShortcut db origin name = some {
      appUrl := columnText16Safe (row.get shortcutVersion6 .appUrl)
      icon16x16Url := columnText16Safe (row.get shortcutVersion6 .icon16x16Url)
      icon32x32Url := columnText16Safe (row.get shortcutVersion6 .icon32x32Url)
      icon48x48Url := columnText16Safe (row.get shortcutVersion6 .icon48x48Url)
      icon128x128Url := columnText16Safe (row.get shortcutVersion6 .icon128x128Url)
      msg := columnText16Safe (row.get shortcutVersion6 .msg)
      allow := columnInt (row.get shortcutVersion6 .allow) ≠ 0 } := by
  have selected : table.satisfies [(.origin, .text origin), (.name, .text name)] row := by
    simp [Table.satisfies, version, isOrigin, isName]
  have key : [Column.origin, Column.name] ∈ table.schema.unique := by
    rw [version]
    decide
  have named : ∀ condition ∈ [(Column.origin, Value.text origin), (.name, .text name)],
      condition.1 ∈ table.schema.columns := by
    simp [version, shortcutVersion6]
  rw [getShortcut, held]
  simp only [Option.bind_eq_bind, Option.bind_some]
  rw [Table.select_of_key distinct member selected key (by rw [version]; rfl) named]
  simp only [Table.project, version]
  rfl

theorem upgradeFromVersion5ToVersion6_getShortcut (held : db .shortcut = some table)
    (version : table.schema = shortcutVersion5) (filled : Filled table)
    (ran : upgradeFromVersion5ToVersion6 fails db = some after) :
    ∀ shortcut ∈ contents table,
      getShortcut after shortcut.origin shortcut.name = some (misplaced shortcut) := by
  obtain ⟨upgraded, found, schema, distinct, rows⟩ := upgradeFromVersion5ToVersion6_rows held ran
  intro shortcut member
  obtain ⟨row, inTable, rfl⟩ := List.mem_map.mp member
  have listed : table.project populateVersion6 row ∈ upgraded.rows.map (·.values) :=
    rows ▸ List.mem_map_of_mem inTable
  obtain ⟨moved, inUpgraded, values⟩ := List.mem_map.mp listed
  have filled := filled row inTable
  simp only [version] at filled
  obtain ⟨origin, isOrigin⟩ := filled .origin (by decide)
  obtain ⟨name, isName⟩ := filled .name (by decide)
  have get (column : Column) : moved.get shortcutVersion6 column =
      Row.get shortcutVersion6 ⟨0, populateVersion6.map (Expr.eval shortcutVersion5 row)⟩ column := by
    rw [← version]
    exact congrArg (fun values => Row.get shortcutVersion6 ⟨0, values⟩ column) values
  have read := getShortcut_of_row found schema distinct inUpgraded
    ((get .origin).trans isOrigin) ((get .name).trans isName)
  simp only [get] at read
  simp only [stored, version, isOrigin, isName]
  exact read

end

theorem upgradeFrom_result {fails : Version → Nat → Bool} {version : Version} {db after : Database}
    {table : Table Column} (held : db .shortcut = some table)
    (schema : table.schema = version.schema) (filled : Filled table)
    (ran : upgradeFrom fails version db = some after) :
    (∃ upgraded, after .shortcut = some upgraded ∧ keys upgraded = keys table) ∧
      ∀ shortcut ∈ contents table,
        getShortcut after shortcut.origin shortcut.name = some (misplaced shortcut) := by
  have lastStep {source : Database} {content : Table Column} (held : source .shortcut = some content)
      (schema : content.schema = shortcutVersion5) (filled : Filled content)
      (ran : upgradeFromVersion5ToVersion6 (fails .five) source = some after) :=
    And.intro (upgradeFromVersion5ToVersion6_keys held schema ran)
      (upgradeFromVersion5ToVersion6_getShortcut held schema filled ran)
  cases version with
  | three =>
      obtain ⟨db5, chain, last⟩ := Option.bind_eq_some_iff.mp ran
      obtain ⟨db4, first, second⟩ := Option.bind_eq_some_iff.mp chain
      obtain ⟨table4, held, schema4, filled, same4⟩ :=
        upgradeFromVersion3ToVersion4_keeps held schema filled first
      obtain ⟨table5, held, schema5, filled, same5⟩ :=
        upgradeFromVersion4ToVersion5_keeps held schema4 filled second
      rw [keys, ← same4, ← same5]
      exact lastStep held schema5 filled last
  | four =>
      obtain ⟨db5, first, last⟩ := Option.bind_eq_some_iff.mp ran
      obtain ⟨table5, held, schema5, filled, same5⟩ :=
        upgradeFromVersion4ToVersion5_keeps held schema filled first
      rw [keys, ← same5]
      exact lastStep held schema5 filled last
  | five => exact lastStep held schema filled ran

/-- The upgrades keep the meaning of a table exactly when it has no URL and no message to lose. -/
theorem upgradeFrom_preserves_meaning_iff {fails : Version → Nat → Bool} {version : Version}
    {db after : Database} {table : Table Column} (held : db .shortcut = some table)
    (schema : table.schema = version.schema) (filled : Filled table)
    (ran : upgradeFrom fails version db = some after) :
    PreservesMeaning table after ↔
      ∀ shortcut ∈ contents table, shortcut.appUrl = "" ∧ shortcut.msg = "" := by
  obtain ⟨⟨upgraded, found, sameKeys⟩, read⟩ := upgradeFrom_result held schema filled ran
  constructor
  · rintro ⟨_, meaning⟩ shortcut member
    have equal := Option.some.inj ((read shortcut member).symm.trans (meaning shortcut member))
    simp only [misplaced, Shortcut.mk.injEq] at equal
    obtain ⟨appUrl, _, _, _, _, msg, _⟩ := equal
    exact ⟨appUrl.symm, msg.symm⟩
  · intro nothing
    refine ⟨⟨upgraded, found, fun key => by rw [sameKeys]⟩, ?_⟩
    intro shortcut member
    obtain ⟨appUrl, msg⟩ := nothing shortcut member
    rw [read shortcut member, misplaced, appUrl, msg]

def sampleTable : Table Column :=
  ⟨shortcutVersion3, [⟨1, [.text "http://www.site.com", .text "Editor",
    .text "http://www.site.com/edit", .text "http://www.site.com/edit.ico", .text "Edit now"]⟩]⟩

def sampleDatabase : Database
  | .shortcut => some sampleTable
  | _ => none

theorem sampleTable_filled : Filled sampleTable := by
  intro row member column declared
  cases List.mem_singleton.mp member
  change column ∈ [Column.origin, .name, .appUrl, .icoUrl, .msg] at declared
  fin_cases declared
  all_goals exact ⟨_, rfl⟩

theorem sampleTable_upgraded : ∃ after,
    upgradeFrom (fun _ _ => false) .three sampleDatabase = some after ∧
      (PreservesMeaning sampleTable after ↔
        ∀ shortcut ∈ contents sampleTable, shortcut.appUrl = "" ∧ shortcut.msg = "") := by
  obtain ⟨after, ran⟩ : ∃ after,
      upgradeFrom (fun _ _ => false) .three sampleDatabase = some after := ⟨_, rfl⟩
  have held : sampleDatabase .shortcut = some sampleTable := rfl
  have version : sampleTable.schema = Version.three.schema := rfl
  exact ⟨after, ran, upgradeFrom_preserves_meaning_iff held version sampleTable_filled ran⟩

theorem sampleTable_loses_meaning : ∃ after,
    upgradeFrom (fun _ _ => false) .three sampleDatabase = some after ∧
      ¬ PreservesMeaning sampleTable after := by
  refine ⟨_, rfl, ?_⟩
  rintro ⟨_, meaning⟩
  have read := meaning ⟨"http://www.site.com", "Editor", "http://www.site.com/edit", "Edit now",
    true⟩ (by decide)
  revert read
  decide

end ThreadIpc.ShortcutTable
