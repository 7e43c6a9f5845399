import ThreadIpc.DatabaseNameTable.Model
import ThreadIpc.ShortcutTable.Model

/-!
# `PermissionsDB::Init`

A function that returns false has no database, for then everything is rolled back: the outermost
transaction is the one of `Init`, and a nested `BEGIN` or `COMMIT` executes nothing. `fails` says
which SQL calls report an error. Assertions are compiled out. `Database2Metadata` is a parameter: its
tables, and whether it creates them.
-/

namespace ThreadIpc.PermissionsDb
open Lib.Relational (Value)

abbrev NameValueTable := List (Value × Value)

def kVersionKeyName : String := "Version"

def kCurrentVersion : Int := 9

inductive TableName
  | versionInfo
  | access
  | locationAccess
  | scourAccess
  | shortcuts (table : ShortcutTable.TableName)
  | databaseNames
  | database2 (index : Nat)
  deriving DecidableEq

inductive SqlCall
  | openConnection
  | pragmaSynchronous
  | pragmaEncoding
  | firstVersion
  | begin
  | secondVersion
  | listTables
  | dropTable (table : TableName)
  | createTable (table : TableName)
  | deleteFromScourAccess
  | upgradeToVersion3
  | upgradeShortcuts (version : ShortcutTable.Version) (index : Nat)
  | upgradeToVersion7
  | upgradeToVersion8 (index : Nat)
  | upgradeToVersion9
  | setVersion
  | lastVersion
  | commit
  deriving DecidableEq

structure Database2Metadata (State : Type) where
  absent : State
  tableCount : State → Nat
  createTableVersion8 : (Nat → Bool) → State → Option State
  maybeCreateTableLatestVersion : (Nat → Bool) → State → Option State

structure Database (State : Type) where
  versionInfo : Option NameValueTable
  access : Option NameValueTable
  locationAccess : Option NameValueTable
  scourAccess : Option NameValueTable
  shortcuts : ShortcutTable.Database
  databaseNames : Option DatabaseNameTable.Table
  database2 : State

def maybeCreateTable {Row : Type} (failed : Bool) (table : Option (List Row)) :
    Option (List Row) :=
  if failed then none else some (table.getD [])

def getInt (failed : Bool) (table : Option NameValueTable) (name : String) : Option Int :=
  if failed then none
  else (table.bind fun rows => rows.find? (·.1 = .text name)).map fun row =>
    ShortcutTable.columnInt row.2

def setInt (failed : Bool) (table : Option NameValueTable) (name : String) (value : Int) :
    Option NameValueTable :=
  if failed then none
  else table.map fun rows => rows.filter (·.1 ≠ .text name) ++ [(.text name, .integer value)]

section Init
variable {State : Type} (metadata : Database2Metadata State) (fails : SqlCall → Bool)

def Database.empty : Database State where
  versionInfo := none
  access := none
  locationAccess := none
  scourAccess := none
  shortcuts := fun _ => none
  databaseNames := none
  database2 := metadata.absent

def tableNames (db : Database State) : List TableName :=
  let named (table : TableName) (exists_ : Bool) : List TableName := if exists_ then [table] else []
  named .versionInfo db.versionInfo.isSome ++ named .access db.access.isSome ++
    named .locationAccess db.locationAccess.isSome ++ named .scourAccess db.scourAccess.isSome ++
    [ShortcutTable.TableName.shortcut, .shortcutOld, .shortcutIcon].flatMap (fun table =>
      named (.shortcuts table) (db.shortcuts table).isSome) ++
    named .databaseNames db.databaseNames.isSome ++
    (List.range (metadata.tableCount db.database2)).map .database2

def dropAllObjects (db : Database State) : Option (Database State) :=
  if fails .listTables then none
  else if (tableNames metadata db).any fun table => fails (.dropTable table) then none
  else some (.empty metadata)

def createDatabase (db : Database State) : Option (Database State) := do
  let db ← dropAllObjects metadata fails db
  let versionInfo ← maybeCreateTable (fails (.createTable .versionInfo)) db.versionInfo
  let access ← maybeCreateTable (fails (.createTable .access)) db.access
  let locationAccess ← maybeCreateTable (fails (.createTable .locationAccess)) db.locationAccess
  let shortcuts ← Lib.Relational.Database.executeAll
    (fun _ => fails (.createTable (.shortcuts .shortcut))) 0
    ShortcutTable.maybeCreateTableVersion6 db.shortcuts
  let databaseNames ← maybeCreateTable (fails (.createTable .databaseNames)) db.databaseNames
  let database2 ← metadata.maybeCreateTableLatestVersion
    (fun index => fails (.createTable (.database2 index))) db.database2
  let versionInfo ← setInt (fails .setVersion) (some versionInfo) kVersionKeyName kCurrentVersion
  some { db with
    versionInfo := some versionInfo
    access := some access
    locationAccess := some locationAccess
    shortcuts := shortcuts
    databaseNames := some databaseNames
    database2 := database2 }

def upgradeToVersion2 (db : Database State) : Option (Database State) :=
  if fails .deleteFromScourAccess ∨ db.scourAccess = none then some db else none

def upgradeToVersion3 (db : Database State) : Option (Database State) :=
  if fails .upgradeToVersion3 then none
  else (Lib.Relational.Database.execute db.shortcuts
    (.createIfNotExists .shortcut ShortcutTable.shortcutVersion3)).map fun shortcuts =>
      { db with shortcuts := shortcuts }

/-- The statements of an upgrade are numbered from 1. -/
def nestedFails (version : ShortcutTable.Version) (count index : Nat) : Bool :=
  1 ≤ index && index ≤ count && fails (.upgradeShortcuts version index)

def upgradeToVersion4 (db : Database State) : Option (Database State) :=
  (ShortcutTable.upgradeFromVersion3ToVersion4 (nestedFails fails .three 6) db.shortcuts).map
    fun shortcuts => { db with shortcuts := shortcuts }

def upgradeToVersion5 (db : Database State) : Option (Database State) :=
  (ShortcutTable.upgradeFromVersion4ToVersion5 (nestedFails fails .four 5) db.shortcuts).map
    fun shortcuts => { db with shortcuts := shortcuts }

def upgradeToVersion6 (db : Database State) : Option (Database State) :=
  (ShortcutTable.upgradeFromVersion5ToVersion6 (nestedFails fails .five 5) db.shortcuts).map
    fun shortcuts => { db with shortcuts := shortcuts }

def upgradeToVersion7 (db : Database State) : Option (Database State) :=
  (maybeCreateTable (fails .upgradeToVersion7) db.databaseNames).map fun databaseNames =>
    { db with databaseNames := some databaseNames }

def upgradeToVersion8 (db : Database State) : Option (Database State) :=
  (metadata.createTableVersion8 (fun index => fails (.upgradeToVersion8 index)) db.database2).map
    fun database2 => { db with database2 := database2 }

def upgradeToVersion9 (db : Database State) : Option (Database State) :=
  (maybeCreateTable (fails .upgradeToVersion9) db.locationAccess).map fun locationAccess =>
    { db with locationAccess := some locationAccess }

def upgrades : List (Database State → Option (Database State)) :=
  [upgradeToVersion2 fails, upgradeToVersion3 fails, upgradeToVersion4 fails,
    upgradeToVersion5 fails, upgradeToVersion6 fails, upgradeToVersion7 fails,
    upgradeToVersion8 metadata fails, upgradeToVersion9 fails]

def setVersion (version : Int) (db : Database State) : Option (Database State) :=
  (setInt (fails .setVersion) db.versionInfo kVersionKeyName version).map fun versionInfo =>
    { db with versionInfo := some versionInfo }

/-- A case falls through to the next one. Without a case for it the version stays as it is. -/
def upgradeDatabase (fromVersion : Int) (db : Database State) : Option (Database State) :=
  if 1 ≤ fromVersion ∧ fromVersion ≤ 8 then do
    let remaining := (upgrades metadata fails).drop (fromVersion - 1).toNat
    let db ← remaining.foldlM (fun db upgrade => upgrade db) db
    setVersion fails kCurrentVersion db
  else setVersion fails fromVersion db

def updateSchema (version : Int) (db : Database State) : Option (Database State) :=
  if version = 0 then createDatabase metadata fails db
  else if version < kCurrentVersion then upgradeDatabase metadata fails version db
  else none

def init (db : Database State) : Bool × Database State :=
  if fails .openConnection || fails .pragmaSynchronous || fails .pragmaEncoding then (false, db)
  else
    let version := (getInt (fails .firstVersion) db.versionInfo kVersionKeyName).getD 0
    if version = kCurrentVersion then (true, db)
    else if fails .begin then (false, db)
    else
      let version := (getInt (fails .secondVersion) db.versionInfo kVersionKeyName).getD version
      if version = kCurrentVersion then (true, db)
      else match updateSchema metadata fails version db with
        | none => (false, db)
        | some updated =>
            let version :=
              (getInt (fails .lastVersion) updated.versionInfo kVersionKeyName).getD version
            if version ≠ kCurrentVersion then (false, db)
            else if fails .commit then (false, db)
            else (true, updated)

end Init

end ThreadIpc.PermissionsDb
