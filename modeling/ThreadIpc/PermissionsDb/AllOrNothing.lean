import ThreadIpc.PermissionsDb.Upgrades

/-!
# When `Init` is all or nothing

A version that could not be read counts as version 0, so a database whose version cannot be read
twice is created again, without its permissions. And `UpgradeToVersion2` takes success for failure.
-/

namespace ThreadIpc.PermissionsDb
open ShortcutTable (tables shortcutVersion3 shortcutVersion6)

variable {State : Type} {metadata : Database2Metadata State} {fails : SqlCall → Bool}
  {db after : Database State}

section Calls

def whenAll {α : Type} (fails : SqlCall → Bool) (calls : List SqlCall) (outcome : Option α) :
    Option α :=
  if ∀ call ∈ calls, fails call = false then outcome else none

variable {α : Type}

theorem whenAll_cons (call : SqlCall) (calls : List SqlCall) (outcome : Option α) :
    whenAll fails (call :: calls) outcome =
      if fails call then none else whenAll fails calls outcome := by
  simp only [whenAll, List.forall_mem_cons]
  cases fails call with
  | true => rfl
  | false => simp

theorem whenAll_append (calls later : List SqlCall) (outcome : Option α) :
    whenAll fails (calls ++ later) outcome = whenAll fails calls (whenAll fails later outcome) := by
  induction calls with
  | nil => simp [whenAll]
  | cons call rest ih => rw [List.cons_append, whenAll_cons, whenAll_cons, ih]

theorem whenAll_bind {β : Type} (calls : List SqlCall) (outcome : Option α) (next : α → Option β) :
    (whenAll fails calls outcome).bind next = whenAll fails calls (outcome.bind next) := by
  unfold whenAll
  split <;> rfl

theorem whenAll_some {calls : List SqlCall} {outcome : Option α} {a : α} :
    whenAll fails calls outcome = some a ↔
      (∀ call ∈ calls, fails call = false) ∧ outcome = some a := by
  rw [whenAll, Option.ite_none_right_eq_some]

end Calls

section Create

/-- The calls of `CreateDatabase`, but for those of `Database2Metadata`. -/
def createCalls (metadata : Database2Metadata State) (db : Database State) : List SqlCall :=
  .listTables :: (tableNames metadata db).map .dropTable ++
    [.createTable .versionInfo, .createTable .access, .createTable .locationAccess,
      .createTable (.shortcuts .shortcut), .createTable .databaseNames, .setVersion]

def createdDatabase (state : State) : Database State where
  versionInfo := some [(.text kVersionKeyName, .integer kCurrentVersion)]
  access := some []
  locationAccess := some []
  scourAccess := none
  shortcuts := tables (some ⟨shortcutVersion6, []⟩) none none
  databaseNames := some []
  database2 := state

def createsDatabase2 (metadata : Database2Metadata State) (fails : SqlCall → Bool) : Option State :=
  metadata.maybeCreateTableLatestVersion (fun index => fails (.createTable (.database2 index)))
    metadata.absent

theorem dropAllObjects_eq : dropAllObjects metadata fails db =
    whenAll fails (.listTables :: (tableNames metadata db).map .dropTable)
      (some (.empty metadata)) := by
  rw [whenAll_cons, dropAllObjects]
  congr 1
  induction tableNames metadata db with
  | nil => rfl
  | cons table rest ih =>
      rw [List.map_cons, whenAll_cons, ← ih, List.any_cons]
      cases fails (.dropTable table) <;> rfl

theorem maybeCreateTable_bind {Row α : Type} (call : SqlCall) (next : List Row → Option α) :
    (maybeCreateTable (fails call) none).bind next = if fails call then none else next [] := by
  unfold maybeCreateTable
  split <;> rfl

theorem createShortcuts_bind {α : Type} (call : SqlCall)
    (next : ShortcutTable.Database → Option α) :
    (Lib.Relational.Database.executeAll (fun _ => fails call) 0
      ShortcutTable.maybeCreateTableVersion6 (tables none none none)).bind next =
        if fails call then none else next (tables (some ⟨shortcutVersion6, []⟩) none none) := by
  rw [ShortcutTable.maybeCreateTableVersion6, Lib.Relational.Database.executeAll,
    ShortcutTable.createShortcut_tables]
  split <;> rfl

theorem empty_shortcuts : (Database.empty metadata).shortcuts = tables none none none := by
  refine funext fun table => ?_
  cases table <;> rfl

theorem createDatabase_eq : createDatabase metadata fails db =
    whenAll fails (createCalls metadata db)
      ((createsDatabase2 metadata fails).map createdDatabase) := by
  have versionInfo : (Database.empty metadata).versionInfo = none := rfl
  have access : (Database.empty metadata).access = none := rfl
  have locationAccess : (Database.empty metadata).locationAccess = none := rfl
  have databaseNames : (Database.empty metadata).databaseNames = none := rfl
  have database2 : (Database.empty metadata).database2 = metadata.absent := rfl
  rw [createCalls, whenAll_append]
  simp only [createDatabase, dropAllObjects_eq, bind, whenAll_bind, Option.bind_some]
  congr 1
  simp only [versionInfo, access, locationAccess, empty_shortcuts, databaseNames, database2,
    maybeCreateTable_bind, createShortcuts_bind, whenAll_cons]
  have last : ((createsDatabase2 metadata fails).bind fun state =>
      (setInt (fails .setVersion) (some []) kVersionKeyName kCurrentVersion).bind fun versionInfo =>
        some { createdDatabase state with versionInfo := some versionInfo }) =
      if fails .setVersion then none
      else whenAll fails [] ((createsDatabase2 metadata fails).map createdDatabase) := by
    rw [whenAll, if_pos (List.forall_mem_nil _)]
    cases createsDatabase2 metadata fails with
    | none => exact (ite_self none).symm
    | some state => cases fails .setVersion <;> rfl
  rw [← last]
  rfl

end Create

section Init

def versionOf (db : Database State) : Option Int := getInt false db.versionInfo kVersionKeyName

def firstRead (fails : SqlCall → Bool) (db : Database State) : Int :=
  (getInt (fails .firstVersion) db.versionInfo kVersionKeyName).getD 0

def secondRead (fails : SqlCall → Bool) (db : Database State) : Int :=
  (getInt (fails .secondVersion) db.versionInfo kVersionKeyName).getD (firstRead fails db)

theorem versionOf_of_getInt {failed : Bool} {version : Int}
    (read : getInt failed db.versionInfo kVersionKeyName = some version) :
    versionOf db = some version := by
  cases failed with
  | true => cases read
  | false => exact read

theorem versionOf_of_getD {failed : Bool} {default version : Int} (other : default ≠ version)
    (read : (getInt failed db.versionInfo kVersionKeyName).getD default = version) :
    versionOf db = some version := by
  cases found : getInt failed db.versionInfo kVersionKeyName with
  | none =>
      rw [found] at read
      exact absurd read other
  | some found_ =>
      rw [found] at read
      exact versionOf_of_getInt (found.trans (congrArg some read))

/-- The calls of `Init` itself, but for the two that read the version. -/
def initCalls : List SqlCall :=
  [.openConnection, .pragmaSynchronous, .pragmaEncoding, .begin, .lastVersion, .commit]

def finish (fails : SqlCall → Bool) (db : Database State) (version : Int)
    (updated : Database State) : Bool × Database State :=
  let version := (getInt (fails .lastVersion) updated.versionInfo kVersionKeyName).getD version
  if version ≠ kCurrentVersion then (false, db)
  else if fails .commit then (false, db)
  else (true, updated)

theorem init_eq : init metadata fails db =
    if fails .openConnection || fails .pragmaSynchronous || fails .pragmaEncoding then (false, db)
    else if firstRead fails db = kCurrentVersion then (true, db)
    else if fails .begin then (false, db)
    else if secondRead fails db = kCurrentVersion then (true, db)
    else match updateSchema metadata fails (secondRead fails db) db with
      | none => (false, db)
      | some updated => finish fails db (secondRead fails db) updated :=
  rfl

theorem finish_cases {version : Int} {updated : Database State} (other : version ≠ kCurrentVersion) :
    finish fails db version updated = (false, db) ∨
      finish fails db version updated = (true, updated) ∧
        versionOf updated = some kCurrentVersion ∧ fails .lastVersion = false ∧
        fails .commit = false := by
  unfold finish
  simp only
  split
  · exact .inl rfl
  · rename_i current
    split
    · exact .inl rfl
    · rename_i committed
      have read := not_not.mp current
      refine .inr ⟨rfl, versionOf_of_getD other read, ?_, Bool.of_not_eq_true committed⟩
      refine Bool.of_not_eq_true fun failed => ?_
      rw [failed] at read
      exact other read

theorem init_cases (metadata : Database2Metadata State) (fails : SqlCall → Bool)
    (db : Database State) :
    init metadata fails db = (false, db) ∨
      (init metadata fails db = (true, db) ∧ versionOf db = some kCurrentVersion) ∨
      ∃ updated, init metadata fails db = (true, updated) ∧
        versionOf updated = some kCurrentVersion ∧
        updateSchema metadata fails (secondRead fails db) db = some updated ∧
        ∀ call ∈ initCalls, fails call = false := by
  have notZero : (0 : Int) ≠ kCurrentVersion := by decide
  rw [init_eq]
  split
  · exact .inl rfl
  · rename_i opened
    split
    · rename_i current
      exact .inr (.inl ⟨rfl, versionOf_of_getD notZero current⟩)
    · rename_i notFirst
      split
      · exact .inl rfl
      · rename_i begun
        split
        · rename_i current
          exact .inr (.inl ⟨rfl, versionOf_of_getD notFirst current⟩)
        · rename_i notSecond
          cases update : updateSchema metadata fails (secondRead fails db) db with
          | none => exact .inl rfl
          | some updated =>
              rcases @finish_cases _ fails db _ updated notSecond with failed | ⟨done, version, later⟩
              · exact .inl failed
              · refine .inr (.inr ⟨updated, done, version, rfl, ?_⟩)
                simp only [Bool.or_eq_true, not_or, Bool.not_eq_true] at opened begun
                simp only [initCalls, List.forall_mem_cons, opened, begun, later, true_and]
                exact List.forall_mem_nil _

theorem init_update (succeed : ∀ call ∈ initCalls, fails call = false)
    (notFirst : firstRead fails db ≠ kCurrentVersion)
    (notSecond : secondRead fails db ≠ kCurrentVersion) :
    init metadata fails db = match updateSchema metadata fails (secondRead fails db) db with
      | none => (false, db)
      | some updated => if versionOf updated = some kCurrentVersion then (true, updated)
          else (false, db) := by
  simp only [initCalls, List.forall_mem_cons] at succeed
  obtain ⟨openConnection, synchronous, encoding, begin_, lastVersion, commit, -⟩ := succeed
  rw [init_eq, openConnection, synchronous, encoding, begin_, if_neg notFirst, if_neg notSecond]
  simp only [Bool.or_self, Bool.false_eq_true, if_false]
  cases updateSchema metadata fails (secondRead fails db) db with
  | none => rfl
  | some updated =>
      simp only [finish, lastVersion, commit]
      by_cases stored : versionOf updated = some kCurrentVersion
      · have read : getInt false updated.versionInfo kVersionKeyName = some kCurrentVersion := stored
        rw [if_pos stored, read]
        rfl
      · rw [if_neg stored, if_pos fun read => stored (versionOf_of_getD notSecond read)]

end Init

section WellFormed

structure WellFormed (metadata : Database2Metadata State) (version : Nat) (db : Database State) :
    Prop where
  bounded : version ≤ 9
  empty : version = 0 → db = .empty metadata
  stored : 1 ≤ version → versionOf db = some (version : Int)
  scourAccess : version = 1 → db.scourAccess ≠ none
  shortcuts : ShortcutsAt version db.shortcuts
  database2 : version ≤ 7 → db.database2 = metadata.absent

structure AllOrNothing (metadata : Database2Metadata State) (fails : SqlCall → Bool)
    (version : Nat) (db : Database State) : Prop where
  success : (init metadata fails db).1 = true →
    versionOf (init metadata fails db).2 = some kCurrentVersion ∧
      (2 ≤ version → ∀ row ∈ db.access.getD [], row ∈ (init metadata fails db).2.access.getD [])
  failure : (init metadata fails db).1 = false → (init metadata fails db).2 = db
  total : (∀ call, fails call = false) → (init metadata fails db).1 = true

def CreatedAgain (metadata : Database2Metadata State) (fails : SqlCall → Bool)
    (db : Database State) : Prop :=
  fails .firstVersion = true ∧ fails .secondVersion = true ∧
    (∀ call ∈ initCalls ++ createCalls metadata db, fails call = false) ∧
    createsDatabase2 metadata fails ≠ none

variable {version : Nat}

theorem readsStored (wellFormed : WellFormed metadata version db) (positive : 1 ≤ version)
    (failed : Bool) (default : Int) :
    (getInt failed db.versionInfo kVersionKeyName).getD default =
      if failed then default else version := by
  cases failed with
  | true => rfl
  | false =>
      have stored : getInt false db.versionInfo kVersionKeyName = some (version : Int) :=
        wellFormed.stored positive
      rw [stored]
      rfl

theorem secondRead_eq (wellFormed : WellFormed metadata version db) (positive : 1 ≤ version) :
    secondRead fails db =
      if fails .secondVersion = true ∧ fails .firstVersion = true then (0 : Int) else version := by
  rw [secondRead, firstRead, readsStored wellFormed positive, readsStored wellFormed positive]
  cases fails .secondVersion <;> cases fails .firstVersion <;> rfl

theorem updateSchema_access (wellFormed : WellFormed metadata version db) (positive : 1 ≤ version)
    (ran : updateSchema metadata fails (secondRead fails db) db = some after) :
    after.access = db.access ∨ fails .firstVersion = true ∧ fails .secondVersion = true ∧
      createDatabase metadata fails db = some after := by
  rw [secondRead_eq wellFormed positive, updateSchema] at ran
  by_cases unread : fails .secondVersion = true ∧ fails .firstVersion = true
  · rw [if_pos unread, if_pos rfl] at ran
    exact .inr ⟨unread.2, unread.1, ran⟩
  · rw [if_neg unread, if_neg (by omega)] at ran
    split at ran
    · exact .inl (upgradeDatabase_access ran)
    · cases ran

theorem getInt_setInt {failed : Bool} {table : Option NameValueTable} {rows : NameValueTable}
    {name : String} {value : Int} (ran : setInt failed table name value = some rows) :
    getInt false (some rows) name = some (ShortcutTable.columnInt (.integer value)) := by
  unfold setInt at ran
  split at ran
  · cases ran
  · obtain ⟨before, -, rfl⟩ := Option.map_eq_some_iff.mp ran
    have others : (before.filter (·.1 ≠ .text name)).find? (·.1 = .text name) = none := by
      refine List.find?_eq_none.mpr fun row member => ?_
      have different := of_decide_eq_true (List.mem_filter.mp member).2
      exact fun same => different (of_decide_eq_true same)
    have last : [(Lib.Relational.Value.text name, Lib.Relational.Value.integer value)].find?
        (·.1 = .text name) = some (.text name, .integer value) := by simp
    rw [getInt, if_neg Bool.false_ne_true, Option.bind_some, List.find?_append, others, last]
    rfl

theorem columnInt_kCurrentVersion :
    ShortcutTable.columnInt (.integer kCurrentVersion) = kCurrentVersion := by decide

theorem createdDatabase_version (state : State) :
    versionOf (createdDatabase state) = some kCurrentVersion := by
  have ran : setInt false (some []) kVersionKeyName kCurrentVersion =
      some [(.text kVersionKeyName, .integer kCurrentVersion)] := rfl
  exact (getInt_setInt ran).trans (congrArg some columnInt_kCurrentVersion)

theorem setVersion_version (ran : setVersion fails kCurrentVersion db = some after) :
    versionOf after = some kCurrentVersion := by
  obtain ⟨rows, written, rfl⟩ := Option.map_eq_some_iff.mp ran
  exact (getInt_setInt written).trans (congrArg some columnInt_kCurrentVersion)

/-- A database that is created again loses its permissions. -/
theorem init_createdAgain (again : CreatedAgain metadata fails db) :
    (init metadata fails db).1 = true ∧ (init metadata fails db).2.access = some [] := by
  obtain ⟨first, second, succeed, created⟩ := again
  obtain ⟨own, create⟩ := List.forall_mem_append.mp succeed
  obtain ⟨state, created⟩ := Option.ne_none_iff_exists'.mp created
  have firstZero : firstRead fails db = 0 := by
    rw [firstRead, first]
    rfl
  have secondZero : secondRead fails db = 0 := by
    rw [secondRead, second]
    exact firstZero
  have notZero : (0 : Int) ≠ kCurrentVersion := by decide
  have update : updateSchema metadata fails 0 db = some (createdDatabase state) := by
    rw [updateSchema, if_pos rfl, createDatabase_eq, whenAll_some]
    exact ⟨create, by rw [created]; rfl⟩
  rw [init_update own (firstZero ▸ notZero) (secondZero ▸ notZero), secondZero, update]
  simp only [createdDatabase_version, if_true]
  exact ⟨trivial, rfl⟩

theorem initCalls_noFailure : ∀ call ∈ initCalls, noFailure call = false := fun _ _ => rfl

theorem reads_noFailure (wellFormed : WellFormed metadata version db) (positive : 1 ≤ version) :
    firstRead noFailure db = version ∧ secondRead noFailure db = version :=
  ⟨readsStored wellFormed positive false 0, readsStored wellFormed positive false _⟩

theorem init_noFailure (wellFormed : WellFormed metadata version db) (positive : 1 ≤ version)
    (old : version ≤ 8) :
    init metadata noFailure db = match upgradeDatabase metadata noFailure version db with
      | none => (false, db)
      | some updated => if versionOf updated = some kCurrentVersion then (true, updated)
          else (false, db) := by
  obtain ⟨first, second⟩ := reads_noFailure wellFormed positive
  have below : (version : Int) < kCurrentVersion := by
    rw [kCurrentVersion]
    omega
  have update : updateSchema metadata noFailure version db =
      upgradeDatabase metadata noFailure version db := by
    rw [updateSchema, if_neg (by omega), if_pos below]
  rw [init_update initCalls_noFailure (first ▸ below.ne) (second ▸ below.ne), second, update]

theorem upgradeDatabase_eq (old : version ≤ 8) (positive : 1 ≤ version) :
    upgradeDatabase metadata fails version db =
      (((upgrades metadata fails).drop (version - 1)).foldlM
        (fun db (upgrade : Database State → Option (Database State)) => upgrade db) db).bind
          (setVersion fails kCurrentVersion) := by
  have index : ((version : Int) - 1).toNat = version - 1 := by omega
  rw [upgradeDatabase, if_pos (by omega), index]
  rfl

theorem upgradeDatabase_succeeds (creates : metadata.Creates)
    (wellFormed : WellFormed metadata version db) (first : 2 ≤ version) (last : version ≤ 8)
    (nullFree : NullFree version db.shortcuts) :
    ∃ updated, upgradeDatabase metadata noFailure version db = some updated ∧
      versionOf updated = some kCurrentVersion := by
  have upgradable : Upgradable metadata version db :=
    ⟨wellFormed.shortcuts, nullFree, wellFormed.database2⟩
  have positive : 1 ≤ version := by omega
  obtain ⟨upgraded, chain⟩ :=
    upgrades_succeed creates (9 - version) first (by omega) upgradable
  have kept := (upgrades_frame (fun _ member => List.mem_of_mem_drop member) chain).2
  have stored : getInt false db.versionInfo kVersionKeyName = some (version : Int) :=
    wellFormed.stored positive
  obtain ⟨updated, set_⟩ : ∃ updated,
      setVersion noFailure kCurrentVersion upgraded = some updated := by
    rw [setVersion, kept]
    cases versionInfo : db.versionInfo with
    | none =>
        rw [versionInfo] at stored
        cases stored
    | some rows => exact ⟨_, rfl⟩
  refine ⟨updated, ?_, setVersion_version set_⟩
  rw [upgradeDatabase_eq last positive, chain]
  exact set_

theorem init_total (creates : metadata.Creates) (wellFormed : WellFormed metadata version db)
    (notFirst : version ≠ 1) (nullFree : NullFree version db.shortcuts) :
    (init metadata noFailure db).1 = true := by
  rcases Nat.eq_zero_or_pos version with rfl | positive
  · cases wellFormed.empty rfl
    obtain ⟨state, created⟩ := creates.latest
    have update : updateSchema metadata noFailure 0 (.empty metadata) =
        some (createdDatabase state) := by
      rw [updateSchema, if_pos rfl, createDatabase_eq, whenAll_some]
      exact ⟨fun _ _ => rfl, congrArg (Option.map createdDatabase) created⟩
    have notZero : (0 : Int) ≠ kCurrentVersion := by decide
    have first : firstRead noFailure (Database.empty metadata) = 0 := rfl
    have second : secondRead noFailure (Database.empty metadata) = 0 := rfl
    rw [init_update initCalls_noFailure (first ▸ notZero) (second ▸ notZero), second, update]
    simp only [createdDatabase_version, if_true]
  · rcases Nat.lt_or_ge version 9 with old | current
    · obtain ⟨updated, upgraded, stored⟩ :=
        upgradeDatabase_succeeds creates wellFormed (by omega) (by omega) nullFree
      rw [init_noFailure wellFormed positive (by omega), upgraded]
      simp only [stored, if_true]
    · have nine : (version : Int) = kCurrentVersion := by
        have bounded := wellFormed.bounded
        rw [kCurrentVersion]
        omega
      have first : firstRead noFailure db = kCurrentVersion :=
        (reads_noFailure wellFormed positive).1.trans nine
      rw [init_eq, if_pos first]
      rfl

theorem init_firstUpgradeFails (wellFormed : WellFormed metadata version db)
    (positive : 1 ≤ version) (old : version ≤ 8)
    {upgrade : Database State → Option (Database State)}
    (listed : (upgrades metadata noFailure).drop (version - 1) =
      upgrade :: (upgrades metadata noFailure).drop version)
    (failed : upgrade db = none) : (init metadata noFailure db).1 = false := by
  have chain : upgradeDatabase metadata noFailure version db = none := by
    rw [upgradeDatabase_eq old positive, listed, List.foldlM_cons, failed]
    rfl
  rw [init_noFailure wellFormed positive old, chain]

/-- The first upgrade reports that it failed when it succeeded. -/
theorem init_version1 (wellFormed : WellFormed metadata 1 db) :
    (init metadata noFailure db).1 = false := by
  refine init_firstUpgradeFails wellFormed (le_refl 1) (by decide)
    (show _ = upgradeToVersion2 noFailure :: _ from rfl) (if_neg ?_)
  exact fun either => either.elim (fun failed => by cases failed) (wellFormed.scourAccess rfl)

theorem nullFree_of_init (wellFormed : WellFormed metadata version db)
    (succeeded : (init metadata noFailure db).1 = true) : NullFree version db.shortcuts := by
  rintro rfl table held
  obtain ⟨table', onlyTable, version3, -⟩ := wellFormed.shortcuts
  have same : table' = table := by
    rw [onlyTable] at held
    exact Option.some.inj held
  subst same
  cases first : upgradeToVersion4 noFailure db with
  | none =>
      have failed := init_firstUpgradeFails wellFormed (by decide) (by decide)
        (show _ = upgradeToVersion4 noFailure :: _ from rfl) first
      cases succeeded.symm.trans failed
  | some upgraded =>
      obtain ⟨shortcuts, ran, -⟩ := Option.map_eq_some_iff.mp first
      rw [onlyTable] at ran
      exact ShortcutTable.noNulls_of_upgrade version3 ran

theorem init_success (wellFormed : WellFormed metadata version db)
    (kept : ¬ (2 ≤ version ∧ db.access.getD [] ≠ [] ∧ CreatedAgain metadata fails db))
    (succeeded : (init metadata fails db).1 = true) :
    versionOf (init metadata fails db).2 = some kCurrentVersion ∧
      (2 ≤ version → ∀ row ∈ db.access.getD [],
        row ∈ (init metadata fails db).2.access.getD []) := by
  rcases init_cases metadata fails db with failed | ⟨same, stored⟩ | ⟨updated, done, stored, update,
    own⟩
  · rw [failed] at succeeded
    cases succeeded
  · rw [same]
    exact ⟨stored, fun _ row member => member⟩
  · rw [done]
    refine ⟨stored, fun late row member => ?_⟩
    rcases updateSchema_access wellFormed (by omega) update with same | ⟨first, second, created⟩
    · rw [same]
      exact member
    · rw [createDatabase_eq, whenAll_some] at created
      obtain ⟨calls, created⟩ := created
      have database2 : createsDatabase2 metadata fails ≠ none := by
        intro none_
        rw [none_] at created
        cases created
      have again : CreatedAgain metadata fails db :=
        ⟨first, second, List.forall_mem_append.mpr ⟨own, calls⟩, database2⟩
      exact absurd ⟨late, List.ne_nil_of_mem member, again⟩ kept

theorem init_failure (failed : (init metadata fails db).1 = false) :
    (init metadata fails db).2 = db := by
  rcases init_cases metadata fails db with unchanged | ⟨same, -⟩ | ⟨updated, done, -⟩
  · rw [unchanged]
  · rw [same]
  · rw [done] at failed
    cases failed

theorem init_all_or_nothing_iff (metadata : Database2Metadata State) (creates : metadata.Creates)
    (fails : SqlCall → Bool) (version : Nat) (db : Database State)
    (wellFormed : WellFormed metadata version db) :
    AllOrNothing metadata fails version db ↔
      ¬ (2 ≤ version ∧ db.access.getD [] ≠ [] ∧ CreatedAgain metadata fails db) ∧
      ((∀ call, fails call = false) → version ≠ 1 ∧ NullFree version db.shortcuts) := by
  constructor
  · intro holds
    refine ⟨?_, ?_⟩
    · rintro ⟨late, rows, again⟩
      obtain ⟨succeeded, access⟩ := init_createdAgain again
      obtain ⟨row, member⟩ := List.exists_mem_of_ne_nil _ rows
      have kept := (holds.success succeeded).2 late row member
      rw [access] at kept
      exact absurd kept List.not_mem_nil
    · intro none_
      have same : fails = noFailure := funext none_
      subst same
      have succeeded := holds.total none_
      refine ⟨?_, nullFree_of_init wellFormed succeeded⟩
      rintro rfl
      cases succeeded.symm.trans (init_version1 wellFormed)
  · rintro ⟨kept, upgradable⟩
    refine ⟨init_success wellFormed kept, init_failure, ?_⟩
    intro none_
    have same : fails = noFailure := funext none_
    subst same
    obtain ⟨notFirst, nullFree⟩ := upgradable none_
    exact init_total creates wellFormed notFirst nullFree

end WellFormed

def oneTableMetadata : Database2Metadata Bool where
  absent := false
  tableCount created := if created then 1 else 0
  createTableVersion8 fails _ := if fails 0 then none else some true
  maybeCreateTableLatestVersion fails _ := if fails 0 then none else some true

theorem oneTableMetadata_creates : oneTableMetadata.Creates := ⟨⟨true, rfl⟩, ⟨true, rfl⟩⟩

def sampleDatabase (version : Nat) (shortcuts : ShortcutTable.Database) : Database Bool where
  versionInfo := some [(.text kVersionKeyName, .integer version)]
  access := some [(.text "http://www.site.com", .integer 1)]
  locationAccess := none
  scourAccess := some []
  shortcuts := shortcuts
  databaseNames := none
  database2 := false

def sampleShortcuts : Lib.Relational.Table ShortcutTable.Column :=
  ⟨shortcutVersion3, [⟨1, [.text "http://www.site.com", .text "Editor",
    .text "http://www.site.com/edit", .text "http://www.site.com/edit.ico", .text "Edit now"]⟩]⟩

theorem sampleDatabase_wellFormed {version : Nat} {shortcuts : ShortcutTable.Database}
    (positive : 1 ≤ version) (early : version ≤ 7) (tables_ : ShortcutsAt version shortcuts) :
    WellFormed oneTableMetadata version (sampleDatabase version shortcuts) where
  bounded := by omega
  empty := fun zero => absurd zero (by omega)
  stored := by
    intro _
    have bits : (version : Int).bmod (2 ^ 32) = version := by
      refine Int.bmod_eq_of_le ?_ ?_ <;> omega
    exact congrArg some bits
  scourAccess := fun _ => Option.some_ne_none _
  shortcuts := tables_
  database2 := fun _ => rfl

theorem sampleShortcuts_at : ShortcutsAt 3 (tables (some sampleShortcuts) none none) :=
  ⟨sampleShortcuts, rfl, rfl, List.pairwise_singleton _ _⟩

theorem sampleDatabase_allOrNothing : AllOrNothing oneTableMetadata noFailure 3
    (sampleDatabase 3 (tables (some sampleShortcuts) none none)) := by
  have wellFormed := sampleDatabase_wellFormed (by decide) (by decide) sampleShortcuts_at
  refine (init_all_or_nothing_iff oneTableMetadata oneTableMetadata_creates noFailure 3 _
    wellFormed).mpr ⟨?_, fun _ => ⟨by decide, ?_⟩⟩
  · rintro ⟨-, -, unread, -⟩
    cases unread
  · intro _ table held row member column declared
    cases held
    cases List.mem_singleton.mp member
    revert column
    decide

def unreadable : SqlCall → Bool
  | .firstVersion | .secondVersion => true
  | _ => false

theorem version1_fails_and_version2_loses_access :
    (WellFormed oneTableMetadata 1 (sampleDatabase 1 (tables none none none)) ∧
      (init oneTableMetadata noFailure (sampleDatabase 1 (tables none none none))).1 = false ∧
      ¬ AllOrNothing oneTableMetadata noFailure 1 (sampleDatabase 1 (tables none none none))) ∧
    (WellFormed oneTableMetadata 2 (sampleDatabase 2 (tables none none none)) ∧
      (init oneTableMetadata unreadable (sampleDatabase 2 (tables none none none))).1 = true ∧
      (init oneTableMetadata unreadable (sampleDatabase 2 (tables none none none))).2.access =
        some [] ∧
      ¬ AllOrNothing oneTableMetadata unreadable 2 (sampleDatabase 2 (tables none none none))) := by
  refine ⟨⟨sampleDatabase_wellFormed (by decide) (by decide) rfl, rfl, ?_⟩,
    sampleDatabase_wellFormed (by decide) (by decide) rfl, rfl, rfl, ?_⟩
  · intro holds
    cases holds.total fun _ => rfl
  · intro holds
    exact absurd ((holds.success rfl).2 (le_refl 2) _ List.mem_cons_self) List.not_mem_nil

end ThreadIpc.PermissionsDb
