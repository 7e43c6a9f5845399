import ThreadIpc.PermissionsDb.Model
import ThreadIpc.ShortcutTable.Success

/-!
# The chain of upgrades

No upgrade touches the tables of names and values but `LocationAccess`. From version 2 on, each
upgrade succeeds on the tables of its version unless a statement of it fails, and leaves those of
the next version.
-/

namespace ThreadIpc.PermissionsDb
open ShortcutTable (tables Holds NoNulls shortcutVersion3 shortcutVersion4 shortcutVersion5
  shortcutVersion6)

variable {State : Type} {metadata : Database2Metadata State} {fails : SqlCall → Bool}
  {db after : Database State}

section Frame

theorem upgrade_frame {upgrade : Database State → Option (Database State)}
    (member : upgrade ∈ upgrades metadata fails) (ran : upgrade db = some after) :
    after.access = db.access ∧ after.versionInfo = db.versionInfo := by
  have mapped {α : Type} {outcome : Option α} {update : α → Database State}
      (ran : outcome.map update = some after)
      (frame : ∀ a, (update a).access = db.access ∧ (update a).versionInfo = db.versionInfo) :
      after.access = db.access ∧ after.versionInfo = db.versionInfo := by
    obtain ⟨a, -, rfl⟩ := Option.map_eq_some_iff.mp ran
    exact frame a
  simp only [upgrades, List.mem_cons, List.not_mem_nil, or_false] at member
  rcases member with rfl | rfl | rfl | rfl | rfl | rfl | rfl | rfl
  · unfold upgradeToVersion2 at ran
    split at ran
    · cases ran
      exact ⟨rfl, rfl⟩
    · cases ran
  · unfold upgradeToVersion3 at ran
    split at ran
    · cases ran
    · exact mapped ran fun _ => ⟨rfl, rfl⟩
  · exact mapped ran fun _ => ⟨rfl, rfl⟩
  · exact mapped ran fun _ => ⟨rfl, rfl⟩
  · exact mapped ran fun _ => ⟨rfl, rfl⟩
  · exact mapped ran fun _ => ⟨rfl, rfl⟩
  · exact mapped ran fun _ => ⟨rfl, rfl⟩
  · exact mapped ran fun _ => ⟨rfl, rfl⟩

theorem upgrades_frame {remaining : List (Database State → Option (Database State))}
    (all : ∀ upgrade ∈ remaining, upgrade ∈ upgrades metadata fails)
    (ran : remaining.foldlM (fun db upgrade => upgrade db) db = some after) :
    after.access = db.access ∧ after.versionInfo = db.versionInfo := by
  induction remaining generalizing db with
  | nil =>
      cases ran
      exact ⟨rfl, rfl⟩
  | cons upgrade rest ih =>
      rw [List.foldlM_cons] at ran
      obtain ⟨next, first, later⟩ := Option.bind_eq_some_iff.mp ran
      obtain ⟨access, versionInfo⟩ := upgrade_frame (all upgrade List.mem_cons_self) first
      obtain ⟨access', versionInfo'⟩ :=
        ih (fun other member => all other (List.mem_cons_of_mem _ member)) later
      exact ⟨access'.trans access, versionInfo'.trans versionInfo⟩

theorem upgradeDatabase_access {version : Int}
    (ran : upgradeDatabase metadata fails version db = some after) : after.access = db.access := by
  unfold upgradeDatabase at ran
  split at ran
  · obtain ⟨upgraded, chain, set_⟩ := Option.bind_eq_some_iff.mp ran
    obtain ⟨versionInfo, -, rfl⟩ := Option.map_eq_some_iff.mp set_
    exact (upgrades_frame (fun _ member => List.mem_of_mem_drop member) chain).1
  · obtain ⟨versionInfo, -, rfl⟩ := Option.map_eq_some_iff.mp ran
    rfl

end Frame

def ShortcutsAt (version : Nat) (shortcuts : ShortcutTable.Database) : Prop :=
  match version with
  | 0 | 1 | 2 => shortcuts = tables none none none
  | 3 => ∃ table, shortcuts = tables (some table) none none ∧ table.schema = shortcutVersion3 ∧
      table.KeysDistinct
  | 4 => ∃ table icon, shortcuts = tables (some table) none (some icon) ∧
      Holds shortcutVersion4 table
  | 5 => ∃ table icon, shortcuts = tables (some table) none (some icon) ∧
      Holds shortcutVersion5 table
  | _ => ∃ table, shortcuts = tables (some table) none none ∧ Holds shortcutVersion6 table

/-- Version 3 has no `NOT NULL` columns, version 4 has. -/
def NullFree (version : Nat) (shortcuts : ShortcutTable.Database) : Prop :=
  version = 3 → ∀ table, shortcuts .shortcut = some table → NoNulls table

structure Upgradable (metadata : Database2Metadata State) (version : Nat) (db : Database State) :
    Prop where
  shortcuts : ShortcutsAt version db.shortcuts
  nullFree : NullFree version db.shortcuts
  database2 : version ≤ 7 → db.database2 = metadata.absent

structure Database2Metadata.Creates (metadata : Database2Metadata State) : Prop where
  version8 : ∃ state, metadata.createTableVersion8 (fun _ => false) metadata.absent = some state
  latest : ∃ state,
    metadata.maybeCreateTableLatestVersion (fun _ => false) metadata.absent = some state

section Succeeds

def noFailure : SqlCall → Bool := fun _ => false

theorem nestedFails_noFailure (version : ShortcutTable.Version) (count : Nat) :
    nestedFails noFailure version count = fun _ => false :=
  funext fun _ => Bool.and_false _

theorem nullFree_of_ne {version : Nat} (other : version ≠ 3)
    (shortcuts : ShortcutTable.Database) : NullFree version shortcuts :=
  fun three => absurd three other

theorem upgradeToVersion3_succeeds (upgradable : Upgradable metadata 2 db) :
    ∃ after, upgradeToVersion3 noFailure db = some after ∧ Upgradable metadata 3 after := by
  have none_ : db.shortcuts = tables none none none := upgradable.shortcuts
  have ran : upgradeToVersion3 noFailure db =
      some { db with shortcuts := tables (some ⟨shortcutVersion3, []⟩) none none } := by
    rw [upgradeToVersion3, none_, ShortcutTable.createShortcut_tables]
    rfl
  refine ⟨_, ran, ⟨_, rfl, rfl, List.Pairwise.nil⟩, ?_, fun _ => upgradable.database2 (by decide)⟩
  intro _ table held row member
  cases held
  exact absurd member List.not_mem_nil

theorem upgradeToVersion4_succeeds (upgradable : Upgradable metadata 3 db) :
    ∃ after, upgradeToVersion4 noFailure db = some after ∧ Upgradable metadata 4 after := by
  obtain ⟨table, held, version, distinct⟩ := upgradable.shortcuts
  have noNulls : NoNulls table := by
    refine upgradable.nullFree rfl table ?_
    rw [held]
    rfl
  obtain ⟨upgraded, icon, upgrade, holds⟩ :=
    ShortcutTable.upgradeFromVersion3ToVersion4_tables version distinct noNulls
  have ran : upgradeToVersion4 noFailure db =
      some { db with shortcuts := tables (some upgraded) none (some icon) } := by
    rw [upgradeToVersion4, nestedFails_noFailure, held, upgrade]
    rfl
  exact ⟨_, ran, ⟨upgraded, icon, rfl, holds⟩, nullFree_of_ne (by decide) _,
    fun _ => upgradable.database2 (by decide)⟩

theorem upgradeToVersion5_succeeds (upgradable : Upgradable metadata 4 db) :
    ∃ after, upgradeToVersion5 noFailure db = some after ∧ Upgradable metadata 5 after := by
  obtain ⟨table, icon, held, holds⟩ := upgradable.shortcuts
  obtain ⟨upgraded, upgrade, holds'⟩ :=
    ShortcutTable.upgradeFromVersion4ToVersion5_tables icon holds
  have ran : upgradeToVersion5 noFailure db =
      some { db with shortcuts := tables (some upgraded) none (some icon) } := by
    rw [upgradeToVersion5, nestedFails_noFailure, held, upgrade]
    rfl
  exact ⟨_, ran, ⟨upgraded, icon, rfl, holds'⟩, nullFree_of_ne (by decide) _,
    fun _ => upgradable.database2 (by decide)⟩

theorem upgradeToVersion6_succeeds (upgradable : Upgradable metadata 5 db) :
    ∃ after, upgradeToVersion6 noFailure db = some after ∧ Upgradable metadata 6 after := by
  obtain ⟨table, icon, held, holds⟩ := upgradable.shortcuts
  obtain ⟨upgraded, upgrade, holds'⟩ :=
    ShortcutTable.upgradeFromVersion5ToVersion6_tables icon holds
  have ran : upgradeToVersion6 noFailure db =
      some { db with shortcuts := tables (some upgraded) none none } := by
    rw [upgradeToVersion6, nestedFails_noFailure, held, upgrade]
    rfl
  exact ⟨_, ran, ⟨upgraded, rfl, holds'⟩, nullFree_of_ne (by decide) _,
    fun _ => upgradable.database2 (by decide)⟩

theorem upgradeToVersion7_succeeds (upgradable : Upgradable metadata 6 db) :
    ∃ after, upgradeToVersion7 noFailure db = some after ∧ Upgradable metadata 7 after :=
  ⟨_, rfl, upgradable.shortcuts, nullFree_of_ne (by decide) _,
    fun _ => upgradable.database2 (by decide)⟩

theorem upgradeToVersion8_succeeds (creates : metadata.Creates)
    (upgradable : Upgradable metadata 7 db) :
    ∃ after, upgradeToVersion8 metadata noFailure db = some after ∧
      Upgradable metadata 8 after := by
  obtain ⟨state, created⟩ := creates.version8
  have ran : upgradeToVersion8 metadata noFailure db = some { db with database2 := state } := by
    rw [upgradeToVersion8, upgradable.database2 (le_refl 7)]
    exact congrArg (Option.map _) created
  exact ⟨_, ran, upgradable.shortcuts, nullFree_of_ne (by decide) _,
    fun early => absurd early (by decide)⟩

theorem upgradeToVersion9_succeeds (upgradable : Upgradable metadata 8 db) :
    ∃ after, upgradeToVersion9 noFailure db = some after ∧ Upgradable metadata 9 after :=
  ⟨_, rfl, upgradable.shortcuts, nullFree_of_ne (by decide) _,
    fun early => absurd early (by decide)⟩

theorem upgrade_succeeds (creates : metadata.Creates) {version : Nat} (first : 2 ≤ version)
    (last : version ≤ 8) (upgradable : Upgradable metadata version db) :
    ∃ upgrade after, (upgrades metadata noFailure).drop (version - 1) =
        upgrade :: (upgrades metadata noFailure).drop version ∧
      upgrade db = some after ∧ Upgradable metadata (version + 1) after := by
  have step {upgrade : Database State → Option (Database State)} {version : Nat}
      (succeeds : ∃ after, upgrade db = some after ∧ Upgradable metadata (version + 1) after)
      (listed : (upgrades metadata noFailure).drop (version - 1) =
        upgrade :: (upgrades metadata noFailure).drop version) :
      ∃ upgrade after, (upgrades metadata noFailure).drop (version - 1) =
          upgrade :: (upgrades metadata noFailure).drop version ∧
        upgrade db = some after ∧ Upgradable metadata (version + 1) after := by
    obtain ⟨after, ran, upgradable⟩ := succeeds
    exact ⟨upgrade, after, listed, ran, upgradable⟩
  obtain rfl | rfl | rfl | rfl | rfl | rfl | rfl : version = 2 ∨ version = 3 ∨ version = 4 ∨
    version = 5 ∨ version = 6 ∨ version = 7 ∨ version = 8 := by omega
  · exact step (upgradeToVersion3_succeeds upgradable) rfl
  · exact step (upgradeToVersion4_succeeds upgradable) rfl
  · exact step (upgradeToVersion5_succeeds upgradable) rfl
  · exact step (upgradeToVersion6_succeeds upgradable) rfl
  · exact step (upgradeToVersion7_succeeds upgradable) rfl
  · exact step (upgradeToVersion8_succeeds creates upgradable) rfl
  · exact step (upgradeToVersion9_succeeds upgradable) rfl

theorem upgrades_succeed (creates : metadata.Creates) (count : Nat) {version : Nat}
    (first : 2 ≤ version) (last : version + count = 9)
    (upgradable : Upgradable metadata version db) :
    ∃ after, ((upgrades metadata noFailure).drop (version - 1)).foldlM
      (fun db upgrade => upgrade db) db = some after := by
  induction count generalizing version db with
  | zero =>
      cases (show version = 9 from last)
      exact ⟨db, rfl⟩
  | succ count ih =>
      obtain ⟨upgrade, next, listed, ran, upgradable'⟩ :=
        upgrade_succeeds creates first (by omega) upgradable
      obtain ⟨after, chain⟩ := ih (by omega) (by omega) upgradable'
      refine ⟨after, ?_⟩
      rw [listed, List.foldlM_cons, ran]
      exact chain

end Succeeds

end ThreadIpc.PermissionsDb
