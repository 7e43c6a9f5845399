import ThreadIpc.DatabaseNameTable.Invariant

namespace ThreadIpc.DatabaseNameTable

/-- A later event does not use the basename that an earlier one marked. -/
def NotReused (earlier later : Event) : Prop :=
  ∀ origin basename, earlier = .marked origin basename →
    later ≠ .read origin basename ∧ later ≠ .inserted origin basename

def Retired (table : Table) (origin basename : String) : Prop :=
  ∃ row ∈ table, row.origin = origin ∧ row.basename = basename ∧ row.isDeleted = true

structure Change (before after : Table) (events : List Event) : Prop where
  sound : Sound after
  kept : ∀ origin basename, Retired before origin basename → Retired after origin basename
  retired : ∀ origin basename, .marked origin basename ∈ events → Retired after origin basename
  clean : ∀ failure, .failed failure ∉ events
  unused : ∀ origin basename, .read origin basename ∈ events ∨ .inserted origin basename ∈ events →
    ¬ Retired before origin basename
  apart : events.Pairwise NotReused

section
variable {fails : Call → Bool} {table : Table} {origin name : String}

theorem Change.nothing (sound : Sound table) : Change table table [] where
  sound := sound
  kept _ _ retired := retired
  retired _ _ member := absurd member List.not_mem_nil
  clean _ := List.not_mem_nil
  unused _ _ member := by simp at member
  apart := List.Pairwise.nil

theorem basenameHelper_cases (sound : Sound table) (origin name : String) :
    (basenameHelper table origin name = .ok none ∧
        table.countP (Row.isActive origin name) = 0) ∨
      ∃ row ∈ table, row.isActive origin name ∧
        basenameHelper table origin name = .ok (some row.basename) := by
  have active := sound.active origin name
  rw [List.countP_eq_length_filter] at active ⊢
  rw [basenameHelper]
  cases found : table.filter (Row.isActive origin name) with
  | nil => exact .inl ⟨rfl, rfl⟩
  | cons row rest =>
      rw [found, List.length_cons] at active
      cases List.length_eq_zero_iff.mp (Nat.le_zero.mp (Nat.le_of_succ_le_succ active))
      obtain ⟨member, isActive⟩ := List.mem_filter.mp (found ▸ List.mem_cons_self (l := []))
      exact .inr ⟨row, member, isActive, rfl⟩

theorem Sound.not_retired (sound : Sound table) {row : Row} (member : row ∈ table)
    (isActive : row.isActive origin name) : ¬ Retired table origin row.basename := by
  rintro ⟨other, otherMember, sameOrigin, sameBasename, isDeleted⟩
  simp only [Row.isActive, decide_eq_true_eq] at isActive
  obtain ⟨rfl, _, notDeleted⟩ := isActive
  have different : row ≠ other := by
    rintro rfl
    rw [isDeleted] at notDeleted
    contradiction
  have symmetric : Std.Symm fun row other : Row => row.origin = other.origin →
      row.basename ≠ other.basename := ⟨fun _ _ apart same => (apart same.symm).symm⟩
  exact sound.distinct.forall member otherMember different sameOrigin.symm sameBasename.symm

theorem findBasename_cases (fails : Call → Bool) (origin name : String) (sound : Sound table) :
    findBasename fails table origin name = ([], .failure) ∨
      (findBasename fails table origin name = ([], .absent) ∧
        table.countP (Row.isActive origin name) = 0) ∨
      ∃ row ∈ table, row.isActive origin name ∧
        findBasename fails table origin name = ([.read origin row.basename], .returned row.basename) := by
  rw [findBasename]
  by_cases failed : fails .basename
  · rw [if_pos failed]
    exact .inl rfl
  · rw [if_neg failed]
    rcases basenameHelper_cases sound origin name with ⟨found, none⟩ | ⟨row, member, isActive, found⟩
    · rw [found]
      exact .inr (.inl ⟨rfl, none⟩)
    · rw [found]
      exact .inr (.inr ⟨row, member, isActive, rfl⟩)

theorem Change.read (sound : Sound table) {row : Row} (member : row ∈ table)
    (isActive : row.isActive origin name) : Change table table [.read origin row.basename] where
  sound := sound
  kept _ _ retired := retired
  retired _ _ member := by simp at member
  clean _ := by simp
  unused := by
    intro origin' basename used
    simp only [List.mem_singleton, Event.read.injEq, reduceCtorEq, or_false] at used
    obtain ⟨rfl, rfl⟩ := used
    exact sound.not_retired member isActive
  apart := List.pairwise_singleton ..

theorem findBasename_change (sound : Sound table) :
    Change table table (findBasename fails table origin name).1 := by
  rcases findBasename_cases fails origin name sound with found | ⟨found, _⟩ | ⟨row, member, isActive, found⟩
  · rw [found]
    exact .nothing sound
  · rw [found]
    exact .nothing sound
  · rw [found]
    exact .read sound member isActive

theorem addVersion_change (sound : Sound table) (few : FewVersions table)
    (none : table.countP (Row.isActive origin name) = 0) :
    Change table (addVersion fails table origin name).1
      (addVersion fails table origin name).2.1 := by
  have inserted := sound.insert_ok (versions_length_lt few origin name)
  have fresh : ¬ Retired table origin
      (versionBasename name (nextVersionHelper table origin name)) := by
    rintro ⟨row, member, sameOrigin, sameBasename, _⟩
    exact sound.fresh (versions_length_lt few origin name) member sameOrigin sameBasename
  have insertion {after : Table} (sound : Sound after) (kept : ∀ row ∈ table, row ∈ after) :
      Change table after
        [.inserted origin (versionBasename name (nextVersionHelper table origin name))] := by
    constructor
    · exact sound
    · rintro origin basename ⟨row, member, retired⟩
      exact ⟨row, kept row member, retired⟩
    · intro origin basename member
      simp at member
    · simp
    · intro origin' basename used
      simp only [List.mem_singleton, reduceCtorEq, Event.inserted.injEq, false_or] at used
      obtain ⟨rfl, rfl⟩ := used
      exact fresh
    · exact List.pairwise_singleton ..
  rw [addVersion]
  by_cases noVersion : fails .nextVersion
  · rw [if_pos noVersion]
    exact .nothing sound
  · by_cases noInsert : fails .insert
    · simp only [if_neg noVersion, if_pos noInsert]
      exact .nothing sound
    · simp only [if_neg noVersion, if_neg noInsert, inserted]
      by_cases noCommit : fails .commit
      · simp only [commit, if_pos noCommit]
        exact insertion sound fun _ => id
      · simp only [commit, if_neg noCommit]
        exact insertion (sound.insert few none) fun _ => List.mem_append_left _

theorem commit_unchanged (fails : Call → Bool) (table : Table) (basename : String) :
    (commit fails table table basename).1 = table := by
  rw [commit]
  split <;> rfl

theorem findOrAddBasename_change (sound : Sound table) (few : FewVersions table) :
    Change table (findOrAddBasename fails table origin name).1
      (findOrAddBasename fails table origin name).2.1 := by
  rw [findOrAddBasename]
  by_cases noBegin : fails .begin
  · rw [if_pos noBegin]
    exact .nothing sound
  · rw [if_neg noBegin]
    rcases findBasename_cases fails origin name sound with
      found | ⟨found, none⟩ | ⟨row, member, isActive, found⟩
    · rw [found]
      exact .nothing sound
    · rw [found]
      exact addVersion_change sound few none
    · rw [found]
      simp only [commit_unchanged]
      exact .read sound member isActive

theorem update_change {mark : Row → Row} {chosen : Row → Bool} (marks : Marks mark)
    (sound : Sound table) : Change table (update fails mark chosen table).1
      (update fails mark chosen table).2 := by
  rw [update]
  by_cases noUpdate : fails .update
  · rw [if_pos noUpdate]
    exact .nothing sound
  · rw [if_neg noUpdate]
    constructor
    · exact marks.sound sound
    · rintro origin basename ⟨row, member, sameOrigin, sameBasename, isDeleted⟩
      obtain ⟨_, deleted, equal, stays, _⟩ := marks.row chosen row
      refine ⟨_, List.mem_map_of_mem member, ?_⟩
      rw [equal]
      exact ⟨sameOrigin, sameBasename, stays isDeleted⟩
    · intro origin basename member
      obtain ⟨row, isChosen, event⟩ := List.mem_map.mp member
      cases event
      obtain ⟨member, isChosen⟩ := List.mem_filter.mp isChosen
      obtain ⟨_, deleted, equal, _, marked⟩ := marks.row chosen row
      refine ⟨_, List.mem_map_of_mem member, ?_⟩
      rw [equal]
      exact ⟨rfl, rfl, marked isChosen⟩
    · intro failure member
      simp at member
    · intro origin basename used
      simp at used
    · apply List.pairwise_map.mpr
      apply List.pairwise_of_forall
      intro row other origin basename _
      exact ⟨Event.noConfusion, Event.noConfusion⟩

end

variable {Client : Type}

structure Invariant (state : State Client) : Prop where
  sound : Sound state.table
  retired : ∀ origin basename, .marked origin basename ∈ state.history →
    Retired state.table origin basename
  clean : ∀ failure, .failed failure ∉ state.history
  apart : state.history.Pairwise NotReused

theorem Invariant.change {state after : State Client} {events : List Event}
    (inv : Invariant state) (change : Change state.table after.table events)
    (logged : after.history = state.history ++ events) : Invariant after where
  sound := change.sound
  retired := by
    intro origin basename member
    rw [logged] at member
    rcases List.mem_append.mp member with earlier | now
    · exact change.kept origin basename (inv.retired origin basename earlier)
    · exact change.retired origin basename now
  clean := by
    intro failure member
    rw [logged] at member
    rcases List.mem_append.mp member with earlier | now
    · exact inv.clean failure earlier
    · exact change.clean failure now
  apart := by
    rw [logged]
    apply List.pairwise_append.mpr
    refine ⟨inv.apart, change.apart, ?_⟩
    rintro earlier member later now origin basename rfl
    have retired := inv.retired origin basename member
    constructor
    · rintro rfl
      exact change.unused origin basename (.inl now) retired
    · rintro rfl
      exact change.unused origin basename (.inr now) retired

theorem Invariant.update {state : State Client} (inv : Invariant state) {fails : Call → Bool}
    {mark : Row → Row} {chosen : Row → Bool} (marks : Marks mark) :
    Invariant (state.apply (update fails mark chosen state.table)) :=
  inv.change (update_change marks inv.sound) rfl

theorem invariant_init : Invariant (init Client) where
  sound := sound_nil
  retired _ _ member := absurd member List.not_mem_nil
  clean _ := List.not_mem_nil
  apart := List.Pairwise.nil

variable [DecidableEq Client]

theorem Invariant.step {state after : State Client} {action : Action Client × (Call → Bool)}
    (inv : Invariant state) (few : FewVersions state.table) (moved : step state action = some after) :
    Invariant after := by
  obtain ⟨action, fails⟩ := action
  cases action with
  | getDatabaseBasename client origin name =>
      simp only [DatabaseNameTable.step] at moved
      split at moved
      · contradiction
      · cases moved
        exact inv.change (findBasename_change inv.sound) rfl
  | transaction client =>
      simp only [DatabaseNameTable.step] at moved
      split at moved
      · contradiction
      · cases moved
        exact inv.change (findOrAddBasename_change inv.sound few) rfl
  | markDatabaseCorrupt origin name filename =>
      cases moved
      exact inv.update fun row => ⟨true, rfl⟩
  | deleteDatabase origin basename =>
      cases moved
      exact inv.update fun row => ⟨row.isCorrupt, rfl⟩
  | deleteDatabasesForOrigin origin =>
      cases moved
      exact inv.update fun row => ⟨row.isCorrupt, rfl⟩

/-- The steps of all clients, as long as no name has `2 ^ 31` versions. -/
def hasFewVersions (state : State Client) (_ : Action Client × (Call → Bool)) : Prop :=
  FewVersions state.table

theorem databaseNames_stay_sound {state : State Client}
    (reach : Lib.Reachable step hasFewVersions (init Client) state) :
    (∀ origin name, state.table.countP (Row.isActive origin name) ≤ 1) ∧
      (state.table.Pairwise fun row other => row.origin = other.origin →
        row.basename ≠ other.basename) ∧
      (∀ failure, .failed failure ∉ state.history) ∧
      state.history.Pairwise NotReused := by
  have inv : Invariant state := reach.invariant invariant_init
    fun _ _ _ inv few moved => inv.step few moved
  exact ⟨inv.sound.active, inv.sound.distinct, inv.clean, inv.apart⟩

instance (state : State Client) (action : Action Client × (Call → Bool)) :
    Decidable (hasFewVersions state action) :=
  inferInstanceAs (Decidable (∀ row ∈ state.table,
    (versions state.table row.origin row.name).length < 2 ^ 31))

/-- Two clients ask for one database, the first copy of which is found to be corrupt. -/
def corruptedRun : List (Action Bool × (Call → Bool)) :=
  [(.getDatabaseBasename true "http_x_80" "x", fun _ => false),
    (.getDatabaseBasename false "http_x_80" "x", fun _ => false),
    (.transaction true, fun _ => false),
    (.markDatabaseCorrupt "http_x_80" "x" "x#database", fun _ => false),
    (.transaction false, fun _ => false)]

def corrupted : State Bool :=
  Lib.final step hasFewVersions (init Bool) corruptedRun (by decide +kernel)

theorem corrupted_stays_sound :
    corrupted.table.map (·.basename) = ["x#database", "x#database[1]"] ∧
      (∀ origin name, corrupted.table.countP (Row.isActive origin name) ≤ 1) ∧
      corrupted.history.Pairwise NotReused := by
  have reach : Lib.Reachable step hasFewVersions (init Bool) corrupted :=
    Lib.reachable_final corruptedRun (by decide +kernel)
  obtain ⟨active, _, _, apart⟩ := databaseNames_stay_sound reach
  exact ⟨by decide +kernel, active, apart⟩

end ThreadIpc.DatabaseNameTable
