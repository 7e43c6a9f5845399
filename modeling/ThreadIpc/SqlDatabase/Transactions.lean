import ThreadIpc.SqlDatabase.Model

namespace ThreadIpc.SqlDatabase

mutual

/-- Inside of another transaction, only calls of `RollbackTransaction` count. -/
def callsRollback : Transaction → Bool
  | .run _ _ body ending _ _ => ending = .rollback || anyCallsRollback body

def anyCallsRollback : List Transaction → Bool
  | [] => false
  | transaction :: later => callsRollback transaction || anyCallsRollback later

end

namespace Database

def logged (kinds : List Kind) (db : Database) : Database :=
  { db with log := db.log ++ kinds.map (Event.mk db.serial) }

def rollbacksCalled (calls : Nat) (db : Database) : Database :=
  { db.logged (List.replicate calls .rollbackCalled) with
    needsRollback := db.needsRollback || decide (0 < calls) }

theorem logged_nil (db : Database) : db.logged [] = db := by
  simp [logged]

theorem logged_logged (kinds later : List Kind) (db : Database) :
    (db.logged kinds).logged later = db.logged (kinds ++ later) := by
  simp [logged]

theorem record_eq (kind : Kind) (db : Database) : db.record kind = db.logged [kind] := rfl

theorem lockMutex_eq (db : Database) :
    db.lockMutex = db.logged (if db.hasMutex then [.lock] else []) := by
  rw [lockMutex]
  split
  · rfl
  · exact (logged_nil db).symm

theorem unlockMutex_eq (db : Database) :
    db.unlockMutex = db.logged (if db.hasMutex then [.unlock] else []) := by
  rw [unlockMutex]
  split
  · rfl
  · exact (logged_nil db).symm

theorem rollbacksCalled_zero (db : Database) : db.rollbacksCalled 0 = db := by
  simp [rollbacksCalled, logged]

theorem rollbacksCalled_add (calls later : Nat) (db : Database) :
    (db.rollbacksCalled calls).rollbacksCalled later = db.rollbacksCalled (calls + later) := by
  have some : (db.needsRollback || decide (0 < calls) || decide (0 < later)) =
      (db.needsRollback || decide (0 < calls + later)) := by
    rw [Bool.or_assoc, ← Bool.decide_or]
    exact congrArg _ (decide_eq_decide.mpr Nat.add_pos_iff_pos_or_pos.symm)
  simp only [rollbacksCalled, logged, List.append_assoc, ← List.map_append,
    List.replicate_append_replicate, some]

theorem beginTransaction_inside {beginSucceeds : Bool} {onBegin : Database → Database}
    {db : Database} (inside : 0 < db.transactionCount) (unspoiled : db.needsRollback = false) :
    db.beginTransaction beginSucceeds onBegin =
      ({ db with transactionCount := db.transactionCount + 1 }, true) := by
  rw [beginTransaction, if_pos inside, if_neg (by simp [unspoiled])]

theorem endTransaction_inside {commitSucceeds : Bool} {onCommit onRollback : Database → Database}
    {db : Database} (nested : 1 < db.transactionCount) :
    db.endTransaction commitSucceeds onCommit onRollback =
      ({ db with transactionCount := db.transactionCount - 1 }, true) := by
  rw [endTransaction, if_neg (by omega)]
  exact if_pos (Nat.sub_pos_of_lt nested)

theorem commitTransaction_inside {commitSucceeds : Bool} {onCommit onRollback : Database → Database}
    {db : Database} (nested : 1 < db.transactionCount) :
    (db.commitTransaction commitSucceeds onCommit onRollback).1 =
      { db with transactionCount := db.transactionCount - 1 } := by
  rw [commitTransaction, endTransaction_inside nested]
  exact if_neg (by simpa using Nat.ne_of_gt nested)

theorem rollbackTransaction_eq (commitSucceeds : Bool) (onCommit onRollback : Database → Database)
    (db : Database) : db.rollbackTransaction commitSucceeds onCommit onRollback =
      ((db.rollbacksCalled 1).endTransaction commitSucceeds onCommit onRollback).1 := by
  have called : ({ db with needsRollback := true } : Database).record .rollbackCalled =
      db.rollbacksCalled 1 := by
    simp [rollbacksCalled, logged, record]
  rw [rollbackTransaction, called]

theorem rollbackTransaction_inside {commitSucceeds : Bool}
    {onCommit onRollback : Database → Database} {db : Database} (nested : 1 < db.transactionCount) :
    db.rollbackTransaction commitSucceeds onCommit onRollback =
      { db.rollbacksCalled 1 with transactionCount := db.transactionCount - 1 } := by
  have nested' : 1 < (db.rollbacksCalled 1).transactionCount := nested
  rw [rollbackTransaction_eq, endTransaction_inside nested']
  rfl

end Database

open Database

mutual

theorem execute_inside (transaction : Transaction) (db : Database)
    (inside : 0 < db.transactionCount) : ∃ calls,
      execute transaction db = db.rollbacksCalled calls ∧
        (0 < calls ↔ db.needsRollback = false ∧ callsRollback transaction = true) := by
  obtain ⟨beginSucceeds, onBegin, body, ending, commitSucceeds, onEnd⟩ := transaction
  cases refused : db.needsRollback with
  | true =>
      refine ⟨0, ?_, by simp⟩
      simp [execute, beginTransaction, inside, refused, rollbacksCalled_zero]
  | false =>
      obtain ⟨calls, ran, counted⟩ := executeAll_inside body
        { db with transactionCount := db.transactionCount + 1 } (Nat.succ_pos _)
      have deeper : 1 < (({ db with transactionCount := db.transactionCount + 1 } :
          Database).rollbacksCalled calls).transactionCount := Nat.succ_lt_succ inside
      cases ending with
      | commit =>
          refine ⟨calls, ?_, by simp [counted, callsRollback, refused]⟩
          rw [execute, beginTransaction_inside inside refused]
          simp only [ran]
          rw [commitTransaction_inside deeper]
          rfl
      | rollback =>
          refine ⟨calls + 1, ?_, by simp [callsRollback]⟩
          rw [execute, beginTransaction_inside inside refused]
          simp only [ran]
          rw [rollbackTransaction_inside deeper, rollbacksCalled_add]
          rfl

theorem executeAll_inside (transactions : List Transaction) (db : Database)
    (inside : 0 < db.transactionCount) : ∃ calls,
      executeAll transactions db = db.rollbacksCalled calls ∧
        (0 < calls ↔ db.needsRollback = false ∧ anyCallsRollback transactions = true) := by
  cases transactions with
  | nil => exact ⟨0, by simp [executeAll, rollbacksCalled_zero], by simp [anyCallsRollback]⟩
  | cons transaction later =>
      obtain ⟨first, ran, counted⟩ := execute_inside transaction db inside
      obtain ⟨rest, ran', counted'⟩ := executeAll_inside later (db.rollbacksCalled first) inside
      refine ⟨first + rest, ?_, ?_⟩
      · rw [executeAll, ran, ran', rollbacksCalled_add]
      · simp only [rollbacksCalled, logged, Bool.or_eq_false_iff, decide_eq_false_iff_not,
          counted] at counted'
        rw [Nat.add_pos_iff_pos_or_pos, counted, counted', anyCallsRollback, Bool.or_eq_true]
        tauto

end

/-!
# What an outermost transaction logs

`opening`, the calls of `RollbackTransaction` and `closing` are logged for the transaction itself.
Between `closing` and the return of `CommitTransaction` the listener runs transactions of its own.
-/

def opening (hasMutex hasListener : Bool) : List Kind :=
  (if hasMutex then [.lock] else []) ++ [.begin true] ++ (if hasListener then [.onBegin] else [])

def closing (hasMutex hasListener rolledBack commitSucceeds : Bool) : List Kind :=
  let unlock : List Kind := if hasMutex then [.unlock] else []
  if rolledBack then
    [.rollback] ++ unlock ++ (if hasListener then [.onRollback] else [])
  else if commitSucceeds then
    [.commit true] ++ unlock ++ (if hasListener then [.onCommit] else [])
  else [.commit false, .rollback] ++ unlock ++ (if hasListener then [.onRollback] else [])

def refusing (hasMutex : Bool) : List Kind :=
  let lock : List Kind := if hasMutex then [.lock] else []
  let unlock : List Kind := if hasMutex then [.unlock] else []
  lock ++ Kind.begin false :: unlock

def nestCallsRollback (hasListener : Bool) (onBegin body : List Transaction) : Bool :=
  (hasListener && anyCallsRollback onBegin) || anyCallsRollback body

namespace Database

def begun (db : Database) : Database :=
  { ({ db with serial := db.serial + 1 } : Database).logged (opening db.hasMutex db.hasListener) with
    needsRollback := false, transactionCount := 1 }

def ended (commitSucceeds : Bool) (db : Database) : Database :=
  { db.logged (closing db.hasMutex db.hasListener db.needsRollback commitSucceeds) with
    transactionCount := 0 }

def notified (callback : Database → Database) (db : Database) : Database :=
  if db.hasListener then callback db else db

theorem notify_eq (kind : Kind) (callback : Database → Database) (db : Database) :
    db.notify kind callback =
      (db.logged (if db.hasListener then [kind] else [])).notified callback := by
  by_cases listens : db.hasListener
  · rw [notify, if_pos listens, if_pos listens]
    exact (if_pos listens).symm
  · rw [notify, if_neg listens, if_neg listens, logged_nil, notified, if_neg listens]

theorem beginTransaction_fails {onBegin : Database → Database} {db : Database}
    (idle : db.transactionCount = 0) : db.beginTransaction false onBegin =
      (({ db with serial := db.serial + 1 } : Database).logged (refusing db.hasMutex), false) := by
  rw [beginTransaction, if_neg (by simp [idle])]
  simp only [lockMutex_eq, unlockMutex_eq, record_eq, logged_logged, refusing, List.append_assoc]
  rfl

theorem beginTransaction_outermost {onBegin : Database → Database} {db : Database}
    (idle : db.transactionCount = 0) :
    db.beginTransaction true onBegin = (db.begun.notified onBegin, true) := by
  rw [beginTransaction, if_neg (by simp [idle])]
  simp only [lockMutex_eq, record_eq, logged_logged, notify_eq, begun, opening]
  simp [logged, idle]

theorem endTransaction_outermost {commitSucceeds : Bool} {callback : Database → Database}
    {db : Database} (outermost : db.transactionCount = 1) :
    db.endTransaction commitSucceeds callback callback =
      ((db.ended commitSucceeds).notified callback, !db.needsRollback && commitSucceeds) := by
  rw [endTransaction, if_neg (by simp [outermost])]
  simp only [outermost, Nat.sub_self, Nat.lt_irrefl, if_false]
  cases rolledBack : db.needsRollback with
  | true => simp [ended, closing, rolledBack, unlockMutex_eq, record_eq, notify_eq, logged]
  | false =>
      cases commitSucceeds <;>
        simp [ended, closing, rolledBack, unlockMutex_eq, record_eq, notify_eq, logged]

end Database

def Database.concluded (calls : Nat) (commitSucceeds : Bool) (db : Database) : Database :=
  (db.begun.rollbacksCalled calls).ended commitSucceeds

def Database.returned (serial : Nat) (result : Bool) (db : Database) : Database :=
  { db with log := db.log ++ [⟨serial, .commitReturned result⟩] }

theorem notified_onBegin (onBegin : List Transaction) (db : Database)
    (inside : 0 < db.transactionCount) : ∃ calls,
      db.notified (executeAll onBegin) = db.rollbacksCalled calls ∧
        (0 < calls ↔ db.needsRollback = false ∧
          (db.hasListener && anyCallsRollback onBegin) = true) := by
  by_cases listens : db.hasListener
  · obtain ⟨calls, ran, counted⟩ := executeAll_inside onBegin db inside
    exact ⟨calls, by rw [notified, if_pos listens, ran], by rw [counted, listens, Bool.true_and]⟩
  · exact ⟨0, by rw [notified, if_neg listens, rollbacksCalled_zero], by simp [listens]⟩

theorem execute_nest (onBegin body : List Transaction) (db : Database) : ∃ calls,
    executeAll body (db.begun.notified (executeAll onBegin)) = db.begun.rollbacksCalled calls ∧
      (0 < calls ↔ nestCallsRollback db.hasListener onBegin body = true) := by
  obtain ⟨early, began, countedEarly⟩ := notified_onBegin onBegin db.begun Nat.one_pos
  obtain ⟨late, ran, countedLate⟩ :=
    executeAll_inside body (db.begun.rollbacksCalled early) Nat.one_pos
  refine ⟨early + late, ?_, ?_⟩
  · rw [began, ran, rollbacksCalled_add]
  · rw [Nat.add_pos_iff_pos_or_pos, countedEarly, countedLate, nestCallsRollback, Bool.or_eq_true]
    simp only [rollbacksCalled, Bool.or_eq_false_iff, decide_eq_false_iff_not, countedEarly]
    have unspoiled : db.begun.needsRollback = false := rfl
    have sameListener : db.begun.hasListener = db.hasListener := rfl
    rw [unspoiled, sameListener]
    tauto

theorem execute_commit (onBegin body onEnd : List Transaction) (commitSucceeds : Bool)
    {db : Database} (idle : db.transactionCount = 0) : ∃ calls,
      (0 < calls ↔ nestCallsRollback db.hasListener onBegin body = true) ∧
        execute (.run true onBegin body .commit commitSucceeds onEnd) db =
          let after := (db.concluded calls commitSucceeds).notified (executeAll onEnd)
          after.returned (db.serial + 1)
            (decide (calls = 0) && commitSucceeds && !after.needsRollback) := by
  obtain ⟨calls, ran, counted⟩ := execute_nest onBegin body db
  refine ⟨calls, counted, ?_⟩
  have one : (db.begun.rollbacksCalled calls).transactionCount = 1 := rfl
  have spoiled : (db.begun.rollbacksCalled calls).needsRollback = !decide (calls = 0) := by
    simp [rollbacksCalled, begun, Nat.pos_iff_ne_zero]
  rw [execute, beginTransaction_outermost idle]
  simp only [ran, commitTransaction, endTransaction_outermost one, one, if_true, spoiled,
    Bool.not_not]
  rfl

theorem execute_rollback (onBegin body onEnd : List Transaction) (commitSucceeds : Bool)
    {db : Database} (idle : db.transactionCount = 0) : ∃ calls, 0 < calls ∧
      execute (.run true onBegin body .rollback commitSucceeds onEnd) db =
        (db.concluded calls commitSucceeds).notified (executeAll onEnd) := by
  obtain ⟨calls, ran, _⟩ := execute_nest onBegin body db
  refine ⟨calls + 1, Nat.succ_pos calls, ?_⟩
  have one : (db.begun.rollbacksCalled (calls + 1)).transactionCount = 1 := rfl
  rw [execute, beginTransaction_outermost idle]
  simp only [ran, rollbackTransaction_eq, rollbacksCalled_add, endTransaction_outermost one]
  rfl

end ThreadIpc.SqlDatabase
