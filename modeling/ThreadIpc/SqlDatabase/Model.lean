import Mathlib.Data.List.Basic

/-!
# Nested transactions of `SQLDatabase`

A `Transaction` is one complete use of the interface: what happens between a `BeginTransaction` and
the call that ends it, and how the physical statements come out. `onBegin` and `onEnd` are the
complete transactions that the listener runs when it is called for this one, so the trees range over
every behaviour of the listener that ends. The database logs what it does for transaction `serial`,
the number of `BEGIN`s so far; the code has no such number.
-/

namespace ThreadIpc.SqlDatabase

inductive Kind
  | lock
  | unlock
  | begin (succeeds : Bool)
  | commit (succeeds : Bool)
  | rollback
  | onBegin
  | onCommit
  | onRollback
  /-- A call of `RollbackTransaction`, at whatever depth. -/
  | rollbackCalled
  /-- The outermost `CommitTransaction` returned. -/
  | commitReturned (result : Bool)
  deriving DecidableEq

structure Event where
  serial : Nat
  kind : Kind
  deriving DecidableEq

structure Database where
  hasMutex : Bool
  hasListener : Bool
  transactionCount : Nat
  needsRollback : Bool
  serial : Nat
  log : List Event
  deriving DecidableEq

def opened (hasMutex hasListener : Bool) : Database where
  hasMutex := hasMutex
  hasListener := hasListener
  transactionCount := 0
  needsRollback := false
  serial := 0
  log := []

namespace Database

def record (kind : Kind) (db : Database) : Database :=
  { db with log := db.log ++ [⟨db.serial, kind⟩] }

def lockMutex (db : Database) : Database := if db.hasMutex then db.record .lock else db

def unlockMutex (db : Database) : Database := if db.hasMutex then db.record .unlock else db

def notify (kind : Kind) (callback : Database → Database) (db : Database) : Database :=
  if db.hasListener then callback (db.record kind) else db

def beginTransaction (beginSucceeds : Bool) (onBegin : Database → Database) (db : Database) :
    Database × Bool :=
  if 0 < db.transactionCount then
    if db.needsRollback then (db, false)
    else ({ db with transactionCount := db.transactionCount + 1 }, true)
  else
    let db := (({ db with serial := db.serial + 1 }).lockMutex).record (.begin beginSucceeds)
    if beginSucceeds then
      let db := { db with needsRollback := false, transactionCount := db.transactionCount + 1 }
      (db.notify .onBegin onBegin, true)
    else (db.unlockMutex, false)

def endTransaction (commitSucceeds : Bool) (onCommit onRollback : Database → Database)
    (db : Database) : Database × Bool :=
  if db.transactionCount = 0 then (db, false)
  else
    let db := { db with transactionCount := db.transactionCount - 1 }
    if 0 < db.transactionCount then (db, true)
    else
      let (db, committed) :=
        if db.needsRollback then (db, false) else (db.record (.commit commitSucceeds), commitSucceeds)
      if committed then (db.unlockMutex.notify .onCommit onCommit, true)
      else ((db.record .rollback).unlockMutex.notify .onRollback onRollback, false)

def rollbackTransaction (commitSucceeds : Bool) (onCommit onRollback : Database → Database)
    (db : Database) : Database :=
  let db := ({ db with needsRollback := true }).record .rollbackCalled
  (db.endTransaction commitSucceeds onCommit onRollback).1

def commitTransaction (commitSucceeds : Bool) (onCommit onRollback : Database → Database)
    (db : Database) : Database × Bool :=
  let (after, ended) := db.endTransaction commitSucceeds onCommit onRollback
  let result := ended && !after.needsRollback
  let outermost := db.transactionCount = 1
  (if outermost then { after with log := after.log ++ [⟨db.serial, .commitReturned result⟩] }
    else after, result)

end Database

inductive Ending
  | commit
  | rollback
  deriving DecidableEq

inductive Transaction
  | run (beginSucceeds : Bool) (onBegin body : List Transaction) (ending : Ending)
      (commitSucceeds : Bool) (onEnd : List Transaction)

mutual

/-- A client that is refused by `BeginTransaction` does nothing more. -/
def execute : Transaction → Database → Database
  | .run beginSucceeds onBegin body ending commitSucceeds onEnd, db =>
      match db.beginTransaction beginSucceeds (executeAll onBegin) with
      | (db, false) => db
      | (db, true) =>
          let db := executeAll body db
          match ending with
          | .commit => (db.commitTransaction commitSucceeds (executeAll onEnd) (executeAll onEnd)).1
          | .rollback =>
              db.rollbackTransaction commitSucceeds (executeAll onEnd) (executeAll onEnd)

def executeAll : List Transaction → Database → Database
  | [], db => db
  | transaction :: later, db => executeAll later (execute transaction db)

end

end ThreadIpc.SqlDatabase
