import ThreadIpc.Lib.Reachability
import Mathlib.Algebra.Order.Ring.Nat
import Mathlib.Data.List.Basic

/-!
# The database name table and its clients

One step is one SQL transaction: the first query of `GetDatabaseBasename`, its explicit transaction,
or one `UPDATE`. Calls of any number of clients alternate between these steps. `fails` says which SQL
calls of a step report an error; a failing step changes nothing. `DatabaseID` is left out: no query
reads it. The deletion of the database files does not touch the table.
-/

namespace ThreadIpc.DatabaseNameTable

structure Row where
  origin : String
  name : String
  version : Int
  basename : String
  isCorrupt : Bool
  isDeleted : Bool
  deriving DecidableEq

abbrev Table := List Row

inductive Call
  | begin | basename | nextVersion | insert | commit | update
  deriving DecidableEq

inductive Failure
  | invalidData
  | constraint
  deriving DecidableEq

def Row.isActive (origin name : String) (row : Row) : Bool :=
  row.origin = origin ∧ row.name = name ∧ row.isDeleted = false

def basenameHelper (table : Table) (origin name : String) : Except Failure (Option String) :=
  match (table.filter (Row.isActive origin name)).map (·.basename) with
  | [] => .ok none
  | [basename] => .ok (some basename)
  | _ => .error .invalidData

def versions (table : Table) (origin name : String) : List Int :=
  (table.filter fun row => row.origin = origin ∧ row.name = name).map (·.version)

/-- The incremented maximum is read back with `column_int`. -/
def nextVersionHelper (table : Table) (origin name : String) : Int :=
  match (versions table origin name).max? with
  | none => 0
  | some last => (last + 1).bmod (2 ^ 32)

def versionBasename (name : String) (version : Int) : String :=
  if version = 0 then name ++ "#database" else name ++ "#database[" ++ toString version ++ "]"

/-- `UNIQUE (Origin, Name, Version)` and `UNIQUE (Origin, Basename)` -/
def Row.conflicts (row other : Row) : Bool :=
  row.origin = other.origin ∧
    (row.name = other.name ∧ row.version = other.version ∨ row.basename = other.basename)

def insertHelper (table : Table) (origin name : String) (version : Int) (basename : String) :
    Except Failure Table :=
  let row : Row := ⟨origin, name, version, basename, false, false⟩
  if table.any (Row.conflicts row) then .error .constraint else .ok (table ++ [row])

inductive Event
  | read (origin basename : String)
  | inserted (origin basename : String)
  /-- The row was marked deleted, or deleted and corrupt. -/
  | marked (origin basename : String)
  | failed (failure : Failure)
  deriving DecidableEq

inductive Progress
  | failure
  | absent
  | returned (basename : String)
  deriving DecidableEq

/-- The query outside of any transaction that `GetDatabaseBasename` starts with. -/
def findBasename (fails : Call → Bool) (table : Table) (origin name : String) :
    List Event × Progress :=
  if fails .basename then ([], .failure)
  else match basenameHelper table origin name with
    | .error failure => ([.failed failure], .failure)
    | .ok none => ([], .absent)
    | .ok (some basename) => ([.read origin basename], .returned basename)

def commit (fails : Call → Bool) (before after : Table) (basename : String) : Table × Progress :=
  if fails .commit then (before, .failure) else (after, .returned basename)

def addVersion (fails : Call → Bool) (table : Table) (origin name : String) :
    Table × List Event × Progress :=
  if fails .nextVersion then (table, [], .failure)
  else
    let version := nextVersionHelper table origin name
    let basename := versionBasename name version
    if fails .insert then (table, [], .failure)
    else match insertHelper table origin name version basename with
      | .error failure => (table, [.failed failure], .failure)
      | .ok after =>
          let (table, progress) := commit fails table after basename
          (table, [.inserted origin basename], progress)

def findOrAddBasename (fails : Call → Bool) (table : Table) (origin name : String) :
    Table × List Event × Progress :=
  if fails .begin then (table, [], .failure)
  else match findBasename fails table origin name with
    | (_, .absent) => addVersion fails table origin name
    | (events, .failure) => (table, events, .failure)
    | (events, .returned basename) =>
        let (table, progress) := commit fails table table basename
        (table, events, progress)

def update (fails : Call → Bool) (mark : Row → Row) (chosen : Row → Bool) (table : Table) :
    Table × List Event :=
  if fails .update then (table, [])
  else (table.map fun row => if chosen row then mark row else row,
    (table.filter chosen).map fun row => .marked row.origin row.basename)

def markDatabaseCorrupt (fails : Call → Bool) (origin name filename : String) :
    Table → Table × List Event :=
  update fails (fun row => { row with isCorrupt := true, isDeleted := true })
    fun row => row.origin = origin ∧ row.name = name ∧ row.basename = filename

def deleteDatabase (fails : Call → Bool) (origin basename : String) : Table → Table × List Event :=
  update fails (fun row => { row with isDeleted := true })
    fun row => row.origin = origin ∧ row.basename = basename

def deleteDatabasesForOrigin (fails : Call → Bool) (origin : String) :
    Table → Table × List Event :=
  update fails (fun row => { row with isDeleted := true }) fun row => row.origin = origin

structure State (Client : Type) where
  table : Table
  pending : Client → Option (String × String)
  history : List Event

def init (Client : Type) : State Client where
  table := []
  pending := fun _ => none
  history := []

inductive Action (Client : Type)
  | getDatabaseBasename (client : Client) (origin name : String)
  | transaction (client : Client)
  | markDatabaseCorrupt (origin name filename : String)
  | deleteDatabase (origin basename : String)
  | deleteDatabasesForOrigin (origin : String)

variable {Client : Type} [DecidableEq Client]

def State.apply (state : State Client) (result : Table × List Event) : State Client :=
  { state with table := result.1, history := state.history ++ result.2 }

def step (state : State Client) : Action Client × (Call → Bool) → Option (State Client)
  | (.getDatabaseBasename client origin name, fails) => match state.pending client with
      | some _ => none
      | none =>
          let (events, progress) := findBasename fails state.table origin name
          some { state with
            history := state.history ++ events
            pending := if progress = .absent
              then Function.update state.pending client (some (origin, name)) else state.pending }
  | (.transaction client, fails) => match state.pending client with
      | none => none
      | some (origin, name) =>
          let (table, events, _) := findOrAddBasename fails state.table origin name
          some {
            table
            history := state.history ++ events
            pending := Function.update state.pending client none }
  | (.markDatabaseCorrupt origin name filename, fails) =>
      some (state.apply (markDatabaseCorrupt fails origin name filename state.table))
  | (.deleteDatabase origin basename, fails) =>
      some (state.apply (deleteDatabase fails origin basename state.table))
  | (.deleteDatabasesForOrigin origin, fails) =>
      some (state.apply (deleteDatabasesForOrigin fails origin state.table))

end ThreadIpc.DatabaseNameTable
