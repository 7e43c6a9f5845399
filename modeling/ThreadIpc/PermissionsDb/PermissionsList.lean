import ThreadIpc.Lib.Queries

/-!
# `PermissionsDB::GetPermissionsSorted`

The names are ordered by the collation of the column.
-/

namespace ThreadIpc.PermissionsDb
open Lib.Queries

abbrev PermissionValue := Int

def permissionNotSet : PermissionValue := 0

def permissionAllowed : PermissionValue := 1

def permissionDenied : PermissionValue := 2

inductive PermissionType
  | localData
  | locationData
  deriving DecidableEq

def OriginPermissions := PermissionType → Option PermissionValue

abbrev PermissionsList (Name : Type) := List (Name × OriginPermissions)

structure AccessTable (Name : Type) where
  rows : List (Name × PermissionValue)
  unique : (rows.map Prod.fst).Nodup
  valued : ∀ row ∈ rows, row.2 = permissionAllowed ∨ row.2 = permissionDenied

structure MergedRow (Name : Type) where
  name : Name
  storage : Option Int
  location : Option Int
  deriving DecidableEq

/-- The call of `step` that returns the row at the index, or the end behind the last one. -/
inductive SelectCall
  | prepare
  | step (index : Nat)

section Query
variable {Name : Type} [LinearOrder Name] (access locationAccess : AccessTable Name)

/-- `Access LEFT OUTER JOIN LocationAccess ON Access.Name = LocationAccess.Name` -/
def outerJoin : List (MergedRow Name) :=
  (leftOuterJoin (fun row other => row.1 = other.1) access.rows locationAccess.rows).map
    fun (row, matched) => {
      name := row.1
      storage := some row.2
      location := matched.map Prod.snd }

def onlyLocation : List (MergedRow Name) :=
  distinct ((notIn Prod.fst (access.rows.map Prod.fst) locationAccess.rows).map fun row => {
    name := row.1
    storage := none
    location := some row.2 })

/-- `(coalesce(Location, 2) + coalesce(Storage, 2)) < 4` -/
def MergedRow.allows (row : MergedRow Name) : Bool :=
  row.location.getD 2 + row.storage.getD 2 < 4

def selectQuery : List (MergedRow Name) :=
  orderBy (.thenBy (.descending MergedRow.allows) (.ascending MergedRow.name))
    (union (outerJoin access locationAccess) (onlyLocation access locationAccess))

/-- A column that is null is read as 0. -/
def columnPermission (column : Option Int) : Option PermissionValue :=
  let value := column.getD 0
  if value ≠ permissionNotSet then some value else none

def MergedRow.permissions (row : MergedRow Name) : OriginPermissions
  | .localData => columnPermission row.storage
  | .locationData => columnPermission row.location

def readRows (fails : SelectCall → Bool) :
    Nat → List (MergedRow Name) → PermissionsList Name → Bool × PermissionsList Name
  | index, [], out => (!fails (.step index), out)
  | index, row :: rest, out =>
      if fails (.step index) then (false, out)
      else readRows fails (index + 1) rest (out ++ [(row.name, row.permissions)])

def getPermissionsSorted (fails : SelectCall → Bool) (out : PermissionsList Name) :
    Bool × PermissionsList Name :=
  if fails .prepare then (false, out)
  else readRows fails 0 (selectQuery access locationAccess) out

end Query

end ThreadIpc.PermissionsDb
