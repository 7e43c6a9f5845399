import Mathlib.Logic.Function.Basic
import ThreadIpc.Lib.Reachability
import ThreadIpc.PermissionsDb.Model
import ThreadIpc.PermissionsDb.PermissionsList

/-!
# Permissions

`GetPermission`, `SetPermission` and `EnableGearsForWorker`, called by any number of clients (threads of any
processes, each with a connection of its own), and the `PermissionsManager`s. A step executes one statement,
which may fail; a write and `BEGIN IMMEDIATE` fail while another client has a transaction open. The process of
a client may end at any moment. An origin is its `url()`. What `SetPermission` deletes of other tables is left
out.
-/

namespace ThreadIpc.PermissionsDb

abbrev Tables := PermissionType → NameValueTable

def clear (failed : Bool) (table : NameValueTable) (name : String) : Option NameValueTable :=
  if failed then none else some (table.filter (·.1 ≠ .text name))

def getPermission (failed : Bool) (tables : Tables) (origin : String) (type : PermissionType) : Int :=
  (getInt failed (some (tables type)) origin).getD permissionNotSet

/-- Nothing is returned if nothing is written. Assertions are compiled out. -/
def setPermission (failed : Bool) (tables : Tables) (origin : String) (type : PermissionType) (value : Int) :
    Option Tables :=
  if origin = "" then none
  else if value = permissionNotSet then
    (clear failed (tables type) origin).map (Function.update tables type)
  else if value = permissionAllowed ∨ value = permissionDenied then
    (setInt failed (some (tables type)) origin value).map (Function.update tables type)
  else none

inductive PermissionState
  | notSet
  | allowedPermanently
  | allowedTemporarily
  | deniedPermanently
  | deniedTemporarily
  deriving DecidableEq

def convertValueToState (value : Int) : PermissionState :=
  if value = permissionAllowed then .allowedPermanently
  else if value = permissionDenied then .deniedPermanently
  else .notSet

def convertStateToBool : PermissionState → Bool
  | .allowedPermanently | .allowedTemporarily => true
  | .deniedPermanently | .deniedTemporarily | .notSet => false

/-- `EnableGearsForWorker`, by its next statement. `types` are those still to be looked at. -/
inductive Call
  | idle
  | begin_ (worker host : String)
  | isOriginAllowed (worker host : String) (types : List PermissionType)
  | tryAllow (worker host : String) (type : PermissionType) (types : List PermissionType)
  | setInt_ (worker host : String) (type : PermissionType) (types : List PermissionType)
  deriving DecidableEq

structure Transaction (C : Type) where
  client : C
  tables : Tables
  granted : List PermissionType
  unread : Bool

inductive Event
  | set (origin : String) (type : PermissionType) (value : Int)
  | enabled (worker host : String) (granted : List PermissionType) (unread : Bool)
  deriving DecidableEq

structure Manager (M : Type) where
  permissionState : PermissionType → Option PermissionState
  lineage : List M

structure State (C M : Type) where
  committed : Tables
  transaction : Option (Transaction C)
  call : C → Call
  manager : M → Manager M
  history : List Event

inductive Action (C M : Type)
  | setPermission (client : C) (origin : String) (type : PermissionType) (value : Int) (failed : Bool)
  | enableGearsForWorker (client : C) (worker host : String)
  | next (client : C) (failed : Bool)
  | end_ (client : C)
  | getPriorDecision (manager : M) (type : PermissionType) (withoutDb failed : Bool)
  | importPermissions (manager other : M)
  deriving DecidableEq

variable {C M : Type} [DecidableEq C] [DecidableEq M]

namespace State

def init (tables : Tables) : State C M where
  committed := tables
  transaction := none
  call _ := .idle
  manager m := ⟨fun _ => none, [m]⟩
  history := []

variable (state : State C M)

def setCall (client : C) (call : Call) : State C M :=
  { state with call := Function.update state.call client call }

def rollback (client : C) : State C M :=
  { state.setCall client .idle with transaction := none }

def commit (client : C) (worker host : String) (transaction : Transaction C) : State C M :=
  { state.setCall client .idle with
    committed := transaction.tables
    transaction := none
    history := state.history ++ [.enabled worker host transaction.granted transaction.unread] }

def next (client : C) (transaction : Transaction C) (failed : Bool) : State C M :=
  let unread := transaction.unread || failed
  match state.call client with
  | .isOriginAllowed worker host [] =>
      if failed then state.rollback client else state.commit client worker host transaction
  | .isOriginAllowed worker host (type :: types) =>
      { state.setCall client
          (if getPermission failed transaction.tables host type = permissionAllowed then
            .tryAllow worker host type types
          else .isOriginAllowed worker host types) with
        transaction := some { transaction with unread } }
  | .tryAllow worker host type types =>
      let value := getPermission failed transaction.tables worker type
      if value = permissionAllowed then
        { state.setCall client (.isOriginAllowed worker host types) with
          transaction := some { transaction with unread } }
      else if value = permissionNotSet then
        { state.setCall client (.setInt_ worker host type types) with
          transaction := some { transaction with unread } }
      else state.rollback client
  | .setInt_ worker host type types =>
      match setInt failed (some (transaction.tables type)) worker permissionAllowed with
      | none => state.rollback client
      | some table =>
          { state.setCall client (.isOriginAllowed worker host types) with
            transaction := some { transaction with
              tables := Function.update transaction.tables type table
              granted := transaction.granted ++ [type] } }
  | .idle | .begin_ _ _ => state

def setManager (manager : M) (changed : Manager M) : State C M :=
  { state with manager := Function.update state.manager manager changed }

end State

def step (securityOrigin : M → String) (state : State C M) : Action C M → Option (State C M)
  | .setPermission client origin type value failed =>
      if state.call client = .idle then
        match setPermission (failed || state.transaction.isSome) state.committed origin type value with
        | none => some state
        | some tables => some { state with
            committed := tables
            history := state.history ++ [.set origin type value] }
      else none
  | .enableGearsForWorker client worker host =>
      if state.call client = .idle then some (state.setCall client (.begin_ worker host)) else none
  | .next client failed =>
      match state.call client, state.transaction with
      | .idle, _ => none
      | .begin_ worker host, none =>
          if failed then some (state.setCall client .idle)
          else some { state.setCall client (.isOriginAllowed worker host [.localData, .locationData]) with
            transaction := some ⟨client, state.committed, [], false⟩ }
      | .begin_ _ _, some _ => some (state.setCall client .idle)
      | _, some transaction =>
          if transaction.client = client then some (state.next client transaction failed) else none
      | _, none => none
  | .end_ client =>
      some { state.setCall client .idle with
        transaction := state.transaction.filter fun transaction => transaction.client ≠ client }
  | .getPriorDecision manager type withoutDb failed =>
      let own := state.manager manager
      if own.permissionState type ≠ none ∨ withoutDb = true then some state
      else
        let value := getPermission failed state.committed (securityOrigin manager) type
        some (state.setManager manager { own with
          permissionState := Function.update own.permissionState type (some (convertValueToState value)) })
  | .importPermissions manager other =>
      some (state.setManager manager
        { permissionState := (state.manager other).permissionState
          lineage := manager :: (state.manager other).lineage })

def hasPermission (isAuthorizedOrigin : String → Bool) (securityOrigin : M → String) (state : State C M)
    (manager : M) (type : PermissionType) : Bool :=
  convertStateToBool (((state.manager manager).permissionState type).getD .notSet) ||
    isAuthorizedOrigin (securityOrigin manager)

end ThreadIpc.PermissionsDb
