import Mathlib.Data.List.Induction
import ThreadIpc.PermissionsDb.AllOrNothing
import ThreadIpc.PermissionsDb.Decisions

/-!
# Where permissions come from

The tables are always what the committed calls have made of them, one after the other, and each of these calls
has done no more than it may.
-/

namespace ThreadIpc.PermissionsDb

abbrev Permissions := PermissionType → String → Int

def valuesOf (tables : Tables) : Permissions := fun type origin => getPermission false tables origin type

def Event.apply (values : Permissions) : Event → Permissions
  | .set origin type value => fun type' origin' =>
      if type' = type ∧ origin' = origin then value else values type' origin'
  | .enabled worker _ granted _ => fun type origin =>
      if type ∈ granted ∧ origin = worker then permissionAllowed else values type origin

def replay (initial : Permissions) (history : List Event) : Permissions := history.foldl Event.apply initial

/-- A worker gets what its host has. It keeps what has been decided for it, if that could be read. -/
def Event.Lawful (values : Permissions) : Event → Prop
  | .set origin _ value => origin ≠ "" ∧
      (value = permissionNotSet ∨ value = permissionAllowed ∨ value = permissionDenied)
  | .enabled worker host granted unread =>
      (∀ type ∈ granted, values type host = permissionAllowed) ∧
      (unread = false → ∀ type, if values type host = permissionAllowed then
          (values type worker = permissionNotSet ∧ type ∈ granted) ∨
            (values type worker = permissionAllowed ∧ type ∉ granted)
        else type ∉ granted)

def Lawful (initial : Permissions) (history : List Event) : Prop :=
  ∀ before event after, history = before ++ event :: after → event.Lawful (replay initial before)

section Tables

variable {tables : Tables} {type : PermissionType} {origin : String} {value : Int}

theorem getInt_other {rows rows' : NameValueTable} {name other : String} (different : other ≠ name)
    (same : rows'.filter (·.1 ≠ .text name) = rows.filter (·.1 ≠ .text name)) :
    getInt false (some rows') other = getInt false (some rows) other := by
  have found (rows : NameValueTable) : rows.find? (·.1 = .text other) =
      (rows.filter (·.1 ≠ .text name)).find? (·.1 = .text other) := by
    rw [List.find?_filter]
    congr 1
    funext row
    by_cases here : row.1 = .text other
    · simp [here, different]
    · simp [here]
  rw [getInt, getInt, Option.bind_some, Option.bind_some, found rows', same, ← found rows]

theorem valuesOf_update {table : NameValueTable} (own : getInt false (some table) origin = some value ∨
      getInt false (some table) origin = none ∧ value = permissionNotSet)
    (same : table.filter (·.1 ≠ .text origin) = (tables type).filter (·.1 ≠ .text origin)) :
    valuesOf (Function.update tables type table) = (Event.set origin type value).apply (valuesOf tables) := by
  funext type' origin'
  simp only [valuesOf, getPermission, Event.apply]
  by_cases here : type' = type
  · rw [here, Function.update_self]
    by_cases there : origin' = origin
    · rw [there, if_pos ⟨rfl, rfl⟩]
      rcases own with some_ | ⟨none_, rfl⟩
      · rw [some_]
        rfl
      · rw [none_]
        rfl
    · rw [if_neg fun both => there both.2, getInt_other there same]
  · rw [Function.update_of_ne here, if_neg fun both => here both.1]

theorem valuesOf_setInt {failed : Bool} {table : NameValueTable}
    (written : setInt failed (some (tables type)) origin value = some table)
    (small : ShortcutTable.columnInt (.integer value) = value) :
    valuesOf (Function.update tables type table) = (Event.set origin type value).apply (valuesOf tables) := by
  have own := getInt_setInt written
  rw [small] at own
  refine valuesOf_update (.inl own) ?_
  rw [setInt] at written
  split at written
  · cases written
  · cases written
    simp

theorem setPermission_failed : setPermission true tables origin type value = none := by
  rw [setPermission]
  split
  · rfl
  · split
    · rfl
    · split
      · rfl
      · rfl

theorem valuesOf_setPermission {failed : Bool} {after : Tables}
    (written : setPermission failed tables origin type value = some after) :
    valuesOf after = (Event.set origin type value).apply (valuesOf tables) ∧
      ∀ values, (Event.set origin type value).Lawful values := by
  rw [setPermission] at written
  split at written
  · cases written
  · rename_i some_
    split at written
    · rename_i notSet
      obtain ⟨table, cleared, rfl⟩ := Option.map_eq_some_iff.mp written
      rw [clear] at cleared
      split at cleared
      · cases cleared
      · cases cleared
        refine ⟨valuesOf_update (.inr ⟨?_, notSet⟩) ?_, fun _ => ⟨some_, .inl notSet⟩⟩
        · rw [getInt, if_neg Bool.false_ne_true, Option.bind_some, List.find?_filter, Option.map_eq_none_iff,
            List.find?_eq_none]
          intro row _
          simp
        · rw [List.filter_filter]
          simp
    · split at written
      · rename_i decided
        obtain ⟨table, set, rfl⟩ := Option.map_eq_some_iff.mp written
        refine ⟨valuesOf_setInt set ?_, fun _ => ⟨some_, .inr decided⟩⟩
        rcases decided with rfl | rfl <;> decide
      · cases written

end Tables

section Replay

variable {initial values : Permissions} {history : List Event} {event : Event}

theorem replay_concat : replay initial (history ++ [event]) = event.apply (replay initial history) := by
  rw [replay, List.foldl_append]
  rfl

theorem Lawful.concat (lawful : Lawful initial history) (last : event.Lawful (replay initial history)) :
    Lawful initial (history ++ [event]) := by
  intro before event' after split
  rcases List.eq_nil_or_concat after with rfl | ⟨front, other, rfl⟩
  · obtain ⟨rfl, same⟩ := List.append_inj' split rfl
    cases same
    exact last
  · rw [List.concat_eq_append, ← List.cons_append, ← List.append_assoc] at split
    exact lawful before event' front (List.append_inj' split rfl).1

/-- A denial is only undone by the user, or where it could not be read. -/
theorem Lawful.denied (lawful : Lawful initial history) {type : PermissionType} {origin : String}
    {before after : List Event} (split : history = before ++ .set origin type permissionDenied :: after)
    (undecided : ∀ value, .set origin type value ∉ after)
    (readable : ∀ host granted, .enabled origin host granted true ∉ after) :
    replay initial history type origin = permissionDenied := by
  induction after using List.reverseRecOn generalizing history with
  | nil =>
      rw [split, replay_concat]
      exact if_pos ⟨rfl, rfl⟩
  | append_singleton after last ih =>
      rw [← List.cons_append, ← List.append_assoc] at split
      have earlier : Lawful initial (before ++ .set origin type permissionDenied :: after) := by
        intro before' event after' same
        exact lawful before' event (after' ++ [last]) (by rw [split, same]; simp)
      have still := ih earlier rfl (fun value inside => undecided value (List.mem_append_left _ inside))
        fun host granted inside => readable host granted (List.mem_append_left _ inside)
      have may := lawful _ last [] split
      have here : last ∈ after ++ [last] := List.mem_append_right _ List.mem_cons_self
      rw [split, replay_concat]
      cases last with
      | set origin' type' value =>
          refine (if_neg ?_).trans still
          rintro ⟨rfl, rfl⟩
          exact undecided value here
      | enabled worker host granted unread =>
          refine (if_neg ?_).trans still
          rintro ⟨inside, rfl⟩
          cases unread with
          | true => exact readable host granted here
          | false =>
              have kept := may.2 rfl type
              rw [if_pos (may.1 type inside), still] at kept
              rcases kept with ⟨notSet, -⟩ | ⟨allowed, -⟩
              · exact absurd notSet (by decide)
              · exact absurd allowed (by decide)

theorem Lawful.allowed (lawful : Lawful initial history) {type : PermissionType} {origin : String}
    (allowed : replay initial history type origin = permissionAllowed) :
    ∃ decided, initial type decided = permissionAllowed ∨ .set decided type permissionAllowed ∈ history := by
  induction history using List.reverseRecOn generalizing origin with
  | nil => exact ⟨origin, .inl allowed⟩
  | append_singleton history last ih =>
      have earlier : Lawful initial history := by
        intro before event after same
        exact lawful before event (after ++ [last]) (by rw [same]; simp)
      have before {origin : String} (allowed : replay initial history type origin = permissionAllowed) :
          ∃ decided, initial type decided = permissionAllowed ∨
            .set decided type permissionAllowed ∈ history ++ [last] := by
        obtain ⟨decided, first | set⟩ := ih earlier allowed
        · exact ⟨decided, .inl first⟩
        · exact ⟨decided, .inr (List.mem_append_left _ set)⟩
      rw [replay_concat] at allowed
      cases last with
      | set origin' type' value =>
          simp only [Event.apply] at allowed
          split at allowed
          · rename_i same
            obtain ⟨rfl, rfl⟩ := same
            rw [allowed]
            exact ⟨origin, .inr (List.mem_append_right _ List.mem_cons_self)⟩
          · exact before allowed
      | enabled worker host granted unread =>
          simp only [Event.apply] at allowed
          split at allowed
          · rename_i same
            have may := lawful history _ [] rfl
            exact before (may.1 type same.1)
          · exact before allowed

end Replay

section Transactions

variable {C : Type} {values : Permissions} {transaction : Transaction C} {worker host : String}
  {type : PermissionType} {types : List PermissionType} {failed : Bool}

theorem getPermission_eq (failed : Bool) (tables : Tables) (origin : String) (type : PermissionType) :
    getPermission failed tables origin type =
      if failed = true then permissionNotSet else valuesOf tables type origin := by
  cases failed with
  | true => rfl
  | false => rfl

theorem read_allowed {tables : Tables} {origin : String}
    (allowed : getPermission failed tables origin type = permissionAllowed) :
    failed = false ∧ valuesOf tables type origin = permissionAllowed := by
  rw [getPermission_eq] at allowed
  split at allowed
  · exact absurd allowed (by decide)
  · rename_i read
    exact ⟨Bool.eq_false_iff.mpr read, allowed⟩

structure Progress (values : Permissions) (transaction : Transaction C) (worker host : String)
    (types : List PermissionType) : Prop where
  tables : valuesOf transaction.tables =
    (Event.enabled worker host transaction.granted transaction.unread).apply values
  nodup : types.Nodup
  left : ∀ type ∈ types, type ∉ transaction.granted
  granted : ∀ type ∈ transaction.granted, values type host = permissionAllowed
  read : transaction.unread = false → ∀ type, type ∉ types →
    if values type host = permissionAllowed then
      (values type worker = permissionNotSet ∧ type ∈ transaction.granted) ∨
        (values type worker = permissionAllowed ∧ type ∉ transaction.granted)
    else type ∉ transaction.granted

namespace Progress

theorem value (progress : Progress values transaction worker host types) (inside : type ∈ types)
    (origin : String) : valuesOf transaction.tables type origin = values type origin := by
  rw [progress.tables]
  exact if_neg fun both => progress.left type inside both.1

theorem unread (progress : Progress values transaction worker host types) (failed : Bool) :
    Progress values { transaction with unread := transaction.unread || failed } worker host types where
  tables := progress.tables
  nodup := progress.nodup
  left := progress.left
  granted := progress.granted
  read all := progress.read (Bool.or_eq_false_iff.mp all).1

theorem pass (progress : Progress values transaction worker host (type :: types))
    (right : transaction.unread = false → values type host = permissionAllowed →
      values type worker = permissionAllowed) :
    Progress values transaction worker host types where
  tables := progress.tables
  nodup := (List.nodup_cons.mp progress.nodup).2
  left other inside := progress.left other (List.mem_cons_of_mem _ inside)
  granted := progress.granted
  read all other done := by
    by_cases here : other = type
    · have apart := progress.left type List.mem_cons_self
      rw [here]
      split
      · rename_i allowed
        exact .inr ⟨right all allowed, apart⟩
      · exact apart
    · exact progress.read all other (List.not_mem_cons_of_ne_of_not_mem here done)

theorem grant (progress : Progress values transaction worker host (type :: types))
    (allowed : values type host = permissionAllowed)
    (notSet : transaction.unread = false → values type worker = permissionNotSet) {table : NameValueTable}
    (written : setInt failed (some (transaction.tables type)) worker permissionAllowed = some table) :
    Progress values { transaction with
      tables := Function.update transaction.tables type table
      granted := transaction.granted ++ [type] } worker host types where
  tables := by
    rw [valuesOf_setInt written (by decide), progress.tables]
    funext type' origin
    simp only [Event.apply, List.mem_append, List.mem_singleton]
    by_cases here : type' = type ∧ origin = worker
    · rw [if_pos here, if_pos ⟨.inr here.1, here.2⟩]
    · rw [if_neg here]
      refine ite_congr (propext ?_) (fun _ => rfl) fun _ => rfl
      constructor
      · exact fun both => ⟨.inl both.1, both.2⟩
      · rintro ⟨before | same, own⟩
        · exact ⟨before, own⟩
        · exact absurd ⟨same, own⟩ here
  nodup := (List.nodup_cons.mp progress.nodup).2
  left other inside granted := by
    rcases List.mem_append.mp granted with before | new
    · exact progress.left other (List.mem_cons_of_mem _ inside) before
    · rw [List.mem_singleton.mp new] at inside
      exact (List.nodup_cons.mp progress.nodup).1 inside
  granted other granted := by
    rcases List.mem_append.mp granted with before | new
    · exact progress.granted other before
    · rw [List.mem_singleton.mp new]
      exact allowed
  read all other done := by
    by_cases here : other = type
    · rw [here, if_pos allowed]
      exact .inl ⟨notSet all, List.mem_append_right _ List.mem_cons_self⟩
    · have before := progress.read all other (List.not_mem_cons_of_ne_of_not_mem here done)
      simpa only [List.mem_append, List.mem_singleton, here, or_false] using before

theorem lawful (progress : Progress values transaction worker host []) :
    (Event.enabled worker host transaction.granted transaction.unread).Lawful values :=
  ⟨progress.granted, fun all other => progress.read all other List.not_mem_nil⟩

end Progress

def Call.Inside (values : Permissions) (transaction : Transaction C) : Call → Prop
  | .isOriginAllowed worker host types => Progress values transaction worker host types
  | .tryAllow worker host type types => Progress values transaction worker host (type :: types) ∧
      values type host = permissionAllowed
  | .setInt_ worker host type types => Progress values transaction worker host (type :: types) ∧
      values type host = permissionAllowed ∧
      (transaction.unread = false → values type worker = permissionNotSet)
  | .idle | .begin_ _ _ => False

end Transactions

section Run

variable {C M : Type} {securityOrigin : M → String} {initial : Permissions}

def Read (initial : Permissions) (history : List Event) (type : PermissionType) (origin : String)
    (permission : PermissionState) : Prop :=
  ∃ before, before <+: history ∧ permission = convertValueToState (replay initial before type origin)

structure Inv (initial : Permissions) (securityOrigin : M → String) (state : State C M) : Prop where
  values : valuesOf state.committed = replay initial state.history
  lawful : Lawful initial state.history
  inside : ∀ transaction, state.transaction = some transaction →
    (state.call transaction.client).Inside (replay initial state.history) transaction
  remembers : ∀ manager type permission, (state.manager manager).permissionState type = some permission →
    permission = .notSet ∨ ∃ other ∈ (state.manager manager).lineage,
      Read initial state.history type (securityOrigin other) permission
  own : ∀ manager, manager ∈ (state.manager manager).lineage

theorem Inv.init (tables : Tables) :
    Inv (valuesOf tables) securityOrigin (State.init tables : State C M) where
  values := rfl
  lawful before event after same := by cases before <;> cases same
  inside _ opened := by cases opened
  remembers _ _ _ cached := by cases cached
  own _ := List.mem_cons_self

theorem Inv.history {state after : State C M} (inv : Inv initial securityOrigin state) {event : Event}
    (lawful : event.Lawful (replay initial state.history))
    (values : valuesOf after.committed = event.apply (valuesOf state.committed))
    (grown : after.history = state.history ++ [event]) (managers : after.manager = state.manager)
    (closed : after.transaction = none) : Inv initial securityOrigin after where
  values := by rw [values, inv.values, grown, replay_concat]
  lawful := by
    rw [grown]
    exact inv.lawful.concat lawful
  inside transaction opened := by
    rw [closed] at opened
    cases opened
  remembers manager type permission cached := by
    rw [managers] at cached ⊢
    refine (inv.remembers manager type permission cached).imp_right ?_
    rintro ⟨other, inside, before, earlier, same⟩
    exact ⟨other, inside, before, grown ▸ earlier.trans (List.prefix_append _ _), same⟩
  own := by
    rw [managers]
    exact inv.own

theorem Inv.same {state after : State C M} (inv : Inv initial securityOrigin state)
    (committed : after.committed = state.committed) (history : after.history = state.history)
    (managers : after.manager = state.manager)
    (inside : ∀ transaction, after.transaction = some transaction →
      (after.call transaction.client).Inside (replay initial state.history) transaction) :
    Inv initial securityOrigin after where
  values := by rw [committed, history, inv.values]
  lawful := history ▸ inv.lawful
  inside := by
    rw [history]
    exact inside
  remembers := by
    rw [managers, history]
    exact inv.remembers
  own := by
    rw [managers]
    exact inv.own

variable [DecidableEq C]

theorem Inv.idle {state : State C M} (inv : Inv initial securityOrigin state) {client : C} {call : Call}
    (outside : ∀ transaction, state.transaction = some transaction → transaction.client ≠ client) :
    Inv initial securityOrigin (state.setCall client call) := by
  refine inv.same rfl rfl rfl fun transaction opened => ?_
  have different := outside transaction opened
  have same : (state.setCall client call).call transaction.client = state.call transaction.client :=
    Function.update_of_ne different _ _
  rw [same]
  exact inv.inside transaction opened

theorem Inv.rollback {state : State C M} (inv : Inv initial securityOrigin state) (client : C) :
    Inv initial securityOrigin (state.rollback client) :=
  inv.same rfl rfl rfl fun _ opened => by cases opened

theorem Inv.moved {state : State C M} (inv : Inv initial securityOrigin state) {client : C} {call : Call}
    {transaction : Transaction C} (own : transaction.client = client)
    (inside : call.Inside (replay initial state.history) transaction) :
    Inv initial securityOrigin { state.setCall client call with transaction := some transaction } := by
  refine inv.same rfl rfl rfl fun transaction' opened => ?_
  cases opened
  have same : (state.setCall client call).call transaction.client = call := by
    rw [own]
    exact Function.update_self _ _ _
  exact same.symm ▸ inside

theorem Inv.next {state : State C M} (inv : Inv initial securityOrigin state) {client : C}
    {transaction : Transaction C} (opened : state.transaction = some transaction)
    (own : transaction.client = client) (failed : Bool) :
    Inv initial securityOrigin (state.next client transaction failed) := by
  have inside := inv.inside transaction opened
  rw [own] at inside
  rw [State.next]
  cases call : state.call client with
  | idle =>
      rw [call] at inside
      exact inside.elim
  | begin_ worker host =>
      rw [call] at inside
      exact inside.elim
  | isOriginAllowed worker host types =>
      rw [call] at inside
      have progress : Progress (replay initial state.history) transaction worker host types := inside
      cases types with
      | nil =>
          simp only
          split
          · exact inv.rollback client
          · refine inv.history progress.lawful ?_ rfl rfl rfl
            rw [inv.values]
            exact progress.tables
      | cons type types =>
          have value := progress.value List.mem_cons_self host
          simp only
          split
          · rename_i allowed
            have read := (read_allowed allowed).2
            rw [value] at read
            exact inv.moved own ⟨progress.unread failed, read⟩
          · rename_i other
            refine inv.moved own ((progress.unread failed).pass fun all allowed => ?_)
            refine absurd ?_ other
            rw [getPermission_eq, if_neg, value, allowed]
            rw [(Bool.or_eq_false_iff.mp all).2]
            exact Bool.false_ne_true
  | tryAllow worker host type types =>
      rw [call] at inside
      obtain ⟨progress, allowed⟩ := inside
      have value := progress.value List.mem_cons_self worker
      simp only
      split
      · rename_i already
        have read := (read_allowed already).2
        rw [value] at read
        exact inv.moved own ((progress.unread failed).pass fun _ _ => read)
      · split
        · rename_i notSet
          refine inv.moved own ⟨progress.unread failed, allowed, fun all => ?_⟩
          rw [getPermission_eq, if_neg, value] at notSet
          · exact notSet
          · rw [(Bool.or_eq_false_iff.mp all).2]
            exact Bool.false_ne_true
        · exact inv.rollback client
  | setInt_ worker host type types =>
      rw [call] at inside
      obtain ⟨progress, allowed, notSet⟩ := inside
      simp only
      split
      · exact inv.rollback client
      · rename_i table written
        exact inv.moved own (progress.grant allowed notSet written)

theorem Inv.end_ {state : State C M} (inv : Inv initial securityOrigin state) (client : C) :
    Inv initial securityOrigin { state.setCall client .idle with
      transaction := state.transaction.filter fun transaction => transaction.client ≠ client } := by
  refine inv.same rfl rfl rfl fun transaction opened => ?_
  obtain ⟨before, other⟩ := Option.filter_eq_some_iff.mp opened
  have same : (state.setCall client .idle).call transaction.client = state.call transaction.client :=
    Function.update_of_ne (of_decide_eq_true other) _ _
  exact same.symm ▸ inv.inside transaction before

variable [DecidableEq M]

omit [DecidableEq C] in
theorem Inv.setManager {state : State C M} (inv : Inv initial securityOrigin state) {manager : M}
    {changed : Manager M} (remembers : ∀ type permission, changed.permissionState type = some permission →
      permission = .notSet ∨ ∃ other ∈ changed.lineage,
        Read initial state.history type (securityOrigin other) permission) (own : manager ∈ changed.lineage) :
    Inv initial securityOrigin (state.setManager manager changed) where
  values := inv.values
  lawful := inv.lawful
  inside := inv.inside
  remembers other type permission cached := by
    have cached : (Function.update state.manager manager changed other).permissionState type =
      some permission := cached
    change _ ∨ ∃ from_ ∈ (Function.update state.manager manager changed other).lineage, _
    by_cases here : other = manager
    · rw [here, Function.update_self] at cached ⊢
      exact remembers type permission cached
    · rw [Function.update_of_ne here] at cached ⊢
      exact inv.remembers other type permission cached
  own other := by
    change other ∈ (Function.update state.manager manager changed other).lineage
    by_cases here : other = manager
    · rw [here, Function.update_self]
      exact own
    · rw [Function.update_of_ne here]
      exact inv.own other

theorem Inv.step {state after : State C M} (inv : Inv initial securityOrigin state) {action : Action C M}
    (moved : step securityOrigin state action = some after) : Inv initial securityOrigin after := by
  cases action with
  | setPermission client origin type value failed =>
      simp only [PermissionsDb.step] at moved
      split at moved
      · split at moved
        · cases moved
          exact inv
        · rename_i tables written
          cases moved
          have closed : state.transaction = none := by
            cases opened : state.transaction with
            | none => rfl
            | some transaction =>
                rw [opened, Option.isSome_some, Bool.or_true, setPermission_failed] at written
                cases written
          obtain ⟨values, lawful⟩ := valuesOf_setPermission written
          exact inv.history (lawful _) values rfl rfl closed
      · cases moved
  | enableGearsForWorker client worker host =>
      simp only [PermissionsDb.step] at moved
      split at moved
      · rename_i idle
        cases moved
        refine inv.idle fun transaction opened own => ?_
        have inside := inv.inside transaction opened
        rw [own, idle] at inside
        exact inside
      · cases moved
  | next client failed =>
      simp only [PermissionsDb.step] at moved
      split at moved
      · cases moved
      · rename_i worker host call closed
        have outside (transaction : Transaction C) (opened : state.transaction = some transaction) :
            transaction.client ≠ client := by
          rw [closed] at opened
          cases opened
        split at moved
        · cases moved
          exact inv.idle outside
        · cases moved
          refine inv.moved rfl ⟨?_, by decide, nofun, nofun, fun _ type out => ?_⟩
          · rw [inv.values]
            funext type origin
            simp [Event.apply]
          · cases type
            · exact absurd List.mem_cons_self out
            · exact absurd (List.mem_cons_of_mem _ List.mem_cons_self) out
      · rename_i worker host transaction call opened
        cases moved
        refine inv.idle fun other opened own => ?_
        have inside := inv.inside other opened
        rw [own, call] at inside
        exact inside
      · rename_i transaction opened _ _
        split at moved
        · rename_i own
          cases moved
          exact inv.next opened own failed
        · cases moved
      · cases moved
  | end_ client =>
      cases moved
      exact inv.end_ client
  | getPriorDecision manager type withoutDb failed =>
      simp only [PermissionsDb.step] at moved
      split at moved
      · cases moved
        exact inv
      · cases moved
        refine inv.setManager (fun type' permission cached => ?_) (inv.own manager)
        dsimp only at cached ⊢
        by_cases here : type' = type
        · rw [here, Function.update_self] at cached
          rw [here, ← Option.some.inj cached, getPermission_eq, inv.values]
          split
          · exact .inl rfl
          · exact .inr ⟨manager, inv.own manager, state.history, List.prefix_rfl, rfl⟩
        · rw [Function.update_of_ne here] at cached
          exact inv.remembers manager type' permission cached
  | importPermissions manager other =>
      cases moved
      refine inv.setManager (fun type permission cached => ?_) List.mem_cons_self
      refine (inv.remembers other type permission cached).imp_right ?_
      rintro ⟨from_, inside, read⟩
      exact ⟨from_, List.mem_cons_of_mem _ inside, read⟩

/-- The tables hold what the committed calls have written, and nobody has been given what he was not
meant to have. -/
structure State.Accounted (initial : Permissions) (securityOrigin : M → String) (state : State C M) :
    Prop where
  values : valuesOf state.committed = replay initial state.history
  lawful : Lawful initial state.history
  denied : ∀ before after origin type,
    state.history = before ++ .set origin type permissionDenied :: after →
    (∀ value, .set origin type value ∉ after) →
    (∀ host granted, .enabled origin host granted true ∉ after) →
    valuesOf state.committed type origin = permissionDenied
  allowed : ∀ origin type, valuesOf state.committed type origin = permissionAllowed → ∃ decided,
    initial type decided = permissionAllowed ∨ .set decided type permissionAllowed ∈ state.history
  remembered : ∀ isAuthorizedOrigin manager type,
    hasPermission isAuthorizedOrigin securityOrigin state manager type = true →
    isAuthorizedOrigin (securityOrigin manager) = true ∨ ∃ other ∈ (state.manager manager).lineage,
      ∃ before, before <+: state.history ∧
        replay initial before type (securityOrigin other) = permissionAllowed

theorem convertValueToState_allowed {value : Int}
    (allowed : convertStateToBool (convertValueToState value) = true) : value = permissionAllowed := by
  rw [convertValueToState] at allowed
  split at allowed
  · rename_i same
    exact same
  · split at allowed
    · cases allowed
    · cases allowed

theorem reachable_accounted {tables : Tables} {state : State C M}
    (reach : Lib.Reachable (step securityOrigin) Lib.anyAction (.init tables) state) :
    state.Accounted (valuesOf tables) securityOrigin := by
  have inv : Inv (valuesOf tables) securityOrigin state := reach.invariant (.init tables)
    fun _ _ _ inv _ moved => inv.step moved
  refine ⟨inv.values, inv.lawful, fun before after origin type split undecided readable => ?_,
    fun origin type allowed => ?_, fun isAuthorizedOrigin manager type has => ?_⟩
  · rw [inv.values]
    exact inv.lawful.denied split undecided readable
  · rw [inv.values] at allowed
    exact inv.lawful.allowed allowed
  · rw [hasPermission, Bool.or_eq_true] at has
    rcases has with state_ | authorized
    · cases cached : (state.manager manager).permissionState type with
      | none =>
          rw [cached] at state_
          cases state_
      | some permission =>
          rw [cached, Option.getD_some] at state_
          rcases inv.remembers manager type permission cached with rfl | ⟨other, inside, before, earlier, same⟩
          · cases state_
          · rw [same] at state_
            exact .inr ⟨other, inside, before, earlier, convertValueToState_allowed state_⟩
    · exact .inl authorized

def workerOf (manager : Bool) : String := if manager then "http://worker.org" else "http://host.org"

/-- The host is allowed, and then its worker. -/
def workerEnabled : List (Action Bool Bool) :=
  [.setPermission false "http://host.org" .localData permissionAllowed false,
    .enableGearsForWorker true "http://worker.org" "http://host.org"] ++
  List.replicate 6 (.next true false) ++
  [.getPriorDecision true .localData false false, .importPermissions false true]

theorem reachable_accounted_workerEnabled :
    (Lib.final (step workerOf) Lib.anyAction (.init fun _ => []) workerEnabled (by decide +kernel)).Accounted
      (valuesOf fun _ => []) workerOf :=
  reachable_accounted (Lib.reachable_final _ _)

end Run

end ThreadIpc.PermissionsDb
