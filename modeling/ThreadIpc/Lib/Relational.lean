import Mathlib.Data.List.Basic
import Mathlib.Logic.Function.Basic

/-!
# Tables with rowids

Enough of a relational store to run data definition and `INSERT INTO … SELECT …`: a row is a rowid
and one value per column, in the order in which the table was declared, and an inserted row is
matched to the columns by position only. Statements that fail leave no database. Columns are named
by `κ`, tables by `ν`.
-/

namespace ThreadIpc.Lib.Relational

variable {κ ν : Type} [DecidableEq κ] [DecidableEq ν]

inductive Value
  | null
  | integer (value : Int)
  | text (value : String)
  deriving DecidableEq, Repr

structure Schema (κ : Type) where
  columns : List κ
  /-- The `INTEGER PRIMARY KEY` column, another name for the rowid. -/
  rowidAlias : Option κ
  notNull : List κ
  unique : List (List κ)
  deriving DecidableEq

structure Row where
  rowid : Int
  values : List Value
  deriving DecidableEq

structure Table (κ : Type) where
  schema : Schema κ
  rows : List Row
  deriving DecidableEq

inductive Expr (κ : Type)
  | rowid
  | column (name : κ)
  | literal (value : Value)
  deriving DecidableEq

inductive Statement (κ ν : Type)
  | rename (table new : ν)
  | createIfNotExists (table : ν) (schema : Schema κ)
  | insertSelect (into : ν) (exprs : List (Expr κ)) (source : ν)
  | drop (table : ν)

abbrev Database (κ ν : Type) := ν → Option (Table κ)

def Row.get (schema : Schema κ) (row : Row) (name : κ) : Value :=
  (row.values[schema.columns.idxOf name]?).getD .null

def Expr.known (schema : Schema κ) : Expr κ → Bool
  | .column name => name ∈ schema.columns
  | .rowid | .literal _ => true

def Expr.eval (schema : Schema κ) (row : Row) : Expr κ → Value
  | .rowid => .integer row.rowid
  | .column name => row.get schema name
  | .literal value => value

namespace Table

def project (table : Table κ) (exprs : List (Expr κ)) (row : Row) : List Value :=
  exprs.map (Expr.eval table.schema row)

/-- `WHERE name = ? AND …`: a comparison with null holds of no row. -/
def satisfies (table : Table κ) (conditions : List (κ × Value)) (row : Row) : Bool :=
  conditions.all fun (name, value) => value ≠ .null ∧ row.get table.schema name = value

def select (table : Table κ) (exprs : List (Expr κ)) (conditions : List (κ × Value)) :
    Option (List (List Value)) :=
  if exprs.all (Expr.known table.schema) && conditions.all (fun (name, _) =>
      Expr.known table.schema (.column name)) then
    some ((table.rows.filter (table.satisfies conditions)).map (table.project exprs))
  else none

def nextRowid (table : Table κ) : Int :=
  match (table.rows.map (·.rowid)).max? with
  | none => 1
  | some last => last + 1

def rowidFor (table : Table κ) (values : List Value) : Option Int :=
  match table.schema.rowidAlias with
  | none => some table.nextRowid
  | some name => match Row.get table.schema ⟨0, values⟩ name with
      | .null => some table.nextRowid
      | .integer rowid => some rowid
      | .text _ => none

/-- Two rows are in conflict when they agree on a key none of whose values is null. -/
def conflict (schema : Schema κ) (row other : Row) : Bool :=
  row.rowid = other.rowid ∨ schema.unique.any fun key =>
    key.all fun name => row.get schema name ≠ .null ∧ row.get schema name = other.get schema name

def admits (table : Table κ) (row : Row) : Bool :=
  row.values.length = table.schema.columns.length ∧
    (table.schema.notNull.all fun name => row.get table.schema name ≠ .null) ∧
    table.rows.all fun other => !conflict table.schema other row

def insert (table : Table κ) (values : List Value) : Option (Table κ) := do
  let rowid ← table.rowidFor values
  if table.admits ⟨rowid, values⟩ then some { table with rows := table.rows ++ [⟨rowid, values⟩] }
  else none

def insertAll (table : Table κ) : List (List Value) → Option (Table κ)
  | [] => some table
  | values :: rest => (table.insert values).bind fun table => insertAll table rest

theorem select_all {table : Table κ} {exprs : List (Expr κ)} {selected : List (List Value)}
    (projected : table.select exprs [] = some selected) :
    selected = table.rows.map (table.project exprs) := by
  simp only [select, Option.ite_none_right_eq_some, Option.some.injEq] at projected
  have everyRow : table.rows.filter (table.satisfies []) = table.rows :=
    List.filter_eq_self.mpr fun _ _ => rfl
  rw [← projected.2, everyRow]

theorem insert_some {table table' : Table κ} {values : List Value}
    (inserted : table.insert values = some table') :
    table'.schema = table.schema ∧ ∃ rowid, table'.rows = table.rows ++ [⟨rowid, values⟩] := by
  simp only [insert, bind, Option.bind_eq_some_iff, Option.ite_none_right_eq_some,
    Option.some.injEq] at inserted
  obtain ⟨rowid, _, _, rfl⟩ := inserted
  exact ⟨rfl, rowid, rfl⟩

def KeysDistinct (table : Table κ) : Prop :=
  table.rows.Pairwise fun row other => conflict table.schema row other = false

theorem insert_keysDistinct {table table' : Table κ} {values : List Value}
    (inserted : table.insert values = some table') (distinct : table.KeysDistinct) :
    table'.KeysDistinct := by
  simp only [insert, bind, Option.bind_eq_some_iff, Option.ite_none_right_eq_some,
    Option.some.injEq] at inserted
  obtain ⟨rowid, _, admitted, rfl⟩ := inserted
  simp only [admits, decide_eq_true_eq, List.all_eq_true, Bool.not_eq_true'] at admitted
  apply List.pairwise_append.mpr
  refine ⟨distinct, List.pairwise_singleton .., ?_⟩
  rintro other stored row member
  cases List.mem_singleton.mp member
  exact admitted.2.2 other stored

theorem insertAll_keysDistinct {table table' : Table κ} {inserts : List (List Value)}
    (inserted : table.insertAll inserts = some table') (distinct : table.KeysDistinct) :
    table'.KeysDistinct := by
  induction inserts generalizing table with
  | nil =>
      cases inserted
      exact distinct
  | cons values rest ih =>
      obtain ⟨next, first, later⟩ := Option.bind_eq_some_iff.mp inserted
      exact ih later (insert_keysDistinct first distinct)

theorem conflict_of_key {table : Table κ} {conditions : List (κ × Value)} {row other : Row}
    (key : conditions.map (·.1) ∈ table.schema.unique) (selected : table.satisfies conditions row)
    (selected' : table.satisfies conditions other) : conflict table.schema row other := by
  simp only [satisfies, List.all_eq_true, decide_eq_true_eq] at selected selected'
  simp only [conflict, decide_eq_true_eq, List.any_eq_true, List.all_eq_true]
  refine .inr ⟨_, key, ?_⟩
  intro name member
  obtain ⟨condition, listed, rfl⟩ := List.mem_map.mp member
  obtain ⟨notNull, equal⟩ := selected condition listed
  rw [equal, (selected' condition listed).2]
  exact ⟨notNull, rfl⟩

theorem select_of_key {table : Table κ} {exprs : List (Expr κ)} {conditions : List (κ × Value)}
    {row : Row} (distinct : table.KeysDistinct) (stored : row ∈ table.rows)
    (selected : table.satisfies conditions row)
    (key : conditions.map (·.1) ∈ table.schema.unique)
    (known : exprs.all (Expr.known table.schema))
    (named : ∀ condition ∈ conditions, condition.1 ∈ table.schema.columns) :
    table.select exprs conditions = some [table.project exprs row] := by
  obtain ⟨before, after, split⟩ := List.append_of_mem stored
  have around := distinct
  rw [KeysDistinct, split, List.pairwise_append, List.pairwise_cons] at around
  obtain ⟨_, ⟨notAfter, _⟩, notBefore⟩ := around
  have noneBefore : before.filter (table.satisfies conditions) = [] := by
    apply List.filter_eq_nil_iff.mpr
    intro other member selected'
    have clash := conflict_of_key key selected' selected
    rw [notBefore other member row (.head _)] at clash
    contradiction
  have noneAfter : after.filter (table.satisfies conditions) = [] := by
    apply List.filter_eq_nil_iff.mpr
    intro other member selected'
    have clash := conflict_of_key key selected selected'
    rw [notAfter other member] at clash
    contradiction
  have only : table.rows.filter (table.satisfies conditions) = [row] := by
    rw [split, List.filter_append, noneBefore, List.filter_cons_of_pos selected, noneAfter]
    rfl
  have columns : conditions.all fun (name, _) => Expr.known table.schema (.column name) := by
    apply List.all_eq_true.mpr
    intro condition member
    exact decide_eq_true (named condition member)
  rw [select, if_pos (by rw [known, columns]; rfl), only]
  rfl

theorem insertAll_some {table table' : Table κ} {inserts : List (List Value)}
    (inserted : table.insertAll inserts = some table') :
    table'.schema = table.schema ∧
      table'.rows.map (·.values) = table.rows.map (·.values) ++ inserts := by
  induction inserts generalizing table with
  | nil =>
      cases inserted
      exact ⟨rfl, (List.append_nil _).symm⟩
  | cons values rest ih =>
      obtain ⟨next, first, later⟩ := Option.bind_eq_some_iff.mp inserted
      obtain ⟨schema, rowid, rows⟩ := insert_some first
      obtain ⟨schema', rows'⟩ := ih later
      refine ⟨schema'.trans schema, ?_⟩
      rw [rows', rows, List.map_append, List.append_assoc]
      rfl

def Fits (schema : Schema κ) (values : List Value) : Prop :=
  values.length = schema.columns.length ∧
    ∀ name ∈ schema.notNull, Row.get schema ⟨0, values⟩ name ≠ .null

theorem admits_iff (table : Table κ) (row : Row) : table.admits row = true ↔
    Fits table.schema row.values ∧ ∀ other ∈ table.rows, conflict table.schema other row = false := by
  simp only [admits, decide_eq_true_eq, List.all_eq_true, Bool.not_eq_true', Fits, and_assoc]
  exact Iff.rfl

theorem insert_fits {table table' : Table κ} {values : List Value}
    (inserted : table.insert values = some table') : Fits table.schema values := by
  simp only [insert, bind, Option.bind_eq_some_iff, Option.ite_none_right_eq_some] at inserted
  obtain ⟨rowid, _, admitted, _⟩ := inserted
  exact ((admits_iff table ⟨rowid, values⟩).mp admitted).1

theorem insertAll_fits {table table' : Table κ} {inserts : List (List Value)}
    (inserted : table.insertAll inserts = some table') :
    ∀ values ∈ inserts, Fits table.schema values := by
  induction inserts generalizing table with
  | nil => exact List.forall_mem_nil _
  | cons values rest ih =>
      obtain ⟨next, first, later⟩ := Option.bind_eq_some_iff.mp inserted
      have fits := ih later
      rw [(insert_some first).1] at fits
      exact List.forall_mem_cons.mpr ⟨insert_fits first, fits⟩

theorem insertAll_rows {table : Table κ} {name : κ} {rows : List Row}
    (aliased : table.schema.rowidAlias = some name)
    (given : ∀ row ∈ rows, row.get table.schema name = .integer row.rowid)
    (fits : ∀ row ∈ rows, Fits table.schema row.values)
    (distinct : KeysDistinct { table with rows := table.rows ++ rows }) :
    table.insertAll (rows.map (·.values)) = some { table with rows := table.rows ++ rows } := by
  induction rows generalizing table with
  | nil => rw [List.map_nil, insertAll, List.append_nil]
  | cons row rest ih =>
      have rowid : table.rowidFor row.values = some row.rowid := by
        have here : Row.get table.schema ⟨0, row.values⟩ name = .integer row.rowid :=
          given row List.mem_cons_self
        simp only [rowidFor, aliased, here]
      have admitted : table.admits ⟨row.rowid, row.values⟩ = true := by
        refine (admits_iff table row).mpr ⟨fits row List.mem_cons_self, ?_⟩
        intro other member
        exact (List.pairwise_append.mp distinct).2.2 other member row List.mem_cons_self
      have first : table.insert row.values = some { table with rows := table.rows ++ [row] } := by
        simp only [insert, rowid, bind, Option.bind_some]
        exact if_pos admitted
      have assoc : table.rows ++ row :: rest = table.rows ++ [row] ++ rest := by
        rw [List.append_assoc, List.singleton_append]
      rw [List.map_cons, insertAll, first, Option.bind_some, assoc]
      refine @ih { table with rows := table.rows ++ [row] } aliased ?_ ?_ ?_
      · exact fun other member => given other (List.mem_cons_of_mem _ member)
      · exact fun other member => fits other (List.mem_cons_of_mem _ member)
      · rw [assoc] at distinct
        exact distinct

def sameKey (schema : Schema κ) (values other : List Value) : Bool :=
  schema.unique.any fun key => key.all fun name => Row.get schema ⟨0, values⟩ name ≠ .null ∧
    Row.get schema ⟨0, values⟩ name = Row.get schema ⟨0, other⟩ name

theorem conflict_eq_false_iff (schema : Schema κ) (row other : Row) :
    conflict schema row other = false ↔
      row.rowid ≠ other.rowid ∧ sameKey schema row.values other.values = false := by
  rw [conflict, decide_eq_false_iff_not, not_or, Bool.not_eq_true]
  exact Iff.rfl

omit [DecidableEq κ] in
theorem lt_nextRowid (table : Table κ) : ∀ row ∈ table.rows, row.rowid < table.nextRowid := by
  intro row member
  have listed : row.rowid ∈ table.rows.map (·.rowid) := List.mem_map.mpr ⟨row, member, rfl⟩
  unfold nextRowid
  cases last : (table.rows.map (·.rowid)).max? with
  | none =>
      rw [List.max?_eq_none_iff.mp last] at listed
      exact absurd listed List.not_mem_nil
  | some last_ =>
      have bound := (List.max?_eq_some_iff.mp last).2 row.rowid listed
      exact Int.lt_add_one_of_le bound

theorem insertAll_isSome {table : Table κ} {inserts : List (List Value)}
    (unaliased : table.schema.rowidAlias = none)
    (fits : ∀ values ∈ inserts, Fits table.schema values)
    (distinct : (table.rows.map (·.values) ++ inserts).Pairwise fun values other =>
      sameKey table.schema values other = false) :
    ∃ table', table.insertAll inserts = some table' := by
  induction inserts generalizing table with
  | nil => exact ⟨table, rfl⟩
  | cons values rest ih =>
      have rowid : table.rowidFor values = some table.nextRowid := by
        simp only [rowidFor, unaliased]
      have admitted : table.admits ⟨table.nextRowid, values⟩ = true := by
        refine (admits_iff table _).mpr ⟨fits values List.mem_cons_self, ?_⟩
        intro other member
        refine (conflict_eq_false_iff _ _ _).mpr ⟨Int.ne_of_lt (lt_nextRowid table other member), ?_⟩
        exact (List.pairwise_append.mp distinct).2.2 other.values
          (List.mem_map.mpr ⟨other, member, rfl⟩) values List.mem_cons_self
      have first : table.insert values =
          some { table with rows := table.rows ++ [⟨table.nextRowid, values⟩] } := by
        simp only [insert, rowid, bind, Option.bind_some]
        exact if_pos admitted
      rw [insertAll, first, Option.bind_some]
      refine @ih { table with rows := table.rows ++ [⟨table.nextRowid, values⟩] } unaliased ?_ ?_
      · exact fun other member => fits other (List.mem_cons_of_mem _ member)
      · rw [List.map_append, List.append_assoc]
        exact distinct

end Table

namespace Database
variable {db after : Database κ ν}

def execute (db : Database κ ν) : Statement κ ν → Option (Database κ ν)
  | .rename table new => match db table, db new with
      | some content, none =>
          some (Function.update (Function.update db table none) new (some content))
      | _, _ => none
  | .createIfNotExists table schema => match db table with
      | some _ => some db
      | none => some (Function.update db table (some ⟨schema, []⟩))
  | .insertSelect into exprs source => do
      let target ← db into
      let selected ← (← db source).select exprs []
      let target ← target.insertAll selected
      some (Function.update db into (some target))
  | .drop table => match db table with
      | some _ => some (Function.update db table none)
      | none => none

def executeAll (fails : Nat → Bool) : Nat → List (Statement κ ν) → Database κ ν →
    Option (Database κ ν)
  | _, [], db => some db
  | index, statement :: later, db =>
      if fails index then none
      else (db.execute statement).bind (executeAll fails (index + 1) later)

/-- `BEGIN`, the statements, `COMMIT`: all or nothing, and any of them may fail. -/
def transaction (fails : Nat → Bool) (statements : List (Statement κ ν)) (db : Database κ ν) :
    Option (Database κ ν) :=
  if fails 0 then none
  else (executeAll fails 1 statements db).bind fun after =>
    if fails (statements.length + 1) then none else some after

theorem not_fails_of_executeAll {fails : Nat → Bool} {index : Nat} {statement : Statement κ ν}
    {later : List (Statement κ ν)}
    (ran : executeAll fails index (statement :: later) db = some after) : ¬ fails index := by
  intro failed
  rw [executeAll, if_pos failed] at ran
  contradiction

theorem executeAll_cons {fails : Nat → Bool} {index : Nat} {statement : Statement κ ν}
    {later : List (Statement κ ν)}
    (ran : executeAll fails index (statement :: later) db = some after) :
    ∃ next, db.execute statement = some next ∧
      executeAll fails (index + 1) later next = some after := by
  rw [executeAll] at ran
  split at ran
  · contradiction
  · exact Option.bind_eq_some_iff.mp ran

theorem transaction_some {fails : Nat → Bool} {statements : List (Statement κ ν)}
    (ran : transaction fails statements db = some after) :
    executeAll fails 1 statements db = some after := by
  rw [transaction] at ran
  split at ran
  · contradiction
  · obtain ⟨last, executed, committed⟩ := Option.bind_eq_some_iff.mp ran
    split at committed
    · contradiction
    · cases committed
      exact executed

theorem rename_some {table new : ν} (ran : db.execute (.rename table new) = some after) :
    ∃ content, db table = some content ∧ db new = none ∧
      after = Function.update (Function.update db table none) new (some content) := by
  simp only [execute] at ran
  split at ran
  · rename_i content found missing
    exact ⟨content, found, missing, (Option.some.inj ran).symm⟩
  · contradiction

theorem create_some {table : ν} {schema : Schema κ} (missing : db table = none)
    (ran : db.execute (.createIfNotExists table schema) = some after) :
    after = Function.update db table (some ⟨schema, []⟩) := by
  simp only [execute, missing, Option.some.injEq] at ran
  exact ran.symm

theorem create_frame {table other : ν} {schema : Schema κ} (different : other ≠ table)
    (ran : db.execute (.createIfNotExists table schema) = some after) :
    after other = db other := by
  simp only [execute] at ran
  split at ran
  · cases ran
    rfl
  · cases ran
    exact Function.update_of_ne different ..

theorem insertSelect_some {into source : ν} {exprs : List (Expr κ)}
    (ran : db.execute (.insertSelect into exprs source) = some after) :
    ∃ target content target', db into = some target ∧ db source = some content ∧
      target'.schema = target.schema ∧ target'.rows.map (·.values) =
        target.rows.map (·.values) ++ content.rows.map (content.project exprs) ∧
      (target.KeysDistinct → target'.KeysDistinct) ∧ after = Function.update db into (some target') := by
  simp only [execute, bind, Option.bind_eq_some_iff, Option.some.injEq] at ran
  obtain ⟨target, found, content, source, selected, projected, target', inserted, rfl⟩ := ran
  obtain ⟨schema, rows⟩ := Table.insertAll_some inserted
  rw [Table.select_all projected] at rows
  exact ⟨target, content, target', found, source, schema, rows,
    Table.insertAll_keysDistinct inserted, rfl⟩

theorem insertSelect_fits {into source : ν} {exprs : List (Expr κ)} {target content : Table κ}
    (intoTable : db into = some target) (sourceTable : db source = some content)
    (ran : db.execute (.insertSelect into exprs source) = some after) :
    ∀ row ∈ content.rows, Table.Fits target.schema (content.project exprs row) := by
  simp only [execute, bind, Option.bind_eq_some_iff, intoTable, sourceTable,
    Option.some.injEq, exists_eq_left'] at ran
  obtain ⟨selected, projected, target', inserted, _⟩ := ran
  rw [Table.select_all projected] at inserted
  intro row member
  exact Table.insertAll_fits inserted _ (List.mem_map.mpr ⟨row, member, rfl⟩)

theorem insertSelect_of_insertAll {into source : ν} {exprs : List (Expr κ)}
    {target target' content : Table κ} (intoTable : db into = some target)
    (sourceTable : db source = some content) (known : exprs.all (Expr.known content.schema) = true)
    (inserted : target.insertAll (content.rows.map (content.project exprs)) = some target') :
    db.execute (.insertSelect into exprs source) =
      some (Function.update db into (some target')) := by
  have everyRow : content.rows.filter (content.satisfies []) = content.rows :=
    List.filter_eq_self.mpr fun _ _ => rfl
  have selected : content.select exprs [] = some (content.rows.map (content.project exprs)) := by
    rw [Table.select, known, everyRow]
    rfl
  simp only [execute, bind, intoTable, sourceTable, Option.bind_some, selected, inserted]

theorem drop_some {table : ν} (ran : db.execute (.drop table) = some after) :
    after = Function.update db table none := by
  simp only [execute] at ran
  split at ran
  · exact (Option.some.inj ran).symm
  · contradiction

def touches : Statement κ ν → List ν
  | .rename table new => [table, new]
  | .createIfNotExists table _ => [table]
  | .insertSelect into _ _ => [into]
  | .drop table => [table]

theorem execute_frame {statement : Statement κ ν} {name : ν} (untouched : name ∉ touches statement)
    (ran : db.execute statement = some after) : after name = db name := by
  cases statement with
  | rename table new =>
      obtain ⟨content, _, _, rfl⟩ := rename_some ran
      simp only [touches, List.mem_cons, List.not_mem_nil, or_false, not_or] at untouched
      rw [Function.update_of_ne untouched.2, Function.update_of_ne untouched.1]
  | createIfNotExists table schema =>
      exact create_frame (List.ne_of_not_mem_cons untouched) ran
  | insertSelect into exprs source =>
      obtain ⟨_, _, _, _, _, _, _, _, rfl⟩ := insertSelect_some ran
      exact Function.update_of_ne (List.ne_of_not_mem_cons untouched) ..
  | drop table =>
      cases drop_some ran
      exact Function.update_of_ne (List.ne_of_not_mem_cons untouched) ..

theorem executeAll_frame {fails : Nat → Bool} {index : Nat} {statements : List (Statement κ ν)}
    {name : ν} (untouched : ∀ statement ∈ statements, name ∉ touches statement)
    (ran : executeAll fails index statements db = some after) : after name = db name := by
  induction statements generalizing index db with
  | nil =>
      cases ran
      rfl
  | cons statement later ih =>
      obtain ⟨next, first, rest⟩ := executeAll_cons ran
      rw [ih (fun other member => untouched other (.tail _ member)) rest]
      exact execute_frame (untouched statement (.head _)) first

theorem executeAll_append {fails : Nat → Bool} {index : Nat}
    {statements later : List (Statement κ ν)}
    (ran : executeAll fails index (statements ++ later) db = some after) :
    ∃ next, executeAll fails index statements db = some next ∧
      executeAll fails (index + statements.length) later next = some after := by
  induction statements generalizing index db with
  | nil => exact ⟨db, rfl, ran⟩
  | cons statement rest ih =>
      obtain ⟨first, executed, remaining⟩ := executeAll_cons ran
      obtain ⟨next, prepared, finished⟩ := ih remaining
      refine ⟨next, ?_, ?_⟩
      · rw [executeAll, if_neg (not_fails_of_executeAll ran)]
        exact Option.bind_eq_some_iff.mpr ⟨first, executed, prepared⟩
      · rwa [List.length_cons, Nat.add_comm rest.length, ← Nat.add_assoc]

theorem executeAll_rebuild {fails : Nat → Bool} {index : Nat} {table old : ν} {schema : Schema κ}
    {exprs : List (Expr κ)} {between later : List (Statement κ ν)} {content : Table κ}
    (stored : db table = some content) (different : table ≠ old)
    (betweenFrame : ∀ statement ∈ between, table ∉ touches statement ∧ old ∉ touches statement)
    (laterFrame : ∀ statement ∈ later, table ∉ touches statement)
    (ran : executeAll fails index (.rename table old :: .createIfNotExists table schema ::
      (between ++ .insertSelect table exprs old :: later)) db = some after) :
    ∃ rebuilt, after table = some rebuilt ∧ rebuilt.schema = schema ∧ rebuilt.KeysDistinct ∧
      rebuilt.rows.map (·.values) = content.rows.map (content.project exprs) := by
  obtain ⟨renamed, rename, ran⟩ := executeAll_cons ran
  obtain ⟨created, create, ran⟩ := executeAll_cons ran
  obtain ⟨prepared, between, ran⟩ := executeAll_append ran
  obtain ⟨filled, insert, ran⟩ := executeAll_cons ran
  obtain ⟨content', found, _, rfl⟩ := rename_some rename
  cases stored.symm.trans found
  have cleared : Function.update (Function.update db table none) old (some content) table = none :=
    by rw [Function.update_of_ne different, Function.update_self]
  cases create_some cleared create
  obtain ⟨target, source, rebuilt, empty, moved, sameSchema, rows, distinct, rfl⟩ :=
    insertSelect_some insert
  rw [executeAll_frame (fun statement member => (betweenFrame statement member).1) between,
    Function.update_self] at empty
  rw [executeAll_frame (fun statement member => (betweenFrame statement member).2) between,
    Function.update_of_ne different.symm, Function.update_self] at moved
  cases empty
  cases moved
  refine ⟨rebuilt, ?_, sameSchema, distinct List.Pairwise.nil, rows⟩
  rw [executeAll_frame laterFrame ran, Function.update_self]

end Database

end ThreadIpc.Lib.Relational
