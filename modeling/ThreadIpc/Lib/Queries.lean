import Mathlib.Data.Bool.Basic
import Mathlib.Data.List.Dedup
import Mathlib.Data.List.Sort

/-!
# The operators of a query

Joins, `UNION`, `DISTINCT` and `ORDER BY` over rows of any types. Joins that find nothing pair the
row with a null.
-/

namespace ThreadIpc.Lib.Queries

variable {α β κ : Type}

def leftOuterJoin (on : α → β → Bool) (left : List α) (right : List β) : List (α × Option β) :=
  left.flatMap fun row =>
    match right.filter (on row) with
    | [] => [(row, none)]
    | found => found.map fun other => (row, some other)

def JoinedWith (on : α → β → Bool) (right : List β) (row : α) : Option β → Prop
  | none => ∀ other ∈ right, on row other = false
  | some other => other ∈ right ∧ on row other

theorem mem_leftOuterJoin {on : α → β → Bool} {left : List α} {right : List β} {row : α}
    {matched : Option β} :
    (row, matched) ∈ leftOuterJoin on left right ↔
      row ∈ left ∧ JoinedWith on right row matched := by
  simp only [leftOuterJoin, List.mem_flatMap]
  constructor
  · intro ⟨joined, member, paired⟩
    cases found : right.filter (on joined) with
    | nil =>
        simp only [found, List.mem_singleton, Prod.mk.injEq] at paired
        obtain ⟨rfl, rfl⟩ := paired
        simpa [JoinedWith, member, List.filter_eq_nil_iff] using found
    | cons first rest =>
        simp only [found, List.mem_map, Prod.mk.injEq] at paired
        obtain ⟨other, inFound, rfl, rfl⟩ := paired
        rw [← found] at inFound
        exact ⟨member, List.mem_filter.mp inFound⟩
  · intro ⟨member, agrees⟩
    apply Exists.intro row
    apply And.intro member
    cases matched with
    | none =>
        have empty : right.filter (on row) = [] := by
          simpa [JoinedWith, List.filter_eq_nil_iff] using agrees
        simp [empty]
    | some other =>
        have inFound := List.mem_filter.mpr agrees
        cases found : right.filter (on row) with
        | nil => simp [found] at inFound
        | cons first rest =>
            rw [found] at inFound
            exact List.mem_map.mpr ⟨other, inFound, rfl⟩

def notIn [DecidableEq κ] (key : α → κ) (keys : List κ) (rows : List α) : List α :=
  rows.filter fun row => key row ∉ keys

@[simp]
theorem mem_notIn [DecidableEq κ] {key : α → κ} {keys : List κ} {rows : List α} {row : α} :
    row ∈ notIn key keys rows ↔ row ∈ rows ∧ key row ∉ keys := by
  simp [notIn]

def distinct [DecidableEq α] (rows : List α) : List α :=
  rows.dedup

def union [DecidableEq α] (first second : List α) : List α :=
  distinct (first ++ second)

@[simp]
theorem mem_distinct [DecidableEq α] {rows : List α} {row : α} : row ∈ distinct rows ↔ row ∈ rows :=
  List.mem_dedup

@[simp]
theorem mem_union [DecidableEq α] {first second : List α} {row : α} :
    row ∈ union first second ↔ row ∈ first ∨ row ∈ second := by
  simp [union]

theorem union_nodup [DecidableEq α] (first second : List α) : (union first second).Nodup :=
  List.nodup_dedup _

structure SortOrder (α : Type) where
  le : α → α → Bool
  total : ∀ a b, le a b ∨ le b a
  trans : ∀ {a b c}, le a b → le b c → le a c

namespace SortOrder

def ascending [LinearOrder κ] (key : α → κ) : SortOrder α where
  le a b := key a ≤ key b
  total a b := by simpa using le_total (key a) (key b)
  trans {a b c} := by simpa using @le_trans κ _ (key a) (key b) (key c)

def descending [LinearOrder κ] (key : α → κ) : SortOrder α where
  le a b := key b ≤ key a
  total a b := by simpa using le_total (key b) (key a)
  trans {a b c} := by simpa using @ge_trans κ _ (key a) (key b) (key c)

def thenBy (first second : SortOrder α) : SortOrder α where
  le a b := first.le a b && (!first.le b a || second.le a b)
  total a b := by
    have either := first.total a b
    have either' := second.total a b
    grind
  trans {a b c} := by
    have firstTrans := fun {a b c} => @first.trans a b c
    have secondTrans := @second.trans a b c
    grind

end SortOrder

def orderBy (order : SortOrder α) (rows : List α) : List α :=
  rows.insertionSort fun a b => order.le a b = true

theorem orderBy_perm (order : SortOrder α) (rows : List α) :
    (orderBy order rows).Perm rows :=
  List.perm_insertionSort _ rows

theorem orderBy_sorted (order : SortOrder α) (rows : List α) :
    (orderBy order rows).Pairwise fun a b => order.le a b = true := by
  have total : Std.Total fun a b => order.le a b = true := ⟨order.total⟩
  have trans : IsTrans α fun a b => order.le a b = true := ⟨fun _ _ _ => order.trans⟩
  exact List.pairwise_insertionSort _ rows

theorem lookup_of_unique [DecidableEq κ] {rows : List (κ × β)} (unique : (rows.map Prod.fst).Nodup)
    {name : κ} {value : β} : rows.lookup name = some value ↔ (name, value) ∈ rows := by
  induction rows with
  | nil => simp
  | cons row rest ih =>
      obtain ⟨key, found⟩ := row
      obtain ⟨fresh, unique⟩ := List.nodup_cons.mp unique
      by_cases same : name = key
      · subst same
        have absent : (name, value) ∉ rest := fun later =>
          fresh (List.mem_map.mpr ⟨_, later, rfl⟩)
        simp [absent, eq_comm]
      · have different : (name == key) = false := by simpa using same
        simp [List.lookup_cons, different, same, ih unique]

end ThreadIpc.Lib.Queries
