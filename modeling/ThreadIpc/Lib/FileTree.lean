import Mathlib.Data.List.Infix
import Mathlib.Tactic.Common

/-!
# A tree of files and directories

There are no symbolic links. A location is the list of the names that lead to it, the innermost one
first, and `[]` is the root.
-/

namespace ThreadIpc.Lib

inductive FileKind
  | file
  | directory
  deriving DecidableEq

structure FileTree (ν : Type*) where
  kind : List ν → Option FileKind
  root : kind [] = some .directory
  parent : ∀ name dir, kind (name :: dir) ≠ none → kind dir = some .directory

inductive Component (ν : Type*)
  | self
  | up
  | name (name : ν)

namespace FileTree

variable {ν : Type*}

def enter (dir : List ν) : Component ν → List ν
  | .self => dir
  | .up => dir.tail
  | .name name => name :: dir

def locate (start : List ν) (path : List (Component ν)) : List ν := path.foldl enter start

def walk (tree : FileTree ν) (maySearch : List ν → Bool) :
    List ν → List (Component ν) → Option (List ν)
  | dir, [] => some dir
  | dir, component :: path =>
      if tree.kind dir = some .directory ∧ maySearch dir = true ∧
          tree.kind (enter dir component) ≠ none then
        walk tree maySearch (enter dir component) path
      else none

theorem above (tree : FileTree ν) {dir loc : List ν} (exists_ : tree.kind loc ≠ none) (above : dir <:+ loc)
    (proper : dir ≠ loc) : tree.kind dir = some .directory := by
  induction loc with
  | nil => exact absurd (List.suffix_nil.mp above) proper
  | cons name loc ih =>
      have parent := tree.parent name loc exists_
      rcases List.suffix_cons_iff.mp above with same | further
      · exact absurd same proper
      · by_cases here : dir = loc
        · rw [here]
          exact parent
        · exact ih (by rw [parent]; exact Option.some_ne_none _) further here

theorem none_below (tree : FileTree ν) {dir loc : List ν} (gone : tree.kind dir = none) (below : dir <:+ loc) :
    tree.kind loc = none := by
  by_contra exists_
  by_cases same : dir = loc
  · exact exists_ (same ▸ gone)
  · cases gone.symm.trans (tree.above exists_ below same)

section Walk

variable {tree : FileTree ν} {maySearch : List ν → Bool} {start loc : List ν}

def Searchable (maySearch : List ν → Bool) (start loc : List ν) : Prop :=
  ∀ dir, start <:+ dir → dir <:+ loc → dir ≠ loc → maySearch dir = true

theorem walk_locate {path : List (Component ν)} (walked : tree.walk maySearch start path = some loc) :
    loc = locate start path := by
  induction path generalizing start with
  | nil => exact (Option.some.inj walked).symm
  | cons component path ih =>
      rw [walk] at walked
      split at walked
      · exact ih walked
      · cases walked

theorem locate_names (start names : List ν) :
    locate start (names.map .name) = names.reverse ++ start := by
  induction names generalizing start with
  | nil => rfl
  | cons name names ih =>
      rw [List.map_cons, locate, List.foldl_cons, List.reverse_cons, List.append_assoc]
      exact ih (name :: start)

theorem searchable_cons {name : ν} {dir : List ν} (below : name :: start <:+ loc)
    (inside : start <:+ dir) (above : dir <:+ loc) : dir = start ∨ name :: start <:+ dir := by
  rcases Nat.lt_or_ge start.length dir.length with longer | shorter
  · exact .inr (List.suffix_of_suffix_length_le below above longer)
  · exact .inl (inside.eq_of_length_le shorter).symm

theorem walk_names_iff {names : List ν} : tree.walk maySearch start (names.map .name) = some loc ↔
    loc = names.reverse ++ start ∧ Searchable maySearch start loc ∧
      (names = [] ∨ tree.kind loc ≠ none) := by
  induction names generalizing start with
  | nil =>
      simp only [List.map_nil, walk, Option.some.injEq, List.reverse_nil, List.nil_append,
        true_or, and_true]
      constructor
      · rintro rfl
        refine ⟨rfl, fun dir below above proper => ?_⟩
        exact absurd (above.eq_of_length_le below.length_le) proper
      · exact fun both => both.1.symm
  | cons name names ih =>
      have reversed : (name :: names).reverse ++ start = names.reverse ++ name :: start := by
        rw [List.reverse_cons, List.append_assoc, List.singleton_append]
      have below : name :: start <:+ names.reverse ++ name :: start := List.suffix_append _ _
      rw [List.map_cons, walk, reversed, or_iff_right (List.cons_ne_nil name names)]
      split
      · rename_i found
        obtain ⟨_, search, exists_⟩ := found
        rw [show enter start (.name name) = name :: start from rfl] at exists_ ⊢
        rw [ih]
        constructor
        · rintro ⟨rfl, searchable, rest⟩
          refine ⟨rfl, fun dir inside above proper => ?_, ?_⟩
          · rcases searchable_cons below inside above with rfl | further
            · exact search
            · exact searchable dir further above proper
          · rcases rest with rfl | rest
            · exact exists_
            · exact rest
        · rintro ⟨rfl, searchable, rest⟩
          exact ⟨rfl, fun dir inside => searchable dir ((List.suffix_cons name start).trans inside),
            .inr rest⟩
      · rename_i missing
        refine ⟨(fun none_ => by cases none_), ?_⟩
        rintro ⟨rfl, searchable, exists_⟩
        have start_below := (List.suffix_cons name start).trans below
        have proper : start ≠ names.reverse ++ name :: start := by
          intro same
          have length := congrArg List.length same
          rw [List.length_append, List.length_cons] at length
          omega
        refine absurd ⟨tree.above exists_ start_below proper, ?_, ?_⟩ missing
        · exact searchable start (List.suffix_refl start) start_below proper
        · rw [show enter start (.name name) = name :: start from rfl]
          by_cases last : name :: start = names.reverse ++ name :: start
          · rw [last]
            exact exists_
          · rw [tree.above exists_ below last]
            exact Option.some_ne_none _

theorem walk_names_kind {names : List ν}
    (searchable : Searchable maySearch start (names.reverse ++ start)) :
    (tree.walk maySearch start (names.map .name)).bind tree.kind =
      tree.kind (names.reverse ++ start) := by
  cases walked : tree.walk maySearch start (names.map .name) with
  | some loc => rw [Option.bind_some, (walk_names_iff.mp walked).1]
  | none =>
      rw [Option.bind_none]
      by_contra exists_
      have found := walk_names_iff.mpr ⟨rfl, searchable, .inr (Ne.symm exists_)⟩
      cases walked.symm.trans found

end Walk

section Extension

variable (tree : FileTree ν)

theorem ext_kind {tree tree' : FileTree ν} (same : tree.kind = tree'.kind) : tree = tree' := by
  cases tree
  cases tree'
  cases same
  rfl

variable [DecidableEq ν]

def insert (name : ν) (dir : List ν) (directory : tree.kind dir = some .directory) :
    FileTree ν where
  kind loc := if loc = name :: dir then some .directory else tree.kind loc
  root := by
    rw [if_neg (List.cons_ne_nil _ _).symm]
    exact tree.root
  parent name' dir' exists_ := by
    by_cases new : name' :: dir' = name :: dir
    · have same : dir' = dir := (List.cons.inj new).2
      rw [same, if_neg (List.cons_ne_self _ _).symm]
      exact directory
    · rw [if_neg new] at exists_
      have parent := tree.parent name' dir' exists_
      split
      · rfl
      · exact parent

def remove (loc : List ν) (proper : loc ≠ []) (empty : ∀ name, tree.kind (name :: loc) = none) :
    FileTree ν where
  kind other := if other = loc then none else tree.kind other
  root := by
    rw [if_neg proper.symm]
    exact tree.root
  parent name dir exists_ := by
    by_cases gone : name :: dir = loc
    · exact absurd (if_pos gone) exists_
    · rw [if_neg gone] at exists_
      have remains : dir ≠ loc := by
        rintro rfl
        exact exists_ (empty name)
      rw [if_neg remains]
      exact tree.parent name dir exists_

def grow (dir : List ν) : FileTree ν where
  kind loc := if loc <:+ dir then some .directory else tree.kind loc
  root := by rw [if_pos (List.nil_suffix)]
  parent name dir' exists_ := by
    by_cases new : name :: dir' <:+ dir
    · rw [if_pos ((List.suffix_cons name dir').trans new)]
    · rw [if_neg new] at exists_
      have parent := tree.parent name dir' exists_
      split
      · rfl
      · exact parent

@[simp] theorem grow_nil : tree.grow [] = tree := by
  apply ext_kind
  funext loc
  simp only [grow, List.suffix_nil]
  split
  · rename_i root
    rw [root, tree.root]
  · rfl

theorem kind_grow_self (dir : List ν) : (tree.grow dir).kind dir = some .directory :=
  if_pos (List.suffix_refl dir)

theorem kind_grow_cons (name : ν) (dir : List ν) :
    (tree.grow dir).kind (name :: dir) = tree.kind (name :: dir) := by
  apply if_neg
  intro suffix
  have length := suffix.length_le
  rw [List.length_cons] at length
  omega

theorem grow_cons_of_exists {name : ν} {dir : List ν}
    (exists_ : tree.kind (name :: dir) = some .directory) :
    tree.grow (name :: dir) = tree.grow dir := by
  apply ext_kind
  funext loc
  simp only [grow, List.suffix_cons_iff]
  by_cases new : loc = name :: dir
  · rw [if_pos (.inl new), new, exists_, ite_self]
  · simp only [new, false_or]

theorem insert_grow {name : ν} {dir : List ν} :
    (tree.grow dir).insert name dir (tree.kind_grow_self dir) = tree.grow (name :: dir) := by
  apply ext_kind
  funext loc
  simp only [grow, insert, List.suffix_cons_iff]
  by_cases new : loc = name :: dir
  · rw [if_pos new, if_pos (.inl new)]
  · simp only [new, if_false, false_or]

end Extension

inductive Made (ν : Type*)
  | made (tree : FileTree ν)
  | exists_
  | refused

variable [DecidableEq ν]

/-- What exists is found out before it is asked whether it may be created. -/
def mkdir (tree : FileTree ν) (maySearch mayCreate : List ν → Bool) (start : List ν)
    (path : List (Component ν)) : Made ν :=
  match path.reverse with
  | [] => .exists_
  | last :: front =>
      match tree.walk maySearch start front.reverse with
      | none => .refused
      | some dir =>
          if found : tree.kind dir = some .directory ∧ maySearch dir = true then
            match last with
            | .name name =>
                if tree.kind (name :: dir) ≠ none then .exists_
                else if mayCreate (name :: dir) = true then .made (tree.insert name dir found.1)
                else .refused
            | _ => .exists_
          else .refused

theorem mkdir_grow {tree : FileTree ν} {maySearch mayCreate : List ν → Bool} (names : List ν)
    (name : ν) (searchable : Searchable maySearch [] names.reverse) :
    (tree.grow names.reverse).mkdir maySearch mayCreate [] ((names ++ [name]).map .name) =
      if maySearch names.reverse = true then
        if tree.kind (name :: names.reverse) ≠ none then .exists_
        else if mayCreate (name :: names.reverse) = true then
          .made (tree.grow (name :: names.reverse))
        else .refused
      else .refused := by
  have walked : (tree.grow names.reverse).walk maySearch [] (names.map .name) =
      some names.reverse := by
    rw [walk_names_iff, List.append_nil, kind_grow_self]
    exact ⟨rfl, searchable, .inr (Option.some_ne_none _)⟩
  rw [mkdir, List.map_append, List.reverse_append, List.map_singleton, List.reverse_singleton,
    List.singleton_append]
  simp only [List.reverse_reverse, walked, kind_grow_self, true_and]
  split
  · rw [kind_grow_cons, insert_grow]
  · rfl

end FileTree

end ThreadIpc.Lib
