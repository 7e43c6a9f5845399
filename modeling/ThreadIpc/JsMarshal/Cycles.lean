import Mathlib.Data.Fintype.Card
import ThreadIpc.JsMarshal.Model
import ThreadIpc.Lib.Cycles

/-!
# Marshalling cyclic and shared graphs

The stack holds the objects and arrays that are being marshalled, each of which leads to the token
of the call, so a token found on it closes a cycle.
-/

namespace ThreadIpc.JsMarshal

open Relation (ReflTransGen TransGen)

variable {Ref M : Type}

def Node.children : Node Ref M → List Ref
  | .object properties => properties.map Prod.snd
  | .array elements => elements.filterMap id
  | _ => []

def Node.Unmarshalable : Node Ref M → Prop
  | .function | .other | .module none => True
  | _ => False

namespace Graph

def Child (graph : Graph Ref M) (token child : Ref) : Prop :=
  child ∈ (graph.node token).children

theorem child_of_array {graph : Graph Ref M} {token : Ref} {elements : List (Option Ref)}
    (node : graph.node token = .array elements) (child : Ref) :
    graph.Child token child ↔ some child ∈ elements := by
  rw [Child, node, Node.children, List.mem_filterMap]
  simp

theorem child_of_object {graph : Graph Ref M} {token : Ref} {properties : List (String16 × Ref)}
    (node : graph.node token = .object properties) (child : Ref) :
    graph.Child token child ↔ ∃ name, (name, child) ∈ properties := by
  rw [Child, node, Node.children, List.mem_map]
  simp

def Bad (graph : Graph Ref M) (token : Ref) : Prop :=
  Lib.ReachesCycle graph.Child token ∨
    ∃ reached, ReflTransGen graph.Child token reached ∧ (graph.node reached).Unmarshalable

theorem bad_iff (graph : Graph Ref M) (token : Ref) : graph.Bad token ↔
    (graph.node token).Unmarshalable ∨ ∃ child, graph.Child token child ∧ graph.Bad child := by
  rw [Bad, Lib.reachesCycle_iff, Lib.exists_reached_iff]
  constructor
  · rintro (⟨child, step, cycle⟩ | here | ⟨child, step, later⟩)
    · exact .inr ⟨child, step, .inl cycle⟩
    · exact .inl here
    · exact .inr ⟨child, step, .inr later⟩
  · rintro (here | ⟨child, step, cycle | later⟩)
    · exact .inr (.inl here)
    · exact .inl ⟨child, step, cycle⟩
    · exact .inr (.inr ⟨child, step, later⟩)

end Graph

/-- The call came to an end, with NULL or false just when `bad`, and left the stack as it was. -/
def Returns {α : Type} (bad : Prop) (session : Session Ref) (outcome : Outcome Ref α) : Prop :=
  ∃ result, outcome = some result ∧ (result.1 = none ↔ bad) ∧
    result.2.objectStack = session.objectStack

theorem Returns.congr {α : Type} {bad bad' : Prop} {session session' : Session Ref}
    {outcome : Outcome Ref α} (returns : Returns bad session outcome) (same : bad ↔ bad')
    (stack : session.objectStack = session'.objectStack) : Returns bad' session' outcome := by
  obtain ⟨result, ran, null, kept⟩ := returns
  exact ⟨result, ran, null.trans same, kept.trans stack⟩

section Loops
variable {marshal : Ref → Session Ref → Outcome Ref (MarshaledJsToken M)} {Bad : Ref → Prop}
  {session : Session Ref}

def MarshalsChild (marshal : Ref → Session Ref → Outcome Ref (MarshaledJsToken M))
    (Bad : Ref → Prop) (stack : List Ref) (child : Ref) : Prop :=
  ∀ session : Session Ref, session.objectStack = stack →
    Returns (Bad child) session (marshal child session)

theorem initializeFromArray_returns (elements : List (Option Ref))
    (a : List (Option (MarshaledJsToken M)))
    (children : ∀ child, some child ∈ elements →
      MarshalsChild marshal Bad session.objectStack child) :
    Returns (∃ child, some child ∈ elements ∧ Bad child) session
      (initializeFromArray marshal elements a session) := by
  induction elements generalizing a session with
  | nil =>
      refine ⟨_, rfl, ?_, rfl⟩
      simp
  | cons element rest ih =>
      cases element with
      | none =>
          have later := ih (a ++ [none]) fun child member =>
            children child (List.mem_cons_of_mem _ member)
          refine later.congr ?_ rfl
          simp
      | some child =>
          obtain ⟨⟨result, session'⟩, ran, null, kept⟩ :=
            children child List.mem_cons_self session rfl
          simp only [initializeFromArray, ran]
          cases result with
          | none =>
              refine ⟨_, rfl, iff_of_true rfl ⟨child, List.mem_cons_self, null.mp rfl⟩, kept⟩
          | some marshaled =>
              have later := @ih session' (a ++ [some marshaled]) fun other member => by
                rw [kept]
                exact children other (List.mem_cons_of_mem _ member)
              have good : ¬ Bad child := fun bad => by cases null.mpr bad
              refine later.congr ?_ kept
              constructor
              · rintro ⟨other, member, bad⟩
                exact ⟨other, List.mem_cons_of_mem _ member, bad⟩
              · rintro ⟨other, member, bad⟩
                rcases List.mem_cons.mp member with same | member
                · cases same
                  exact absurd bad good
                · exact ⟨other, member, bad⟩

theorem initializeFromObject_returns {properties : List (String16 × Ref)} (names : List String16)
    (o : List (String16 × MarshaledJsToken M))
    (found : ∀ name ∈ names, ∃ child, properties.lookup name = some child)
    (children : ∀ name ∈ names, ∀ child, properties.lookup name = some child →
      MarshalsChild marshal Bad session.objectStack child) :
    Returns (∃ name ∈ names, ∃ child, properties.lookup name = some child ∧ Bad child) session
      (initializeFromObject marshal properties names o session) := by
  induction names generalizing o session with
  | nil =>
      refine ⟨_, rfl, ?_, rfl⟩
      simp
  | cons name rest ih =>
      obtain ⟨child, property⟩ := found name List.mem_cons_self
      obtain ⟨⟨result, session'⟩, ran, null, kept⟩ :=
        children name List.mem_cons_self child property session rfl
      simp only [initializeFromObject, property, ran]
      cases result with
      | none =>
          exact ⟨_, rfl, iff_of_true rfl ⟨name, List.mem_cons_self, child, property, null.mp rfl⟩,
            kept⟩
      | some marshaled =>
          have later := @ih session' (setEntry o name marshaled)
            (fun other member => found other (List.mem_cons_of_mem _ member))
            fun other member => by
              rw [kept]
              exact children other (List.mem_cons_of_mem _ member)
          have good : ¬ Bad child := fun bad => by cases null.mpr bad
          refine later.congr ?_ kept
          constructor
          · rintro ⟨other, member, bad⟩
            exact ⟨other, List.mem_cons_of_mem _ member, bad⟩
          · rintro ⟨other, member, otherChild, otherProperty, bad⟩
            rcases List.mem_cons.mp member with rfl | member
            · rw [property] at otherProperty
              cases otherProperty
              exact absurd bad good
            · exact ⟨other, member, otherChild, otherProperty, bad⟩

end Loops

/-- The stack of a call: no token twice, and each leads to the token of the call. -/
structure Ancestors (graph : Graph Ref M) (token : Ref) (stack : List Ref) : Prop where
  distinct : stack.Nodup
  leads : ∀ ancestor ∈ stack, TransGen graph.Child ancestor token

theorem Ancestors.push {graph : Graph Ref M} {token child : Ref} {stack : List Ref}
    (ancestors : Ancestors graph token stack) (absent : token ∉ stack)
    (step : graph.Child token child) : Ancestors graph child (stack ++ [token]) where
  distinct := by
    rw [List.nodup_append]
    refine ⟨ancestors.distinct, List.nodup_singleton token, ?_⟩
    intro other member _ same
    rw [List.mem_singleton.mp same]
    rintro rfl
    exact absent member
  leads := by
    intro ancestor member
    rcases List.mem_append.mp member with old | new
    · exact (ancestors.leads ancestor old).tail step
    · rw [List.mem_singleton.mp new]
      exact .single step

theorem bad_of_leaf {graph : Graph Ref M} {token : Ref}
    (leaf : (graph.node token).children = []) :
    graph.Bad token ↔ (graph.node token).Unmarshalable := by
  rw [graph.bad_iff]
  constructor
  · rintro (here | ⟨child, step, -⟩)
    · exact here
    · rw [Graph.Child, leaf] at step
      exact absurd step List.not_mem_nil
  · exact .inl

theorem lookup_of_mem {properties : List (String16 × Ref)}
    (distinct : (properties.map Prod.fst).Nodup) {name : String16} {child : Ref} :
    properties.lookup name = some child ↔ (name, child) ∈ properties := by
  induction properties with
  | nil => simp
  | cons property rest ih =>
      obtain ⟨other, otherChild⟩ := property
      rw [List.map_cons, List.nodup_cons] at distinct
      by_cases same : name = other
      · subst same
        have notLater : (name, child) ∉ rest := fun member =>
          distinct.1 (List.mem_map.mpr ⟨_, member, rfl⟩)
        simp [notLater, eq_comm]
      · have different : (name == other) = false := beq_eq_false_iff_ne.mpr same
        simp [List.lookup_cons, different, ih distinct.2, same]

section Node
variable {graph : Graph Ref M} {token : Ref} {session : Session Ref}
variable {marshal : Ref → Session Ref → Outcome Ref (MarshaledJsToken M)}

theorem leaf_returns {result : Option (MarshaledJsToken M)} {session' : Session Ref}
    (leaf : (graph.node token).children = [])
    (null : result = none ↔ (graph.node token).Unmarshalable)
    (kept : session'.objectStack = session.objectStack) :
    Returns (graph.Bad token) session (some (result, session')) :=
  ⟨_, rfl, null.trans (bad_of_leaf leaf).symm, kept⟩

theorem object_returns {properties : List (String16 × Ref)}
    (node : graph.node token = .object properties)
    (children : ∀ child, graph.Child token child →
      MarshalsChild marshal graph.Bad session.objectStack child) :
    Returns (graph.Bad token) session
      (initializeFromObject marshal properties (properties.map Prod.fst) [] session) := by
  have distinct := graph.distinct token properties node
  have isChild : ∀ name child, properties.lookup name = some child → graph.Child token child :=
    fun name child property =>
      (Graph.child_of_object node child).mpr ⟨name, (lookup_of_mem distinct).mp property⟩
  have found : ∀ name ∈ properties.map Prod.fst, ∃ child, properties.lookup name = some child := by
    intro name member
    obtain ⟨⟨_, child⟩, inProperties, rfl⟩ := List.mem_map.mp member
    exact ⟨child, (lookup_of_mem distinct).mpr inProperties⟩
  have loop := initializeFromObject_returns (properties.map Prod.fst) [] found
    fun name _ child property => children child (isChild name child property)
  refine loop.congr ?_ rfl
  rw [graph.bad_iff]
  constructor
  · rintro ⟨name, _, child, property, bad⟩
    exact .inr ⟨child, isChild name child property, bad⟩
  · rintro (here | ⟨child, step, bad⟩)
    · rw [node] at here
      exact here.elim
    · obtain ⟨name, member⟩ := (Graph.child_of_object node child).mp step
      exact ⟨name, List.mem_map.mpr ⟨_, member, rfl⟩, child,
        (lookup_of_mem distinct).mpr member, bad⟩

theorem array_returns {elements : List (Option Ref)}
    (node : graph.node token = .array elements)
    (children : ∀ child, graph.Child token child →
      MarshalsChild marshal graph.Bad session.objectStack child) :
    Returns (graph.Bad token) session (initializeFromArray marshal elements [] session) := by
  have child_iff := Graph.child_of_array node
  have loop := initializeFromArray_returns elements [] fun child member =>
    children child ((child_iff child).mpr member)
  refine loop.congr ?_ rfl
  rw [graph.bad_iff]
  constructor
  · rintro ⟨child, member, bad⟩
    exact .inr ⟨child, (child_iff child).mpr member, bad⟩
  · rintro (here | ⟨child, step, bad⟩)
    · rw [node] at here
      exact here.elim
    · exact ⟨child, (child_iff child).mp step, bad⟩

end Node

section Marshal
variable [DecidableEq Ref]

theorem guarded_returns {α : Type} {graph : Graph Ref M} {token : Ref} {session : Session Ref}
    {body : Session Ref → Outcome Ref α} {make : α → MarshaledJsToken M}
    (ancestors : Ancestors graph token session.objectStack)
    (runs : token ∉ session.objectStack →
      Returns (graph.Bad token) (session.push token) (body (session.push token))) :
    Returns (graph.Bad token) session (guarded token session body make) := by
  have any_iff : session.objectStack.any (token = ·) = true ↔ token ∈ session.objectStack := by
    simp
  unfold guarded
  by_cases onStack : token ∈ session.objectStack
  · rw [if_pos (any_iff.mpr onStack)]
    have cycle := Lib.ReachesCycle.of_transGen (ancestors.leads token onStack)
    exact ⟨_, rfl, iff_of_true rfl (.inl cycle), rfl⟩
  · rw [if_neg fun any => onStack (any_iff.mp any)]
    obtain ⟨⟨result, session'⟩, ran, null, kept⟩ := runs onStack
    refine ⟨(result.map make, session'.pop), by rw [ran]; rfl, ?_, ?_⟩
    · exact Option.map_eq_none_iff.trans null
    · show session'.objectStack.dropLast = session.objectStack
      rw [show session'.objectStack = session.objectStack ++ [token] from kept,
        List.dropLast_concat]

variable [Fintype Ref]

theorem marshal_returns {graph : Graph Ref M} (depth : Nat) {token : Ref} {session : Session Ref}
    (ancestors : Ancestors graph token session.objectStack)
    (enough : Fintype.card Ref < depth + session.objectStack.length) :
    Returns (graph.Bad token) session (marshal graph depth token session) := by
  induction depth generalizing token session with
  | zero =>
      have few := ancestors.distinct.length_le_card
      omega
  | succ depth ih =>
      have children (absent : token ∉ session.objectStack) (child : Ref)
          (step : graph.Child token child) :
          MarshalsChild (marshal graph depth) graph.Bad (session.push token).objectStack child := by
        intro inner stack
        have pushed : inner.objectStack = session.objectStack ++ [token] := stack
        apply ih
        · rw [pushed]
          exact ancestors.push absent step
        · rw [pushed, List.length_append, List.length_singleton]
          omega
      cases kind : graph.node token with
      | object properties =>
          simp only [marshal, kind]
          exact guarded_returns ancestors fun absent => object_returns kind (children absent)
      | array elements =>
          simp only [marshal, kind]
          exact guarded_returns ancestors fun absent => array_returns kind (children absent)
      | bool | int | double | string | null | undefined =>
          simp only [marshal, kind]
          refine leaf_returns (by rw [kind]; rfl) ?_ rfl
          rw [kind]
          exact iff_of_false (Option.some_ne_none _) id
      | module asMarshaledModule =>
          simp only [marshal, kind]
          cases asMarshaledModule with
          | none =>
              refine leaf_returns (by rw [kind]; rfl) ?_ rfl
              rw [kind]
              exact iff_of_true rfl trivial
          | some marshaledModule =>
              refine leaf_returns (by rw [kind]; rfl) ?_ rfl
              rw [kind]
              exact iff_of_false (Option.some_ne_none _) id
      | function | other =>
          simp only [marshal, kind]
          refine leaf_returns (by rw [kind]; rfl) ?_ rfl
          rw [kind]
          exact iff_of_true rfl trivial

theorem marshal_null_iff (graph : Graph Ref M) (token : Ref) (session : Session Ref)
    (ancestors : Ancestors graph token session.objectStack) (depth : Nat)
    (enough : Fintype.card Ref < depth) :
    ∃ result session', marshal graph depth token session = some (result, session') ∧
      session'.objectStack = session.objectStack ∧
      (result = none ↔ Lib.ReachesCycle graph.Child token ∨
        ∃ reached, ReflTransGen graph.Child token reached ∧
          (graph.node reached).Unmarshalable) := by
  obtain ⟨⟨result, session'⟩, ran, null, kept⟩ :=
    marshal_returns depth ancestors (Nat.lt_add_right _ enough)
  exact ⟨result, session', ran, kept, null⟩

end Marshal

inductive SampleRef
  | outer
  | inner
  | leaf
  | loop
  deriving DecidableEq

instance : Fintype SampleRef where
  elems := {.outer, .inner, .leaf, .loop}
  complete := by
    intro ref
    cases ref <;> decide

/-- An array with a node twice, a hole between, and an array that contains itself. -/
def sharedNode : SampleRef → Node SampleRef Unit
  | .outer => .array [some .inner, none, some .inner]
  | .inner => .object [([97], .leaf)]
  | .leaf => .int 5
  | .loop => .array [some .loop]

theorem sharedNode_distinct (ref : SampleRef) (properties : List (String16 × SampleRef))
    (object : sharedNode ref = .object properties) : (properties.map Prod.fst).Nodup := by
  cases ref with
  | inner =>
      cases object
      exact List.nodup_singleton _
  | outer | leaf | loop => cases object

def sharedGraph : Graph SampleRef Unit :=
  ⟨sharedNode, sharedNode_distinct⟩

theorem ancestors_empty (graph : Graph Ref M) (token : Ref) : Ancestors graph token [] where
  distinct := List.nodup_nil
  leads := by
    intro ancestor member
    exact absurd member List.not_mem_nil

theorem shared_marshals_loop_does_not :
    (∃ result session, marshal sharedGraph 5 .outer ⟨[], ""⟩ = some (result, session) ∧
      session.objectStack = [] ∧ result ≠ none) ∧
    (∃ result session, marshal sharedGraph 5 .loop ⟨[], ""⟩ = some (result, session) ∧
      session.objectStack = [] ∧ result = none) := by
  constructor
  · obtain ⟨result, session, ran, kept, -⟩ := marshal_null_iff sharedGraph .outer ⟨[], ""⟩
      (ancestors_empty _ _) 5 (by decide)
    refine ⟨result, session, ran, kept, ?_⟩
    rintro rfl
    cases ran
  · obtain ⟨result, session, ran, kept, null⟩ := marshal_null_iff sharedGraph .loop ⟨[], ""⟩
      (ancestors_empty _ _) 5 (by decide)
    refine ⟨result, session, ran, kept, null.mpr (.inl ?_)⟩
    have loop : sharedGraph.Child .loop .loop := List.mem_cons_self
    exact Lib.ReachesCycle.of_transGen (.single loop)

end ThreadIpc.JsMarshal
