import Mathlib.Data.List.DropRight
import Mathlib.Data.List.Forall2
import ThreadIpc.JsMarshal.Cycles

/-!
# What comes out of the other context

`Unmarshal` gives a string to the other context as a C string, and of an array it sets the elements
that are there. So a string survives without its first zero unit and what follows, and an array
without the holes at its end.
-/

namespace ThreadIpc.JsMarshal

open Relation (ReflTransGen)

variable {Ref M : Type}

def Node.Plain : Node Ref M → Prop
  | .function | .other | .module _ => False
  | _ => True

def Node.Restorable : Node Ref M → Prop
  | .string value => 0 ∉ value
  | .array elements => elements.getLast? ≠ some none
  | _ => True

namespace Graph

def Plain (graph : Graph Ref M) (token : Ref) : Prop :=
  ∀ reached, ReflTransGen graph.Child token reached → (graph.node reached).Plain

def Restorable (graph : Graph Ref M) (token : Ref) : Prop :=
  ∀ reached, ReflTransGen graph.Child token reached → (graph.node reached).Restorable

theorem restorable_iff (graph : Graph Ref M) (token : Ref) : graph.Restorable token ↔
    (graph.node token).Restorable ∧ ∀ child, graph.Child token child → graph.Restorable child :=
  Lib.forall_reached_iff _

theorem restorable_leaf {graph : Graph Ref M} {token : Ref}
    (leaf : (graph.node token).children = []) :
    graph.Restorable token ↔ (graph.node token).Restorable := by
  rw [graph.restorable_iff]
  refine and_iff_left ?_
  intro child step
  rw [Child, leaf] at step
  exact absurd step List.not_mem_nil

theorem Plain.child {graph : Graph Ref M} {token child : Ref} (plain : graph.Plain token)
    (step : graph.Child token child) : graph.Plain child :=
  fun reached reaches => plain reached (.head step reaches)

theorem Plain.not_bad {graph : Graph Ref M} {token : Ref} (plain : graph.Plain token)
    (acyclic : ¬ Lib.ReachesCycle graph.Child token) : ¬ graph.Bad token := by
  rintro (cycle | ⟨reached, reaches, unmarshalable⟩)
  · exact acyclic cycle
  · have here := plain reached reaches
    cases node : graph.node reached with
    | function | other | module _ =>
        rw [node] at here
        exact here
    | bool | int | double | string | object | array | null | undefined =>
        rw [node] at unmarshalable
        exact unmarshalable

end Graph

/-- The value of the other context has the structure of the token: the same types, strings, array
lengths, holes and elements, and the same set of properties. -/
inductive Same (graph : Graph Ref M) : Ref → JsValue → Prop
  | bool {token value} (node : graph.node token = .bool value) : Same graph token (.bool value)
  | int {token value} (node : graph.node token = .int value) : Same graph token (.int value)
  | double {token value} (node : graph.node token = .double value) :
      Same graph token (.double value)
  | string {token value} (node : graph.node token = .string value) :
      Same graph token (.string value)
  | null {token} (node : graph.node token = .null) : Same graph token .null
  | undefined {token} (node : graph.node token = .undefined) : Same graph token .undefined
  | object {token properties object} (node : graph.node token = .object properties)
      (names : ∀ name, name ∈ object.map Prod.fst ↔ name ∈ properties.map Prod.fst)
      (distinct : (object.map Prod.fst).Nodup)
      (values : ∀ name child value, (name, child) ∈ properties → (name, value) ∈ object →
        Same graph child value) :
      Same graph token (.object object)
  | array {token elements array} (node : graph.node token = .array elements)
      (length : array.length = elements.length)
      (holes : ∀ i : Nat, elements[i]? = some none ↔ array[i]? = some none)
      (values : ∀ (i : Nat) child value, elements[i]? = some (some child) →
        array[i]? = some (some value) → Same graph child value) :
      Same graph token (.array array)

section Marshaled
variable {marshal : Ref → Session Ref → Outcome Ref (MarshaledJsToken M)}

def Marshals (marshal : Ref → Session Ref → Outcome Ref (MarshaledJsToken M)) (child : Ref)
    (token : MarshaledJsToken M) : Prop :=
  ∃ session session', marshal child session = some (some token, session')

inductive ElementMarshaled (marshal : Ref → Session Ref → Outcome Ref (MarshaledJsToken M)) :
    Option Ref → Option (MarshaledJsToken M) → Prop
  | hole : ElementMarshaled marshal none none
  | element {child token} (marshals : Marshals marshal child token) :
      ElementMarshaled marshal (some child) (some token)

theorem initializeFromArray_some {elements : List (Option Ref)}
    {a a' : List (Option (MarshaledJsToken M))} {session session' : Session Ref}
    (ran : initializeFromArray marshal elements a session = some (some a', session')) :
    ∃ added, a' = a ++ added ∧ List.Forall₂ (ElementMarshaled marshal) elements added := by
  induction elements generalizing a session with
  | nil =>
      cases ran
      exact ⟨[], (List.append_nil _).symm, .nil⟩
  | cons element rest ih =>
      cases element with
      | none =>
          obtain ⟨added, rfl, marshaled⟩ := ih ran
          exact ⟨none :: added, List.append_assoc .., .cons .hole marshaled⟩
      | some child =>
          simp only [initializeFromArray] at ran
          split at ran
          · contradiction
          · cases ran
          · rename_i token middle marshals
            obtain ⟨added, rfl, marshaled⟩ := ih ran
            exact ⟨some token :: added, List.append_assoc ..,
              .cons (.element ⟨_, _, marshals⟩) marshaled⟩

theorem setEntry_perm {α : Type} {o : List (String16 × α)} {name : String16} (value : α)
    (absent : name ∉ o.map Prod.fst) : (setEntry o name value).Perm ((name, value) :: o) := by
  induction o with
  | nil => exact .refl _
  | cons entry rest ih =>
      rw [List.map_cons, List.mem_cons, not_or] at absent
      rw [setEntry, if_neg absent.1]
      split
      · exact .refl _
      · exact ((ih absent.2).cons entry).trans (.swap ..)

def EntryMarshaled (marshal : Ref → Session Ref → Outcome Ref (MarshaledJsToken M))
    (properties : List (String16 × Ref)) (entry : String16 × MarshaledJsToken M) : Prop :=
  ∃ child, properties.lookup entry.1 = some child ∧ Marshals marshal child entry.2

theorem initializeFromObject_some {properties : List (String16 × Ref)} {names : List String16}
    {o o' : List (String16 × MarshaledJsToken M)} {session session' : Session Ref}
    (distinct : names.Nodup) (fresh : ∀ name ∈ names, name ∉ o.map Prod.fst)
    (ran : initializeFromObject marshal properties names o session = some (some o', session')) :
    ∃ added, o'.Perm (added ++ o) ∧ added.map Prod.fst = names ∧
      ∀ entry ∈ added, EntryMarshaled marshal properties entry := by
  induction names generalizing o session with
  | nil =>
      cases ran
      exact ⟨[], .refl _, rfl, fun _ member => absurd member List.not_mem_nil⟩
  | cons name rest ih =>
      rw [List.nodup_cons] at distinct
      simp only [initializeFromObject] at ran
      split at ran
      · cases ran
      · rename_i child property
        split at ran
        · contradiction
        · cases ran
        · rename_i token middle marshals
          have inserted := setEntry_perm token (fresh name List.mem_cons_self)
          have fresh' : ∀ other ∈ rest, other ∉ (setEntry o name token).map Prod.fst := by
            intro other member inside
            rcases List.mem_cons.mp ((inserted.map Prod.fst).mem_iff.mp inside) with same | old
            · have isName : other = name := same
              exact distinct.1 (isName ▸ member)
            · exact fresh other (List.mem_cons_of_mem _ member) old
          obtain ⟨added, perm, same, each⟩ := ih distinct.2 fresh' ran
          refine ⟨(name, token) :: added, ?_, by rw [List.map_cons, same], ?_⟩
          · exact (perm.trans (inserted.append_left added)).trans List.perm_middle
          · intro entry member
            rcases List.mem_cons.mp member with rfl | later
            · exact ⟨child, property, _, _, marshals⟩
            · exact each entry later

end Marshaled

section Restored
variable {module_ : M → Option JsValue}

theorem setProperty_new {object : List (String16 × JsValue)} {name : String16} (value : JsValue)
    (absent : name ∉ object.map Prod.fst) :
    setProperty object name value = object ++ [(name, value)] := by
  induction object with
  | nil => rfl
  | cons property rest ih =>
      rw [List.map_cons, List.mem_cons, not_or] at absent
      rw [setProperty, if_neg (Ne.symm absent.1), ih absent.2]
      rfl

theorem unmarshalProperties_some {o : List (String16 × MarshaledJsToken M)}
    (object : List (String16 × JsValue)) (distinct : (o.map Prod.fst).Nodup)
    (fresh : ∀ name ∈ o.map Prod.fst, name ∉ object.map Prod.fst)
    (each : ∀ entry ∈ o, ∃ value, unmarshal module_ entry.2 = some value) :
    ∃ added, unmarshalProperties module_ o object = some (object ++ added) ∧
      List.Forall₂ (fun entry property => property.1 = entry.1 ∧
        unmarshal module_ entry.2 = some property.2) o added := by
  induction o generalizing object with
  | nil => exact ⟨[], congrArg some (List.append_nil _).symm, .nil⟩
  | cons entry rest ih =>
      obtain ⟨name, token⟩ := entry
      rw [List.map_cons, List.nodup_cons] at distinct
      obtain ⟨value, restored⟩ := each (name, token) List.mem_cons_self
      have new := setProperty_new value (fresh name List.mem_cons_self)
      have fresh' : ∀ other ∈ rest.map Prod.fst,
          other ∉ (object ++ [(name, value)]).map Prod.fst := by
        intro other member inside
        rw [List.map_append, List.mem_append, List.map_singleton, List.mem_singleton] at inside
        rcases inside with old | same
        · exact fresh other (List.mem_cons_of_mem _ member) old
        · exact distinct.1 (same ▸ member)
      obtain ⟨added, ran, pairs⟩ := ih (object ++ [(name, value)]) distinct.2 fresh'
        fun entry member => each entry (List.mem_cons_of_mem _ member)
      refine ⟨(name, value) :: added, ?_, .cons ⟨rfl, restored⟩ pairs⟩
      simp only [unmarshalProperties, restored, new, ran, List.append_assoc, List.singleton_append]

def trimHoles {α : Type} (elements : List (Option α)) : List (Option α) :=
  elements.rdropWhile (·.isNone)

theorem trimHoles_hole {α : Type} (elements : List (Option α)) :
    trimHoles (elements ++ [none]) = trimHoles elements :=
  List.rdropWhile_concat_pos _ _ _ rfl

theorem trimHoles_element {α : Type} (elements : List (Option α)) (value : α) :
    trimHoles (elements ++ [some value]) = elements ++ [some value] :=
  List.rdropWhile_concat_neg _ _ _ Bool.false_ne_true

theorem trimHoles_length_le {α : Type} (elements : List (Option α)) :
    (trimHoles elements).length ≤ elements.length :=
  (List.rdropWhile_prefix _ _).length_le

theorem trimHoles_pad {α : Type} (elements : List (Option α)) :
    trimHoles elements ++ List.replicate (elements.length - (trimHoles elements).length) none =
      elements := by
  induction elements using List.reverseRecOn with
  | nil => rfl
  | append_singleton front last ih =>
      cases last with
      | some value =>
          rw [trimHoles_element, Nat.sub_self]
          exact List.append_nil _
      | none =>
          have shorter := trimHoles_length_le front
          have count : (front ++ [none]).length - (trimHoles front).length =
              (front.length - (trimHoles front).length) + 1 := by
            rw [List.length_append, List.length_singleton]
            omega
          rw [trimHoles_hole, count, List.replicate_succ', ← List.append_assoc, ih]

theorem trimHoles_eq_self_iff {α : Type} (elements : List (Option α)) :
    trimHoles elements = elements ↔ elements.getLast? ≠ some none := by
  cases elements using List.reverseRecOn with
  | nil => exact iff_of_true rfl (Option.some_ne_none _).symm
  | append_singleton front last =>
      rw [List.getLast?_concat]
      cases last with
      | some value =>
          rw [trimHoles_element]
          exact iff_of_true rfl fun same => by cases same
      | none =>
          refine iff_of_false ?_ fun different => different rfl
          intro same
          have shorter := trimHoles_length_le front
          rw [trimHoles_hole] at same
          rw [same, List.length_append, List.length_singleton] at shorter
          omega

theorem setElement_trimHoles (front : List (Option JsValue)) (value : JsValue) :
    setElement (trimHoles front) front.length value = front ++ [some value] := by
  rw [setElement, if_neg (not_lt.mpr (trimHoles_length_le front)), trimHoles_pad]

def Restores (module_ : M → Option JsValue) (graph : Graph Ref M)
    (marshal : Ref → Session Ref → Outcome Ref (MarshaledJsToken M)) (child : Ref) : Prop :=
  ∀ token, Marshals marshal child token →
    ∃ value, unmarshal module_ token = some value ∧
      (Same graph child value ↔ graph.Restorable child)

inductive ElementRestored (graph : Graph Ref M) : Option Ref → Option JsValue → Prop
  | hole : ElementRestored graph none none
  | element {child value} (restored : Same graph child value ↔ graph.Restorable child) :
      ElementRestored graph (some child) (some value)

variable {graph : Graph Ref M} {marshal : Ref → Session Ref → Outcome Ref (MarshaledJsToken M)}

theorem unmarshalElements_some {elements : List (Option Ref)}
    {a : List (Option (MarshaledJsToken M))}
    (marshaled : List.Forall₂ (ElementMarshaled marshal) elements a) (front : List (Option JsValue))
    (children : ∀ child, some child ∈ elements → Restores module_ graph marshal child) :
    ∃ values, unmarshalElements module_ a front.length (trimHoles front) =
        some (trimHoles (front ++ values)) ∧
      List.Forall₂ (ElementRestored graph) elements values := by
  induction marshaled generalizing front with
  | nil =>
      refine ⟨[], ?_, .nil⟩
      rw [unmarshalElements, List.append_nil]
  | cons first _ ih =>
      have later := fun child member => children child (List.mem_cons_of_mem _ member)
      cases first with
      | hole =>
          obtain ⟨values, ran, restored⟩ := ih (front ++ [none]) later
          refine ⟨none :: values, ?_, .cons .hole restored⟩
          rw [List.length_append, List.length_singleton, trimHoles_hole] at ran
          rw [unmarshalElements, ran, List.append_assoc, List.singleton_append]
      | element marshals =>
          obtain ⟨value, unmarshaled, same⟩ := children _ List.mem_cons_self _ marshals
          obtain ⟨values, ran, restored⟩ := ih (front ++ [some value]) later
          refine ⟨some value :: values, ?_, .cons (.element same) restored⟩
          rw [List.length_append, List.length_singleton, trimHoles_element] at ran
          simp only [unmarshalElements, unmarshaled, setElement_trimHoles, ran, List.append_assoc,
            List.singleton_append]

theorem forall₂_getElem? {α β : Type} {R : α → β → Prop} {l : List α} {l' : List β}
    (all : List.Forall₂ R l l') {i : Nat} {a : α} {b : β} (left : l[i]? = some a)
    (right : l'[i]? = some b) : R a b := by
  induction all generalizing i with
  | nil => cases left
  | cons related _ ih =>
      cases i with
      | zero =>
          cases left
          cases right
          exact related
      | succ i => exact ih left right

theorem getElem?_of_forall₂ {α β : Type} {R : α → β → Prop} {l : List α} {l' : List β}
    (all : List.Forall₂ R l l') {i : Nat} {a : α} (left : l[i]? = some a) :
    ∃ b, l'[i]? = some b := by
  obtain ⟨inside, -⟩ := List.getElem?_eq_some_iff.mp left
  rw [all.length_eq] at inside
  exact ⟨_, List.getElem?_eq_getElem inside⟩

theorem elements_holes {elements : List (Option Ref)} {values : List (Option JsValue)}
    (restored : List.Forall₂ (ElementRestored graph) elements values) (i : Nat) :
    elements[i]? = some none ↔ values[i]? = some none := by
  constructor
  · intro hole
    obtain ⟨value, at_⟩ := getElem?_of_forall₂ restored hole
    cases forall₂_getElem? restored hole at_
    exact at_
  · intro hole
    obtain ⟨element, at_⟩ := getElem?_of_forall₂ restored.flip hole
    cases forall₂_getElem? restored at_ hole
    exact at_

theorem trimHoles_restored {elements : List (Option Ref)} {values : List (Option JsValue)}
    (restored : List.Forall₂ (ElementRestored graph) elements values) :
    trimHoles values = values ↔ elements.getLast? ≠ some none := by
  rw [trimHoles_eq_self_iff, List.getLast?_eq_getElem?, List.getLast?_eq_getElem?,
    ← restored.length_eq]
  exact not_congr (elements_holes restored _).symm

theorem array_same_iff {token : Ref} {elements : List (Option Ref)} {values : List (Option JsValue)}
    (node : graph.node token = .array elements)
    (restored : List.Forall₂ (ElementRestored graph) elements values) :
    Same graph token (.array (trimHoles values)) ↔ graph.Restorable token := by
  have child_iff := Graph.child_of_array node
  rw [graph.restorable_iff, node]
  constructor
  · intro same
    cases same with
    | array node' length _ each =>
        rw [node] at node'
        cases node'
        rw [restored.length_eq] at length
        have whole : trimHoles values = values :=
          (List.rdropWhile_prefix _ _).eq_of_length length
        refine ⟨(trimHoles_restored restored).mp whole, ?_⟩
        intro child step
        obtain ⟨i, at_⟩ := List.mem_iff_getElem?.mp ((child_iff child).mp step)
        obtain ⟨value, there⟩ := getElem?_of_forall₂ restored at_
        cases forall₂_getElem? restored at_ there with
        | element same_iff =>
            refine same_iff.mp (each i child _ at_ ?_)
            rw [whole]
            exact there
  · rintro ⟨ends, later⟩
    have whole := (trimHoles_restored restored).mpr ends
    rw [whole]
    refine .array node restored.length_eq.symm (elements_holes restored) ?_
    intro i child value at_ there
    cases forall₂_getElem? restored at_ there with
    | element same_iff =>
        exact same_iff.mpr (later child ((child_iff child).mpr (List.mem_of_getElem? at_)))

theorem object_same_iff {token : Ref} {properties : List (String16 × Ref)}
    {o : List (String16 × MarshaledJsToken M)} {object : List (String16 × JsValue)}
    (node : graph.node token = .object properties)
    (names : (o.map Prod.fst).Perm (properties.map Prod.fst))
    (entries : ∀ entry ∈ o, EntryMarshaled marshal properties entry)
    (children : ∀ child, graph.Child token child → Restores module_ graph marshal child)
    (pairs : List.Forall₂ (fun entry property => property.1 = entry.1 ∧
      unmarshal module_ entry.2 = some property.2) o object) :
    Same graph token (.object object) ↔ graph.Restorable token := by
  have distinct := graph.distinct token properties node
  have sameNames : object.map Prod.fst = o.map Prod.fst := by
    clear names entries
    induction pairs with
    | nil => rfl
    | cons pair _ ih => rw [List.map_cons, List.map_cons, pair.1, ih]
  have perm : (object.map Prod.fst).Perm (properties.map Prod.fst) := sameNames ▸ names
  have isChild : ∀ name child, (name, child) ∈ properties → graph.Child token child :=
    fun name child member => (Graph.child_of_object node child).mpr ⟨name, member⟩
  have each : ∀ name child value, (name, child) ∈ properties → (name, value) ∈ object →
      (Same graph child value ↔ graph.Restorable child) := by
    intro name child value property member
    obtain ⟨i, at_⟩ := List.mem_iff_getElem?.mp member
    obtain ⟨⟨_, marshaled⟩, there⟩ := getElem?_of_forall₂ pairs.flip at_
    obtain ⟨same, unmarshaled⟩ := forall₂_getElem? pairs there at_
    cases same
    obtain ⟨child', found, marshals⟩ := entries _ (List.mem_of_getElem? there)
    rw [(lookup_of_mem distinct).mpr property] at found
    cases found
    obtain ⟨value', restored, same_iff⟩ := children child (isChild name child property) _ marshals
    rw [restored] at unmarshaled
    cases unmarshaled
    exact same_iff
  rw [graph.restorable_iff, node]
  constructor
  · intro same
    cases same with
    | object node' _ _ values =>
        rw [node] at node'
        cases node'
        refine ⟨trivial, ?_⟩
        intro child step
        obtain ⟨name, property⟩ := (Graph.child_of_object node child).mp step
        have named := perm.mem_iff.mpr (List.mem_map.mpr ⟨_, property, rfl⟩)
        obtain ⟨⟨_, value⟩, member, rfl⟩ := List.mem_map.mp named
        exact (each _ _ value property member).mp (values _ _ value property member)
  · rintro ⟨-, later⟩
    refine .object node (fun _ => perm.mem_iff) (perm.nodup_iff.mpr distinct) ?_
    intro name child value property member
    exact (each name child value property member).mpr (later child (isChild name child property))

theorem object_restored {token : Ref} {properties : List (String16 × Ref)}
    {o : List (String16 × MarshaledJsToken M)} {session session' : Session Ref}
    (node : graph.node token = .object properties)
    (children : ∀ child, graph.Child token child → Restores module_ graph marshal child)
    (filled : initializeFromObject marshal properties (properties.map Prod.fst) [] session =
      some (some o, session')) :
    ∃ value, unmarshal module_ (.object o) = some value ∧
      (Same graph token value ↔ graph.Restorable token) := by
  have distinct := graph.distinct token properties node
  obtain ⟨added, perm, names, entries⟩ :=
    initializeFromObject_some distinct (fun _ _ => List.not_mem_nil) filled
  rw [List.append_nil] at perm
  have sameNames : (o.map Prod.fst).Perm (properties.map Prod.fst) := names ▸ perm.map Prod.fst
  have each : ∀ entry ∈ o, EntryMarshaled marshal properties entry :=
    fun entry member => entries entry (perm.mem_iff.mp member)
  have unmarshals : ∀ entry ∈ o, ∃ value, unmarshal module_ entry.2 = some value := by
    intro entry member
    obtain ⟨child, found, marshals⟩ := each entry member
    have step : graph.Child token child :=
      (Graph.child_of_object node child).mpr ⟨_, (lookup_of_mem distinct).mp found⟩
    obtain ⟨value, restored, -⟩ := children child step _ marshals
    exact ⟨value, restored⟩
  obtain ⟨object, ran, pairs⟩ := unmarshalProperties_some []
    (sameNames.nodup_iff.mpr distinct) (fun _ _ => List.not_mem_nil) unmarshals
  refine ⟨.object object, ?_, object_same_iff node sameNames each children pairs⟩
  rw [unmarshal, ran]
  rfl

theorem array_restored {token : Ref} {elements : List (Option Ref)}
    {a : List (Option (MarshaledJsToken M))} {session session' : Session Ref}
    (node : graph.node token = .array elements)
    (children : ∀ child, graph.Child token child → Restores module_ graph marshal child)
    (filled : initializeFromArray marshal elements [] session = some (some a, session')) :
    ∃ value, unmarshal module_ (.array a) = some value ∧
      (Same graph token value ↔ graph.Restorable token) := by
  obtain ⟨_, rfl, marshaled⟩ := initializeFromArray_some filled
  obtain ⟨values, ran, restored⟩ := unmarshalElements_some marshaled [] fun child member =>
    children child ((Graph.child_of_array node child).mpr member)
  refine ⟨.array (trimHoles values), ?_, array_same_iff node restored⟩
  have whole : unmarshalElements module_ a 0 [] = some (trimHoles values) := ran
  rw [unmarshal, whole]
  rfl

theorem string_same_iff {token : Ref} {value : String16}
    (node : graph.node token = .string value) :
    Same graph token (stringToJsToken value) ↔ graph.Restorable token := by
  have kept : value.takeWhile (· != 0) = value ↔ 0 ∉ value := by
    rw [List.takeWhile_eq_self_iff]
    exact ⟨fun all member => bne_iff_ne.mp (all 0 member) rfl,
      fun absent other member => bne_iff_ne.mpr fun zero => absent (zero ▸ member)⟩
  rw [Graph.restorable_leaf (by rw [node]; rfl), node, stringToJsToken]
  refine Iff.trans ?_ kept
  constructor
  · intro same
    cases same with
    | string node' =>
        rw [node] at node'
        injection node' with whole
        exact whole.symm
  · intro whole
    rw [whole]
    exact .string node

end Restored

section Marshal
variable [DecidableEq Ref]

theorem guarded_some {α : Type} {token : Ref} {session session' : Session Ref}
    {body : Session Ref → Outcome Ref α} {make : α → MarshaledJsToken M}
    {marshaled : MarshaledJsToken M}
    (ran : guarded token session body make = some (some marshaled, session')) :
    ∃ value inner, body (session.push token) = some (some value, inner) ∧
      marshaled = make value := by
  unfold guarded at ran
  split at ran
  · cases ran
  · obtain ⟨⟨result, inner⟩, within, same⟩ := Option.map_eq_some_iff.mp ran
    cases result with
    | none => cases same
    | some value =>
        cases same
        exact ⟨value, inner, within, rfl⟩

theorem marshal_restores (module_ : M → Option JsValue) {graph : Graph Ref M} {depth : Nat}
    {token : Ref} (plain : graph.Plain token) :
    Restores module_ graph (marshal graph depth) token := by
  induction depth generalizing token with
  | zero =>
      rintro marshaled ⟨session, session', ran⟩
      cases ran
  | succ depth ih =>
      rintro marshaled ⟨session, session', ran⟩
      have children : ∀ child, graph.Child token child →
          Restores module_ graph (marshal graph depth) child :=
        fun child step => ih (plain.child step)
      have leaf : (graph.node token).children = [] → (graph.node token).Restorable →
          graph.Restorable token := fun leaf => (Graph.restorable_leaf leaf).mpr
      have here := plain token .refl
      cases node : graph.node token with
      | object properties =>
          simp only [marshal, node] at ran
          obtain ⟨o, inner, filled, rfl⟩ := guarded_some ran
          exact object_restored node children filled
      | array elements =>
          simp only [marshal, node] at ran
          obtain ⟨a, inner, filled, rfl⟩ := guarded_some ran
          exact array_restored node children filled
      | string value =>
          simp only [marshal, node] at ran
          cases ran
          exact ⟨_, rfl, string_same_iff node⟩
      | bool | int | double | null | undefined =>
          simp only [marshal, node] at ran
          cases ran
          rw [node] at leaf
          refine ⟨_, rfl, iff_of_true ?_ (leaf rfl trivial)⟩
          constructor
          exact node
      | function | other | module _ =>
          rw [node] at here
          exact here.elim

end Marshal

section RoundTrip
variable [DecidableEq Ref] [Fintype Ref]

theorem marshal_round_trip_iff (graph : Graph Ref M) (token : Ref) (plain : graph.Plain token)
    (acyclic : ¬ Lib.ReachesCycle graph.Child token) (module_ : M → Option JsValue)
    (errorMessage : String) (depth : Nat) (enough : Fintype.card Ref < depth) :
    ∃ marshaled session value,
      marshal graph depth token ⟨[], errorMessage⟩ = some (some marshaled, session) ∧
      unmarshal module_ marshaled = some value ∧
      (Same graph token value ↔ graph.Restorable token) := by
  have start : Ancestors graph token (Session.mk [] errorMessage).objectStack :=
    ancestors_empty graph token
  obtain ⟨⟨result, session⟩, ran, null, -⟩ :=
    marshal_returns depth start (Nat.lt_add_right _ enough)
  cases result with
  | none => exact absurd (null.mp rfl) (plain.not_bad acyclic)
  | some marshaled =>
      obtain ⟨value, restored, same⟩ := marshal_restores module_ plain marshaled ⟨_, _, ran⟩
      exact ⟨marshaled, session, value, ran, restored, same⟩

end RoundTrip

theorem acyclic_of_rank (graph : Graph Ref M) (rank : Ref → Nat)
    (up : ∀ token child, graph.Child token child → rank token < rank child) (token : Ref) :
    ¬ Lib.ReachesCycle graph.Child token := by
  rintro ⟨reached, -, loop⟩
  have higher : ∀ other, Relation.TransGen graph.Child reached other →
      rank reached < rank other := by
    intro other path
    induction path with
    | single step => exact up _ _ step
    | tail _ step ih => exact ih.trans (up _ _ step)
  exact absurd (higher reached loop) (lt_irrefl _)

def diamondNode : SampleRef → Node SampleRef Unit
  | .outer => .object [([97], .inner), ([98], .leaf)]
  | .inner => .array [some .leaf, none, some .leaf]
  | .leaf | .loop => .string [104, 105]

theorem diamondNode_distinct (ref : SampleRef) (properties : List (String16 × SampleRef))
    (object : diamondNode ref = .object properties) : (properties.map Prod.fst).Nodup := by
  cases ref with
  | outer =>
      cases object
      decide
  | inner | leaf | loop => cases object

def diamondGraph : Graph SampleRef Unit :=
  ⟨diamondNode, diamondNode_distinct⟩

def SampleRef.rank : SampleRef → Nat
  | .outer => 0
  | .inner => 1
  | .leaf | .loop => 2

theorem diamond_step (token child : SampleRef) (step : diamondGraph.Child token child) :
    token.rank < child.rank := by
  have all : ∀ token : SampleRef, ∀ child ∈ (diamondNode token).children,
      token.rank < child.rank := by decide
  exact all token child step

theorem diamond_plain (ref : SampleRef) : (diamondNode ref).Plain := by
  cases ref <;> trivial

theorem diamond_restorable (ref : SampleRef) : (diamondNode ref).Restorable := by
  cases ref with
  | outer => trivial
  | inner =>
      show [some SampleRef.leaf, none, some .leaf].getLast? ≠ some none
      decide
  | leaf | loop =>
      show (0 : UInt16) ∉ ([104, 105] : String16)
      decide

theorem diamond_comes_back : ∃ marshaled session value,
    marshal diamondGraph 5 .outer ⟨[], ""⟩ = some (some marshaled, session) ∧
    unmarshal (fun _ => none) marshaled = some value ∧ Same diamondGraph .outer value := by
  obtain ⟨marshaled, session, value, marshals, unmarshals, same⟩ :=
    marshal_round_trip_iff diamondGraph .outer (fun reached _ => diamond_plain reached)
      (acyclic_of_rank _ _ diamond_step .outer) (fun _ => none) "" 5 (by decide)
  exact ⟨marshaled, session, value, marshals, unmarshals,
    same.mpr fun reached _ => diamond_restorable reached⟩

/-- A string with a zero unit, and an array that ends in a hole. -/
def cutNode : SampleRef → Node SampleRef Unit
  | .outer => .string [97, 0, 98]
  | .inner => .array [some .leaf, none]
  | .leaf | .loop => .int 5

theorem cutNode_distinct (ref : SampleRef) (properties : List (String16 × SampleRef))
    (object : cutNode ref = .object properties) : (properties.map Prod.fst).Nodup := by
  cases ref <;> cases object

def cutGraph : Graph SampleRef Unit :=
  ⟨cutNode, cutNode_distinct⟩

theorem zero_unit_and_last_hole_cut :
    (cutGraph.Plain .outer ∧ ¬ Lib.ReachesCycle cutGraph.Child .outer ∧ ∃ marshaled session,
      marshal cutGraph 5 .outer ⟨[], ""⟩ = some (some marshaled, session) ∧
      unmarshal (fun _ => none) marshaled = some (.string [97]) ∧
      ¬ Same cutGraph .outer (.string [97])) ∧
    (cutGraph.Plain .inner ∧ ¬ Lib.ReachesCycle cutGraph.Child .inner ∧ ∃ marshaled session,
      marshal cutGraph 5 .inner ⟨[], ""⟩ = some (some marshaled, session) ∧
      unmarshal (fun _ => none) marshaled = some (.array [some (.int 5)]) ∧
      ¬ Same cutGraph .inner (.array [some (.int 5)])) := by
  have plain : ∀ ref : SampleRef, (cutNode ref).Plain := by
    intro ref
    cases ref <;> trivial
  have steps : ∀ token : SampleRef, ∀ child ∈ (cutNode token).children,
      token.rank < child.rank := by decide
  have acyclic := acyclic_of_rank cutGraph SampleRef.rank steps
  refine ⟨⟨fun ref _ => plain ref, acyclic .outer, _, _, rfl, rfl, ?_⟩,
    ⟨fun ref _ => plain ref, acyclic .inner, _, _, rfl, rfl, ?_⟩⟩
  · intro same
    cases same with
    | string node => cases node
  · intro same
    cases same with
    | array node length _ _ =>
        cases node
        cases length

end ThreadIpc.JsMarshal
