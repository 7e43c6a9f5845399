import Mathlib.Data.List.Basic
import Mathlib.Data.UInt

/-!
# `MarshaledJsToken`

The values of a JavaScript context are a graph, whose accessors succeed and leave it as it is;
`GetElement` of a hole fails. A token that is not an object or an array is a node of its own, two
tokens are equal when they are the same node. `Marshal` runs with a bound on the depth of its
recursion and is `none` when that does not suffice. `double` is its 64 bits. A value made in the
other context is complete before it is stored in another one and does not change afterwards, so it
is a tree. What a Gears module does when it is marshalled is a parameter.
-/

namespace ThreadIpc.JsMarshal

abbrev String16 := List UInt16

inductive Node (Ref M : Type)
  | bool (value : Bool)
  | int (value : Int32)
  | double (value : UInt64)
  | string (value : String16)
  | object (properties : List (String16 × Ref))
  | module (asMarshaledModule : Option M)
  | array (elements : List (Option Ref))
  | function
  | null
  | undefined
  | other

structure Graph (Ref M : Type) where
  node : Ref → Node Ref M
  distinct : ∀ ref properties, node ref = .object properties → (properties.map Prod.fst).Nodup

inductive MarshaledJsToken (M : Type)
  | bool (value : Bool)
  | int (value : Int32)
  | double (value : UInt64)
  | string (value : String16)
  | object (value : List (String16 × MarshaledJsToken M))
  | array (value : List (Option (MarshaledJsToken M)))
  | module (value : M)
  | null
  | undefined

inductive JsValue
  | bool (value : Bool)
  | int (value : Int32)
  | double (value : UInt64)
  | string (value : String16)
  | object (properties : List (String16 × JsValue))
  | array (elements : List (Option JsValue))
  | null
  | undefined

/-- `*error_message_out` and `*object_stack`. -/
structure Session (Ref : Type) where
  objectStack : List Ref
  errorMessage : String

def cycleMessage : String := "Cannot marshal an object that contains a cycle."

def moduleMessage : String := "Cannot marshal arbitrary Gears modules."

def functionMessage : String := "Cannot marshal a JavaScript function."

def otherMessage : String := "Cannot marshal an arbitrary token."

/-- `(*o)[name] = value` on a `std::map`. -/
def setEntry {α : Type} (o : List (String16 × α)) (name : String16) (value : α) :
    List (String16 × α) :=
  match o with
  | [] => [(name, value)]
  | entry :: rest =>
      if name = entry.1 then (name, value) :: rest
      else if name < entry.1 then (name, value) :: entry :: rest
      else entry :: setEntry rest name value

section Marshal
variable {Ref M : Type}

/-- The outcome of a call that may return NULL or false, unless the depth did not suffice. -/
abbrev Outcome (Ref α : Type) := Option (Option α × Session Ref)

namespace Session

def fail (session : Session Ref) (message : String) : Session Ref :=
  { session with errorMessage := message }

def push (session : Session Ref) (token : Ref) : Session Ref :=
  { session with objectStack := session.objectStack ++ [token] }

def pop (session : Session Ref) : Session Ref :=
  { session with objectStack := session.objectStack.dropLast }

end Session

def initializeFromObject (marshal : Ref → Session Ref → Outcome Ref (MarshaledJsToken M))
    (properties : List (String16 × Ref)) :
    List String16 → List (String16 × MarshaledJsToken M) → Session Ref →
      Outcome Ref (List (String16 × MarshaledJsToken M))
  | [], o, session => some (some o, session)
  | name :: names, o, session => match properties.lookup name with
      | none => some (none, session)
      | some property => match marshal property session with
          | none => none
          | some (none, session) => some (none, session)
          | some (some marshaled, session) =>
              initializeFromObject marshal properties names (setEntry o name marshaled) session

def initializeFromArray (marshal : Ref → Session Ref → Outcome Ref (MarshaledJsToken M)) :
    List (Option Ref) → List (Option (MarshaledJsToken M)) → Session Ref →
      Outcome Ref (List (Option (MarshaledJsToken M)))
  | [], a, session => some (some a, session)
  | none :: rest, a, session => initializeFromArray marshal rest (a ++ [none]) session
  | some element :: rest, a, session => match marshal element session with
      | none => none
      | some (none, session) => some (none, session)
      | some (some marshaled, session) =>
          initializeFromArray marshal rest (a ++ [some marshaled]) session

/-- `CausesCycle`, and the pushes and pops around the body of an object or an array. -/
def guarded [DecidableEq Ref] {α : Type} (token : Ref) (session : Session Ref)
    (body : Session Ref → Outcome Ref α) (make : α → MarshaledJsToken M) :
    Outcome Ref (MarshaledJsToken M) :=
  if session.objectStack.any (token = ·) then some (none, session.fail cycleMessage)
  else (body (session.push token)).map fun (value, session) => (value.map make, session.pop)

def marshal [DecidableEq Ref] (graph : Graph Ref M) :
    Nat → Ref → Session Ref → Outcome Ref (MarshaledJsToken M)
  | 0, _, _ => none
  | depth + 1, token, session => match graph.node token with
      | .bool value => some (some (.bool value), session)
      | .int value => some (some (.int value), session)
      | .double value => some (some (.double value), session)
      | .string value => some (some (.string value), session)
      | .object properties => guarded token session
          (initializeFromObject (marshal graph depth) properties (properties.map Prod.fst) [])
          .object
      | .module (some marshaledModule) => some (some (.module marshaledModule), session)
      | .module none => some (none, session.fail moduleMessage)
      | .array elements => guarded token session
          (initializeFromArray (marshal graph depth) elements []) .array
      | .function => some (none, session.fail functionMessage)
      | .null => some (some .null, session)
      | .undefined => some (some .undefined, session)
      | .other => some (none, session.fail otherMessage)

end Marshal

section Unmarshal
variable {M : Type}

def setProperty (object : List (String16 × JsValue)) (name : String16) (value : JsValue) :
    List (String16 × JsValue) :=
  match object with
  | [] => [(name, value)]
  | property :: rest =>
      if property.1 = name then (name, value) :: rest else property :: setProperty rest name value

/-- An index beyond the end makes the array longer. -/
def setElement (array : List (Option JsValue)) (index : Nat) (value : JsValue) :
    List (Option JsValue) :=
  if index < array.length then array.set index (some value)
  else array ++ List.replicate (index - array.length) none ++ [some value]

def stringToJsToken (cString : String16) : JsValue :=
  .string (cString.takeWhile (· != 0))

mutual
def unmarshal (module_ : M → Option JsValue) : MarshaledJsToken M → Option JsValue
  | .bool value => some (.bool value)
  | .int value => some (.int value)
  | .double value => some (.double value)
  | .string value => some (stringToJsToken value)
  | .object o => (unmarshalProperties module_ o []).map .object
  | .array a => (unmarshalElements module_ a 0 []).map .array
  | .module value => module_ value
  | .null => some .null
  | .undefined => some .undefined

def unmarshalProperties (module_ : M → Option JsValue) :
    List (String16 × MarshaledJsToken M) → List (String16 × JsValue) →
      Option (List (String16 × JsValue))
  | [], object => some object
  | (name, token) :: rest, object => match unmarshal module_ token with
      | none => none
      | some value => unmarshalProperties module_ rest (setProperty object name value)

def unmarshalElements (module_ : M → Option JsValue) :
    List (Option (MarshaledJsToken M)) → Nat → List (Option JsValue) →
      Option (List (Option JsValue))
  | [], _, array => some array
  | none :: rest, i, array => unmarshalElements module_ rest (i + 1) array
  | some token :: rest, i, array => match unmarshal module_ token with
      | none => none
      | some value => unmarshalElements module_ rest (i + 1) (setElement array i value)
end

end Unmarshal

end ThreadIpc.JsMarshal
