import Mathlib.Data.List.Infix
import ThreadIpc.HttpUtils.HeaderLines

/-!
# The header list, field by field

As long as no header was erased, a header line adds a header, is merged into the first one of its
name or, for a second `Host`, is ignored. Where it goes depends on the names of the list only. A
continuation goes to the last header of the list.
-/

namespace ThreadIpc.HttpUtils

abbrev Entry := CString × CString

def ofEntries (entries : List Entry) : KeyValueList :=
  entries.map fun entry => (entry.1, some entry.2)

inductive Place
  | new
  | merged (i : Nat)
  | ignored

def placeOf (names : List CString) (key : CString) : Place :=
  if isMultiLine key then .new
  else match names.findIdx? (strcasecmp · key) with
    | none => .new
    | some i => if strcasecmp key host then .ignored else .merged i

def enter (entries : List Entry) (key value : CString) : List Entry :=
  match placeOf (entries.map Prod.fst) key with
  | .new => entries ++ [(key, value)]
  | .merged i => entries.modify i fun entry => (key, entry.2 ++ [comma] ++ value)
  | .ignored => entries

def joined (value text : CString) : CString := value ++ separatorFor value text ++ text

def appendLast (entries : List Entry) (text : CString) : List Entry :=
  entries.modify (entries.length - 1) fun entry => (entry.1, joined entry.2 text)

def enterField (entries : List Entry) (field : Field) : List Entry :=
  field.texts.foldl appendLast (enter entries field.key field.value)

theorem ofEntries_concat (front : List Entry) (key value : CString) :
    ofEntries (front ++ [(key, value)]) = ofEntries front ++ [(key, some value)] :=
  List.map_append

theorem modify_concat {α : Type} (front : List α) (last : α) (f : α → α) :
    (front ++ [last]).modify front.length f = front ++ [f last] := by
  induction front with
  | nil => rfl
  | cons first front ih =>
      show first :: (front ++ [last]).modify front.length f = first :: (front ++ [f last])
      rw [ih]

theorem appendLast_concat (front : List Entry) (key value text : CString) :
    appendLast (front ++ [(key, value)]) text = front ++ [(key, joined value text)] := by
  rw [appendLast, List.length_append, List.length_singleton, Nat.add_sub_cancel, modify_concat]

theorem foldl_appendLast_concat (front : List Entry) (key value : CString) (texts : List CString) :
    texts.foldl appendLast (front ++ [(key, value)]) =
      front ++ [(key, texts.foldl joined value)] := by
  induction texts generalizing value with
  | nil => rfl
  | cons text rest ih => rw [List.foldl_cons, appendLast_concat, ih, List.foldl_cons]

theorem foldl_appendLast_nil (texts : List CString) : texts.foldl appendLast [] = [] := by
  induction texts with
  | nil => rfl
  | cons _ _ ih => exact ih

section SetHeader
variable (headers : HTTPHeaders) (key value : CString)

theorem setMatching_cons_other {mode : Overwrite} {it : CString × Option CString}
    (rest : KeyValueList) (other : ¬ strcasecmp it.1 key = true) :
    (headers.setMatching key (some value) mode (it :: rest)).map Prod.snd =
      ((headers.setMatching key (some value) mode rest).map Prod.snd).map (it :: ·) := by
  rw [HTTPHeaders.setMatching, if_neg other, Option.map_map, Option.map_map]
  rfl

theorem setMatching_entries {mode : Overwrite} {become : Entry → Entry}
    (found : ∀ entry : Entry, headers.setFound (entry.1, some entry.2) key (some value) mode =
      ((become entry).1, some (become entry).2)) (entries : List Entry) :
    (headers.setMatching key (some value) mode (ofEntries entries)).map Prod.snd =
      ((entries.map Prod.fst).findIdx? (strcasecmp · key)).map fun i =>
        ofEntries (entries.modify i become) := by
  induction entries with
  | nil => rfl
  | cons entry rest ih =>
      rw [List.map_cons, List.findIdx?_cons]
      by_cases same : strcasecmp entry.1 key = true
      · rw [if_pos same, ofEntries, List.map_cons, HTTPHeaders.setMatching, if_pos same]
        simp only [found]
        rfl
      · rw [if_neg same, ofEntries, List.map_cons, setMatching_cons_other _ _ _ _ same]
        rw [ofEntries] at ih
        rw [ih, Option.map_map, Option.map_map]
        rfl

theorem setMatching_append (entries : List Entry) :
    (headers.setMatching key (some value) .append (ofEntries entries)).map Prod.snd =
      ((entries.map Prod.fst).findIdx? (strcasecmp · key)).map fun i =>
        ofEntries (entries.modify i fun entry => (key, entry.2 ++ [comma] ++ value)) :=
  setMatching_entries headers key value (fun _ => rfl) entries

theorem setMatching_noOverwrite (entries : List Entry) :
    (headers.setMatching key (some value) .noOverwrite (ofEntries entries)).map Prod.snd =
      ((entries.map Prod.fst).findIdx? (strcasecmp · key)).map fun _ => ofEntries entries := by
  have unchanged := @setMatching_entries headers key value .noOverwrite id (fun _ => rfl) entries
  simpa only [List.modify_id] using unchanged

theorem withoutNewlines_eq {value : CString} (noCr : cr ∉ value) (noLf : lf ∉ value) :
    HTTPHeaders.withoutNewlines value = value := by
  have kept : ∀ c ∈ value, (if c = cr ∨ c = lf then underscore else c) = c := by
    intro c member
    refine if_neg ?_
    rintro (rfl | rfl)
    · exact noCr member
    · exact noLf member
  exact (List.map_congr_left kept).trans (List.map_id _)

def modeFor (key : CString) : Overwrite := if strcasecmp key host then .noOverwrite else .append

theorem host_not_multiLine {key : CString} (isHost : strcasecmp key host = true) :
    isMultiLine key = false := by
  have same : key.map tolower = host.map tolower := beq_iff_eq.mp isHost
  rw [isMultiLine, strcasecmp, strcasecmp, same]
  rfl

theorem setHeader_single {headers : HTTPHeaders} {mode : Overwrite}
    (single : ¬ (isMultiLine key = true ∧ mode = .append)) (notOverwrite : mode ≠ .overwrite)
    (noCr : cr ∉ value) (noLf : lf ∉ value) :
    (headers.setHeader key (some value) mode).2.headers =
      ((headers.setMatching key (some value) mode headers.headers).map Prod.snd).getD
        (headers.headers ++ [(key, some value)]) := by
  rw [HTTPHeaders.setHeader, HTTPHeaders.isUsingTooMuchMemory_eq, if_neg Bool.false_ne_true]
  simp only [Option.map_some, withoutNewlines_eq noCr noLf]
  rw [if_neg single, if_neg fun both => notOverwrite both.2]
  cases headers.setMatching key (some value) mode headers.headers <;> rfl

theorem setHeader_entries {headers : HTTPHeaders} {entries : List Entry}
    (list : headers.headers = ofEntries entries) (noCr : cr ∉ value) (noLf : lf ∉ value) :
    (headers.setHeader key (some value) (modeFor key)).2.headers =
      ofEntries (enter entries key value) := by
  have added : headers.headers ++ [(key, some value)] = ofEntries (entries ++ [(key, value)]) := by
    rw [list, ofEntries_concat]
  unfold enter placeOf modeFor
  by_cases isHost : strcasecmp key host = true
  · have single := host_not_multiLine isHost
    rw [if_pos isHost, setHeader_single _ _ (fun both => by cases both.2) (by decide) noCr noLf,
      added, list, setMatching_noOverwrite, if_neg (by rw [single]; exact Bool.false_ne_true)]
    cases (entries.map Prod.fst).findIdx? (strcasecmp · key) with
    | none => rfl
    | some i =>
        simp only [isHost, if_true]
        rfl
  · rw [if_neg isHost]
    by_cases multi : isMultiLine key = true
    · rw [if_pos multi, HTTPHeaders.setHeader, HTTPHeaders.isUsingTooMuchMemory_eq,
        if_neg Bool.false_ne_true, Option.map_some, withoutNewlines_eq noCr noLf]
      simp only
      rw [if_pos ⟨multi, trivial⟩]
      exact added
    · rw [if_neg multi, setHeader_single _ _ (fun both => multi both.1) (by decide) noCr noLf,
        added, list, setMatching_append]
      cases (entries.map Prod.fst).findIdx? (strcasecmp · key) with
      | none => rfl
      | some i =>
          simp only [isHost]
          rfl

end SetHeader

section SetHeaderFromLine
variable {headers : HTTPHeaders} {entries : List Entry}

theorem headerValue_subset (line : CString) : ∀ c ∈ headerValue line, c ∈ line := by
  intro c member
  have afterColon := (List.dropWhile_suffix _).subset member
  exact (List.dropWhile_suffix _).subset ((List.tail_suffix _).subset afterColon)

theorem setHeaderFromLine_line (field : Field) (list : headers.headers = ofEntries entries) :
    ∃ result, headers.setHeaderFromLine field.line .append = some result ∧
      result.2.headers = ofEntries (enter entries field.key field.value) := by
  have isText := field.isText field.line List.mem_cons_self
  have notContinuation : ¬ (startOf field.line).length < field.line.length := by
    rw [field.unindented]
    exact lt_irrefl _
  refine ⟨_, ?_, setHeader_entries field.key field.value list
    (fun member => isText.2.1 (headerValue_subset _ _ member))
    (fun member => isText.2.2 (headerValue_subset _ _ member))⟩
  unfold HTTPHeaders.setHeaderFromLine
  simp only
  rw [if_neg notContinuation, if_neg fun missing => missing field.hasColon]
  rfl

theorem setHeaderFromLine_continuation {continuation : List UInt8}
    (indented : startOf continuation ≠ continuation) (list : headers.headers = ofEntries entries) :
    ∃ result, headers.setHeaderFromLine continuation .append = some result ∧
      result.2.headers = ofEntries (appendLast entries (startOf continuation)) := by
  have shorter : (startOf continuation).length < continuation.length := by
    refine lt_of_le_of_ne (List.length_dropWhile_le _ _) ?_
    intro same
    exact indented ((List.dropWhile_suffix _).eq_of_length same)
  unfold HTTPHeaders.setHeaderFromLine
  simp only
  rw [if_pos shorter, list]
  cases entries using List.reverseRecOn with
  | nil => exact ⟨_, rfl, list⟩
  | append_singleton front last =>
      obtain ⟨key, value⟩ := last
      rw [ofEntries_concat, List.getLast?_concat, List.dropLast_concat, appendLast_concat,
        ofEntries_concat]
      exact ⟨_, rfl, rfl⟩

theorem setHeaderLines_append (headers : HTTPHeaders) (lines lines' : List (List UInt8)) :
    headers.setHeaderLines (lines ++ lines') =
      (headers.setHeaderLines lines).bind fun headers => headers.setHeaderLines lines' :=
  List.foldlM_append

theorem setHeaderLines_continuations {continuations : List (List UInt8)}
    (indented : ∀ continuation ∈ continuations, startOf continuation ≠ continuation)
    (list : headers.headers = ofEntries entries) :
    ∃ result, headers.setHeaderLines continuations = some result ∧
      result.headers = ofEntries ((continuations.map startOf).foldl appendLast entries) := by
  induction continuations generalizing headers entries with
  | nil => exact ⟨headers, rfl, list⟩
  | cons continuation rest ih =>
      obtain ⟨result, ran, list'⟩ :=
        setHeaderFromLine_continuation (indented continuation List.mem_cons_self) list
      obtain ⟨final, later, list''⟩ :=
        ih (fun other member => indented other (List.mem_cons_of_mem _ member)) list'
      refine ⟨final, ?_, list''⟩
      rw [HTTPHeaders.setHeaderLines, List.foldlM_cons, ran]
      exact later

theorem setHeaderLines_field (field : Field) (list : headers.headers = ofEntries entries) :
    ∃ result, headers.setHeaderLines field.lines = some result ∧
      result.headers = ofEntries (enterField entries field) := by
  obtain ⟨result, ran, list'⟩ := setHeaderFromLine_line field list
  obtain ⟨final, later, list''⟩ := setHeaderLines_continuations field.indented list'
  refine ⟨final, ?_, list''⟩
  rw [HTTPHeaders.setHeaderLines, Field.lines, List.foldlM_cons, ran]
  exact later

theorem setHeaderLines_fields (fields : List Field) (list : headers.headers = ofEntries entries) :
    ∃ result, headers.setHeaderLines (fieldLines fields) = some result ∧
      result.headers = ofEntries (fields.foldl enterField entries) := by
  induction fields generalizing headers entries with
  | nil => exact ⟨headers, rfl, list⟩
  | cons field rest ih =>
      obtain ⟨result, ran, list'⟩ := setHeaderLines_field field list
      obtain ⟨final, later, list''⟩ := ih list'
      refine ⟨final, ?_, list''⟩
      rw [fieldLines, List.flatMap_cons, setHeaderLines_append, ran]
      exact later

end SetHeaderFromLine

section Names

def namesAfter (names : List CString) (key : CString) : List CString :=
  match placeOf names key with
  | .new => names ++ [key]
  | .merged i => names.set i key
  | .ignored => names

theorem merge_names (entries : List Entry) (i : Nat) (key value : CString) :
    (entries.modify i fun entry => (key, entry.2 ++ [comma] ++ value)).map Prod.fst =
      (entries.map Prod.fst).set i key := by
  induction entries generalizing i with
  | nil => rw [List.modify_nil, List.map_nil, List.set_nil]
  | cons entry rest ih =>
      cases i with
      | zero => rfl
      | succ i => exact congrArg (entry.1 :: ·) (ih i)

theorem enter_names (entries : List Entry) (key value : CString) :
    (enter entries key value).map Prod.fst = namesAfter (entries.map Prod.fst) key := by
  unfold enter namesAfter
  cases placeOf (entries.map Prod.fst) key with
  | new => exact List.map_append
  | merged i => exact merge_names entries i key value
  | ignored => rfl

theorem appendLast_names (entries : List Entry) (text : CString) :
    (appendLast entries text).map Prod.fst = entries.map Prod.fst := by
  cases entries using List.reverseRecOn with
  | nil => rfl
  | append_singleton front last =>
      rw [appendLast_concat, List.map_append, List.map_append]
      rfl

theorem enterField_names (entries : List Entry) (field : Field) :
    (enterField entries field).map Prod.fst = namesAfter (entries.map Prod.fst) field.key := by
  rw [← enter_names entries field.key field.value, enterField]
  induction field.texts using List.reverseRecOn with
  | nil => rfl
  | append_singleton texts text ih => rw [List.foldl_concat, appendLast_names, ih]

theorem placeOf_merged {names : List CString} {key : CString} {i : Nat}
    (place : placeOf names key = .merged i) :
    isMultiLine key = false ∧ strcasecmp key host = false ∧
      ∃ name, names[i]? = some name ∧ strcasecmp name key = true := by
  unfold placeOf at place
  split at place
  · cases place
  · rename_i single
    split at place
    · cases place
    · rename_i j found
      split at place
      · cases place
      · rename_i notHost
        cases place
        obtain ⟨inside, matches_, -⟩ := List.findIdx?_eq_some_iff_getElem.mp found
        exact ⟨Bool.of_not_eq_true single, Bool.of_not_eq_true notHost, _,
          List.getElem?_eq_getElem inside, matches_⟩

theorem placeOf_ignored {names : List CString} {key : CString}
    (place : placeOf names key = .ignored) : strcasecmp key host = true ∧ names ≠ [] := by
  unfold placeOf at place
  split at place
  · cases place
  · split at place
    · cases place
    · rename_i found
      split at place
      · rename_i isHost
        refine ⟨isHost, ?_⟩
        rintro rfl
        cases found
      · cases place

theorem placeOf_new_iff (names : List CString) (key : CString) : placeOf names key = .new ↔
    isMultiLine key = true ∨ ∀ name ∈ names, strcasecmp name key = false := by
  unfold placeOf
  split
  · rename_i multi
    exact iff_of_true rfl (.inl multi)
  · rename_i single
    rw [or_iff_right single]
    split
    · rename_i absent
      exact iff_of_true rfl (List.findIdx?_eq_none_iff.mp absent)
    · rename_i j found
      refine iff_of_false ?_ ?_
      · split <;> exact fun place => by cases place
      · intro none_
        rw [List.findIdx?_eq_none_iff.mpr none_] at found
        cases found

end Names

end ThreadIpc.HttpUtils
