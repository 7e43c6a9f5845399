import ThreadIpc.HttpUtils.Visits
import ThreadIpc.Lib.Reachability

/-!
# Line breaks in header values

`SetHeader` replaces them in the value that it is given. A continuation line goes around it.
-/

namespace ThreadIpc.HttpUtils

open Lib

def NoBreak (text : CString) : Prop := cr ∉ text ∧ lf ∉ text

instance (text : CString) : Decidable (NoBreak text) := inferInstanceAs (Decidable (_ ∧ _))

def CleanValue (value : Option CString) : Prop := ∀ text ∈ value, NoBreak text

def Clean (list : KeyValueList) : Prop := ∀ header ∈ list, CleanValue header.2

theorem cleanValue_none : CleanValue none := fun _ none_ => by cases none_

theorem cleanValue_some_iff {text : CString} : CleanValue (some text) ↔ NoBreak text :=
  ⟨fun clean => clean text rfl, fun clean _ same => Option.some.inj same ▸ clean⟩

theorem NoBreak.append_iff {text text' : CString} :
    NoBreak (text ++ text') ↔ NoBreak text ∧ NoBreak text' := by
  simp only [NoBreak, List.mem_append, not_or]
  exact and_and_and_comm

theorem withoutNewlines_noBreak (value : CString) : NoBreak (HTTPHeaders.withoutNewlines value) := by
  have replaced {c : UInt8} (member : c ∈ HTTPHeaders.withoutNewlines value) : c ≠ cr ∧ c ≠ lf := by
    obtain ⟨d, _, same⟩ := List.mem_map.mp member
    by_cases break_ : d = cr ∨ d = lf
    · rw [if_pos break_] at same
      subst same
      exact ⟨by decide, by decide⟩
    · rw [if_neg break_] at same
      subst same
      exact not_or.mp break_
  exact ⟨fun member => (replaced member).1 rfl, fun member => (replaced member).2 rfl⟩

theorem separatorFor_noBreak (value start : CString) : NoBreak (separatorFor value start) := by
  rw [separatorFor]
  split <;> exact ⟨by decide, by decide⟩

section Clean

variable {list list' : KeyValueList}

theorem clean_append_iff : Clean (list ++ list') ↔ Clean list ∧ Clean list' := by
  simp only [Clean, List.mem_append, or_imp, forall_and]

theorem clean_cons_iff {header : CString × Option CString} :
    Clean (header :: list) ↔ CleanValue header.2 ∧ Clean list := by
  simp only [Clean, List.mem_cons, forall_eq_or_imp]

theorem clean_nil : Clean [] := fun _ member => absurd member List.not_mem_nil

theorem clean_single_iff {key : CString} {value : Option CString} :
    Clean [(key, value)] ↔ CleanValue value := by
  rw [clean_cons_iff]
  exact and_iff_left clean_nil

end Clean

section SetHeader

variable {headers : HTTPHeaders} {key : CString} {value : Option CString}

theorem setFound_clean (plain : CleanValue value) (mode : Overwrite) {it : CString × Option CString}
    (clean : CleanValue it.2) : CleanValue (headers.setFound it key value mode).2 := by
  rw [HTTPHeaders.setFound]
  split
  · exact clean
  · obtain ⟨first, _ | second⟩ := it
    · exact plain
    · by_cases over_ : mode = .overwrite
      · simp only [if_pos over_]
        exact plain
      · simp only [if_neg over_]
        cases value with
        | none => exact clean
        | some value =>
            apply cleanValue_some_iff.mpr
            exact NoBreak.append_iff.mpr ⟨NoBreak.append_iff.mpr
              ⟨cleanValue_some_iff.mp clean, by decide⟩, cleanValue_some_iff.mp plain⟩

theorem clean_of_setFound {mode : Overwrite} (keeps : mode ≠ .overwrite)
    {it : CString × Option CString}
    (clean : CleanValue (headers.setFound it key value mode).2) : CleanValue it.2 := by
  rw [HTTPHeaders.setFound] at clean
  split at clean
  · exact clean
  · obtain ⟨first, _ | second⟩ := it
    · exact cleanValue_none
    · dsimp only at clean
      cases value with
      | none => exact clean
      | some value =>
          have whole : NoBreak (second ++ [comma] ++ value) := cleanValue_some_iff.mp clean
          exact cleanValue_some_iff.mpr (NoBreak.append_iff.mp (NoBreak.append_iff.mp whole).1).1

theorem setMatching_clean (plain : CleanValue value) {mode : Overwrite} {list list' : KeyValueList}
    {second : Option CString}
    (found : headers.setMatching key value mode list = some (second, list')) (clean : Clean list) :
    Clean list' := by
  induction list generalizing list' with
  | nil => cases found
  | cons it rest ih =>
      rw [clean_cons_iff] at clean
      rw [HTTPHeaders.setMatching] at found
      split at found
      · cases found
        exact clean_cons_iff.mpr ⟨setFound_clean plain mode clean.1, clean.2⟩
      · obtain ⟨⟨second', rest'⟩, later, same⟩ := Option.map_eq_some_iff.mp found
        cases same
        exact clean_cons_iff.mpr ⟨clean.1, ih later clean.2⟩

theorem clean_of_setMatching {mode : Overwrite} (keeps : mode ≠ .overwrite)
    {list list' : KeyValueList} {second : Option CString}
    (found : headers.setMatching key value mode list = some (second, list'))
    (clean : Clean list') : Clean list := by
  induction list generalizing list' with
  | nil => cases found
  | cons it rest ih =>
      rw [HTTPHeaders.setMatching] at found
      split at found
      · cases found
        rw [clean_cons_iff] at clean
        exact clean_cons_iff.mpr ⟨clean_of_setFound keeps clean.1, clean.2⟩
      · obtain ⟨⟨second', rest'⟩, later, same⟩ := Option.map_eq_some_iff.mp found
        cases same
        rw [clean_cons_iff] at clean
        exact clean_cons_iff.mpr ⟨clean.1, ih later clean.2⟩

theorem clean_filter {list : KeyValueList} (clean : Clean list)
    (p : CString × Option CString → Bool) : Clean (list.filter p) :=
  fun header member => clean header (List.mem_of_mem_filter member)

theorem withoutNewlines_clean (value : Option CString) :
    CleanValue (value.map HTTPHeaders.withoutNewlines) := by
  cases value with
  | none => exact cleanValue_none
  | some value => exact cleanValue_some_iff.mpr (withoutNewlines_noBreak value)

theorem addNewHeader_clean_iff (plain : CleanValue value) :
    Clean (headers.addNewHeader key value).2.headers ↔ Clean headers.headers :=
  clean_append_iff.trans (and_iff_left (clean_single_iff.mpr plain))

theorem setHeader_clean (headers : HTTPHeaders) (key : CString) (value : Option CString)
    (mode : Overwrite) (clean : Clean headers.headers) :
    Clean (headers.setHeader key value mode).2.headers := by
  have plain := withoutNewlines_clean value
  simp only [HTTPHeaders.setHeader, HTTPHeaders.isUsingTooMuchMemory_eq, Bool.false_eq_true,
    if_false]
  split
  · exact (addNewHeader_clean_iff plain).mpr clean
  split
  · exact (addNewHeader_clean_iff plain).mpr (clean_filter clean _)
  split
  · rename_i second list found
    exact setMatching_clean plain found clean
  · exact (addNewHeader_clean_iff plain).mpr clean

theorem setHeader_clean_iff (headers : HTTPHeaders) (key : CString) (value : Option CString)
    {mode : Overwrite} (keeps : mode ≠ .overwrite) :
    Clean (headers.setHeader key value mode).2.headers ↔ Clean headers.headers := by
  refine ⟨fun clean => ?_, setHeader_clean headers key value mode⟩
  have plain := withoutNewlines_clean value
  simp only [HTTPHeaders.setHeader, HTTPHeaders.isUsingTooMuchMemory_eq, Bool.false_eq_true,
    if_false] at clean
  split at clean
  · exact (addNewHeader_clean_iff plain).mp clean
  split at clean
  · rename_i both
    exact absurd both.2 keeps
  split at clean
  · rename_i second list found
    exact clean_of_setMatching keeps found clean
  · exact (addNewHeader_clean_iff plain).mp clean

theorem setHeader_nonempty (headers : HTTPHeaders) (key : CString) (value : Option CString)
    (mode : Overwrite) : (headers.setHeader key value mode).2.headers ≠ [] := by
  have added (headers : HTTPHeaders) (value : Option CString) :
      (headers.addNewHeader key value).2.headers ≠ [] :=
    List.append_ne_nil_of_right_ne_nil _ (List.cons_ne_nil _ _)
  have matched {value : Option CString} {list list' : KeyValueList} {second : Option CString}
      (found : headers.setMatching key value mode list = some (second, list')) : list' ≠ [] := by
    cases list with
    | nil => cases found
    | cons it rest =>
        rw [HTTPHeaders.setMatching] at found
        split at found
        · cases found
          exact List.cons_ne_nil _ _
        · obtain ⟨_, _, same⟩ := Option.map_eq_some_iff.mp found
          cases same
          exact List.cons_ne_nil _ _
  simp only [HTTPHeaders.setHeader, HTTPHeaders.isUsingTooMuchMemory_eq, Bool.false_eq_true,
    if_false]
  split
  · exact added headers _
  split
  · exact added _ _
  split
  · rename_i second list found
    exact matched found
  · exact added headers _

end SetHeader

def IsContinuation (line : CString) : Prop := (startOf line).length < line.length

instance (line : CString) : Decidable (IsContinuation line) := inferInstanceAs (Decidable (_ < _))

def opens (line : CString) : Bool := !decide (IsContinuation line) && decide (colon ∈ line)

/-- What a line is appended to a header with has no line break. `holds` says that there is one. -/
def PlainLine (holds : Bool) (line : CString) : Prop :=
  IsContinuation line → holds = true → NoBreak (startOf line)

section SetHeaderFromLine

variable {headers after : HTTPHeaders} {line : CString} {mode : Overwrite}
  {result : Option CString}

theorem setHeaderFromLine_cases
    (set_ : headers.setHeaderFromLine line mode = some (result, after)) :
    (after = headers ∧ (IsContinuation line → headers.headers = []) ∧ opens line = false) ∨
      (IsContinuation line ∧ ∃ front first second, headers.headers = front ++ [(first, some second)] ∧
        after.headers =
          front ++ [(first, some (second ++ separatorFor second (startOf line) ++ startOf line))]) ∨
      (opens line = true ∧ ¬ IsContinuation line ∧ ∃ key value mode',
        (mode ≠ .overwrite → mode' ≠ .overwrite) ∧
          after = (headers.setHeader key (some value) mode').2) := by
  rw [HTTPHeaders.setHeaderFromLine] at set_
  change (if IsContinuation line then _ else _) = _ at set_
  by_cases continuation : IsContinuation line
  · have opens_ : opens line = false := by
      rw [opens, decide_eq_true continuation]
      rfl
    rw [if_pos continuation] at set_
    cases last : headers.headers.getLast? with
    | none =>
        rw [last] at set_
        cases set_
        exact .inl ⟨rfl, fun _ => List.getLast?_eq_none_iff.mp last, opens_⟩
    | some header =>
        obtain ⟨first, _ | second⟩ := header
        · rw [last] at set_
          cases set_
        · rw [last] at set_
          cases set_
          refine .inr (.inl ⟨continuation, headers.headers.dropLast, first, second, ?_, rfl⟩)
          exact (List.dropLast_append_getLast? _ last).symm
  · rw [if_neg continuation] at set_
    by_cases noColon : colon ∉ line
    · rw [if_pos noColon] at set_
      cases set_
      refine .inl ⟨rfl, fun continuation_ => absurd continuation_ continuation, ?_⟩
      rw [opens, decide_eq_false noColon, Bool.and_false]
    · rw [if_neg noColon] at set_
      have opens_ : opens line = true := by
        rw [opens, decide_eq_false continuation, decide_eq_true (not_not.mp noColon)]
        rfl
      refine .inr (.inr ⟨opens_, continuation, headerKey line, headerValue line,
        if strcasecmp (headerKey line) host then .noOverwrite else mode, ?_, ?_⟩)
      · intro keeps
        split
        · exact fun same => by cases same
        · exact keeps
      · exact (congrArg Prod.snd (Option.some.inj set_)).symm

theorem setHeaderFromLine_clean
    (set_ : headers.setHeaderFromLine line mode = some (result, after))
    (clean : Clean headers.headers) :
    Clean after.headers ↔ PlainLine (headers.headers ≠ []) line := by
  obtain ⟨same, none_, _⟩ | ⟨continuation, front, first, second, before, appended⟩ |
    ⟨_, other, key, value, mode', _, same⟩ := setHeaderFromLine_cases set_
  · refine iff_of_true (same ▸ clean) fun continuation holds => ?_
    exact absurd (none_ continuation) (of_decide_eq_true holds)
  · have holds : decide (headers.headers ≠ []) = true := by
      rw [before]
      simp
    rw [before, clean_append_iff, clean_single_iff, cleanValue_some_iff] at clean
    rw [appended, clean_append_iff, clean_single_iff, cleanValue_some_iff, NoBreak.append_iff,
      NoBreak.append_iff, PlainLine]
    have separator := separatorFor_noBreak second (startOf line)
    exact ⟨fun all _ _ => all.2.2,
      fun plain => ⟨clean.1, ⟨clean.2, separator⟩, plain continuation holds⟩⟩
  · refine iff_of_true ?_ fun continuation => absurd continuation other
    rw [same]
    exact setHeader_clean headers key _ mode' clean

theorem clean_of_setHeaderFromLine (keeps : mode ≠ .overwrite)
    (set_ : headers.setHeaderFromLine line mode = some (result, after))
    (clean : Clean after.headers) : Clean headers.headers := by
  obtain ⟨same, _, _⟩ | ⟨_, front, first, second, before, appended⟩ |
    ⟨_, _, key, value, mode', keeps', same⟩ := setHeaderFromLine_cases set_
  · exact same ▸ clean
  · rw [appended, clean_append_iff, clean_single_iff, cleanValue_some_iff, NoBreak.append_iff,
      NoBreak.append_iff] at clean
    rw [before, clean_append_iff, clean_single_iff, cleanValue_some_iff]
    exact ⟨clean.1, clean.2.1.1⟩
  · rw [same] at clean
    exact (setHeader_clean_iff headers key _ (keeps' keeps)).mp clean

theorem setHeaderFromLine_nonempty
    (set_ : headers.setHeaderFromLine line mode = some (result, after)) :
    decide (after.headers ≠ []) = (decide (headers.headers ≠ []) || opens line) := by
  obtain ⟨same, _, opens_⟩ | ⟨_, front, first, second, before, appended⟩ |
    ⟨opens_, _, key, value, mode', _, same⟩ := setHeaderFromLine_cases set_
  · rw [same, opens_, Bool.or_false]
  · rw [before, appended]
    simp
  · rw [opens_, Bool.or_true, same]
    exact decide_eq_true (setHeader_nonempty headers key _ mode')

end SetHeaderFromLine

def PlainLines : Bool → List CString → Prop
  | _, [] => True
  | holds, line :: rest => PlainLine holds line ∧ PlainLines (holds || opens line) rest

theorem setLineIn_clean_iff {list after : KeyValueList} {line : CString}
    (set_ : setLineIn list line = some after) :
    (Clean after ↔ Clean list ∧ PlainLine (list ≠ []) line) ∧
      decide (after ≠ []) = (decide (list ≠ []) || opens line) := by
  obtain ⟨⟨result, headers⟩, line_, same⟩ := Option.map_eq_some_iff.mp set_
  subst same
  refine ⟨⟨fun clean => ?_, fun both => (setHeaderFromLine_clean line_ both.1).mpr both.2⟩,
    setHeaderFromLine_nonempty line_⟩
  have before : Clean list := clean_of_setHeaderFromLine (by decide) line_ clean
  exact ⟨before, (setHeaderFromLine_clean line_ before).mp clean⟩

theorem setLinesIn_clean_iff {list after : KeyValueList} {lines : List CString}
    (set_ : setLinesIn list lines = some after) :
    Clean after ↔ Clean list ∧ PlainLines (list ≠ []) lines := by
  induction lines generalizing list with
  | nil =>
      cases set_
      exact (and_iff_left trivial).symm
  | cons line rest ih =>
      rw [setLinesIn_cons] at set_
      obtain ⟨middle, first, later⟩ := Option.bind_eq_some_iff.mp set_
      obtain ⟨clean, nonempty⟩ := setLineIn_clean_iff first
      rw [ih later, clean, nonempty, PlainLines, and_assoc]

variable {platform : Platform}

inductive Call
  | setHeader (key : CString) (value : Option CString) (mode : Overwrite)
  | setHeaderFromLine (line : CString) (mode : Overwrite)
  | parseHTTPHeaders (asserts allowConstCast : Bool) (buffer : Buffer) (behind : List UInt8)

/-- A call that does not return has no outcome. -/
def perform (platform : Platform) (headers : HTTPHeaders) : Call → Option HTTPHeaders
  | .setHeader key value mode => some (headers.setHeader key value mode).2
  | .setHeaderFromLine line mode => (headers.setHeaderFromLine line mode).map Prod.snd
  | .parseHTTPHeaders asserts allowConstCast buffer behind =>
      match parseHTTPHeadersAt platform asserts allowConstCast (some (buffer.bytes ++ behind))
          buffer.bodylen (some headers) with
      | .ok returned => returned.headers
      | .error _ => none

/-- No line break gets to a header in a continuation line. -/
def PlainCall (platform : Platform) (headers : HTTPHeaders) : Call → Prop
  | .setHeader _ _ _ => True
  | .setHeaderFromLine line _ => PlainLine (headers.headers ≠ []) line
  | .parseHTTPHeaders _ _ buffer behind =>
      PlainLines (headers.headers ≠ []) (headerTexts (visits platform true behind buffer.bytes true))

theorem perform_clean_iff {headers after : HTTPHeaders} {call : Call}
    (performed : perform platform headers call = some after) (clean : Clean headers.headers) :
    Clean after.headers ↔ PlainCall platform headers call := by
  cases call with
  | setHeader key value mode =>
      cases performed
      exact iff_of_true (setHeader_clean headers key value mode clean) trivial
  | setHeaderFromLine line mode =>
      obtain ⟨⟨result, after'⟩, set_, same⟩ := Option.map_eq_some_iff.mp performed
      cases same
      exact setHeaderFromLine_clean set_ clean
  | parseHTTPHeaders asserts allowConstCast buffer behind =>
      rw [perform] at performed
      cases result : parseHTTPHeadersAt platform asserts allowConstCast
          (some (buffer.bytes ++ behind)) buffer.bodylen (some headers) with
      | error fault =>
          rw [result] at performed
          cases performed
      | ok returned =>
          rw [result] at performed
          have lines := parseHTTPHeadersAt_headers asserts allowConstCast buffer behind result
          rw [show returned.headers = some after from performed] at lines
          rw [setLinesIn_clean_iff lines.symm]
          exact and_iff_right clean

def withValue (value : String) : HTTPHeaders :=
  { HTTPHeaders.new with headers := [(ascii "A", some (ascii value))] }

end ThreadIpc.HttpUtils
