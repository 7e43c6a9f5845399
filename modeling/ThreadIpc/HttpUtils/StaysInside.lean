import ThreadIpc.HttpUtils.Visits

/-!
# When `ParseHTTPHeaders` stays in its buffer

The memory is the buffer here, so that a call that looks behind it does not return. Only `strtol`
does, in a line that is taken for a status line. What else keeps a call from returning is a NULL
value that a continuation line is appended to, and lengths that do not fit an `int`.
-/

namespace ThreadIpc.HttpUtils

variable {platform : Platform}

def StaysInside (platform : Platform) (asserts allowConstCast : Bool) (buffer : Buffer)
    (headers : Option HTTPHeaders) : Prop :=
  ∃ returned, parseHTTPHeadersAt platform asserts allowConstCast (some buffer.bytes) buffer.bodylen
    headers = .ok returned ∧ returned.IsSuffix buffer.bytes.length

structure Harmless (asserts : Bool) (contentlen : Nat) (list : Option KeyValueList)
    (lines : List Visit) : Prop where
  numbers : ∀ text after, .status text after ∈ lines → runsOff text after = false
  lengths : list ≠ none → ∀ text after, .status text after ∈ lines →
    goodFirstLine text after = true → text.length < 2147483648
  values : ∀ stored, list = some stored → setLinesIn stored (headerTexts lines) ≠ none
  sizes : asserts = true → ∀ body, .blank body ∈ lines →
    contentlen < 2147483648 ∨ 2147483648 ≤ contentlen - body.length

section Harmless

variable {asserts : Bool} {contentlen : Nat} {list : Option KeyValueList} {lines : List Visit}

theorem harmless_status_iff {text after : List UInt8} :
    Harmless asserts contentlen list (.status text after :: lines) ↔
      runsOff text after = false ∧
        (list ≠ none → goodFirstLine text after = true → text.length < 2147483648) ∧
          Harmless asserts contentlen list lines := by
  constructor
  · intro harmless
    refine ⟨harmless.numbers text after List.mem_cons_self,
      fun some_ => harmless.lengths some_ text after List.mem_cons_self, ?_, ?_, ?_, ?_⟩
    · exact fun text after member => harmless.numbers text after (List.mem_cons_of_mem _ member)
    · exact fun some_ text after member =>
        harmless.lengths some_ text after (List.mem_cons_of_mem _ member)
    · exact harmless.values
    · exact fun on body member => harmless.sizes on body (List.mem_cons_of_mem _ member)
  · rintro ⟨stays, short, harmless⟩
    constructor
    · intro text' after' member
      rcases List.mem_cons.mp member with same | later
      · cases same
        exact stays
      · exact harmless.numbers text' after' later
    · intro some_ text' after' member
      rcases List.mem_cons.mp member with same | later
      · cases same
        exact short some_
      · exact harmless.lengths some_ text' after' later
    · exact harmless.values
    · intro on body member
      rcases List.mem_cons.mp member with same | later
      · cases same
      · exact harmless.sizes on body later

theorem harmless_header_iff {text : List UInt8} :
    Harmless asserts contentlen list (.header text :: lines) ↔
      (∀ stored, list = some stored → setLineIn stored (cString text) ≠ none) ∧
        Harmless asserts contentlen (list.bind fun list => setLineIn list (cString text)) lines := by
  have behind {visit : Visit} (member : visit ∈ lines) : visit ∈ .header text :: lines :=
    List.mem_cons_of_mem _ member
  have later {visit : Visit} (member : visit ∈ .header text :: lines)
      (other : ∀ text', visit ≠ .header text') : visit ∈ lines :=
    (List.mem_cons.mp member).resolve_left (other text)
  constructor
  · intro harmless
    refine ⟨fun stored some_ none_ => harmless.values stored some_ ?_, ?_, ?_, ?_, ?_⟩
    · rw [headerTexts, setLinesIn_cons, none_, Option.bind_none]
    · exact fun text after member => harmless.numbers text after (behind member)
    · refine fun some_ text after member => harmless.lengths (fun none_ => some_ ?_) text after
        (behind member)
      rw [none_, Option.bind_none]
    · intro stored' some_' none_
      obtain ⟨stored, some_, line⟩ := Option.bind_eq_some_iff.mp some_'
      apply harmless.values stored some_
      rw [headerTexts, setLinesIn_cons, line, Option.bind_some, none_]
    · exact fun on body member => harmless.sizes on body (behind member)
  · rintro ⟨value, harmless⟩
    refine ⟨fun text after member => harmless.numbers text after (later member (by simp)), ?_, ?_,
      fun on body member => harmless.sizes on body (later member (by simp))⟩
    · refine fun some_ text' after member => harmless.lengths (fun none_ => ?_) text' after
        (later member (by simp))
      obtain ⟨stored, some_⟩ := Option.ne_none_iff_exists'.mp some_
      rw [some_, Option.bind_some] at none_
      exact value stored some_ none_
    · intro stored some_ none_
      obtain ⟨stored', line⟩ := Option.ne_none_iff_exists'.mp (value stored some_)
      rw [headerTexts, setLinesIn_cons, line, Option.bind_some] at none_
      exact harmless.values stored' (by rw [some_, Option.bind_some, line]) none_

theorem harmless_blank_iff {body : List UInt8} :
    Harmless asserts contentlen list [.blank body] ↔
      (asserts = true → contentlen < 2147483648 ∨ 2147483648 ≤ contentlen - body.length) := by
  constructor
  · exact fun harmless on => harmless.sizes on body List.mem_cons_self
  · intro fits
    refine ⟨by simp, by simp, fun _ _ none_ => (by cases none_), fun on body' member => ?_⟩
    cases List.mem_singleton.mp member
    exact fits on

theorem harmless_statusLines (refused : ∀ visit ∈ lines, ∃ text after, visit = .status text after ∧
    runsOff text after = false ∧ goodFirstLine text after = false) :
    Harmless asserts contentlen list lines := by
  induction lines with
  | nil => exact ⟨by simp, by simp, fun _ _ none_ => (by cases none_), by simp⟩
  | cons visit lines ih =>
      obtain ⟨text, after, same, stays, bad⟩ := refused visit List.mem_cons_self
      subst same
      refine harmless_status_iff.mpr ⟨stays, fun _ good => ?_, ih fun visit member =>
        refused visit (List.mem_cons_of_mem _ member)⟩
      rw [bad] at good
      cases good

end Harmless

theorem not_returned {fault : Fault} {P : Returned → Prop} :
    ¬ ∃ returned, (.error fault : Except Fault Returned) = .ok returned ∧ P returned := by
  rintro ⟨_, failed, _⟩
  cases failed

section Blank

theorem toInt_le_iff {body contentlen : Nat} (within : body ≤ contentlen)
    (room : contentlen < 4294967296) :
    toInt body ≤ toInt contentlen ↔ contentlen < 2147483648 ∨ 2147483648 ≤ body := by
  rw [toInt_eq, toInt_eq]
  split <;> split <;> omega

theorem toUint32_difference {body contentlen : Nat} (within : body ≤ contentlen)
    (room : contentlen < 4294967296) :
    toUint32 (contentlen - toInt body) = contentlen - body := by
  rw [toUint32, toInt_eq]
  split <;> omega

theorem atBlank_ok_iff {asserts : Bool} {contentlen body : Nat} {headers : Option HTTPHeaders}
    {memory : List UInt8} (within : body ≤ contentlen) (room : contentlen < 4294967296) :
    (∃ returned, atBlank asserts contentlen body headers memory = .ok returned ∧
      returned.IsSuffix contentlen) ↔
        (asserts = true → contentlen < 2147483648 ∨ 2147483648 ≤ body) := by
  rw [← toInt_le_iff within room, atBlank, CHECK]
  have suffix : body + toUint32 (contentlen - toInt body) = contentlen := by
    rw [toUint32_difference within room]
    omega
  by_cases fits : toInt body ≤ toInt contentlen
  · rw [decide_eq_true fits, Bool.not_true, Bool.and_false]
    exact iff_of_true ⟨_, rfl, suffix⟩ fun _ => fits
  · rw [decide_eq_false fits, Bool.not_false, Bool.and_true]
    cases asserts with
    | true => exact iff_of_false not_returned fun holds => fits (holds rfl)
    | false => exact iff_of_true ⟨_, rfl, suffix⟩ fun on => by cases on

end Blank

theorem next_list {list list' : Option KeyValueList} {line : CString}
    (after : (list.map fun list => setLineIn list line) = list'.map some) :
    (list.bind fun list => setLineIn list line) = list' ∧
      ∀ stored, list = some stored → setLineIn stored line ≠ none := by
  cases list with
  | none => exact ⟨(Option.map_eq_none_iff.mp after.symm).symm, fun _ none_ => by cases none_⟩
  | some stored =>
      obtain ⟨stored', same, result⟩ := Option.map_eq_some_iff.mp after.symm
      refine ⟨result.symm.trans same.symm, fun stored some_ => ?_⟩
      cases some_
      exact fun none_ => by cases result.trans none_

theorem parseLoop_ok_iff {content : List UInt8} (behind : List UInt8)
    (room : content.length < 4294967296) (asserts allowConstCast : Bool) (line numHeaders : Nat)
    (headers : Option HTTPHeaders) :
    (∃ returned, parseLoop platform asserts allowConstCast content.length (content ++ behind) line
      numHeaders headers = .ok returned ∧ returned.IsSuffix content.length) ↔
        Harmless asserts content.length (listOf headers)
          (visits platform headers.isSome behind (content.drop line) (numHeaders = 0)) := by
  induction left : content.length - line using Nat.strong_induction_on
    generalizing line numHeaders headers with
  | _ left_ ih =>
      have turn := @parseLoop_turn platform content behind room asserts allowConstCast line numHeaders
        headers
      generalize parseLoop platform asserts allowConstCast content.length (content ++ behind) line
        numHeaders headers = outcome at turn ⊢
      generalize visits platform headers.isSome behind (content.drop line) (numHeaders = 0) = lines
        at turn ⊢
      cases turn with
      | done _ suffix refused =>
          exact iff_of_true ⟨_, rfl, suffix⟩ (harmless_statusLines refused)
      | blank within =>
          rw [atBlank_ok_iff within room, harmless_blank_iff, List.length_drop,
            Nat.sub_sub_self within]
      | runsOff runs =>
          refine iff_of_false not_returned fun harmless => ?_
          have stays := (harmless_status_iff.mp harmless).1
          rw [runs] at stays
          cases stays
      | tooLong good some_ long =>
          refine iff_of_false not_returned fun harmless => ?_
          have short := (harmless_status_iff.mp harmless).2.1
            (fun none_ => some_ (Option.map_eq_none_iff.mp none_)) good
          omega
      | status stays short same shorter =>
          rw [harmless_status_iff, ih _ (by omega) _ _ _ rfl, same]
          refine ⟨fun harmless => ⟨stays, fun some_ _ => short fun none_ => some_ ?_, harmless⟩,
            fun all => all.2.2⟩
          rw [none_]
          rfl
      | nullValue some_ failed =>
          refine iff_of_false not_returned fun harmless => ?_
          exact (harmless_header_iff.mp harmless).1 _ (congrArg listOf some_) failed
      | header after shorter =>
          obtain ⟨next, value⟩ := next_list after
          rw [harmless_header_iff, ih _ (by omega) _ _ _ rfl, next]
          exact (and_iff_right value).symm

def shortBuffer : Buffer := ⟨[97, space, cr, lf], by decide⟩

end ThreadIpc.HttpUtils
