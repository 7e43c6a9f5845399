import ThreadIpc.Lib.Delimited
import ThreadIpc.UrlUtils.DataUrl

/-!
# The data URLs that `ParseDataUrl` takes apart as they were put together

A charset is taken to reach to the comma, and an output that is not empty is taken to be given.
-/

namespace ThreadIpc.UrlUtils

section Unescape

theorem unescapeLoop_other {c : UInt8} {rest : Bytes}
    (noEscape : ∀ m l tail, c :: rest = percent :: m :: l :: tail →
      ¬(isHex m = true ∧ isHex l = true)) :
    unescapeLoop false (c :: rest) = c :: unescapeLoop false rest := by
  have same : unescaped false c = c := if_neg fun both => Bool.false_ne_true both.1
  match rest with
  | [] => simp only [unescapeLoop, same]
  | [d] => simp only [unescapeLoop, same]
  | m :: l :: rest =>
      rw [unescapeLoop]
      by_cases escape : c = percent
      · rw [if_pos escape, if_neg (noEscape m l rest (by rw [escape])), escape]
      · rw [if_neg escape, same]

theorem unescapeLoop_short {text : Bytes} (short : text.length < 3) :
    unescapeLoop false text = text := by
  induction text with
  | nil => rw [unescapeLoop]
  | cons c rest ih =>
      have noEscape : ∀ m l tail, c :: rest ≠ percent :: m :: l :: tail := by
        intro m l tail same
        rw [same, List.length_cons, List.length_cons, List.length_cons] at short
        omega
      rw [unescapeLoop_other fun m l tail same => absurd same (noEscape m l tail),
        ih (Nat.lt_of_succ_lt short)]

theorem unescapeURL_eq_loop (text : Bytes) : unescapeURL text = unescapeLoop false text := by
  rw [unescapeURL, unescapeURLImpl]
  split
  · rename_i short
    exact (unescapeLoop_short short.1).symm
  · rfl

theorem unescapeLoop_append_nul (text rest : Bytes) :
    unescapeLoop false (text ++ 0 :: rest) =
      unescapeLoop false text ++ 0 :: unescapeLoop false rest := by
  have zero : isHex 0 = false := by decide
  -- a byte that starts no escape in front of the NUL starts none with it
  have keep {c : UInt8} {text : Bytes}
      (noEscape : ∀ m l tail, c :: text = percent :: m :: l :: tail →
        ¬(isHex m = true ∧ isHex l = true))
      (ih : unescapeLoop false (text ++ 0 :: rest) =
        unescapeLoop false text ++ 0 :: unescapeLoop false rest) :
      unescapeLoop false (c :: (text ++ 0 :: rest)) =
        unescapeLoop false (c :: text) ++ 0 :: unescapeLoop false rest := by
    rw [unescapeLoop_other noEscape, unescapeLoop_other, ih]
    · rfl
    · intro m l tail same hex
      match text, noEscape, same with
      | [], _, same =>
          cases same
          exact absurd hex.1 (Bool.eq_false_iff.mp zero)
      | [d], _, same =>
          cases same
          exact absurd hex.2 (Bool.eq_false_iff.mp zero)
      | m' :: l' :: text, noEscape, same =>
          cases same
          exact noEscape m l text rfl hex
  induction text using unescapeLoop.induct with
  | case1 =>
      rw [unescapeLoop]
      exact unescapeLoop_other fun m l tail same => by cases (List.cons.inj same).1
  | case2 m l text hex ih =>
      simp only [List.cons_append, unescapeLoop, if_pos hex, if_true, ih]
  | case3 m l text noHex ih =>
      apply keep _ ih
      intro m' l' tail same
      cases same
      exact noHex
  | case4 c m l text other ih =>
      apply keep _ ih
      intro m' l' tail same
      exact absurd (List.cons.inj same).1 other
  | case5 c text short ih =>
      apply keep _ ih
      intro m l tail same
      exact absurd (List.cons.inj same).2 (short m l tail)

end Unescape

namespace DataUrl

open ConvertUtf
open HttpUtils (isspace)
open Lib
open SecurityModel (String16 string16 lowerString)

section Search

theorem search_skip {t : UInt16} (tag : String16) {front : String16} (absent : t ∉ front)
    (rest : String16) : search (t :: tag) (front ++ rest) = search (t :: tag) rest := by
  induction front with
  | nil => rfl
  | cons unit front ih =>
      have other : (t :: tag).isPrefixOf (unit :: (front ++ rest)) = false := by
        have apart : (t == unit) = false := beq_false_of_ne fun same =>
          absent (same ▸ List.mem_cons_self)
        rw [List.isPrefixOf_cons_cons, apart, Bool.false_and]
      rw [List.cons_append, search, if_neg (Bool.eq_false_iff.mp other),
        ih fun inFront => absent (List.mem_cons_of_mem _ inFront)]

theorem search_here (t : UInt16) (tag rest : String16) :
    search (t :: tag) (t :: tag ++ rest) = some rest := by
  have found : (t :: tag).isPrefixOf (t :: tag ++ rest) = true :=
    List.isPrefixOf_iff_prefix.mpr (List.prefix_append _ _)
  rw [List.cons_append, search, ← List.cons_append, if_pos found, List.drop_left]

end Search

structure IsPart (text : String16) : Prop where
  nonempty : text ≠ []
  comma : comma ∉ text
  semicolon : semicolon ∉ text

/-- `'data:' [mime] [';charset=' cs] [';base64'] ',' payload`. White space in the payload would
still be there once it is unescaped. -/
structure Form where
  mime : Option String16
  charset : Option String16
  base64 : Bool
  payload : String16
  mime_isPart : ∀ text ∈ mime, IsPart text
  charset_isPart : ∀ text ∈ charset, IsPart text
  ascii : ∀ unit ∈ payload, unit.toNat < 0x80
  unspaced : ∀ c ∈ unescapeURL (narrow payload), isspace c = false

namespace Form

def charsetPart (form : Form) : String16 :=
  match form.charset with
  | none => []
  | some charset => semicolon :: kCharsetTag ++ charset

def base64Part (form : Form) : String16 := if form.base64 then kBase64Tag else []

def contentType (form : Form) : String16 :=
  form.mime.getD [] ++ (form.charsetPart ++ form.base64Part)

def url (form : Form) : String16 :=
  string16 ['d', 'a', 't', 'a', ':'] ++ form.contentType ++ comma :: form.payload

def expectedType (form : Form) : String16 := (form.mime.map lowerString).getD textPlain

def expectedCharset (form : Form) : String16 := form.charset.getD usAscii

def decoded (base64Decode : Bytes → Option Bytes) (form : Form) : Option Bytes :=
  if form.base64 then base64Decode (unescapeURL (narrow form.payload))
  else some (unescapeURL (narrow form.payload))

variable (form : Form)

theorem mime_plain : semicolon ∉ form.mime.getD [] ∧ comma ∉ form.mime.getD [] := by
  cases mime : form.mime with
  | none => exact ⟨List.not_mem_nil, List.not_mem_nil⟩
  | some text =>
      have isPart := form.mime_isPart text mime
      exact ⟨isPart.semicolon, isPart.comma⟩

theorem comma_not_mem_contentType : comma ∉ form.contentType := by
  have charset : comma ∉ form.charsetPart := by
    rw [charsetPart]
    cases given : form.charset with
    | none => exact List.not_mem_nil
    | some text =>
        have tag : comma ∉ semicolon :: kCharsetTag := by decide
        exact fun member => (List.mem_append.mp member).elim tag
          (form.charset_isPart text given).comma
  have base64 : comma ∉ form.base64Part := by
    rw [base64Part]
    cases form.base64 <;> decide
  rw [contentType, List.mem_append, List.mem_append, not_or, not_or]
  exact ⟨form.mime_plain.2, charset, base64⟩

theorem parts_url : parts form.url = some (form.contentType, form.payload) := by
  have scheme : colon ∉ string16 ['d', 'a', 't', 'a'] := by decide
  have front : form.url = string16 ['d', 'a', 't', 'a'] ++
      colon :: (form.contentType ++ comma :: form.payload) := by
    rw [url, List.append_assoc]
    rfl
  simp only [parts, front, dropWhile_delimiter scheme,
    dropWhile_delimiter form.comma_not_mem_contentType,
    takeWhile_delimiter form.comma_not_mem_contentType]

theorem parameters (form : Form) : form.charsetPart ++ form.base64Part = [] ∨
    ∃ rest, form.charsetPart ++ form.base64Part = semicolon :: rest := by
  rw [charsetPart, base64Part]
  cases form.charset with
  | none =>
      cases form.base64 with
      | false => exact .inl rfl
      | true => exact .inr ⟨_, rfl⟩
  | some charset => exact .inr ⟨_, rfl⟩

theorem typeOf_contentType : typeOf form.contentType = form.mime.getD [] := by
  rw [typeOf, contentType]
  obtain nothing | ⟨rest, something⟩ := form.parameters
  · rw [nothing, List.append_nil, List.takeWhile_eq_self_iff]
    exact fun unit inMime => bne_iff_ne.mpr fun same => form.mime_plain.1 (same ▸ inMime)
  · rw [something, takeWhile_delimiter form.mime_plain.1]

theorem charsetOf_contentType :
    charsetOf form.contentType = form.charset.map (· ++ form.base64Part) := by
  have behind : form.contentType.dropWhile (· != semicolon) =
      form.charsetPart ++ form.base64Part := by
    rw [contentType]
    obtain nothing | ⟨rest, something⟩ := form.parameters
    · rw [nothing, List.append_nil, List.dropWhile_eq_nil_iff]
      exact fun unit inMime => bne_iff_ne.mpr fun same => form.mime_plain.1 (same ▸ inMime)
    · rw [something, dropWhile_delimiter form.mime_plain.1]
  rw [charsetOf, behind, charsetPart, base64Part]
  cases form.charset with
  | none => cases form.base64 <;> decide
  | some charset =>
      show search kCharsetTag (kCharsetTag ++ charset ++ if form.base64 then kBase64Tag else []) =
        some (charset ++ if form.base64 then kBase64Tag else [])
      rw [List.append_assoc]
      exact search_here _ _ _

theorem isBase64_contentType : isBase64 form.contentType = form.base64 := by
  have behind : search kBase64Tag form.base64Part = if form.base64 then some [] else none := by
    rw [base64Part]
    cases form.base64 <;> decide
  have whole : search kBase64Tag (form.charsetPart ++ form.base64Part) =
      search kBase64Tag form.base64Part := by
    rw [charsetPart]
    cases given : form.charset with
    | none => rfl
    | some charset =>
        have tag : semicolon ∉ kCharsetTag := by decide
        have absent : semicolon ∉ kCharsetTag ++ charset := fun member =>
          (List.mem_append.mp member).elim tag (form.charset_isPart charset given).semicolon
        exact search_skip _ absent _
  rw [isBase64, contentType]
  have skipped : search kBase64Tag (form.mime.getD [] ++ (form.charsetPart ++ form.base64Part)) =
      search kBase64Tag (form.charsetPart ++ form.base64Part) :=
    search_skip _ form.mime_plain.1 _
  rw [skipped, whole, behind]
  cases form.base64 <;> rfl

/-- What is there already is not mistaken for something that the URL gives, and the payload is read
to its end. -/
structure IsUnambiguous (outputs : Outputs) : Prop where
  mimeType : form.mime = none → outputs.mimeType = [] ∨ outputs.mimeType = textPlain
  charset : form.charset = none → outputs.charset = [] ∨ outputs.charset = usAscii
  apart : form.charset = none ∨ form.base64 = false
  noNul : 0 ∉ form.payload
  short : form.payload.length ≤ intMax / 4

theorem default_eq_default_iff {text default_ : String16} :
    (if text = [] then default_ else text) = default_ ↔ text = [] ∨ text = default_ := by
  by_cases empty : text = []
  · rw [if_pos empty]
    exact iff_of_true rfl (.inl empty)
  · rw [if_neg empty, or_iff_right empty]

theorem mimeType_iff (outputs : Outputs) :
    (fallBack (readContentType form.contentType outputs)).mimeType = form.expectedType ↔
      (form.mime = none → outputs.mimeType = [] ∨ outputs.mimeType = textPlain) := by
  rw [readContentType_eq, typeOf_contentType, fallBack, expectedType]
  cases given : form.mime with
  | none => exact default_eq_default_iff.trans ⟨fun either _ => either, fun either => either rfl⟩
  | some text =>
      have nonempty : text ≠ [] := (form.mime_isPart text given).nonempty
      have lowered : lowerString text ≠ [] := fun none_ => nonempty (List.map_eq_nil_iff.mp none_)
      simp only [Option.getD_some, Option.map_some, if_neg nonempty, if_neg lowered]
      exact iff_of_true trivial fun none_ => by cases none_

theorem charset_iff (outputs : Outputs) :
    (fallBack (readContentType form.contentType outputs)).charset = form.expectedCharset ↔
      (form.charset = none → outputs.charset = [] ∨ outputs.charset = usAscii) ∧
        (form.charset = none ∨ form.base64 = false) := by
  rw [readContentType_eq, charsetOf_contentType, fallBack, expectedCharset]
  cases given : form.charset with
  | none =>
      exact default_eq_default_iff.trans
        ⟨fun either => ⟨fun _ => either, .inl rfl⟩, fun both => both.1 rfl⟩
  | some charset =>
      have nonempty : charset ≠ [] := (form.charset_isPart charset given).nonempty
      have longer : charset ++ form.base64Part ≠ [] := fun none_ =>
        nonempty (List.append_eq_nil_iff.mp none_).1
      simp only [Option.getD_some, Option.map_some, if_neg longer]
      rw [List.append_right_eq_self, base64Part]
      cases form.base64 with
      | false => exact iff_of_true rfl ⟨fun none_ => (by cases none_), .inr rfl⟩
      | true =>
          exact iff_of_false (by decide) fun both => both.2.elim (fun none_ => by cases none_)
            fun unmarked => by cases unmarked

theorem cString16_payload (noNul : 0 ∉ form.payload) : cString16 form.payload = form.payload :=
  List.takeWhile_eq_self_iff.mpr fun _ inPayload =>
    bne_iff_ne.mpr fun same => noNul (same ▸ inPayload)

theorem withoutSpaces_payload :
    withoutSpaces (unescapeURL (narrow form.payload)) = unescapeURL (narrow form.payload) :=
  List.filter_eq_self.mpr fun c member => by rw [form.unspaced c member, Bool.not_false]

theorem readPayload_whole {base64Decode : Bytes → Option Bytes} {data : Bytes}
    (decodes : form.decoded base64Decode = some data) (noNul : 0 ∉ form.payload)
    (mimeType : String16) :
    readPayload base64Decode form.base64 mimeType form.payload = some data ↔
      form.payload.length ≤ intMax / 4 := by
  rw [readPayload, form.cString16_payload noNul, string16ToUTF8_ascii form.ascii]
  by_cases long : intMax / 4 < form.payload.length
  · rw [if_pos long]
    exact iff_of_false (fun none_ => by cases none_) (Nat.not_le.mpr long)
  · rw [if_neg long]
    refine iff_of_true ?_ (Nat.not_lt.mp long)
    simp only [Option.bind_eq_bind, Option.bind_some, form.withoutSpaces_payload, ite_self]
    exact decodes

theorem readPayload_cut {base64Decode : Bytes → Option Bytes} (nul : 0 ∈ form.payload)
    (mimeType : String16) : readPayload base64Decode false mimeType form.payload ≠
      some (unescapeURL (narrow form.payload)) := by
  obtain ⟨front, rest, payload, first⟩ := List.eq_append_cons_of_mem nul
  have cut : cString16 form.payload = front := by
    rw [payload]
    exact takeWhile_delimiter first rest
  have ascii : ∀ unit ∈ front, unit.toNat < 0x80 := fun unit inFront =>
    form.ascii unit (payload ▸ List.mem_append_left _ inFront)
  have whole : unescapeURL (narrow form.payload) =
      unescapeURL (narrow front) ++ 0 :: unescapeURL (narrow rest) := by
    have narrowed : narrow form.payload = narrow front ++ 0 :: narrow rest := by
      rw [payload]
      exact List.map_append
    rw [narrowed, unescapeURL_eq_loop, unescapeURL_eq_loop, unescapeURL_eq_loop,
      unescapeLoop_append_nul]
  intro read
  rw [readPayload, cut, string16ToUTF8_ascii ascii] at read
  by_cases long : intMax / 4 < front.length
  · rw [if_pos long] at read
    cases read
  · rw [if_neg long] at read
    simp only [Option.bind_eq_bind, Option.bind_some, Bool.false_or, Bool.false_eq_true, if_false,
      Option.some.injEq] at read
    have shorter : (withoutSpaces (unescapeURL (narrow front))).length ≤
        (unescapeURL (narrow front)).length := List.length_filter_le _ _
    have lengths := congrArg List.length read
    rw [whole, List.length_append, List.length_cons] at lengths
    split at lengths <;> omega

theorem readPayload_iff {base64Decode : Bytes → Option Bytes}
    (noNul : ∀ text, base64Decode text ≠ none → 0 ∉ text) {data : Bytes}
    (decodes : form.decoded base64Decode = some data) (mimeType : String16) :
    readPayload base64Decode form.base64 mimeType form.payload = some data ↔
      0 ∉ form.payload ∧ form.payload.length ≤ intMax / 4 := by
  by_cases nul : 0 ∈ form.payload
  · refine iff_of_false ?_ fun both => both.1 nul
    rw [decoded] at decodes
    cases marked : form.base64 with
    | false =>
        rw [marked] at decodes
        rw [← decodes]
        exact form.readPayload_cut nul mimeType
    | true =>
        -- in base64 there is no NUL
        rw [marked, if_pos rfl] at decodes
        obtain ⟨front, rest, payload, _⟩ := List.eq_append_cons_of_mem nul
        have narrowed : narrow form.payload = narrow front ++ 0 :: narrow rest := by
          rw [payload]
          exact List.map_append
        have member : 0 ∈ unescapeURL (narrow form.payload) := by
          rw [narrowed, unescapeURL_eq_loop, unescapeLoop_append_nul]
          exact List.mem_append_right _ List.mem_cons_self
        exact absurd member (noNul _ fun none_ => by cases none_.symm.trans decodes)
  · rw [form.readPayload_whole decodes nul]
    exact (and_iff_right nul).symm

end Form

/-- A decoder takes no NUL. -/
theorem parseDataUrl_form_iff (base64Decode : Bytes → Option Bytes)
    (noNul : ∀ text, base64Decode text ≠ none → 0 ∉ text) (form : Form) (data : Bytes)
    (decodes : form.decoded base64Decode = some data) (outputs : Outputs) :
    parseDataUrl base64Decode form.url outputs =
      (true, ⟨form.expectedType, form.expectedCharset, data⟩) ↔ form.IsUnambiguous outputs := by
  let filled := fallBack (readContentType form.contentType outputs)
  have read := form.readPayload_iff noNul decodes filled.mimeType
  have results : parseDataUrl base64Decode form.url outputs =
      (true, ⟨form.expectedType, form.expectedCharset, data⟩) ↔
      readPayload base64Decode form.base64 filled.mimeType form.payload = some data ∧
        filled.mimeType = form.expectedType ∧ filled.charset = form.expectedCharset := by
    rw [parseDataUrl, form.parts_url]
    simp only [form.isBase64_contentType]
    cases readPayload base64Decode form.base64 filled.mimeType form.payload with
    | none => exact iff_of_false (fun same => by cases same) fun both => by cases both.1
    | some data' =>
        rw [Prod.mk.injEq, Outputs.mk.injEq, Option.some.injEq]
        exact ⟨fun all => ⟨all.2.2.2, all.2.1, all.2.2.1⟩, fun all => ⟨rfl, all.2.1, all.2.2, all.1⟩⟩
  rw [results, read, form.mimeType_iff, form.charset_iff]
  constructor
  · rintro ⟨⟨nul, short⟩, type_, charset, apart⟩
    exact ⟨type_, charset, apart, nul, short⟩
  · exact fun plain =>
      ⟨⟨plain.noNul, plain.short⟩, plain.mimeType, plain.charset, plain.apart⟩

def imageForm : Form where
  mime := some (string16 ['I', 'M', 'A', 'G', 'E', '/', 'G', 'I', 'F'])
  charset := none
  base64 := true
  payload := string16 ['Q', 'Q', '=', '=']
  mime_isPart := by
    intro text given
    cases given
    exact ⟨by decide, by decide, by decide⟩
  charset_isPart := by
    intro text given
    cases given
  ascii := List.forall_iff_forall_mem.mp (by decide)
  unspaced := List.forall_iff_forall_mem.mp (by decide)

def oneText (text : Bytes) : Option Bytes :=
  if text = ascii ['Q', 'Q', '=', '='] then some [65] else none

theorem oneText_noNul (text : Bytes) (decodes : oneText text ≠ none) : 0 ∉ text := by
  by_cases same : text = ascii ['Q', 'Q', '=', '=']
  · rw [same]
    decide
  · exact absurd (if_neg same) decodes

theorem parseDataUrl_imageForm : parseDataUrl oneText imageForm.url ⟨[], [], []⟩ =
    (true, ⟨string16 ['i', 'm', 'a', 'g', 'e', '/', 'g', 'i', 'f'], usAscii, [65]⟩) := by
  have decodes : imageForm.decoded oneText = some [65] := by decide
  exact (parseDataUrl_form_iff oneText oneText_noNul imageForm [65] decodes ⟨[], [], []⟩).mpr
    ⟨fun _ => .inl rfl, fun _ => .inl rfl, .inl rfl, by decide, by decide⟩

/-- `data:;charset=utf-8;base64,QQ==` -/
def charsetForm : Form where
  mime := none
  charset := some (string16 ['u', 't', 'f', '-', '8'])
  base64 := true
  payload := string16 ['Q', 'Q', '=', '=']
  mime_isPart := by
    intro text given
    cases given
  charset_isPart := by
    intro text given
    cases given
    exact ⟨by decide, by decide, by decide⟩
  ascii := List.forall_iff_forall_mem.mp (by decide)
  unspaced := List.forall_iff_forall_mem.mp (by decide)

theorem charset_reaches_to_comma : charsetForm.decoded oneText = some [65] ∧
    charsetForm.expectedCharset = string16 ['u', 't', 'f', '-', '8'] ∧
    parseDataUrl oneText charsetForm.url ⟨[], [], []⟩ = (true, ⟨textPlain,
      string16 ['u', 't', 'f', '-', '8', ';', 'b', 'a', 's', 'e', '6', '4'], [65]⟩) :=
  ⟨by decide, by decide, by decide +kernel⟩

end DataUrl

end ThreadIpc.UrlUtils
