import ThreadIpc.ConvertUtf.Utf8
import ThreadIpc.HttpUtils.Model
import ThreadIpc.SecurityModel.Model
import ThreadIpc.UrlUtils.Model

/-!
# `ParseDataUrl`

The outputs are given with what they hold before the call. `Base64Decode` rests on code that is not
part of the repository, and writes its output only when it succeeds. The payload has no more units
than an `int` counts, which `String16ToUTF8` is given its length as.
-/

namespace ThreadIpc.UrlUtils.DataUrl

open ConvertUtf
open HttpUtils (isspace)
open SecurityModel (String16 string16 lowerString)

def colon : UInt16 := 58

def comma : UInt16 := 44

def semicolon : UInt16 := 59

def kBase64Tag : String16 := string16 [';', 'b', 'a', 's', 'e', '6', '4']

def kCharsetTag : String16 := string16 ['c', 'h', 'a', 'r', 's', 'e', 't', '=']

def textPlain : String16 := string16 ['t', 'e', 'x', 't', '/', 'p', 'l', 'a', 'i', 'n']

def usAscii : String16 := string16 ['U', 'S', '-', 'A', 'S', 'C', 'I', 'I']

def textSlash : String16 := string16 ['t', 'e', 'x', 't', '/']

def xml : String16 := string16 ['x', 'm', 'l']

/-- What follows the first occurrence. -/
def search (tag : String16) : String16 → Option String16
  | [] => none
  | unit :: rest =>
      if tag.isPrefixOf (unit :: rest) then some ((unit :: rest).drop tag.length)
      else search tag rest

structure Outputs where
  mimeType : String16
  charset : String16
  data : Bytes
  deriving DecidableEq

def readContentType (contentType : String16) (outputs : Outputs) : Outputs :=
  if contentType = [] then outputs
  else
    let type := contentType.takeWhile (· != semicolon)
    let outputs := if type = [] then outputs else { outputs with mimeType := lowerString type }
    match contentType.dropWhile (· != semicolon) with
    | [] => outputs
    | _ :: parameters =>
        match search kCharsetTag parameters with
        | none => outputs
        | some charset => { outputs with charset := charset }

def fallBack (outputs : Outputs) : Outputs where
  mimeType := if outputs.mimeType = [] then textPlain else outputs.mimeType
  charset := if outputs.charset = [] then usAscii else outputs.charset
  data := outputs.data

def isBase64 (contentType : String16) : Bool := (search kBase64Tag contentType).isSome

def preservesSpaces (mimeType : String16) : Bool :=
  mimeType.take 5 == textSlash || (search xml mimeType).isSome

/-- Between the first colon and the comma behind it, and behind that. -/
def parts (url : String16) : Option (String16 × String16) :=
  match url.dropWhile (· != colon) with
  | [] => none
  | _ :: afterColon =>
      match afterColon.dropWhile (· != comma) with
      | [] => none
      | _ :: payload => some (afterColon.takeWhile (· != comma), payload)

/-- `c_str()` ends the payload at its first NUL. -/
def cString16 (text : String16) : String16 := text.takeWhile (· != 0)

def withoutSpaces (bytes : Bytes) : Bytes := bytes.filter (!isspace ·)

def readPayload (base64Decode : Bytes → Option Bytes) (base64Encoded : Bool) (mimeType : String16)
    (payload : String16) : Option Bytes := do
  let tempData ← string16ToUTF8 (cString16 payload)
  let tempData := unescapeURL tempData
  let tempData :=
    if base64Encoded || !preservesSpaces mimeType then withoutSpaces tempData else tempData
  if base64Encoded then base64Decode tempData else some tempData

def parseDataUrl (base64Decode : Bytes → Option Bytes) (url : String16) (outputs : Outputs) :
    Bool × Outputs :=
  match parts url with
  | none => (false, outputs)
  | some (contentType, payload) =>
      let outputs := fallBack (readContentType contentType outputs)
      match readPayload base64Decode (isBase64 contentType) outputs.mimeType payload with
      | none => (false, outputs)
      | some data => (true, { outputs with data := data })

/-!
# The outputs of a failed `ParseDataUrl`

The type and the charset are written while the URL is still being read, and the payload may be
refused after that.
-/

def typeOf (contentType : String16) : String16 := contentType.takeWhile (· != semicolon)

def charsetOf (contentType : String16) : Option String16 :=
  match contentType.dropWhile (· != semicolon) with
  | [] => none
  | _ :: parameters => search kCharsetTag parameters

theorem readContentType_eq (contentType : String16) (outputs : Outputs) :
    readContentType contentType outputs =
      ⟨if typeOf contentType = [] then outputs.mimeType else lowerString (typeOf contentType),
        (charsetOf contentType).getD outputs.charset, outputs.data⟩ := by
  by_cases empty : contentType = []
  · subst empty
    rfl
  · have mimeType : (if typeOf contentType = [] then outputs
        else { outputs with mimeType := lowerString (typeOf contentType) }) =
        ⟨if typeOf contentType = [] then outputs.mimeType else lowerString (typeOf contentType),
          outputs.charset, outputs.data⟩ := by
      split <;> rfl
    simp only [readContentType, if_neg empty]
    rw [← typeOf, mimeType, charsetOf]
    cases contentType.dropWhile (· != semicolon) with
    | nil => rfl
    | cons _ parameters =>
        simp only
        cases search kCharsetTag parameters with
        | none => rfl
        | some charset => rfl

def HasType (contentType : String16) (outputs : Outputs) : Prop :=
  if typeOf contentType = [] then outputs.mimeType ≠ []
  else outputs.mimeType = lowerString (typeOf contentType)

def HasCharset (contentType : String16) (outputs : Outputs) : Prop :=
  match charsetOf contentType with
  | none => outputs.charset ≠ []
  | some charset => outputs.charset = if charset = [] then usAscii else charset

theorem default_eq_iff {text default_ : String16} (nonempty : default_ ≠ []) :
    (if text = [] then default_ else text) = text ↔ text ≠ [] := by
  by_cases empty : text = []
  · rw [if_pos empty, empty]
    exact iff_of_false nonempty fun not_ => not_ rfl
  · rw [if_neg empty]
    exact iff_of_true rfl empty

theorem fallBack_readContentType_iff (contentType : String16) (outputs : Outputs) :
    fallBack (readContentType contentType outputs) = outputs ↔
      HasType contentType outputs ∧ HasCharset contentType outputs := by
  obtain ⟨mimeType, charset, data⟩ := outputs
  have type_ : (if (if typeOf contentType = [] then mimeType else lowerString (typeOf contentType)) =
      [] then textPlain else if typeOf contentType = [] then mimeType
      else lowerString (typeOf contentType)) = mimeType ↔
      HasType contentType ⟨mimeType, charset, data⟩ := by
    rw [HasType]
    by_cases absent : typeOf contentType = []
    · rw [if_pos absent, if_pos absent]
      exact default_eq_iff (by decide)
    · have nonempty : lowerString (typeOf contentType) ≠ [] := fun none_ =>
        absent (List.map_eq_nil_iff.mp none_)
      rw [if_neg absent, if_neg absent, if_neg nonempty]
      exact eq_comm
  have charset_ : (if (charsetOf contentType).getD charset = [] then usAscii
      else (charsetOf contentType).getD charset) = charset ↔
      HasCharset contentType ⟨mimeType, charset, data⟩ := by
    rw [HasCharset]
    cases charsetOf contentType with
    | none => exact default_eq_iff (by decide)
    | some given => exact eq_comm
  rw [readContentType_eq, fallBack, Outputs.mk.injEq, type_, charset_]
  exact ⟨fun all => ⟨all.1, all.2.1⟩, fun both => ⟨both.1, both.2, rfl⟩⟩

structure IsReadable (base64Decode : Bytes → Option Bytes) (contentType payload : String16) : Prop
    where
  paired : isPaired (cString16 payload) = true
  short : (cString16 payload).length ≤ intMax / 4
  decodes : isBase64 contentType = true → ∀ tempData, string16ToUTF8 (cString16 payload) =
    some tempData → base64Decode (withoutSpaces (unescapeURL tempData)) ≠ none

theorem readPayload_isSome_iff (base64Decode : Bytes → Option Bytes)
    (contentType mimeType payload : String16) :
    readPayload base64Decode (isBase64 contentType) mimeType payload ≠ none ↔
      IsReadable base64Decode contentType payload := by
  by_cases converts : isPaired (cString16 payload) = true ∧ (cString16 payload).length ≤ intMax / 4
  · have converted := (string16ToUTF8_eq (cString16 payload)).trans (if_pos converts)
    cases marked : isBase64 contentType with
    | false =>
        rw [readPayload, converted]
        refine iff_of_true (fun none_ => by cases none_) ⟨converts.1, converts.2, fun base64 => ?_⟩
        rw [marked] at base64
        cases base64
    | true =>
        simp only [readPayload, converted, Option.bind_eq_bind, Option.bind_some, Bool.true_or,
          if_true]
        constructor
        · refine fun decodes => ⟨converts.1, converts.2, fun _ tempData same => ?_⟩
          cases converted.symm.trans same
          exact decodes
        · exact fun readable => readable.decodes marked _ converted
  · have refused := (string16ToUTF8_eq (cString16 payload)).trans (if_neg converts)
    rw [readPayload, refused]
    exact iff_of_false (fun some_ => some_ rfl) fun readable =>
      converts ⟨readable.paired, readable.short⟩

def LeavesOutputsAlone (base64Decode : Bytes → Option Bytes) (url : String16) (outputs : Outputs) :
    Prop :=
  (parseDataUrl base64Decode url outputs).1 = false →
    (parseDataUrl base64Decode url outputs).2 = outputs

theorem leavesOutputsAlone_iff (base64Decode : Bytes → Option Bytes) (url : String16)
    (outputs : Outputs) : LeavesOutputsAlone base64Decode url outputs ↔
      ∀ contentType payload, parts url = some (contentType, payload) →
        IsReadable base64Decode contentType payload ∨
          HasType contentType outputs ∧ HasCharset contentType outputs := by
  rw [LeavesOutputsAlone, parseDataUrl]
  cases found : parts url with
  | none => exact iff_of_true (fun _ => rfl) fun _ _ none_ => by cases none_
  | some both =>
      obtain ⟨contentType, payload⟩ := both
      have readable := readPayload_isSome_iff base64Decode contentType
        (fallBack (readContentType contentType outputs)).mimeType payload
      simp only
      cases read : readPayload base64Decode (isBase64 contentType)
          (fallBack (readContentType contentType outputs)).mimeType payload with
      | none =>
          have refused : ¬ IsReadable base64Decode contentType payload :=
            fun readable_ => readable.mpr readable_ read
          have agree := fallBack_readContentType_iff contentType outputs
          constructor
          · intro alone contentType' payload' same
            cases same
            exact .inr (agree.mp (alone rfl))
          · exact fun agrees _ => agree.mpr ((agrees contentType payload rfl).resolve_left refused)
      | some data =>
          have accepted : IsReadable base64Decode contentType payload :=
            readable.mp fun none_ => by cases read.symm.trans none_
          refine iff_of_true (fun failed => by cases failed) fun contentType' payload' same => ?_
          cases same
          exact .inl accepted

def brokenUrl : String16 :=
  string16 ['d', 'a', 't', 'a', ':', 'i', 'm', 'a', 'g', 'e', '/', 'p', 'n', 'g', ';', 'b', 'a',
    's', 'e', '6', '4', ',', '!']

theorem charset_written_before_failure :
    ¬ LeavesOutputsAlone (fun _ => none) brokenUrl ⟨[], [], []⟩ := by
  intro alone
  have failed : (parseDataUrl (fun _ => none) brokenUrl ⟨[], [], []⟩).1 = false := by decide +kernel
  have written : (parseDataUrl (fun _ => none) brokenUrl ⟨[], [], []⟩).2.charset = usAscii := by
    decide +kernel
  rw [alone failed] at written
  cases written

end ThreadIpc.UrlUtils.DataUrl
