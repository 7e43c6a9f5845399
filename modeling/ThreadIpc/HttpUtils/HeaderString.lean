import ThreadIpc.ConvertUtf.Utf8
import ThreadIpc.HttpUtils.Model

/-!
# `GenerateHeaderString`

The conversions are given the header's own pointers, so that what they leave of the source is what
the header holds afterwards. The string is as long as the headers have bytes, which may be more
than they have characters.
-/

namespace ThreadIpc.HttpUtils

open ConvertUtf

namespace HTTPHeaders

def getHeader (headers : HTTPHeaders) (header : CString) : Option CString :=
  (headers.headers.find? fun key => strcasecmp key.1 header).bind Prod.snd

/-- `strlen` of a NULL pointer has no outcome. -/
def totalSize : KeyValueList → Option Nat
  | [] => some 2
  | (_, none) :: _ => none
  | (first, some second) :: rest =>
      (totalSize rest).map fun size => first.length + second.length + 4 + size

def utf8ToUtf16Checked (size : Nat) (src : CString) (written : List UInt16) :
    Bool × CString × List UInt16 :=
  let converted := convertUTF8toUTF16 src (size - written.length)
  (converted.result = .conversionOK, converted.source, written ++ converted.target)

/-- A write behind the end of the string has no outcome. -/
def writeUnits (size : Nat) (written units : List UInt16) : Option (List UInt16) :=
  if written.length + units.length ≤ size then some (written ++ units) else none

def crlfUnits : List UInt16 := [13, 10]

def separator : List UInt16 := [58, 32]

def writeHeaders (size : Nat) : KeyValueList → List UInt16 →
    Option (Bool × KeyValueList × List UInt16)
  | [], written => some (true, [], written)
  | (_, none) :: _, _ => none
  | (first, some second) :: rest, written =>
      match utf8ToUtf16Checked size first written with
      | (false, first, written) => some (false, (first, some second) :: rest, written)
      | (true, first, written) => do
          let written ← writeUnits size written separator
          match utf8ToUtf16Checked size second written with
          | (false, second, written) => some (false, (first, some second) :: rest, written)
          | (true, second, written) =>
              let written ← writeUnits size written crlfUnits
              let (success, rest, written) ← writeHeaders size rest written
              some (success, (first, some second) :: rest, written)

structure Generated where
  success : Bool
  object : HTTPHeaders
  headers : List UInt16

def overNuls (size : Nat) (written : List UInt16) : List UInt16 :=
  written ++ List.replicate (size - written.length) 0

def generateHeaderString (headers : HTTPHeaders) : Option Generated := do
  let size ← totalSize headers.headers
  let (success, list, written) ← writeHeaders size headers.headers []
  let object := { headers with headers := list }
  if success then
    let written ← writeUnits size written crlfUnits
    some ⟨true, object, overNuls size written⟩
  else some ⟨false, object, overNuls size written⟩

end HTTPHeaders

structure Text where
  characters : List Char
  terminated : '\x00' ∉ characters

namespace Text

def bytes (text : Text) : CString := utf8 text.characters

def units (text : Text) : List UInt16 := utf16 text.characters

end Text

abbrev Stored := List (Text × Text)

namespace Stored

def list (stored : Stored) : KeyValueList :=
  stored.map fun header => (header.1.bytes, some header.2.bytes)

def line (header : Text × Text) : List UInt16 :=
  header.1.units ++ HTTPHeaders.separator ++ header.2.units ++ HTTPHeaders.crlfUnits

def lines (stored : Stored) : List UInt16 := stored.flatMap line

def emptied (stored : Stored) : KeyValueList := stored.map fun _ => ([], some [])

def byteCount (stored : Stored) : Nat :=
  (stored.map fun header => header.1.bytes.length + header.2.bytes.length + 4).sum

end Stored

open HTTPHeaders Stored

theorem totalSize_list (stored : Stored) : totalSize (list stored) = some (byteCount stored + 2) := by
  induction stored with
  | nil => rfl
  | cons header rest ih =>
      have step : totalSize (list (header :: rest)) = (totalSize (list rest)).map fun size =>
          header.1.bytes.length + header.2.bytes.length + 4 + size := rfl
      rw [step, ih, Option.map_some, byteCount, byteCount, List.map_cons, List.sum_cons, Nat.add_assoc]
      exact congrArg some (Nat.add_assoc _ _ _).symm

theorem line_length_le (header : Text × Text) :
    (line header).length ≤ header.1.bytes.length + header.2.bytes.length + 4 := by
  have name := utf16_length_le header.1.characters
  have value := utf16_length_le header.2.characters
  simp only [line, Text.units, Text.bytes, separator, crlfUnits, List.length_append,
    List.length_cons, List.length_nil]
  omega

theorem lines_length_le (stored : Stored) : (lines stored).length ≤ byteCount stored := by
  induction stored with
  | nil => exact Nat.le_refl 0
  | cons header rest ih =>
      have first := line_length_le header
      simp only [lines, byteCount, List.flatMap_cons, List.map_cons, List.sum_cons,
        List.length_append] at ih ⊢
      omega

theorem utf8ToUtf16Checked_text (text : Text) {size : Nat} {written : List UInt16}
    (enough : written.length + text.units.length ≤ size) :
    utf8ToUtf16Checked size text.bytes written = (true, [], written ++ text.units) := by
  rw [utf8ToUtf16Checked, Text.bytes,
    convertUTF8toUTF16_utf8 text.characters (Nat.le_sub_of_add_le' enough)]
  rfl

theorem writeUnits_enough {size : Nat} {written units : List UInt16}
    (enough : written.length + units.length ≤ size) :
    writeUnits size written units = some (written ++ units) := if_pos enough

theorem writeHeaders_list (stored : Stored) {size : Nat} {written : List UInt16}
    (enough : written.length + (lines stored).length ≤ size) :
    writeHeaders size (list stored) written =
      some (true, emptied stored, written ++ lines stored) := by
  induction stored generalizing written with
  | nil =>
      rw [lines, List.flatMap_nil, List.append_nil]
      rfl
  | cons header rest ih =>
      have parts : written.length + (header.1.units.length + separator.length +
          header.2.units.length + crlfUnits.length + (lines rest).length) ≤ size := by
        simpa only [lines, line, List.flatMap_cons, List.length_append, Nat.add_assoc] using enough
      have behind : writeHeaders size (list rest) (written ++ line header) =
          some (true, emptied rest, written ++ line header ++ lines rest) := by
        apply ih
        simp only [line, List.length_append]
        omega
      have name : utf8ToUtf16Checked size header.1.bytes written = _ :=
        utf8ToUtf16Checked_text header.1 (by omega)
      have separator_ : writeUnits size (written ++ header.1.units) separator = _ :=
        writeUnits_enough (by rw [List.length_append]; omega)
      have value : utf8ToUtf16Checked size header.2.bytes (written ++ header.1.units ++ separator) =
          _ := utf8ToUtf16Checked_text header.2 (by simp only [List.length_append]; omega)
      have crlf_ : writeUnits size (written ++ header.1.units ++ separator ++ header.2.units)
          crlfUnits = _ := writeUnits_enough (by simp only [List.length_append]; omega)
      have whole : written ++ header.1.units ++ separator ++ header.2.units ++ crlfUnits =
          written ++ line header := by
        simp only [line, List.append_assoc]
      have step : writeHeaders size (list (header :: rest)) written =
          some (true, ([], some []) :: emptied rest, written ++ line header ++ lines rest) := by
        rw [list, List.map_cons, ← list]
        simp only [writeHeaders, name, separator_, value, crlf_, whole, behind,
          Option.bind_eq_bind, Option.bind_some]
      have lines_ : lines (header :: rest) = line header ++ lines rest := List.flatMap_cons
      rw [step, lines_, ← List.append_assoc]
      rfl

theorem generateHeaderString_list {headers : HTTPHeaders} {stored : Stored}
    (holds : headers.headers = list stored) :
    headers.generateHeaderString = some ⟨true, { headers with headers := emptied stored },
      lines stored ++ crlfUnits ++ List.replicate (byteCount stored - (lines stored).length) 0⟩ := by
  have shorter := lines_length_le stored
  have two : crlfUnits.length = 2 := rfl
  have loop : writeHeaders (byteCount stored + 2) (list stored) [] =
      some (true, emptied stored, [] ++ lines stored) :=
    writeHeaders_list stored (by rw [List.length_nil]; omega)
  have last : writeUnits (byteCount stored + 2) ([] ++ lines stored) crlfUnits = _ :=
    writeUnits_enough (by rw [List.nil_append]; omega)
  simp only [generateHeaderString, holds, totalSize_list, loop, last, Option.bind_eq_bind,
    Option.bind_some, if_true]
  rw [overNuls, List.nil_append, List.length_append, two, Nat.add_sub_add_right]

/-- The string is the header lines and an empty line, and afterwards the headers are what they were,
so that everything that is asked of them comes out as before. -/
structure PurelyGenerated (headers : HTTPHeaders) (stored : Stored) (generated : Generated) :
    Prop where
  unchanged : generated.object = headers
  again : generated.object.generateHeaderString.map Generated.headers = some generated.headers
  values : ∀ header, generated.object.getHeader header = headers.getHeader header
  string : generated.headers = lines stored ++ crlfUnits

def withStored (headers : HTTPHeaders) (stored : Stored) : HTTPHeaders :=
  { headers with headers := list stored }

def GeneratesPurely (headers : HTTPHeaders) (stored : Stored) : Prop :=
  ∃ generated, (withStored headers stored).generateHeaderString = some generated ∧
    PurelyGenerated (withStored headers stored) stored generated

theorem Text.bytes_eq_nil {text : Text} (nothing : text.bytes = []) : text.characters = [] := by
  cases characters : text.characters with
  | nil => rfl
  | cons c rest =>
      rw [Text.bytes, utf8, characters, List.flatMap_cons, List.append_eq_nil_iff] at nothing
      exact absurd nothing.1 String.utf8EncodeChar_ne_nil

theorem list_eq_emptied_iff (stored : Stored) : emptied stored = list stored ↔
    ∀ header ∈ stored, header.1.characters = [] ∧ header.2.characters = [] := by
  rw [emptied, list, List.map_inj_left]
  refine forall_congr' fun header => forall_congr' fun _ => ⟨fun same => ?_, fun both => ?_⟩
  · have name : [] = header.1.bytes := congrArg Prod.fst same
    have value : some [] = some header.2.bytes := congrArg Prod.snd same
    exact ⟨Text.bytes_eq_nil name.symm, Text.bytes_eq_nil (Option.some.inj value).symm⟩
  · rw [Text.bytes, Text.bytes, both.1, both.2]
    rfl

theorem lines_length_empty {stored : Stored} (empty : ∀ header ∈ stored,
    header.1.characters = [] ∧ header.2.characters = []) :
    byteCount stored = (lines stored).length := by
  induction stored with
  | nil => rfl
  | cons header rest ih =>
      obtain ⟨name, value⟩ := empty header List.mem_cons_self
      have behind := ih fun header inRest => empty header (List.mem_cons_of_mem _ inRest)
      simp only [byteCount, lines, List.map_cons, List.sum_cons, List.flatMap_cons,
        List.length_append] at behind ⊢
      rw [behind, line, Text.bytes, Text.bytes, Text.units, Text.units, name, value]
      rfl

theorem generatesPurely_iff (headers : HTTPHeaders) (stored : Stored) :
    GeneratesPurely headers stored ↔
      ∀ header ∈ stored, header.1.characters = [] ∧ header.2.characters = [] := by
  have result := @generateHeaderString_list (withStored headers stored) stored rfl
  constructor
  · rintro ⟨generated, returned, pure⟩
    rw [result] at returned
    cases returned
    exact (list_eq_emptied_iff stored).mp (congrArg HTTPHeaders.headers pure.unchanged)
  · intro empty
    have same : { withStored headers stored with headers := emptied stored } =
        withStored headers stored := by
      rw [(list_eq_emptied_iff stored).mpr empty]
      rfl
    rw [same, lines_length_empty empty, Nat.sub_self, List.replicate_zero, List.append_nil] at result
    refine ⟨_, result, ⟨rfl, ?_, fun _ => rfl, rfl⟩⟩
    exact congrArg (Option.map Generated.headers) result

def oneHeader : Stored :=
  [(⟨['A'], by decide⟩, ⟨['1'], by decide⟩)]

theorem headers_used_up : ¬ GeneratesPurely .new oneHeader := by
  rintro ⟨generated, returned, pure⟩
  have before : (withStored .new oneHeader).getHeader (ascii "A") = some (ascii "1") := by
    decide +kernel
  have after : (withStored .new oneHeader).generateHeaderString.map
      (fun generated => generated.object.getHeader (ascii "A")) = some none := by
    decide +kernel
  rw [returned, Option.map_some, pure.values, before] at after
  cases after

end ThreadIpc.HttpUtils
