import Mathlib.Data.List.Basic
import Mathlib.Data.UInt

/-!
# The strict conversions between UTF-8 and UTF-16

`UTF32` is `Nat`: no sequence that `isLegalUTF8` accepts is smaller than its offset. The length
given to `UTF8ToString16` and `String16ToUTF8` is an `int`; a caller that has a whole text gives its
`size_t`, and `utf8ToString16` and `string16ToUTF8` are for texts whose length is that `int`.
-/

namespace ThreadIpc.ConvertUtf

inductive ConversionResult
  | conversionOK
  | sourceExhausted
  | targetExhausted
  | sourceIllegal
  deriving DecidableEq

/-- With what is left of the source and what was written to the target. -/
structure Conversion (Source Target : Type) where
  result : ConversionResult
  source : List Source
  target : List Target

def put {Source Target : Type} (written : List Target) (room : Nat) (source : List Source)
    (more : Nat → Conversion Source Target) : Conversion Source Target :=
  if room < written.length then ⟨.targetExhausted, source, []⟩
  else
    let after := more (room - written.length)
    { after with target := written ++ after.target }

def isHighSurrogate (ch : Nat) : Bool := 0xD800 ≤ ch && ch ≤ 0xDBFF

def isLowSurrogate (ch : Nat) : Bool := 0xDC00 ≤ ch && ch ≤ 0xDFFF

def fromPair (ch ch2 : Nat) : Nat := (ch - 0xD800) <<< 10 + (ch2 - 0xDC00) + 0x10000

def highSurrogate (ch : Nat) : UInt16 := UInt16.ofNat ((ch - 0x10000) >>> 10 + 0xD800)

def lowSurrogate (ch : Nat) : UInt16 := UInt16.ofNat (((ch - 0x10000) &&& 0x3FF) + 0xDC00)

def firstByteMark : List Nat := [0x00, 0x00, 0xC0, 0xE0, 0xF0, 0xF8, 0xFC]

def writeBytes (bytesToWrite : Nat) : Nat → Nat → List UInt8 → List UInt8
  | 0, _, target => target
  | 1, ch, target => UInt8.ofNat (ch ||| firstByteMark.getD bytesToWrite 0) :: target
  | left + 2, ch, target =>
      writeBytes bytesToWrite (left + 1) (ch >>> 6) (UInt8.ofNat ((ch ||| 0x80) &&& 0xBF) :: target)

def utf8Bytes (ch : Nat) : List UInt8 :=
  if ch < 0x80 then writeBytes 1 1 ch []
  else if ch < 0x800 then writeBytes 2 2 ch []
  else if ch < 0x10000 then writeBytes 3 3 ch []
  else if ch < 0x110000 then writeBytes 4 4 ch []
  else writeBytes 3 3 0xFFFD []

def convertUTF16toUTF8 : List UInt16 → Nat → Conversion UInt16 UInt8
  | [], _ => ⟨.conversionOK, [], []⟩
  | ch :: rest, room =>
      if isHighSurrogate ch.toNat then
        match rest with
        | [] => ⟨.sourceExhausted, ch :: rest, []⟩
        | ch2 :: rest' =>
            if isLowSurrogate ch2.toNat then
              put (utf8Bytes (fromPair ch.toNat ch2.toNat)) room (ch :: rest)
                (convertUTF16toUTF8 rest')
            else ⟨.sourceIllegal, ch :: rest, []⟩
      else if isLowSurrogate ch.toNat then ⟨.sourceIllegal, ch :: rest, []⟩
      else put (utf8Bytes ch.toNat) room (ch :: rest) (convertUTF16toUTF8 rest)

def trailingBytesForUTF8 (c : UInt8) : Nat :=
  if c < 0xC0 then 0
  else if c < 0xE0 then 1
  else if c < 0xF0 then 2
  else if c < 0xF8 then 3
  else if c < 0xFC then 4
  else 5

def offsetsFromUTF8 : List Nat :=
  [0x00000000, 0x00003080, 0x000E2080, 0x03C82080, 0xFA082080, 0x82082080]

def isTrailing (a : UInt8) : Bool := 0x80 ≤ a && a ≤ 0xBF

/-- Behind `0xED` and `0xF4` there is no lower bound. -/
def isSecond (first a : UInt8) : Bool :=
  a ≤ 0xBF &&
    (if first = 0xE0 then 0xA0 ≤ a
    else if first = 0xED then a ≤ 0x9F
    else if first = 0xF0 then 0x90 ≤ a
    else if first = 0xF4 then a ≤ 0x8F
    else 0x80 ≤ a)

def isFirst (first : UInt8) : Bool := !(0x80 ≤ first && first < 0xC2) && first ≤ 0xF4

def isLegalUTF8 : List UInt8 → Bool
  | [a] => isFirst a
  | [a, b] => isSecond a b && isFirst a
  | [a, b, c] => isTrailing c && isSecond a b && isFirst a
  | [a, b, c, d] => isTrailing d && isTrailing c && isSecond a b && isFirst a
  | _ => false

def codePoint (sequence : List UInt8) : Nat :=
  sequence.foldl (fun ch c => ch <<< 6 + c.toNat) 0 - offsetsFromUTF8.getD (sequence.length - 1) 0

def putSequence (sequence : List UInt8) (room : Nat) (source : List UInt8)
    (more : Nat → Conversion UInt8 UInt16) : Conversion UInt8 UInt16 :=
  if isLegalUTF8 sequence then
    let ch := codePoint sequence
    if room = 0 then ⟨.targetExhausted, source, []⟩
    else if ch ≤ 0xFFFF then
      if 0xD800 ≤ ch ∧ ch ≤ 0xDFFF then ⟨.sourceIllegal, source, []⟩
      else put [UInt16.ofNat ch] room source more
    else if 0x10FFFF < ch then ⟨.sourceIllegal, source, []⟩
    else put [highSurrogate ch, lowSurrogate ch] room source more
  else ⟨.sourceIllegal, source, []⟩

def convertUTF8toUTF16 : List UInt8 → Nat → Conversion UInt8 UInt16
  | [], _ => ⟨.conversionOK, [], []⟩
  | a :: rest, room =>
      match trailingBytesForUTF8 a, rest with
      | 0, rest => putSequence [a] room (a :: rest) (convertUTF8toUTF16 rest)
      | 1, b :: rest => putSequence [a, b] room (a :: b :: rest) (convertUTF8toUTF16 rest)
      | 2, b :: c :: rest =>
          putSequence [a, b, c] room (a :: b :: c :: rest) (convertUTF8toUTF16 rest)
      | 3, b :: c :: d :: rest =>
          putSequence [a, b, c, d] room (a :: b :: c :: d :: rest) (convertUTF8toUTF16 rest)
      | 4, b :: c :: d :: e :: rest =>
          putSequence [a, b, c, d, e] room (a :: b :: c :: d :: e :: rest) (convertUTF8toUTF16 rest)
      | 5, b :: c :: d :: e :: f :: rest =>
          putSequence [a, b, c, d, e, f] room (a :: b :: c :: d :: e :: f :: rest)
            (convertUTF8toUTF16 rest)
      | _, rest => ⟨.sourceExhausted, a :: rest, []⟩

def intMax : Nat := 2147483647

/-- What is left in the output when a conversion fails is not used. -/
def string16ToUTF8At (text : List UInt16) (len : Int32) : Option (List UInt8) :=
  if len ≤ 0 then some []
  else if Int32.ofNat (intMax / 4) < len then none
  else
    let converted :=
      convertUTF16toUTF8 (text.take len.toNatClampNeg) (len.toNatClampNeg * 4)
    if converted.result = .conversionOK then some converted.target else none

def utf8ToString16At (text : List UInt8) (len : Int32) : Option (List UInt16) :=
  if len ≤ 0 then some []
  else
    let converted := convertUTF8toUTF16 (text.take len.toNatClampNeg) len.toNatClampNeg
    if converted.result = .conversionOK then some converted.target else none

def string16ToUTF8 (text : List UInt16) : Option (List UInt8) :=
  if text = [] then some []
  else if intMax / 4 < text.length then none
  else
    let converted := convertUTF16toUTF8 text (text.length * 4)
    if converted.result = .conversionOK then some converted.target else none

def utf8ToString16 (text : List UInt8) : Option (List UInt16) :=
  if text = [] then some []
  else
    let converted := convertUTF8toUTF16 text text.length
    if converted.result = .conversionOK then some converted.target else none

theorem toInt_len {size : Nat} (fits : size ≤ intMax) : (Int32.ofNat size).toInt = size :=
  Int32.toInt_ofNat_of_lt (Nat.lt_succ_of_le fits)

theorem len_le_zero_iff {size : Nat} (fits : size ≤ intMax) : Int32.ofNat size ≤ 0 ↔ size = 0 := by
  rw [Int32.le_iff_toInt_le, toInt_len fits, Int32.toInt_zero]
  omega

theorem toNat_len {size : Nat} (fits : size ≤ intMax) : (Int32.ofNat size).toNatClampNeg = size := by
  rw [Int32.toNatClampNeg, toInt_len fits, Int.toNat_natCast]

theorem utf8ToString16At_eq {text : List UInt8} {len : Int32} (inside : len.toInt ≤ text.length) :
    utf8ToString16At text len = utf8ToString16 (text.take len.toNatClampNeg) := by
  have length : (text.take len.toNatClampNeg).length = len.toNatClampNeg := by
    rw [List.length_take, Int32.toNatClampNeg]
    omega
  have empty : len ≤ 0 ↔ text.take len.toNatClampNeg = [] := by
    rw [← List.length_eq_zero_iff, length, Int32.le_iff_toInt_le, Int32.toInt_zero,
      Int32.toNatClampNeg]
    omega
  simp only [utf8ToString16At, utf8ToString16, empty, length]

theorem utf8ToString16At_whole {text : List UInt8} (fits : text.length ≤ intMax) :
    utf8ToString16At text (Int32.ofNat text.length) = utf8ToString16 text := by
  rw [utf8ToString16At_eq (toInt_len fits).le, toNat_len fits, List.take_length]

theorem string16ToUTF8At_whole {text : List UInt16} (fits : text.length ≤ intMax) :
    string16ToUTF8At text (Int32.ofNat text.length) = string16ToUTF8 text := by
  have long : Int32.ofNat (intMax / 4) < Int32.ofNat text.length ↔ intMax / 4 < text.length := by
    rw [Int32.lt_iff_toInt_lt, toInt_len fits, toInt_len (Nat.div_le_self _ _)]
    omega
  simp only [string16ToUTF8At, string16ToUTF8, len_le_zero_iff fits, toNat_len fits, long,
    List.take_length, List.length_eq_zero_iff]

end ThreadIpc.ConvertUtf
