import ThreadIpc.Lib.Memory
import ThreadIpc.Lib.Signed
import Mathlib.Data.UInt
import Mathlib.Data.Vector.Defs

/-!
# Functions of `string_utils` and `string16`

They are templates over the character type. A character is looked at as the `int` that it is
promoted to. `none` is undefined behaviour: a look outside the memory that is given, or a signed
overflow.
-/

namespace ThreadIpc.StringUtils

open Lib

class CharT (α : Type) where
  toInt : α → Int
  ofInt : Int → α
  ofInt_toInt : ∀ c, ofInt (toInt c) = c
  toInt_ofInt : ∀ {n}, 0 ≤ n → n < 128 → toInt (ofInt n) = n

/-- `char` where it is signed. -/
instance : CharT Int8 where
  toInt := Int8.toInt
  ofInt := Int8.ofInt
  ofInt_toInt := Int8.ofInt_toInt
  toInt_ofInt low high := Int8.toInt_ofInt_of_le (by omega) (by omega)

/-- `char` where it is not. -/
instance : CharT UInt8 where
  toInt c := c.toNat
  ofInt n := UInt8.ofNat n.toNat
  ofInt_toInt _ := UInt8.ofNat_toNat
  toInt_ofInt low high := by
    rw [UInt8.toNat_ofNat']
    omega

instance : CharT UInt16 where
  toInt c := c.toNat
  ofInt n := UInt16.ofNat n.toNat
  ofInt_toInt _ := UInt16.ofNat_toNat
  toInt_ofInt low high := by
    rw [UInt16.toNat_ofNat']
    omega

def code (literal : Char) : Int := literal.toNat

/-- In the C locale, which leaves alone what is no letter of ASCII. -/
def toupper (c : Int) : Int := if code 'a' ≤ c ∧ c ≤ code 'z' then c - 32 else c

def tolower (c : Int) : Int := if code 'A' ≤ c ∧ c ≤ code 'Z' then c + 32 else c

section Buffer

variable {α : Type} {memory : List α} {start len pointer : Nat} {c : α}

def readIn (memory : List α) (start len pointer : Nat) : Option α :=
  if start ≤ pointer ∧ pointer < start + len then memory[pointer]? else none

theorem readIn_some (read : readIn memory start len pointer = some c) : pointer < start + len := by
  rw [readIn] at read
  split at read
  · rename_i inside
    exact inside.2
  · cases read

end Buffer

variable {α : Type} [CharT α]

open CharT

theorem toInt_injective : Function.Injective (toInt : α → Int) :=
  Function.LeftInverse.injective ofInt_toInt

structure CString (α : Type) [CharT α] where
  chars : List α
  noNul : ∀ c ∈ chars, toInt c ≠ 0

def starLoop (StringMatch : List α → Bool) (pattern : α) : List α → Bool
  | [] => false
  | t :: target =>
      (toupper (toInt pattern) == toupper (toInt t) && StringMatch target) ||
        starLoop StringMatch pattern target

/-- No character of a pattern is the NUL, which is what there is at the end of `target`. -/
def StringMatch (target : List α) : List α → Bool
  | [] => target.isEmpty
  | p :: pattern =>
      if toInt p = code '*' then
        match pattern with
        | [] => true
        | q :: pattern => starLoop (fun target => StringMatch target pattern) q target
      else
        match target with
        | [] => false
        | t :: target =>
            if toupper (toInt p) ≠ toupper (toInt t) then false else StringMatch target pattern

def caseFunc (caseSensitive : Bool) (c : α) : α :=
  if caseSensitive then c else ofInt (tolower (toInt c))

/-- The loop of `MemMatch::memmatch`, with `needle - needlestart` for `needle`. -/
def memmatchLoop (caseSensitive : Bool) (memory : List α) (phaystack haylen pneedle neelen : Nat)
    (haystack matched : Nat) : Option (Option Nat) :=
  if _inside : haystack < phaystack + haylen then
    match readIn memory phaystack haylen haystack,
      _needle : readIn memory pneedle neelen (pneedle + matched) with
    | some hay, some nee =>
        if toInt (caseFunc caseSensitive hay) = toInt (caseFunc caseSensitive nee) then
          if matched + 1 = neelen then some (some (haystack + 1 - neelen))
          else memmatchLoop caseSensitive memory phaystack haylen pneedle neelen (haystack + 1)
            (matched + 1)
        else
          -- backed up if a prefix matched
          memmatchLoop caseSensitive memory phaystack haylen pneedle neelen
            (haystack - matched + 1) 0
    | _, _ => none
  else some none
termination_by (phaystack + haylen - (haystack - matched), neelen - matched)
decreasing_by
  · have inNeedle := readIn_some _needle
    rw [Nat.add_sub_add_right]
    exact Prod.Lex.right _ (by omega)
  · exact Prod.Lex.left _ _ (by omega)

def memmatch (memory : List α) (phaystack haylen pneedle neelen : Nat) (caseSensitive : Bool) :
    Option (Option Nat) :=
  if neelen = 0 then some (some phaystack)
  else if haylen < neelen then some none
  else if phaystack = pneedle then some (some phaystack)
  else memmatchLoop caseSensitive memory phaystack haylen pneedle neelen phaystack 0

def kint32min : Int := -2147483648

def lastDigit : Option Int := do
  let sum ← signed 32 (kint32min + 10)
  let opposite ← signed 32 (-sum)
  some (opposite.tmod 10)

def accumulate (total : Int) : List α → Option (Option Int)
  | [] => some (some total)
  | c :: str =>
      let c := toInt c
      if c = 0 then some (some total)
      else if c < code '0' ∨ code '9' < c then some none
      else do
        let c ← signed 32 (c - code '0')
        let last ← lastDigit
        if total < kint32min.tdiv 10 ∨ (total = kint32min.tdiv 10 ∧ last < c) then some none
        else
          let scaled ← signed 32 (10 * total)
          let total ← signed 32 (scaled - c)
          accumulate total str

def StringTToInt (str : List α) : Option (Option Int) := do
  let possibleSign := (str.head?.map toInt).getD 0
  let str := if possibleSign = code '-' ∨ possibleSign = code '+' then str.tail else str
  match ← accumulate 0 str with
  | none => some none
  | some total =>
      if possibleSign = code '-' then some (some total)
      else if total = kint32min then some none
      else (signed 32 (-total)).map some

def StringToInt (str : List Int8) : Option (Option Int) := StringTToInt str

def String16ToInt (str : List UInt16) : Option (Option Int) := StringTToInt str

def kFastIntToBufferOffset : Nat := 21

/-- A pointer into the buffer, one further on, so that it can be in front of it. -/
structure Cursor (α : Type) where
  next : Nat
  buffer : List α

def Cursor.store (c : Int) (cursor : Cursor α) : Option (Cursor α) :=
  match cursor.next with
  | 0 => none
  | p + 1 => (Memory.write cursor.buffer p (ofInt c)).map (⟨p, ·⟩)

theorem tdiv_ten_lt {i : Int} (more : 0 < i.tdiv 10) : (i.tdiv 10).toNat < i.toNat := by
  have nonneg : 0 ≤ i := by
    by_contra negative
    have opposite : (-i).tdiv 10 = -(i.tdiv 10) := Int.neg_tdiv i 10
    have below : 0 ≤ (-i).tdiv 10 := Int.tdiv_nonneg (by omega) (by decide)
    omega
  rw [Int.tdiv_eq_ediv_of_nonneg nonneg] at more ⊢
  omega

def Cursor.writeDigits (bits : Nat) (i : Int) (cursor : Cursor α) : Option (Cursor α) := do
  let digit ← signed bits (code '0' + i.tmod 10)
  let cursor ← cursor.store digit
  if _more : 0 < i.tdiv 10 then cursor.writeDigits bits (i.tdiv 10) else some cursor
termination_by i.toNat
decreasing_by exact tdiv_ten_lt _more

def FastIntToBuffer (bits : Nat) (i : Int) (buffer : List α) : Option (Cursor α) := do
  let p ← (⟨kFastIntToBufferOffset + 1, buffer⟩ : Cursor α).store 0
  if 0 ≤ i then p.writeDigits bits i
  else if -10 < i then
    let i ← signed bits (-i)
    let p ← p.store (code '0' + i)
    p.store (code '-')
  else
    let i ← signed bits (i + 10)
    let i ← signed bits (-i)
    let p ← p.store (code '0' + i.tmod 10)
    let i ← signed bits (i.tdiv 10 + 1)
    let p ← p.writeDigits bits i
    p.store (code '-')

/-- What is in the buffer before does not matter. -/
abbrev Buffer (α : Type) := List.Vector α (kFastIntToBufferOffset + 1)

def IntegerToStringT (bits : Nat) (i : Int) (buffer : Buffer α) : Option (List α) := do
  let start ← FastIntToBuffer bits i buffer.toList
  let stop ← Memory.scan (toInt · != 0) start.buffer start.next
  Memory.slice start.buffer start.next stop

def IntegerToString (i : Int32) (buffer : Buffer Int8) : Option (List Int8) :=
  IntegerToStringT 32 i.toInt buffer

def IntegerToString16 (i : Int32) (buffer : Buffer UInt16) : Option (List UInt16) :=
  IntegerToStringT 32 i.toInt buffer

def Integer64ToString (i : Int64) (buffer : Buffer Int8) : Option (List Int8) :=
  IntegerToStringT 64 i.toInt buffer

def Integer64ToString16 (i : Int64) (buffer : Buffer UInt16) : Option (List UInt16) :=
  IntegerToStringT 64 i.toInt buffer

def IsCharValidInPathComponent (c : Int) (strict : Bool) : Bool :=
  if c < 32 then false
  else if strict && (c = 32 || 127 ≤ c) then false
  else !(['/', '\\', ':', '*', '?', '\x22', '<', '>', '|', ';', ','].map code).contains c

def IsStringValidPathComponent (s : Option (CString α)) : Bool :=
  match s with
  | none => false
  | some s =>
      match s.chars with
      | [] => true
      | first :: rest =>
          if toInt first = code '.' then false
          else if (first :: rest).any fun c => !IsCharValidInPathComponent (toInt c) true then false
          else toInt ((first :: rest).getLast (List.cons_ne_nil _ _)) != code '.'

def replaceLastDot : List α → List α
  | [] => []
  | [last] => [if toInt last = code '.' then ofInt (code '_') else last]
  | c :: d :: s => c :: replaceLastDot (d :: s)

def replaceInvalid (strict : Bool) (c : α) : α :=
  if IsCharValidInPathComponent (toInt c) strict then c else ofInt (code '_')

def EnsureStringValidPathComponent (s : List α) (strict : Bool) : List α :=
  match s with
  | [] => []
  | first :: rest =>
      if toInt first = code '.' then
        replaceLastDot (ofInt (code '_') :: rest.map (replaceInvalid strict))
      else replaceLastDot ((first :: rest).map (replaceInvalid strict))

end ThreadIpc.StringUtils
