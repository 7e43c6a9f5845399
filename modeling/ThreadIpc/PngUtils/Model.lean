import ThreadIpc.Lib.Signed
import Mathlib.Data.List.Basic

/-!
# `PngUtils::ShrinkImage`

The sizes are those for which the assertions hold. The sums are of type `unsigned int`; the offsets
and the divisors are of type `int`, and where one of these overflows or a read is outside the input
there is no result.
-/

namespace ThreadIpc.PngUtils

def kMaxSize : Nat := 4096

structure IntegralSplit where
  numSpans : Nat
  totalError : Nat
  stepError : Nat
  smallSpan : Nat

def IntegralSplit.init (length numSpans : Nat) : IntegralSplit where
  numSpans
  smallSpan := length / numSpans
  stepError := length % numSpans
  totalError := numSpans >>> 1

def IntegralSplit.nextSpan (splitter : IntegralSplit) : Nat × IntegralSplit :=
  let totalError := splitter.totalError + splitter.stepError
  if splitter.numSpans ≤ totalError then
    (splitter.smallSpan + 1, { splitter with totalError := totalError - splitter.numSpans })
  else (splitter.smallSpan, { splitter with totalError })

/-- `base_x` and `local_width` in a turn of the loop, or `base_y` and `local_height`. -/
structure Span where
  base : Nat
  length : Nat

def IntegralSplit.spans (splitter : IntegralSplit) (base : Nat) : Nat → List Span
  | 0 => []
  | turns + 1 =>
      let (length, splitter) := splitter.nextSpan
      ⟨base, length⟩ :: splitter.spans (base + length) turns

def Span.numbers (span : Span) : List Nat := List.range' span.base span.length

structure Box where
  rows : Span
  columns : Span

/-- In the order in which the loops get to them; the splitter of the width starts anew in each row. -/
def boxes (width height newWidth newHeight : Nat) : List Box :=
  ((IntegralSplit.init height newHeight).spans 0 newHeight).flatMap fun rows =>
    ((IntegralSplit.init width newWidth).spans 0 newWidth).map fun columns => ⟨rows, columns⟩

structure Sums where
  red : UInt32
  green : UInt32
  blue : UInt32
  alpha : UInt32

def int (number : Nat) : Option Nat := (Lib.signed 32 number).map Int.toNat

def Sums.add (input : List UInt8) (width y : Nat) (sums : Sums) (x : Nat) : Option Sums := do
  let offset ← int ((y * width + x) * 4)
  let red ← input[offset]?
  let green ← input[offset + 1]?
  let blue ← input[offset + 2]?
  let alpha ← input[offset + 3]?
  return {
    red := sums.red + UInt32.ofNat (red.toNat * alpha.toNat)
    green := sums.green + UInt32.ofNat (green.toNat * alpha.toNat)
    blue := sums.blue + UInt32.ofNat (blue.toNat * alpha.toNat)
    alpha := sums.alpha + UInt32.ofNat alpha.toNat }

def shrinkBox (input : List UInt8) (width : Nat) (box : Box) : Option (List UInt8) := do
  let sums ← box.rows.numbers.foldlM (fun sums y =>
    box.columns.numbers.foldlM (Sums.add input width y) sums) ⟨0, 0, 0, 0⟩
  let scale ← int (box.rows.length * box.columns.length * 0xFF)
  let count ← int (box.rows.length * box.columns.length)
  return [(sums.red / UInt32.ofNat scale).toUInt8, (sums.green / UInt32.ofNat scale).toUInt8,
    (sums.blue / UInt32.ofNat scale).toUInt8, (sums.alpha / UInt32.ofNat count).toUInt8]

def shrinkImage (input : List UInt8) (width height newWidth newHeight : Nat) :
    Option (List UInt8) :=
  ((boxes width height newWidth newHeight).mapM (shrinkBox input width)).map List.flatten

end ThreadIpc.PngUtils
