import ThreadIpc.HttpUtils.Model
import ThreadIpc.Lib.Memory

/-!
# `ParseHTTPHeaders` in its buffer

The memory starts where the buffer does, and a pointer is an index into it. Whether the assertions
are compiled in is a parameter. `std::string` takes no length that an `int` has made negative.
-/

namespace ThreadIpc.HttpUtils

open Lib

inductive Fault
  | outside
  | nullValue
  | assertFailed
  | lengthError
  deriving DecidableEq

def inside {α : Type} : Option α → Except Fault α
  | none => .error .outside
  | some a => .ok a

def Platform.toSize (platform : Platform) (number : Int) : Nat :=
  (number % 2 ^ platform.sizeBits).toNat

def toUint32 (number : Int) : Nat := (number % 4294967296).toNat

def CHECK (asserts condition : Bool) : Except Fault Unit :=
  if asserts && !condition then .error .assertFailed else .ok ()

def memchr (platform : Platform) (memory : List UInt8) (start : Nat) (c : UInt8) (count : Int) :
    Except Fault (Option Nat) :=
  inside (Memory.find c memory (platform.toSize count) start)

theorem memchr_bounds {platform : Platform} {memory : List UInt8} {start found : Nat} {c : UInt8}
    {count : Int} (result : memchr platform memory start c count = .ok (some found)) :
    start ≤ found ∧ found < start + platform.toSize count ∧ memory[found]? = some c := by
  rw [memchr] at result
  cases same : Memory.find c memory (platform.toSize count) start with
  | none =>
      rw [same] at result
      cases result
  | some _ =>
      rw [same] at result
      cases result
      exact Memory.find_bounds same

def strchr (memory : List UInt8) (line : Nat) (c : UInt8) : Except Fault (Option Nat) := do
  let stop ← inside (Memory.scan (fun d => d != c && d != 0) memory line)
  let found ← inside memory[stop]?
  .ok (if found = c then some stop else none)

def charactersAt (memory : List UInt8) (text : Nat) : Except Fault CString := do
  let stop ← inside (Memory.scan (· != 0) memory text)
  inside (Memory.slice memory text stop)

def strtolEnd (memory : List UInt8) (text : Nat) : Except Fault Nat := do
  let sign ← inside (Memory.scan isspace memory text)
  let c ← inside memory[sign]?
  let digits := if c = minus ∨ c = plus then sign + 1 else sign
  let stop ← inside (Memory.scan isdigit memory digits)
  .ok (if stop = digits then text else stop)

namespace HTTPHeaders

def setHeaderFromLineAt (headers : HTTPHeaders) (memory : List UInt8) (line : Nat)
    (mode : Overwrite) : Except Fault (Option CString × HTTPHeaders × List UInt8) := do
  let start ← inside (Memory.scan isBlank memory line)
  if line < start then
    match headers.headers.getLast? with
    | none => .ok (none, headers, memory)
    | some (_, none) => .error .nullValue
    | some (first, some second) =>
        let text ← charactersAt memory start
        let (result, second) := headers.appendValueToHeader second (separatorFor second text) text
        .ok (result,
          { headers with headers := headers.headers.dropLast ++ [(first, some second)] }, memory)
  else
    match ← strchr memory line colon with
    | none => .ok (none, headers, memory)
    | some found =>
        let name ← inside (Memory.slice memory line found)
        let colon := line + (name.rdropWhile (· == space)).length
        let oldval ← inside memory[colon]?
        let memory ← inside (Memory.write memory colon 0)
        let value ← inside (Memory.scan (· == space) memory (found + 1))
        let key ← charactersAt memory line
        let mode := if strcasecmp key host then .noOverwrite else mode
        let (result, headers) := headers.setHeader key (some (← charactersAt memory value)) mode
        .ok (result, headers, ← inside (Memory.write memory colon oldval))

/-- The length of the line is passed as an `int`. -/
def addResponseFirstlineAt (platform : Platform) (headers : HTTPHeaders) (memory : List UInt8)
    (line lineEnd : Nat) : Except Fault (Bool × HTTPHeaders) := do
  let linelen := toInt (lineEnd - line)
  if linelen < 0 then .error .lengthError
  else
    .ok (headers.addResponseFirstline platform
      (← inside (Memory.slice memory line (line + linelen.toNat))))

end HTTPHeaders

/-- The header line is terminated where it stands, or copied. -/
def setLine (allowConstCast : Bool) (memory : List UInt8) (line lineEnd : Nat)
    (headers : HTTPHeaders) : Except Fault (HTTPHeaders × List UInt8) :=
  if allowConstCast then do
    let oldval ← inside memory[lineEnd]?
    let memory ← inside (Memory.write memory lineEnd 0)
    let (_, headers, memory) ← headers.setHeaderFromLineAt memory line .append
    .ok (headers, ← inside (Memory.write memory lineEnd oldval))
  else do
    let headerLine ← inside (Memory.slice memory line lineEnd)
    let (_, headers, _) ← headers.setHeaderFromLineAt (headerLine ++ [0]) 0 .append
    .ok (headers, memory)

def findLineEnd (platform : Platform) (memory : List UInt8) (contentend start : Nat) :
    Except Fault (Option Nat) :=
  match _found : memchr platform memory start cr (contentend - start - 1) with
  | .error fault => .error fault
  | .ok none => .ok none
  | .ok (some lineEnd) =>
      match memory[lineEnd + 1]? with
      | none => .error .outside
      | some c =>
          if c = lf then .ok (some lineEnd)
          else findLineEnd platform memory contentend (lineEnd + 1)
termination_by memory.length - start
decreasing_by
  obtain ⟨above, _, cell⟩ := memchr_bounds _found
  have before := (List.getElem?_eq_some_iff.mp cell).1
  omega

def nextLineEnd (platform : Platform) (memory : List UInt8) (contentend line : Nat) :
    Except Fault (Option Nat) :=
  if contentend ≤ line + 1 then .ok none else findLineEnd platform memory contentend line

def isGoodFirstLine (platform : Platform) (memory : List UInt8) (line lineEnd : Nat) :
    Except Fault Bool := do
  match ← memchr platform memory line space (lineEnd - line) with
  | none => .ok false
  | some space =>
      let errpos ← strtolEnd memory (space + 1)
      let c ← inside memory[errpos]?
      .ok (isspace c && space + 1 < errpos)

structure Returned where
  blankLineSeen : Bool
  body : Option Nat
  bodylen : Nat
  headers : Option HTTPHeaders
  memory : List UInt8

inductive Action
  | goOn (numHeaders : Nat) (headers : Option HTTPHeaders) (memory : List UInt8)
  | finish (returned : Returned)

def unchanged (contentlen : Nat) (headers : Option HTTPHeaders) (memory : List UInt8) : Returned :=
  ⟨false, some 0, contentlen, headers, memory⟩

/-- A check behind `num_headers == 0 &&`. -/
def ifFirst (numHeaders : Nat) (check : Except Fault Bool) : Except Fault Bool :=
  if numHeaders = 0 then check else .ok false

def takeLine (platform : Platform) (asserts allowConstCast : Bool) (memory : List UInt8)
    (contentlen line lineEnd : Nat) (numHeaders : Nat) (headers : Option HTTPHeaders) :
    Except Fault Action := do
  CHECK asserts (lineEnd + 1 < contentlen)
  let newline ← ifFirst numHeaders ((memchr platform memory line lf (lineEnd - line)).map Option.isSome)
  if newline then .ok (.finish (unchanged contentlen headers memory))
  else if lineEnd = line then
    let headerlen := toInt (lineEnd + 2 : Nat)
    CHECK asserts (headerlen ≤ toInt contentlen)
    .ok (.finish ⟨true, some (lineEnd + 2), toUint32 (contentlen - headerlen), headers, memory⟩)
  else
    let status ← ifFirst numHeaders
      ((memchr platform memory line colon (lineEnd - line)).map Option.isNone)
    if status then
      if ← isGoodFirstLine platform memory line lineEnd then
        match headers with
        | none => .ok (.goOn 1 none memory)
        | some headers =>
            let (good, headers) ← headers.addResponseFirstlineAt platform memory line lineEnd
            .ok (.goOn (if good then 1 else 0) (some headers) memory)
      else .ok (.finish (unchanged contentlen headers memory))
    else
      match headers with
      | none => .ok (.goOn (numHeaders + 1) none memory)
      | some headers =>
          let (headers, memory) ← setLine allowConstCast memory line lineEnd headers
          .ok (.goOn (numHeaders + 1) (some headers) memory)

section Bounds
variable {platform : Platform}

theorem toSize_le {number : Int} (nonneg : 0 ≤ number) :
    (platform.toSize number : Int) ≤ number := by
  cases platform <;> simp only [Platform.toSize, Platform.sizeBits] <;> omega

theorem findLineEnd_induction {memory : List UInt8} {contentend lineEnd : Nat} {motive : Nat → Prop}
    (here : ∀ start, memchr platform memory start cr (contentend - start - 1) = .ok (some lineEnd) →
      memory[lineEnd + 1]? = some lf → motive start)
    (later : ∀ start middle,
      memchr platform memory start cr (contentend - start - 1) = .ok (some middle) →
      motive (middle + 1) → motive start)
    (start : Nat) (found : findLineEnd platform memory contentend start = .ok (some lineEnd)) :
    motive start := by
  induction start using findLineEnd.induct platform memory contentend with
  | case1 start fault failed =>
      rw [findLineEnd, failed] at found
      cases found
  | case2 start none_ =>
      rw [findLineEnd, none_] at found
      cases found
  | case3 start middle next missing =>
      rw [findLineEnd, next] at found
      simp only [missing] at found
      cases found
  | case4 start middle next cell =>
      rw [findLineEnd, next] at found
      simp only [cell, if_true] at found
      cases found
      exact here start next cell
  | case5 start middle next c cell other ih =>
      rw [findLineEnd, next] at found
      simp only [cell, if_neg other] at found
      exact later start middle next (ih found)

theorem findLineEnd_bounds {memory : List UInt8} {contentend start lineEnd : Nat}
    (room : start < contentend)
    (found : findLineEnd platform memory contentend start = .ok (some lineEnd)) :
    start ≤ lineEnd ∧ lineEnd + 1 < contentend := by
  have count (start : Nat) (room : start < contentend) :
      (platform.toSize (contentend - start - 1) : Int) ≤ contentend - start - 1 := toSize_le (by omega)
  revert room
  apply findLineEnd_induction _ _ start found
  · intro start next _ room
    obtain ⟨above, below, _⟩ := memchr_bounds next
    have counted := count start room
    exact ⟨above, by omega⟩
  · intro start middle next ih room
    obtain ⟨above, below, _⟩ := memchr_bounds next
    have counted := count start room
    have later := ih (by omega)
    exact ⟨by omega, later.2⟩

theorem findLineEnd_of_next {memory : List UInt8} {contentend line lineEnd : Nat}
    (found : nextLineEnd platform memory contentend line = .ok (some lineEnd)) :
    line + 1 < contentend ∧ findLineEnd platform memory contentend line = .ok (some lineEnd) := by
  rw [nextLineEnd] at found
  by_cases ends : contentend ≤ line + 1
  · rw [if_pos ends] at found
    cases found
  · rw [if_neg ends] at found
    exact ⟨Nat.lt_of_not_le ends, found⟩

theorem nextLineEnd_bounds {memory : List UInt8} {contentend line lineEnd : Nat}
    (found : nextLineEnd platform memory contentend line = .ok (some lineEnd)) :
    line ≤ lineEnd ∧ lineEnd + 1 < contentend := by
  obtain ⟨room, found⟩ := findLineEnd_of_next found
  exact findLineEnd_bounds (by omega) found

end Bounds

def parseLoop (platform : Platform) (asserts allowConstCast : Bool) (contentlen : Nat)
    (memory : List UInt8) (line numHeaders : Nat) (headers : Option HTTPHeaders) : Except Fault Returned :=
  match _found : nextLineEnd platform memory contentlen line with
  | .error fault => .error fault
  | .ok none =>
      .ok (if numHeaders = 0 then unchanged contentlen headers memory
        else ⟨false, some contentlen, 0, headers, memory⟩)
  | .ok (some lineEnd) =>
      match takeLine platform asserts allowConstCast memory contentlen line lineEnd numHeaders
          headers with
      | .error fault => .error fault
      | .ok (.finish returned) => .ok returned
      | .ok (.goOn numHeaders headers memory) =>
          parseLoop platform asserts allowConstCast contentlen memory (lineEnd + 2) numHeaders headers
termination_by contentlen - line
decreasing_by
  obtain ⟨above, below⟩ := nextLineEnd_bounds _found
  omega

def parseHTTPHeadersAt (platform : Platform) (asserts allowConstCast : Bool)
    (body : Option (List UInt8)) (bodylen : UInt32) (headers : Option HTTPHeaders) :
    Except Fault Returned :=
  match body with
  | none => .ok ⟨false, none, 0, headers, []⟩
  | some memory =>
      if bodylen = 0 then .ok ⟨false, none, 0, headers, memory⟩
      else parseLoop platform asserts allowConstCast bodylen.toNat memory 0 0 headers

end ThreadIpc.HttpUtils
