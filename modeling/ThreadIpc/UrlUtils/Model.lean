import Mathlib.Data.List.Basic
import Mathlib.Data.UInt

/-!
# `EscapeUrl`, `UnescapeURL` and `UTF8PathToUrl`

`std::string` is the list of its bytes, whatever width `size_t` has. A write past the end of
`temp_buffer` has no outcome. The index of `EscapeUrl` is an `unsigned int` on every platform: with
it, the loop is `escapeUrlAt`, which is `escapeUrl` where the index can get to the end.
-/

namespace ThreadIpc.UrlUtils

abbrev Bytes := List UInt8

def ascii (text : List Char) : Bytes := text.map (·.toNat.toUInt8)

def percent : UInt8 := 37

def plus : UInt8 := 43

def slash : UInt8 := 47

def colon : UInt8 := 58

def semicolon : UInt8 := 59

def backslash : UInt8 := 92

def bar : UInt8 := 124

def isHex (ch : UInt8) : Bool :=
  (48 ≤ ch && ch ≤ 57) || (65 ≤ ch && ch ≤ 70) || (97 ≤ ch && ch ≤ 102)

def hexToInt (ch : UInt8) : UInt8 :=
  if 48 ≤ ch ∧ ch ≤ 57 then ch - 48
  else if 65 ≤ ch ∧ ch ≤ 70 then ch - 65 + 10
  else if 97 ≤ ch ∧ ch ≤ 102 then ch - 97 + 10
  else 0

def unescaped (replacePlus : Bool) (c : UInt8) : UInt8 :=
  if replacePlus ∧ c = plus then 32 else c

def unescapeLoop (replacePlus : Bool) : Bytes → Bytes
  | [] => []
  | c :: mostSigDigit :: leastSigDigit :: rest =>
      if c = percent then
        if isHex mostSigDigit ∧ isHex leastSigDigit then
          (hexToInt mostSigDigit * 16 + hexToInt leastSigDigit) :: unescapeLoop replacePlus rest
        else percent :: unescapeLoop replacePlus (mostSigDigit :: leastSigDigit :: rest)
      else unescaped replacePlus c :: unescapeLoop replacePlus (mostSigDigit :: leastSigDigit :: rest)
  | c :: rest => unescaped replacePlus c :: unescapeLoop replacePlus rest

def unescapeURLImpl (escapedText : Bytes) (replacePlus : Bool) : Bytes :=
  if escapedText.length < 3 ∧ replacePlus = false then escapedText
  else unescapeLoop replacePlus escapedText

def unescapeURL (escapedText : Bytes) : Bytes := unescapeURLImpl escapedText false

def ESCAPE_DIRECTORY : UInt32 := 16

def ESCAPE_FORCED : UInt32 := 1024

def ESCAPE_ONLYASCII : UInt32 := 2048

def ESCAPE_ONLYNONASCII : UInt32 := 4096

def ESCAPE_COLON : UInt32 := 16384

/-- The table without the zeros that it ends with. -/
def escapeChars : List UInt32 :=
  [0, 0, 0, 0, 0, 0, 0, 0, 0, 0, 0, 0, 0, 0, 0, 0,
   0, 0, 0, 0, 0, 0, 0, 0, 0, 0, 0, 0, 0, 0, 0, 0,
   0, 1023, 0, 512, 1023, 0, 1023, 1023, 1023, 1023, 1023, 1023, 1023, 1023, 953, 784,
   1023, 1023, 1023, 1023, 1023, 1023, 1023, 1023, 1023, 1023, 1008, 912, 0, 1008, 0, 768,
   1008, 1023, 1023, 1023, 1023, 1023, 1023, 1023, 1023, 1023, 1023, 1023, 1023, 1023, 1023, 1023,
   1023, 1023, 1023, 1023, 1023, 1023, 1023, 1023, 1023, 1023, 1023, 896, 896, 896, 896, 1023,
   0, 1023, 1023, 1023, 1023, 1023, 1023, 1023, 1023, 1023, 1023, 1023, 1023, 1023, 1023, 1023,
   1023, 1023, 1023, 1023, 1023, 1023, 1023, 1023, 1023, 1023, 1023, 896, 1012, 896, 1023, 0]

def noNeedEsc (flags : UInt32) (c : UInt8) : Bool := escapeChars.getD c.toNat 0 &&& flags != 0

def hexChars : Bytes :=
  ascii ['0', '1', '2', '3', '4', '5', '6', '7', '8', '9', 'A', 'B', 'C', 'D', 'E', 'F']

def copies (flags : UInt32) (previousIsNonAscii : Bool) (c : UInt8) : Bool :=
  let forced := flags &&& ESCAPE_FORCED != 0
  let ignoreNonAscii := flags &&& ESCAPE_ONLYASCII != 0
  let ignoreAscii := flags &&& ESCAPE_ONLYNONASCII != 0
  let colon_ := flags &&& ESCAPE_COLON != 0
  (noNeedEsc flags c || (c == percent && !forced) || (0x7f < c && ignoreNonAscii) ||
      (0x1f < c && c < 0x7f && ignoreAscii)) &&
    !(c == colon && colon_) && !(previousIsNonAscii && c == bar && !ignoreNonAscii)

def written (flags : UInt32) (previousIsNonAscii : Bool) (c : UInt8) : Bytes :=
  if copies flags previousIsNonAscii c then [c]
  else [percent, hexChars.getD (c.toNat >>> 4) 0, hexChars.getD (c.toNat &&& 15) 0]

def tempBufferSize : Nat := 100

/-- `temp_buffer` up to `temp_buffer_pos`. -/
def store (tempBuffer : Bytes) : Bytes → Option Bytes
  | [] => some tempBuffer
  | c :: rest =>
      if tempBuffer.length < tempBufferSize then store (tempBuffer ++ [c]) rest else none

/-- `result += temp_buffer` behind a NUL, up to the first one. -/
def flush (result tempBuffer : Bytes) : Option Bytes :=
  (store tempBuffer [0]).map fun terminated => result ++ terminated.takeWhile (· != 0)

def escapeLoop (flags : UInt32) (result tempBuffer : Bytes) (previousIsNonAscii : Bool) :
    Bytes → Option Bytes
  | [] => flush result tempBuffer
  | c :: rest => do
      let tempBuffer ← store tempBuffer (written flags previousIsNonAscii c)
      if tempBufferSize - 4 ≤ tempBuffer.length then
        escapeLoop flags (← flush result tempBuffer) [] (0x7f < c) rest
      else escapeLoop flags result tempBuffer (0x7f < c) rest

def escapeUrl (source : Bytes) (flags : UInt32) : Option Bytes := escapeLoop flags [] [] false source

def escapeLoopAt (source : Bytes) (flags : UInt32) :
    Nat → UInt32 → Bytes → Bytes → Bool → Option Bytes
  | 0, _, _, _, _ => none
  | steps + 1, i, result, tempBuffer, previousIsNonAscii =>
      if i.toNat < source.length then do
        let c := source.getD i.toNat 0
        let tempBuffer ← store tempBuffer (written flags previousIsNonAscii c)
        if tempBufferSize - 4 ≤ tempBuffer.length then
          escapeLoopAt source flags steps (i + 1) (← flush result tempBuffer) [] (0x7f < c)
        else escapeLoopAt source flags steps (i + 1) result tempBuffer (0x7f < c)
      else flush result tempBuffer

/-- What `EscapeUrl` has returned after so many tests of the loop's condition. -/
def escapeUrlAt (steps : Nat) (source : Bytes) (flags : UInt32) : Option Bytes :=
  escapeLoopAt source flags steps 0 [] [] false

/-- A loop around `find` and `replace`, where what is put in holds nothing that is searched for. -/
def replaceFound (sought : UInt8) (replacement : Bytes) : Bytes → Bytes
  | [] => []
  | c :: rest =>
      if c = sought then replacement ++ replaceFound sought replacement rest
      else c :: replaceFound sought replacement rest

/-- The first semicolon is replaced, and then, from behind its `%` on, backslashes. -/
def escapeSemicolons (result : Bytes) : Bytes :=
  match result.dropWhile (· != semicolon) with
  | [] => result
  | _ :: rest => result.takeWhile (· != semicolon) ++
      percent :: replaceFound backslash (ascii ['%', '3', 'B']) (ascii ['3', 'B'] ++ rest)

def fileUrl : Bytes := ascii ['f', 'i', 'l', 'e', ':', '/', '/', '/']

def utf8PathToUrl (path : Bytes) (directory : Bool) : Option Bytes := do
  let result := replaceFound backslash [slash] (fileUrl ++ path)
  let result ← escapeUrl result (ESCAPE_DIRECTORY ||| ESCAPE_FORCED)
  let result := escapeSemicolons result
  if directory ∧ result.getLast? ≠ some slash then some (result ++ [slash]) else some result

end ThreadIpc.UrlUtils
