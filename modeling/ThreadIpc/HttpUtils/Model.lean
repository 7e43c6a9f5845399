import Mathlib.Data.List.DropRight
import Mathlib.Data.UInt

/-!
# `HTTPHeaders` and `ParseHTTPHeaders`

A C string is its bytes before the NUL, a NULL pointer is `none`. Reading through a NULL pointer
has no outcome. The locale is "C", and what follows the document in memory starts with a NUL.
`allow_const_cast` only decides whether a line is copied before `SetHeaderFromLine` sees it.
-/

namespace ThreadIpc.HttpUtils

/-- The widths of `long` and `size_t`; `int` has 32 bits. -/
inductive Platform
  | ilp32
  | llp64
  | lp64
  deriving DecidableEq

def Platform.longBits : Platform → Nat
  | .ilp32 | .llp64 => 32
  | .lp64 => 64

def Platform.sizeBits : Platform → Nat
  | .ilp32 => 32
  | .llp64 | .lp64 => 64

/-- Where `strtol` stops a number that is no `long`. -/
def Platform.toLong (platform : Platform) (number : Int) : Int :=
  max (-2 ^ (platform.longBits - 1)) (min (2 ^ (platform.longBits - 1) - 1) number)

def toInt (number : Int) : Int := (Int32.ofInt number).toInt

abbrev CString := List UInt8

def ascii (text : String) : CString := text.toList.map fun c => c.toNat.toUInt8

def tab : UInt8 := 9

def lf : UInt8 := 10

def cr : UInt8 := 13

def space : UInt8 := 32

def plus : UInt8 := 43

def comma : UInt8 := 44

def minus : UInt8 := 45

def colon : UInt8 := 58

def underscore : UInt8 := 95

def cString (bytes : List UInt8) : CString := bytes.takeWhile (· != 0)

def isspace (c : UInt8) : Bool := c == space || (tab ≤ c && c ≤ cr)

def isdigit (c : UInt8) : Bool := 48 ≤ c && c ≤ 57

def tolower (c : UInt8) : UInt8 := if 65 ≤ c && c ≤ 90 then c + 32 else c

/-- `!strcasecmp(s1, s2)`. -/
def strcasecmp (s1 s2 : CString) : Bool := s1.map tolower == s2.map tolower

def strtolSign : CString → Bool × CString
  | [] => (false, [])
  | c :: rest =>
      if c = minus then (true, rest) else if c = plus then (false, rest) else (false, c :: rest)

def strtolNumber (negative : Bool) (text : CString) : Option (Int × CString) :=
  let digits := text.takeWhile isdigit
  if digits = [] then none
  else
    let value : Int := digits.foldl (fun value c => value * 10 + (c.toNat - 48)) 0
    some (if negative then -value else value, text.dropWhile isdigit)

/-- The number that `strtol(text, &end, 10)` reads, and `end`. -/
def strtol (text : CString) : Int × CString :=
  let (negative, number) := strtolSign (text.dropWhile isspace)
  (strtolNumber negative number).getD (0, text)

inductive HTTPVersion
  | httpError
  | http10
  | http11
  deriving DecidableEq

inductive Overwrite
  | unused
  | noOverwrite
  | append
  | overwrite
  deriving DecidableEq

abbrev KeyValueList := List (CString × Option CString)

structure HTTPHeaders where
  firstline : List UInt8
  httpVersion : HTTPVersion
  responseCode : Int
  reasonPhrase : CString
  headers : KeyValueList

def setCookie : CString := ascii "Set-Cookie"

def wwwAuthenticate : CString := ascii "WWW-Authenticate"

def host : CString := ascii "host"

def isMultiLine (key : CString) : Bool := strcasecmp key setCookie || strcasecmp key wwwAuthenticate

def headerKey (line : CString) : CString :=
  (line.takeWhile (· != colon)).rdropWhile (· == space)

def headerValue (line : CString) : CString :=
  (line.dropWhile (· != colon)).tail.dropWhile (· == space)

def isBlank (c : UInt8) : Bool := c == space || c == tab

def startOf (line : CString) : CString := line.dropWhile isBlank

def separatorFor (value start : CString) : CString :=
  if value ≠ [] ∧ start ≠ [] then [space] else []

namespace HTTPHeaders

def new : HTTPHeaders := ⟨[], .httpError, 0, [], []⟩

def isUsingTooMuchMemory (_ : HTTPHeaders) : Bool := false

@[simp] theorem isUsingTooMuchMemory_eq (headers : HTTPHeaders) :
    headers.isUsingTooMuchMemory = false := rfl

/-- Together with the pointer that the function returns. -/
def addNewHeader (headers : HTTPHeaders) (key : CString) (value : Option CString) :
    Option CString × HTTPHeaders :=
  if headers.isUsingTooMuchMemory then (none, headers)
  else (value, { headers with headers := headers.headers ++ [(key, value)] })

def appendValueToHeader (headers : HTTPHeaders) (second separator value : CString) :
    Option CString × CString :=
  if headers.isUsingTooMuchMemory then (none, second)
  else (some (second ++ separator ++ value), second ++ separator ++ value)

def clearHeader (headers : HTTPHeaders) (header : CString) : Bool × HTTPHeaders :=
  (headers.headers.any fun it => strcasecmp it.1 header,
    { headers with headers := headers.headers.filter fun it => !strcasecmp it.1 header })

def withoutNewlines (value : CString) : CString :=
  value.map fun c => if c = cr ∨ c = lf then underscore else c

def setFound (headers : HTTPHeaders) (it : CString × Option CString) (key : CString)
    (value : Option CString) (mode : Overwrite) : CString × Option CString :=
  if mode = .noOverwrite then it
  else match it.2 with
    | none => (key, value)
    | some second =>
        if mode = .overwrite then (key, value)
        else match value with
          | none => it
          | some value => (key, some (headers.appendValueToHeader second [comma] value).2)

/-- The loop of `SetHeader`, `none` when no header matches. -/
def setMatching (headers : HTTPHeaders) (key : CString) (value : Option CString)
    (mode : Overwrite) : KeyValueList → Option (Option CString × KeyValueList)
  | [] => none
  | it :: rest =>
      if strcasecmp it.1 key then
        let it' := headers.setFound it key value mode
        some (it'.2, it' :: rest)
      else (headers.setMatching key value mode rest).map fun found => (found.1, it :: found.2)

def setHeader (headers : HTTPHeaders) (key : CString) (value : Option CString)
    (mode : Overwrite) : Option CString × HTTPHeaders :=
  if headers.isUsingTooMuchMemory then (none, headers)
  else
    let value := value.map withoutNewlines
    if isMultiLine key ∧ mode = .append then headers.addNewHeader key value
    else if isMultiLine key ∧ mode = .overwrite then
      (headers.clearHeader key).2.addNewHeader key value
    else match headers.setMatching key value mode headers.headers with
      | some (second, list) => (second, { headers with headers := list })
      | none => headers.addNewHeader key value

def setHeaderFromLine (headers : HTTPHeaders) (line : CString) (mode : Overwrite) :
    Option (Option CString × HTTPHeaders) :=
  let start := startOf line
  if start.length < line.length then
    match headers.headers.getLast? with
    | none => some (none, headers)
    | some (_, none) => none
    | some (first, some second) =>
        let (result, second) :=
          headers.appendValueToHeader second (separatorFor second start) start
        some (result,
          { headers with headers := headers.headers.dropLast ++ [(first, some second)] })
  else if colon ∉ line then some (none, headers)
  else
    let key := headerKey line
    let mode := if strcasecmp key host then .noOverwrite else mode
    some (headers.setHeader key (some (headerValue line)) mode)

def checkResponseProtocol (headers : HTTPHeaders) (proto : CString) : Bool × HTTPHeaders :=
  if strcasecmp proto (ascii "HTTP/1.0") then (true, { headers with httpVersion := .http10 })
  else if strcasecmp proto (ascii "HTTP/1.1") then (true, { headers with httpVersion := .http11 })
  else if strcasecmp proto (ascii "HTTP") then (true, { headers with httpVersion := .http10 })
  else (false, headers)

def addResponseFirstline (platform : Platform) (headers : HTTPHeaders) (firstline : List UInt8) :
    Bool × HTTPHeaders :=
  let headers := { headers with firstline := firstline }
  let line := cString firstline
  if firstline.length = 1 then (false, headers)
  else if space ∉ line then (false, headers)
  else match headers.checkResponseProtocol (line.takeWhile (· != space)) with
    | (false, headers) => (false, headers)
    | (true, headers) =>
        let fromSpace := line.dropWhile (· != space)
        let (number, error) := strtol fromSpace
        let responseInt := toInt (platform.toLong number)
        if error.length = fromSpace.length ∨ ∃ c ∈ error.head?, isspace c = false then
          (false, headers)
        else if responseInt < 100 ∨ 599 < responseInt then (false, headers)
        else (true,
          { headers with responseCode := responseInt, reasonPhrase := error.dropWhile isspace })

end HTTPHeaders

def splitLine : List UInt8 → Option (List UInt8 × List UInt8)
  | [] => none
  | [_] => none
  | c :: d :: rest =>
      if c = cr ∧ d = lf then some ([], rest)
      else (splitLine (d :: rest)).map fun split => (c :: split.1, split.2)

theorem splitLine_length {text line rest : List UInt8} (split : splitLine text = some (line, rest)) :
    rest.length < text.length := by
  induction text using splitLine.induct generalizing line with
  | case1 => cases split
  | case2 _ => cases split
  | case3 c d tail crlf =>
      rw [splitLine, if_pos crlf] at split
      cases split
      exact Nat.lt_add_of_pos_right Nat.two_pos
  | case4 c d tail other ih =>
      rw [splitLine, if_neg other] at split
      obtain ⟨⟨line', rest'⟩, within, same⟩ := Option.map_eq_some_iff.mp split
      cases same
      exact Nat.lt_succ_of_lt (ih within)

/-- `strtol` does not stop at the end of the line. -/
def goodFirstLine (line rest : List UInt8) : Bool :=
  match line.dropWhile (· != space) with
  | [] => false
  | _ :: afterSpace =>
      let text := afterSpace ++ cr :: lf :: rest
      let errpos := (strtol text).2
      errpos.head?.any isspace && errpos.length < text.length

structure Parsed where
  blankLineSeen : Bool
  body : Option (List UInt8)
  headers : Option HTTPHeaders

def parseLines (platform : Platform) (content : List UInt8) (line : List UInt8) (numHeaders : Nat)
    (headers : Option HTTPHeaders) : Option Parsed :=
  match _split : splitLine line with
  | none => some ⟨false, some (if numHeaders = 0 then content else []), headers⟩
  | some (text, rest) =>
      if numHeaders = 0 ∧ lf ∈ text then some ⟨false, some content, headers⟩
      else if text = [] then some ⟨true, some rest, headers⟩
      else if numHeaders = 0 ∧ colon ∉ text then
        if goodFirstLine text rest then
          match headers with
          | none => parseLines platform content rest 1 none
          | some headers =>
              let (good, headers) := headers.addResponseFirstline platform text
              parseLines platform content rest (if good then 1 else 0) (some headers)
        else some ⟨false, some content, headers⟩
      else match headers with
        | none => parseLines platform content rest (numHeaders + 1) none
        | some headers => match headers.setHeaderFromLine (cString text) .append with
            | none => none
            | some (_, headers) => parseLines platform content rest (numHeaders + 1) (some headers)
termination_by line.length
decreasing_by all_goals exact splitLine_length _split

def parseHTTPHeaders (platform : Platform) (body : Option (List UInt8))
    (headers : Option HTTPHeaders) : Option Parsed :=
  match body with
  | none | some [] => some ⟨false, none, headers⟩
  | some content => parseLines platform content content 0 headers

def extractBody (platform : Platform) (body : Option (List UInt8)) : Option (Option (List UInt8)) :=
  (parseHTTPHeaders platform body none).map Parsed.body

end ThreadIpc.HttpUtils
