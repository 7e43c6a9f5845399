import Mathlib.Data.List.Basic

/-!
# `SecurityOrigin`

A C string is the list of its units without the zero. The URL parser and the constants of HTTP are
not part of the repository.
-/

namespace ThreadIpc.SecurityModel

abbrev String16 := List UInt16

def string16 (literal : List Char) : String16 := literal.map (·.val.toUInt16)

def kHttp : String16 := string16 ['h', 't', 't', 'p']

def kHttps : String16 := string16 ['h', 't', 't', 'p', 's']

def kFile : String16 := string16 ['f', 'i', 'l', 'e']

def kRes : String16 := string16 ['r', 'e', 's']

def kUnknownDomain : String16 :=
  string16 ['_', 'n', 'u', 'l', 'l', '_', '.', 'l', 'o', 'c', 'a', 'l', 'd', 'o', 'm', 'a', 'i', 'n']

def colon : UInt16 := 58

/-- `std::tolower` in the C locale, which leaves alone what is no `unsigned char`. -/
def toLower (unit : UInt16) : UInt16 := if 65 ≤ unit ∧ unit ≤ 90 then unit + 32 else unit

def lowerString (str : String16) : String16 := str.map toLower

def leadingNumber : String16 → Int → Int
  | [], number => number
  | unit :: rest, number =>
      if 48 ≤ unit ∧ unit ≤ 57 then leadingNumber rest (number * 10 + (unit.toNat - 48)) else number

/-- An overflow, of which the source says that the value is undefined, wraps around. -/
def parseLeadingInteger (str : String16) : Int32 := Int32.ofInt (leadingNumber str 0)

def digit (number : Nat) : UInt16 := UInt16.ofNat (48 + number % 10)

/-- The loop that writes digits in front of others. An `int32` has ten of them at most. -/
def writeDigits : Nat → Nat → String16 → String16
  | 0, _, written => written
  | digits + 1, number, written =>
      if 0 < number / 10 then writeDigits digits (number / 10) (digit number :: written)
      else digit number :: written

def fastIntToBuffer (number : Int) : String16 :=
  if 0 ≤ number then writeDigits 10 number.toNat []
  else if -10 < number then [45, digit (-number).toNat]
  else
    -- The smallest number has no opposite.
    let number := (-(number + 10)).toNat
    45 :: writeDigits 10 (number / 10 + 1) [digit number]

def integerToString16 (number : Int32) : String16 := fastIntToBuffer number.toInt

structure Component where
  start : Nat
  /-- `-1` when the URL has no such part. -/
  len : Int

def Component.of (fullUrl : String16) (component : Component) : String16 :=
  (fullUrl.drop component.start).take component.len.toNat

structure Parsed where
  username : Component
  password : Component
  host : Component
  port : Component

structure UrlParse where
  extractScheme : String16 → Option Component
  parseStandardURL : String16 → Parsed

structure HttpConstants where
  kHttpsScheme : String16
  kFileScheme : String16
  kResScheme : String16
  kHttpDefaultPort : Int32
  kHttpsDefaultPort : Int32
  isDefaultPort : String16 → Int32 → Bool

structure SecurityOrigin where
  initialized : Bool
  url : String16
  fullUrl : String16
  scheme : String16
  host : String16
  port : Int32
  portString : String16
  deriving DecidableEq

variable (parser : UrlParse) (constants : HttpConstants)

def initArguments (fullUrl : String16) : Option (String16 × String16 × Int32) :=
  match parser.extractScheme fullUrl with
  | none => none
  | some component =>
      let scheme := lowerString (component.of fullUrl)
      if scheme = kHttp ∨ scheme = kHttps then
        let parsed := parser.parseStandardURL fullUrl
        if parsed.username.len ≠ -1 ∨ parsed.password.len ≠ -1 then none
        else if parsed.host.len = -1 then none
        else
          let port :=
            if 0 < parsed.port.len then parseLeadingInteger (parsed.port.of fullUrl)
            else if scheme = constants.kHttpsScheme then constants.kHttpsDefaultPort
            else constants.kHttpDefaultPort
          some (scheme, parsed.host.of fullUrl, port)
      else if scheme = kFile then some (constants.kFileScheme, kUnknownDomain, 0)
      else if scheme = kRes then some (constants.kResScheme, kUnknownDomain, 0)
      else none

namespace SecurityOrigin

def blank : SecurityOrigin where
  initialized := false
  url := []
  fullUrl := []
  scheme := []
  host := []
  port := 0
  portString := []

def init (fullUrl scheme host : String16) (port : Int32) (origin : SecurityOrigin) :
    SecurityOrigin × Bool :=
  if fullUrl = [] ∨ scheme = [] ∨ host = [] then (origin, false)
  else
    let url := lowerString scheme ++ string16 [':', '/', '/'] ++ host
    let portString := integerToString16 port
    ({ initialized := true
       url :=
        if constants.isDefaultPort (lowerString scheme) port then url
        else url ++ string16 [':'] ++ portString
       fullUrl := fullUrl
       scheme := lowerString scheme
       host := lowerString host
       port := port
       portString := portString }, true)

def initFromUrl (fullUrl : String16) (origin : SecurityOrigin) : SecurityOrigin × Bool :=
  let origin := { origin with initialized := false }
  match initArguments parser constants fullUrl with
  | none => (origin, false)
  | some (scheme, host, port) => origin.init constants fullUrl scheme host port

def isSameOrigin (origin other : SecurityOrigin) : Bool :=
  origin.port == other.port && origin.scheme == other.scheme && origin.host == other.host

end SecurityOrigin

end ThreadIpc.SecurityModel
