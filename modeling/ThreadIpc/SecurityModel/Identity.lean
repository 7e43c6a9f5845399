import ThreadIpc.SecurityModel.Numerals
import ThreadIpc.Lib.Delimited

/-!
# `IsSameOrigin` and `url()`

The url of an origin can be taken apart again, and tells the scheme, the host as it was written and
the port. `IsSameOrigin` compares the host in lower case.
-/

namespace ThreadIpc.SecurityModel
open Lib

/-- The constants are what they are called, and a scheme has no more than one default port. -/
structure HttpConstants.Documented (constants : HttpConstants) : Prop where
  kFileScheme : constants.kFileScheme = kFile
  kResScheme : constants.kResScheme = kRes
  onePort : ∀ scheme port port', constants.isDefaultPort scheme port = true →
    constants.isDefaultPort scheme port' = true → port = port'

def Delimited (host : String16) : Prop := colon ∈ host → host.getLast? = some 93

def UrlParse.SplitsHost (parser : UrlParse) (fullUrl : String16) : Prop :=
  Delimited ((parser.parseStandardURL fullUrl).host.of fullUrl)

/-- Two URLs with one scheme and one port do not spell one host in different capitals. -/
def SpelledAlike (parser : UrlParse) (constants : HttpConstants) (first second : String16) : Prop :=
  ∀ scheme host host' port, initArguments parser constants first = some (scheme, host, port) →
    initArguments parser constants second = some (scheme, host', port) →
    lowerString host = lowerString host' → host = host'

def portSuffix (constants : HttpConstants) (scheme : String16) (port : Int32) : String16 :=
  if constants.isDefaultPort scheme port then [] else colon :: integerToString16 port

section
variable {parser : UrlParse} {constants : HttpConstants} {fullUrl scheme scheme' host host' : String16}
  {port port' : Int32} {before origin : SecurityOrigin}

theorem colon_notMem_numeral (port : Int32) : colon ∉ integerToString16 port := by
  intro member
  rcases mem_integerToString16 member with isDigit | minus
  · exact absurd isDigit.2 (by decide)
  · exact absurd minus (by decide)

theorem suffix_last (port : Int32) :
    (colon :: integerToString16 port).getLast? ≠ some 93 := by
  intro bracket
  obtain ⟨unit, rest, numeral⟩ := List.exists_cons_of_ne_nil (integerToString16_ne_nil port)
  have member : (93 : UInt16) ∈ integerToString16 port := by
    rw [numeral, List.getLast?_cons_cons, ← numeral] at bracket
    exact List.mem_of_getLast? bracket
  rcases mem_integerToString16 member with isDigit | minus
  · exact absurd isDigit.2 (by decide)
  · exact absurd minus (by decide)

theorem suffix_apart (delimited : Delimited host)
    (same : host = host' ++ colon :: integerToString16 port) : False := by
  have ends := delimited (same ▸ List.mem_append_right _ List.mem_cons_self)
  rw [same, List.getLast?_append_of_ne_nil] at ends
  · exact suffix_last port ends
  · exact List.cons_ne_nil _ _

theorem suffix_split (documented : constants.Documented) (delimited : Delimited host)
    (delimited' : Delimited host')
    (same : host ++ portSuffix constants scheme port = host' ++ portSuffix constants scheme port') :
    host = host' ∧ port = port' := by
  rw [portSuffix, portSuffix] at same
  split at same
  · rename_i default
    split at same
    · rename_i default'
      rw [List.append_nil, List.append_nil] at same
      exact ⟨same, documented.onePort scheme port port' default default'⟩
    · rw [List.append_nil] at same
      exact (suffix_apart delimited same).elim
  · split at same
    · rw [List.append_nil] at same
      exact (suffix_apart delimited' same.symm).elim
    · obtain ⟨hosts, ports⟩ := split_last (colon_notMem_numeral port) (colon_notMem_numeral port') same
      exact ⟨hosts, integerToString16_injective ports⟩

theorem scheme_plain (accepted : scheme = kHttp ∨ scheme = kHttps ∨ scheme = kFile ∨ scheme = kRes) :
    lowerString scheme = scheme ∧ colon ∉ scheme := by
  rcases accepted with rfl | rfl | rfl | rfl <;> exact ⟨by decide, by decide⟩

theorem initArguments_accepted (documented : constants.Documented) (splits : parser.SplitsHost fullUrl)
    (arguments : initArguments parser constants fullUrl = some (scheme, host, port)) :
    (scheme = kHttp ∨ scheme = kHttps ∨ scheme = kFile ∨ scheme = kRes) ∧ Delimited host := by
  have unknown : Delimited kUnknownDomain := by
    intro member
    exact absurd member (by decide)
  rw [initArguments] at arguments
  split at arguments
  · contradiction
  · simp only at arguments
    split at arguments
    · rename_i http
      split at arguments
      · contradiction
      · split at arguments
        · contradiction
        · cases arguments
          exact ⟨http.imp_right .inl, splits⟩
    · split at arguments
      · cases arguments
        exact ⟨.inr (.inr (.inl documented.kFileScheme)), unknown⟩
      · split at arguments
        · cases arguments
          exact ⟨.inr (.inr (.inr documented.kResScheme)), unknown⟩
        · contradiction

theorem initFromUrl_accepted (documented : constants.Documented) (splits : parser.SplitsHost fullUrl)
    (accepts : before.initFromUrl parser constants fullUrl = (origin, true)) :
    ∃ host, initArguments parser constants fullUrl = some (origin.scheme, host, origin.port) ∧
      colon ∉ origin.scheme ∧ Delimited host ∧ origin.host = lowerString host ∧
      origin.url = origin.scheme ++ colon :: 47 :: 47 ::
        (host ++ portSuffix constants origin.scheme origin.port) := by
  rw [SecurityOrigin.initFromUrl] at accepts
  split at accepts
  · cases accepts
  · rename_i scheme host port arguments
    obtain ⟨accepted, delimited⟩ := initArguments_accepted documented splits arguments
    obtain ⟨lower, plain⟩ := scheme_plain accepted
    rw [SecurityOrigin.init, lower] at accepts
    split at accepts
    · cases accepts
    · cases accepts
      refine ⟨host, arguments, plain, delimited, rfl, ?_⟩
      rw [portSuffix]
      simp only
      split
      · rw [List.append_nil, List.append_assoc]
        rfl
      · rw [List.append_assoc, List.append_assoc, List.append_assoc]
        rfl

theorem url_split (documented : constants.Documented) (plain : colon ∉ scheme)
    (plain' : colon ∉ scheme') (delimited : Delimited host) (delimited' : Delimited host')
    (same : scheme ++ colon :: 47 :: 47 :: (host ++ portSuffix constants scheme port) =
      scheme' ++ colon :: 47 :: 47 :: (host' ++ portSuffix constants scheme' port')) :
    scheme = scheme' ∧ host = host' ∧ port = port' := by
  obtain ⟨schemes, rests⟩ := split_first plain plain' same
  obtain rfl : scheme = scheme' := schemes
  have rests := (List.cons.inj (List.cons.inj rests).2).2
  obtain ⟨hosts, ports⟩ := suffix_split documented delimited delimited' rests
  exact ⟨rfl, hosts, ports⟩

/-- Comparing origins and comparing their urls agree unless a host is spelled in two ways. -/
theorem sameOrigin_url_iff (documented : constants.Documented) {first second : String16}
    {before before' origin other : SecurityOrigin} (splits : parser.SplitsHost first)
    (splits' : parser.SplitsHost second)
    (accepts : before.initFromUrl parser constants first = (origin, true))
    (accepts' : before'.initFromUrl parser constants second = (other, true)) :
    ((origin.isSameOrigin other = true ↔ origin.url = other.url) ↔
      SpelledAlike parser constants first second) := by
  obtain ⟨host, arguments, plain, delimited, lower, url⟩ :=
    initFromUrl_accepted documented splits accepts
  obtain ⟨host', arguments', plain', delimited', lower', url'⟩ :=
    initFromUrl_accepted documented splits' accepts'
  have sameOrigin : origin.isSameOrigin other = true ↔ origin.scheme = other.scheme ∧
      origin.port = other.port ∧ lowerString host = lowerString host' := by
    rw [SecurityOrigin.isSameOrigin, lower, lower']
    simp only [Bool.and_eq_true, beq_iff_eq]
    constructor
    · rintro ⟨⟨ports, schemes⟩, hosts⟩
      exact ⟨schemes, ports, hosts⟩
    · rintro ⟨schemes, ports, hosts⟩
      exact ⟨⟨ports, schemes⟩, hosts⟩
  have sameUrl : origin.url = other.url ↔ origin.scheme = other.scheme ∧ host = host' ∧
      origin.port = other.port := by
    rw [url, url']
    constructor
    · exact url_split documented plain plain' delimited delimited'
    · rintro ⟨schemes, hosts, ports⟩
      rw [schemes, hosts, ports]
  have alike : SpelledAlike parser constants first second ↔
      (origin.scheme = other.scheme → origin.port = other.port →
        lowerString host = lowerString host' → host = host') := by
    rw [SpelledAlike, arguments, arguments']
    constructor
    · intro alike schemes ports
      apply alike origin.scheme host host' origin.port rfl
      rw [schemes, ports]
    · intro alike scheme given given' port is is' hosts
      rw [Option.some.injEq, Prod.mk.injEq, Prod.mk.injEq] at is is'
      obtain ⟨schemes, rfl, ports⟩ := is
      obtain ⟨schemes', rfl, ports'⟩ := is'
      exact alike (schemes.trans schemes'.symm) (ports.trans ports'.symm) hosts
  rw [sameOrigin, sameUrl, alike]
  constructor
  · intro agree schemes ports hosts
    exact (agree.mp ⟨schemes, ports, hosts⟩).2.1
  · intro alike
    constructor
    · rintro ⟨schemes, ports, hosts⟩
      exact ⟨schemes, alike schemes ports hosts, ports⟩
    · rintro ⟨schemes, hosts, ports⟩
      exact ⟨schemes, ports, congrArg lowerString hosts⟩

end

def defaultPort (scheme : String16) : Option Int32 :=
  if scheme = kHttp then some 80
  else if scheme = kHttps then some 443
  else if scheme = kFile then some 0
  else none

def httpConstants : HttpConstants where
  kHttpsScheme := kHttps
  kFileScheme := kFile
  kResScheme := kRes
  kHttpDefaultPort := 80
  kHttpsDefaultPort := 443
  isDefaultPort scheme port := defaultPort scheme == some port

def plainParser : UrlParse where
  extractScheme fullUrl :=
    if colon ∈ fullUrl then some ⟨0, fullUrl.idxOf colon⟩ else none
  parseStandardURL fullUrl :=
    let behind := fullUrl.idxOf colon + 1
    let start := behind + ((fullUrl.drop behind).takeWhile (· == 47)).length
    let authority := (fullUrl.drop start).takeWhile fun unit => unit != 47 && unit != 63 && unit != 35
    let host := authority.takeWhile (· != colon)
    { username := ⟨0, -1⟩
      password := ⟨0, -1⟩
      host := ⟨start, if host = [] then -1 else host.length⟩
      port :=
        if colon ∈ authority then
          ⟨start + host.length + 1, (authority.length - (host.length + 1) : Nat)⟩
        else ⟨0, -1⟩ }

theorem httpConstants_documented : httpConstants.Documented where
  kFileScheme := rfl
  kResScheme := rfl
  onePort scheme port port' default default' := by
    have first : defaultPort scheme = some port := beq_iff_eq.mp default
    have second : defaultPort scheme = some port' := beq_iff_eq.mp default'
    exact Option.some.inj (first.symm.trans second)

instance (host : String16) : Decidable (Delimited host) :=
  inferInstanceAs (Decidable (colon ∈ host → host.getLast? = some 93))

instance (parser : UrlParse) (fullUrl : String16) : Decidable (parser.SplitsHost fullUrl) :=
  inferInstanceAs (Decidable (Delimited _))

def originOf (fullUrl : String16) : SecurityOrigin :=
  (SecurityOrigin.blank.initFromUrl plainParser httpConstants fullUrl).1

def longUrl : String16 :=
  string16 ['H', 'T', 'T', 'P', ':', '/', '/', 'a', '.', 'c', ':', '0', '8', '0', '/', 'x']

def shortUrl : String16 := string16 ['h', 't', 't', 'p', ':', '/', '/', 'a', '.', 'c']

def capitalUrl : String16 := string16 ['h', 't', 't', 'p', ':', '/', '/', 'A', '.', 'c']

theorem sameOrigin_url_long : (originOf longUrl).url = shortUrl ∧
    (((originOf longUrl).isSameOrigin (originOf shortUrl) = true ↔
      (originOf longUrl).url = (originOf shortUrl).url) ↔
        SpelledAlike plainParser httpConstants longUrl shortUrl) := by
  have accepts : SecurityOrigin.blank.initFromUrl plainParser httpConstants longUrl =
      (originOf longUrl, true) := by decide +kernel
  have accepts' : SecurityOrigin.blank.initFromUrl plainParser httpConstants shortUrl =
      (originOf shortUrl, true) := by decide +kernel
  exact ⟨by decide +kernel, sameOrigin_url_iff httpConstants_documented (by decide +kernel)
    (by decide +kernel) accepts accepts'⟩

theorem capital_host : plainParser.SplitsHost capitalUrl ∧ plainParser.SplitsHost shortUrl ∧
    SecurityOrigin.blank.initFromUrl plainParser httpConstants capitalUrl =
      (originOf capitalUrl, true) ∧
    SecurityOrigin.blank.initFromUrl plainParser httpConstants shortUrl =
      (originOf shortUrl, true) ∧
    (originOf capitalUrl).isSameOrigin (originOf shortUrl) = true ∧
    (originOf capitalUrl).url = capitalUrl ∧ (originOf shortUrl).url = shortUrl ∧
    ¬ ((originOf capitalUrl).isSameOrigin (originOf shortUrl) = true ↔
      (originOf capitalUrl).url = (originOf shortUrl).url) := by
  decide +kernel

end ThreadIpc.SecurityModel
