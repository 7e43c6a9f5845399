import ThreadIpc.SecurityModel.Identity

/-!
# Explicit ports

`InitFromUrl` takes the digits that the text of a port begins with for the whole of it.
-/

namespace ThreadIpc.SecurityModel

structure ExplicitPort (parser : UrlParse) (fullUrl text : String16) : Prop where
  scheme : ∃ component, parser.extractScheme fullUrl = some component ∧
    (lowerString (component.of fullUrl) = kHttp ∨ lowerString (component.of fullUrl) = kHttps)
  nonempty : 0 < (parser.parseStandardURL fullUrl).port.len
  text : (parser.parseStandardURL fullUrl).port.of fullUrl = text

structure NamesHost (parser : UrlParse) (fullUrl : String16) : Prop where
  username : (parser.parseStandardURL fullUrl).username.len = -1
  password : (parser.parseStandardURL fullUrl).password.len = -1
  host : (parser.parseStandardURL fullUrl).host.len ≠ -1
  nonempty : (parser.parseStandardURL fullUrl).host.of fullUrl ≠ []

def Numeral (text : String16) : Prop := text ≠ [] ∧ ∀ unit ∈ text, IsDigit unit

def numeralValue (text : String16) : Nat :=
  text.foldl (fun value unit => value * 10 + (unit.toNat - 48)) 0

def IsPort (text : String16) : Prop := Numeral text ∧ numeralValue text ≤ 65535

section
variable (parser : UrlParse) (constants : HttpConstants)

def ReadsPort (fullUrl text : String16) : Prop :=
  ∀ before origin : SecurityOrigin, before.initFromUrl parser constants fullUrl = (origin, true) →
    IsPort text ∧ origin.port.toInt = numeralValue text

def KeepsPortsApart (first text second text' : String16) : Prop :=
  ∀ before before' origin other : SecurityOrigin,
    before.initFromUrl parser constants first = (origin, true) →
    before'.initFromUrl parser constants second = (other, true) → origin.isSameOrigin other = true →
    Numeral text ∧ Numeral text' ∧ numeralValue text = numeralValue text'

end

section
variable {parser : UrlParse} {constants : HttpConstants} {fullUrl text : String16}
  {before origin : SecurityOrigin}

theorem leadingNumber_digits (digits : ∀ unit ∈ text, IsDigit unit) (value : Nat) :
    leadingNumber text value =
      (text.foldl (fun value unit => value * 10 + (unit.toNat - 48)) value : Nat) := by
  induction text generalizing value with
  | nil => rfl
  | cons unit rest ih =>
      have isDigit : 48 ≤ unit ∧ unit ≤ 57 := digits unit List.mem_cons_self
      have above : 48 ≤ unit.toNat := UInt16.le_iff_toNat_le.mp isDigit.1
      rw [leadingNumber, if_pos isDigit, List.foldl_cons,
        ← ih fun unit member => digits unit (List.mem_cons_of_mem _ member)]
      congr 1
      omega

theorem parseLeadingInteger_port (isPort : IsPort text) :
    (parseLeadingInteger text).toInt = numeralValue text := by
  obtain ⟨⟨_, digits⟩, small⟩ := isPort
  have value : leadingNumber text 0 = numeralValue text := leadingNumber_digits digits 0
  rw [parseLeadingInteger, value, Int32.toInt_ofInt_of_le]
  · omega
  · omega

theorem ExplicitPort.accepted_iff (explicit : ExplicitPort parser fullUrl text)
    (before : SecurityOrigin) :
    (∃ origin, before.initFromUrl parser constants fullUrl = (origin, true)) ↔
      NamesHost parser fullUrl := by
  obtain ⟨⟨component, extracted, http⟩, nonempty, _⟩ := explicit
  have whole : fullUrl ≠ [] := by
    rintro rfl
    rw [Component.of, List.drop_nil, List.take_nil] at http
    exact absurd http (by decide)
  have scheme : lowerString (component.of fullUrl) ≠ [] := by
    intro nothing
    rw [nothing] at http
    exact absurd http (by decide)
  rw [SecurityOrigin.initFromUrl, initArguments, extracted]
  simp only [if_pos http]
  constructor
  · rintro ⟨origin, accepts⟩
    split at accepts
    · cases accepts
    · rename_i arguments
      split at arguments
      · cases arguments
      · rename_i noUser
        split at arguments
        · cases arguments
        · rename_i host
          cases arguments
          rw [SecurityOrigin.init] at accepts
          split at accepts
          · cases accepts
          · rename_i some_
            rw [not_or, not_not, not_not] at noUser
            exact ⟨noUser.1, noUser.2, host, fun nothing => some_ (.inr (.inr nothing))⟩
  · rintro ⟨username, password, host, some_⟩
    have noUser : ¬ ((parser.parseStandardURL fullUrl).username.len ≠ -1 ∨
        (parser.parseStandardURL fullUrl).password.len ≠ -1) := by
      rw [username, password]
      decide
    have given : ¬ (fullUrl = [] ∨ lowerString (component.of fullUrl) = [] ∨
        (parser.parseStandardURL fullUrl).host.of fullUrl = []) := by
      rintro (nothing | nothing | nothing)
      · exact whole nothing
      · exact scheme nothing
      · exact some_ nothing
    rw [if_neg noUser, if_neg host]
    simp only
    rw [SecurityOrigin.init, if_neg given]
    exact ⟨_, rfl⟩

theorem ExplicitPort.port (explicit : ExplicitPort parser fullUrl text)
    (accepts : before.initFromUrl parser constants fullUrl = (origin, true)) :
    origin.port = parseLeadingInteger text := by
  obtain ⟨⟨component, extracted, http⟩, nonempty, rfl⟩ := explicit
  rw [SecurityOrigin.initFromUrl, initArguments, extracted] at accepts
  simp only [if_pos http, if_pos nonempty] at accepts
  split at accepts
  · cases accepts
  · rename_i arguments
    split at arguments
    · cases arguments
    · split at arguments
      · cases arguments
      · cases arguments
        rw [SecurityOrigin.init] at accepts
        split at accepts
        · cases accepts
        · cases accepts
          rfl

theorem readsPort_iff (explicit : ExplicitPort parser fullUrl text) :
    ReadsPort parser constants fullUrl text ↔ (NamesHost parser fullUrl → IsPort text) := by
  constructor
  · intro reads names
    have accepted : ∃ origin,
        SecurityOrigin.blank.initFromUrl parser constants fullUrl = (origin, true) :=
      (explicit.accepted_iff SecurityOrigin.blank).mpr names
    obtain ⟨origin, accepts⟩ := accepted
    exact (reads _ _ accepts).1
  · intro isPort before origin accepts
    have valid := isPort ((explicit.accepted_iff before).mp ⟨origin, accepts⟩)
    refine ⟨valid, ?_⟩
    rw [explicit.port accepts]
    exact parseLeadingInteger_port valid

/-- Ports are read as they are written, and kept apart, exactly when the URLs that are accepted have
valid ones. -/
theorem ports_iff {first second text text' : String16} (explicit : ExplicitPort parser first text)
    (explicit' : ExplicitPort parser second text') :
    (ReadsPort parser constants first text ∧ ReadsPort parser constants second text' ∧
        KeepsPortsApart parser constants first text second text') ↔
      (NamesHost parser first → IsPort text) ∧ (NamesHost parser second → IsPort text') := by
  have reads_iff : ReadsPort parser constants first text ↔ (NamesHost parser first → IsPort text) :=
    readsPort_iff explicit
  have reads_iff' :
      ReadsPort parser constants second text' ↔ (NamesHost parser second → IsPort text') :=
    readsPort_iff explicit'
  rw [← reads_iff, ← reads_iff']
  constructor
  · rintro ⟨reads, reads', _⟩
    exact ⟨reads, reads'⟩
  · rintro ⟨reads, reads'⟩
    refine ⟨reads, reads', ?_⟩
    intro before before' origin other accepts accepts' same
    obtain ⟨valid, port⟩ := reads before origin accepts
    obtain ⟨valid', port'⟩ := reads' before' other accepts'
    have ports : origin.port = other.port := by
      rw [SecurityOrigin.isSameOrigin, Bool.and_eq_true, Bool.and_eq_true, beq_iff_eq] at same
      exact same.1.1
    refine ⟨valid.1, valid'.1, Int.ofNat_inj.mp ?_⟩
    rw [← port, ← port', ports]

end

instance : DecidablePred IsDigit := fun _ => inferInstanceAs (Decidable (_ ∧ _))

instance (text : String16) : Decidable (Numeral text) :=
  decidable_of_iff (text ≠ [] ∧ text.Forall IsDigit) (and_congr_right' List.forall_iff_forall_mem)

instance (text : String16) : Decidable (IsPort text) := inferInstanceAs (Decidable (_ ∧ _))

def portUrl : String16 :=
  string16 ['h', 't', 't', 'p', ':', '/', '/', 'a', '.', 'c', ':', '8', '0']

def trailingUrl : String16 := portUrl ++ string16 ['x']

theorem portUrl_explicit : ExplicitPort plainParser portUrl (string16 ['8', '0']) := by
  refine ⟨⟨⟨0, 4⟩, rfl, .inl ?_⟩, ?_, ?_⟩ <;> decide +kernel

theorem trailingUrl_explicit : ExplicitPort plainParser trailingUrl (string16 ['8', '0', 'x']) := by
  refine ⟨⟨⟨0, 4⟩, rfl, .inl ?_⟩, ?_, ?_⟩ <;> decide +kernel

theorem portUrl_read : ReadsPort plainParser httpConstants portUrl (string16 ['8', '0']) ∧
    KeepsPortsApart plainParser httpConstants portUrl (string16 ['8', '0']) portUrl
      (string16 ['8', '0']) := by
  obtain ⟨reads, _, apart⟩ := (ports_iff portUrl_explicit portUrl_explicit).mpr
    ⟨fun _ => by decide, fun _ => by decide⟩
  exact ⟨reads, apart⟩

theorem trailing_text_accepted :
    ExplicitPort plainParser trailingUrl (string16 ['8', '0', 'x']) ∧
    SecurityOrigin.blank.initFromUrl plainParser httpConstants trailingUrl =
      (originOf trailingUrl, true) ∧
    (originOf trailingUrl).port = 80 ∧
    (originOf trailingUrl).isSameOrigin (originOf portUrl) = true ∧
    ¬ ReadsPort plainParser httpConstants trailingUrl (string16 ['8', '0', 'x']) ∧
    ¬ KeepsPortsApart plainParser httpConstants trailingUrl (string16 ['8', '0', 'x']) portUrl
      (string16 ['8', '0']) := by
  have accepts : SecurityOrigin.blank.initFromUrl plainParser httpConstants trailingUrl =
      (originOf trailingUrl, true) := by decide +kernel
  have accepts' : SecurityOrigin.blank.initFromUrl plainParser httpConstants portUrl =
      (originOf portUrl, true) := by decide +kernel
  have same : (originOf trailingUrl).isSameOrigin (originOf portUrl) = true := by decide +kernel
  have noNumeral : ¬ Numeral (string16 ['8', '0', 'x']) := by decide
  refine ⟨trailingUrl_explicit, accepts, by decide +kernel, same, ?_, ?_⟩
  · intro reads
    exact noNumeral (reads _ _ accepts).1.1
  · intro apart
    exact noNumeral (apart _ _ _ _ accepts accepts' same).1

end ThreadIpc.SecurityModel
