import ThreadIpc.SecurityModel.Identity

/-!
# `IsSubDomainOf`

The reverse iterators are what is left of the hosts, read from the end. Reading at `rend()` has no
outcome.
-/

namespace ThreadIpc.SecurityModel

def dot : UInt16 := 46

def scanHosts : String16 → String16 → Option Bool
  | unit :: rhost, unit' :: parentRhost =>
      if unit ≠ unit' then some false
      else if parentRhost = [] then some (decide (rhost = [] ∨ rhost.head? = some dot))
      else scanHosts rhost parentRhost
  | _, _ => none

namespace SecurityOrigin

def isSubDomainOf (origin parent : SecurityOrigin) : Option Bool :=
  if origin.port ≠ parent.port ∨ origin.scheme ≠ parent.scheme ∨
      origin.host.length < parent.host.length then some false
  else scanHosts origin.host.reverse parent.host.reverse

def copyFrom (securityOrigin origin : SecurityOrigin) : SecurityOrigin :=
  { origin with
    initialized := securityOrigin.initialized
    url := securityOrigin.url
    fullUrl := securityOrigin.fullUrl
    scheme := securityOrigin.scheme
    host := securityOrigin.host
    port := securityOrigin.port
    portString := securityOrigin.portString }

end SecurityOrigin

/-- What the constructors and the methods can make of an origin. -/
inductive Built (parser : UrlParse) (constants : HttpConstants) : SecurityOrigin → Prop
  | blank : Built parser constants .blank
  | init {origin : SecurityOrigin} (fullUrl scheme host : String16) (port : Int32) :
      Built parser constants origin →
        Built parser constants (origin.init constants fullUrl scheme host port).1
  | initFromUrl {origin : SecurityOrigin} (fullUrl : String16) : Built parser constants origin →
      Built parser constants (origin.initFromUrl parser constants fullUrl).1
  | copyFrom {origin other : SecurityOrigin} : Built parser constants origin →
      Built parser constants other → Built parser constants (origin.copyFrom other)

/-- The parent itself, or a name of its own in front of a dot and the parent. -/
def IsSubDomain (host parent : String16) : Prop :=
  host = parent ∨ ∃ name, host = name ++ dot :: parent

section
variable {parser : UrlParse} {constants : HttpConstants} {parent : SecurityOrigin}

theorem init_host {origin : SecurityOrigin} {fullUrl scheme host : String16} {port : Int32}
    (kept : origin.initialized = true → origin.host ≠ [])
    (initialized : (origin.init constants fullUrl scheme host port).1.initialized = true) :
    (origin.init constants fullUrl scheme host port).1.host ≠ [] := by
  rw [SecurityOrigin.init] at initialized ⊢
  split
  · rename_i refused
    rw [if_pos refused] at initialized
    exact kept initialized
  · rename_i given
    rw [not_or, not_or] at given
    intro nothing
    exact given.2.2 (List.map_eq_nil_iff.mp nothing)

theorem Built.host {origin : SecurityOrigin} (built : Built parser constants origin)
    (initialized : origin.initialized = true) : origin.host ≠ [] := by
  induction built with
  | blank => cases initialized
  | init fullUrl scheme host port _ ih => exact init_host ih initialized
  | @initFromUrl before fullUrl _ ih =>
      rw [SecurityOrigin.initFromUrl] at initialized ⊢
      split
      · rename_i none_
        rw [none_] at initialized
        cases initialized
      · rename_i arguments
        rw [arguments] at initialized
        refine init_host ?_ initialized
        intro never
        cases never
  | copyFrom _ _ ih ih' => exact ih initialized

theorem scanHosts_eq {rhost parentRhost : String16} (some_ : parentRhost ≠ [])
    (longer : parentRhost.length ≤ rhost.length) : ∃ answer, scanHosts rhost parentRhost = some answer ∧
      (answer = true ↔ rhost = parentRhost ∨ ∃ rest, rhost = parentRhost ++ dot :: rest) := by
  induction parentRhost generalizing rhost with
  | nil => exact absurd rfl some_
  | cons unit parentRhost ih =>
      cases rhost with
      | nil => exact absurd longer (Nat.not_succ_le_zero _)
      | cons unit' rhost =>
          rw [scanHosts]
          by_cases same : unit' = unit
          · subst same
            rw [if_neg (not_not.mpr rfl)]
            by_cases last : parentRhost = []
            · subst last
              rw [if_pos rfl]
              refine ⟨_, rfl, ?_⟩
              rw [decide_eq_true_eq]
              constructor
              · rintro (nothing | dotted)
                · exact .inl (congrArg (unit' :: ·) nothing)
                · obtain ⟨rest, rfl⟩ := List.head?_eq_some_iff.mp dotted
                  exact .inr ⟨rest, rfl⟩
              · rintro (same | ⟨rest, same⟩)
                · exact .inl (List.cons.inj same).2
                · right
                  rw [(List.cons.inj same).2]
                  rfl
            · rw [if_neg last]
              obtain ⟨answer, scanned, meaning⟩ := ih last (Nat.le_of_succ_le_succ longer)
              refine ⟨answer, scanned, meaning.trans ?_⟩
              simp only [List.cons_append, List.cons.injEq, true_and]
          · rw [if_pos same]
            refine ⟨false, rfl, ?_⟩
            simp only [Bool.false_eq_true, List.cons_append, List.cons.injEq, same, false_and,
              exists_false, or_false]

theorem isSubDomain_reverse (host parent : String16) : IsSubDomain host parent ↔
    host.reverse = parent.reverse ∨ ∃ rest, host.reverse = parent.reverse ++ dot :: rest := by
  constructor
  · rintro (rfl | ⟨name, rfl⟩)
    · exact .inl rfl
    · right
      exact ⟨name.reverse, by simp⟩
  · rintro (same | ⟨rest, same⟩)
    · exact .inl (List.reverse_injective same)
    · right
      refine ⟨rest.reverse, List.reverse_injective ?_⟩
      rw [same]
      simp

theorem isSubDomainOf_decides (origin : SecurityOrigin) (built : Built parser constants parent)
    (initialized : parent.initialized = true) :
    ∃ answer, origin.isSubDomainOf parent = some answer ∧
      (answer = true ↔ origin.scheme = parent.scheme ∧ origin.port = parent.port ∧
        IsSubDomain origin.host parent.host) := by
  rw [SecurityOrigin.isSubDomainOf]
  split
  · rename_i refused
    refine ⟨false, rfl, ?_⟩
    constructor
    · intro never
      cases never
    · rintro ⟨schemes, ports, hosts⟩
      rcases refused with port | scheme | shorter
      · exact absurd ports port
      · exact absurd schemes scheme
      · rcases hosts with same | ⟨name, same⟩
        · rw [same] at shorter
          exact absurd shorter (Nat.lt_irrefl _)
        · rw [same, List.length_append, List.length_cons] at shorter
          omega
  · rename_i alike
    rw [not_or, not_or, not_not, not_not, Nat.not_lt] at alike
    obtain ⟨ports, schemes, longer⟩ := alike
    obtain ⟨answer, scanned, meaning⟩ :=
      @scanHosts_eq origin.host.reverse parent.host.reverse
        (List.reverse_ne_nil_iff.mpr (built.host initialized)) (by simpa using longer)
    refine ⟨answer, scanned, ?_⟩
    rw [meaning, isSubDomain_reverse]
    constructor
    · exact fun hosts => ⟨schemes, ports, hosts⟩
    · exact fun ⟨_, _, hosts⟩ => hosts

end

def subUrl : String16 :=
  string16 ['h', 't', 't', 'p', ':', '/', '/', 'b', '.', 'a', '.', 'c']

theorem subUrl_decides : (originOf subUrl).isSubDomainOf (originOf shortUrl) = some true ∧
    IsSubDomain (originOf subUrl).host (originOf shortUrl).host := by
  have built : Built plainParser httpConstants (originOf shortUrl) := .initFromUrl _ .blank
  obtain ⟨answer, decided, meaning⟩ :=
    isSubDomainOf_decides (originOf subUrl) built (by decide +kernel)
  have yes : (originOf subUrl).isSubDomainOf (originOf shortUrl) = some true := by decide +kernel
  rw [yes, Option.some.injEq] at decided
  exact ⟨yes, (meaning.mp decided.symm).2.2⟩

end ThreadIpc.SecurityModel
