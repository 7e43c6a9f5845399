import ThreadIpc.StringUtils.Model
import Mathlib.Order.Bounds.Defs

/-!
# The first occurrence

What the scan has matched and where it began say which positions are settled: when a comparison
fails, only the position where the attempt began is given up.
-/

namespace ThreadIpc.StringUtils

open CharT

section Span

variable {α : Type} {memory : List α}

structure Span {α : Type} (memory : List α) where
  start : Nat
  len : Nat
  inside : start + len ≤ memory.length

def Span.chars (span : Span memory) : List α :=
  (memory.drop span.start).take span.len

variable (span : Span memory)

theorem Span.length_chars : span.chars.length = span.len := by
  have inside := span.inside
  rw [Span.chars, List.length_take, List.length_drop]
  omega

theorem readIn_span (k : Nat) :
    readIn memory span.start span.len (span.start + k) = span.chars[k]? := by
  rw [readIn, Span.chars, List.getElem?_take, List.getElem?_drop]
  by_cases inside : k < span.len
  · rw [if_pos inside, if_pos ⟨Nat.le_add_right _ _, Nat.add_lt_add_left inside _⟩]
  · rw [if_neg inside, if_neg]
    omega

theorem readIn_inside {k : Nat} (inside : k < span.len) :
    ∃ c, readIn memory span.start span.len (span.start + k) = some c := by
  rw [readIn_span]
  rw [← span.length_chars] at inside
  exact ⟨_, List.getElem?_eq_getElem inside⟩

end Span

variable {α : Type} [CharT α]

def OccursAt (caseSensitive : Bool) (needle haystack : List α) (i : Nat) : Prop :=
  i ≤ haystack.length ∧
    needle.map (caseFunc caseSensitive) <+: (haystack.drop i).map (caseFunc caseSensitive)

def FirstMatch (caseSensitive : Bool) {memory : List α} (haystack needle : Span memory) :
    Option Nat → Prop
  | none => ∀ i, ¬ OccursAt caseSensitive needle.chars haystack.chars i
  | some found => ∃ i, found = haystack.start + i ∧
      IsLeast {i | OccursAt caseSensitive needle.chars haystack.chars i} i

section Occurrence

variable {caseSensitive : Bool} {needle haystack : List α} {i m : Nat}

def AgreesUpTo (caseSensitive : Bool) (needle haystack : List α) (i m : Nat) : Prop :=
  ∀ k < m, haystack[i + k]?.map (caseFunc caseSensitive) = needle[k]?.map (caseFunc caseSensitive)

theorem agreesUpTo_zero (caseSensitive : Bool) (needle haystack : List α) (i : Nat) :
    AgreesUpTo caseSensitive needle haystack i 0 :=
  fun k before => absurd before (Nat.not_lt_zero k)

theorem AgreesUpTo.succ (agrees : AgreesUpTo caseSensitive needle haystack i m)
    (next : haystack[i + m]?.map (caseFunc caseSensitive) =
      needle[m]?.map (caseFunc caseSensitive)) :
    AgreesUpTo caseSensitive needle haystack i (m + 1) := by
  intro k before
  rcases Nat.lt_succ_iff_lt_or_eq.mp before with before | rfl
  · exact agrees k before
  · exact next

theorem occursAt_iff (some_ : needle ≠ []) : OccursAt caseSensitive needle haystack i ↔
    AgreesUpTo caseSensitive needle haystack i needle.length := by
  have positive := List.length_pos_iff.mpr some_
  rw [OccursAt, List.prefix_iff_getElem?]
  simp only [List.length_map, List.getElem?_map, List.getElem?_drop, List.getElem_map]
  constructor
  · rintro ⟨_, same⟩ k before
    rw [same k before, List.getElem?_eq_getElem before]
    rfl
  · intro agrees
    have first := agrees 0 positive
    rw [List.getElem?_eq_getElem positive, Option.map_some, Option.map_eq_some_iff] at first
    obtain ⟨c, here, _⟩ := first
    refine ⟨Nat.le_of_lt (List.getElem?_eq_some_iff.mp here).1, fun k before => ?_⟩
    rw [agrees k before, List.getElem?_eq_getElem before]
    rfl

theorem OccursAt.add_length_le (occurs : OccursAt caseSensitive needle haystack i) :
    i + needle.length ≤ haystack.length := by
  have fits := occurs.2.length_le
  have inside := occurs.1
  rw [List.length_map, List.length_map, List.length_drop] at fits
  omega

end Occurrence

section Scan

variable {memory : List α} (caseSensitive : Bool) (hay nee : Span memory)

theorem memmatchLoop_step {phaystack haylen pneedle neelen haystack matched : Nat} {c d : α}
    (inside : haystack < phaystack + haylen)
    (hayRead : readIn memory phaystack haylen haystack = some c)
    (needleRead : readIn memory pneedle neelen (pneedle + matched) = some d) :
    memmatchLoop caseSensitive memory phaystack haylen pneedle neelen haystack matched =
      if toInt (caseFunc caseSensitive c) = toInt (caseFunc caseSensitive d) then
        if matched + 1 = neelen then some (some (haystack + 1 - neelen))
        else memmatchLoop caseSensitive memory phaystack haylen pneedle neelen (haystack + 1)
          (matched + 1)
      else memmatchLoop caseSensitive memory phaystack haylen pneedle neelen
        (haystack - matched + 1) 0 := by
  rw [memmatchLoop, dif_pos inside]
  split
  · rename_i hayRead' needleRead'
    cases hayRead.symm.trans hayRead'
    cases needleRead.symm.trans needleRead'
    rfl
  · rename_i fails
    exact (fails c d hayRead needleRead).elim

theorem nextChars_iff {haystack matched i : Nat} {c d : α}
    (position : haystack = hay.start + i + matched)
    (hayRead : readIn memory hay.start hay.len haystack = some c)
    (needleRead : readIn memory nee.start nee.len (nee.start + matched) = some d) :
    hay.chars[i + matched]?.map (caseFunc caseSensitive) =
        nee.chars[matched]?.map (caseFunc caseSensitive) ↔
      toInt (caseFunc caseSensitive c) = toInt (caseFunc caseSensitive d) := by
  rw [← readIn_span, ← readIn_span, ← Nat.add_assoc, ← position, hayRead, needleRead,
    Option.map_some, Option.map_some, Option.some.injEq, toInt_injective.eq_iff]

theorem memmatchLoop_first {haystack matched i : Nat}
    (position : haystack = hay.start + i + matched) (more : matched < nee.len)
    (agrees : AgreesUpTo caseSensitive nee.chars hay.chars i matched)
    (settled : ∀ j < i, ¬ OccursAt caseSensitive nee.chars hay.chars j) :
    ∃ found, memmatchLoop caseSensitive memory hay.start hay.len nee.start nee.len haystack
      matched = some found ∧ FirstMatch caseSensitive hay nee found := by
  have length := nee.length_chars
  have some_ : nee.chars ≠ [] := by
    rw [← List.length_pos_iff, length]
    exact Nat.zero_lt_of_lt more
  induction haystack, matched using memmatchLoop.induct caseSensitive memory hay.start hay.len
    nee.start nee.len generalizing i with
  | case1 haystack matched inside c d needleRead hayRead same last =>
      have complete : AgreesUpTo caseSensitive nee.chars hay.chars i (matched + 1) :=
        agrees.succ ((nextChars_iff caseSensitive hay nee position hayRead needleRead).mpr same)
      rw [memmatchLoop_step caseSensitive inside hayRead needleRead, if_pos same, if_pos last]
      refine ⟨_, rfl, i, by omega, ?_, ?_⟩
      · refine (occursAt_iff some_).mpr ?_
        rw [length, ← last]
        exact complete
      · intro j occurs
        by_contra before
        exact settled j (Nat.lt_of_not_le before) occurs
  | case2 haystack matched inside c d needleRead hayRead same more' ih =>
      rw [memmatchLoop_step caseSensitive inside hayRead needleRead, if_pos same, if_neg more']
      apply ih (by omega) (by omega) _ settled
      apply agrees.succ
      exact (nextChars_iff caseSensitive hay nee position hayRead needleRead).mpr same
  | case3 haystack matched inside c d needleRead hayRead differ ih =>
      rw [memmatchLoop_step caseSensitive inside hayRead needleRead, if_neg differ]
      have fails : ¬ OccursAt caseSensitive nee.chars hay.chars i := by
        rw [occursAt_iff some_, length]
        intro all
        have here := all matched more
        exact differ ((nextChars_iff caseSensitive hay nee position hayRead needleRead).mp here)
      apply ih (show haystack - matched + 1 = hay.start + (i + 1) + 0 by omega)
        (Nat.zero_lt_of_lt more) (agreesUpTo_zero caseSensitive _ _ _)
      intro j before
      rcases Nat.lt_succ_iff_lt_or_eq.mp before with before | rfl
      · exact settled j before
      · exact fails
  | case4 haystack matched inside none_ =>
      obtain ⟨c, hayRead⟩ := readIn_inside hay (show i + matched < hay.len by omega)
      obtain ⟨d, needleRead⟩ := readIn_inside nee more
      rw [← Nat.add_assoc, ← position] at hayRead
      exact (none_ c d hayRead needleRead).elim
  | case5 haystack matched outside =>
      rw [memmatchLoop, dif_neg outside]
      refine ⟨none, rfl, fun j occurs => ?_⟩
      have fits := occurs.add_length_le
      rw [length, hay.length_chars] at fits
      exact settled j (by omega) occurs

theorem occursAt_zero {needle haystack : List α} (front : needle <+: haystack) :
    OccursAt caseSensitive needle haystack 0 :=
  ⟨Nat.zero_le _, front.map _⟩

theorem firstMatch_start (front : nee.chars <+: hay.chars) :
    FirstMatch caseSensitive hay nee (some hay.start) :=
  ⟨0, rfl, occursAt_zero caseSensitive front, fun _ _ => Nat.zero_le _⟩

theorem memmatch_first :
    ∃ found, memmatch memory hay.start hay.len nee.start nee.len caseSensitive = some found ∧
      FirstMatch caseSensitive hay nee found := by
  have length := nee.length_chars
  rw [memmatch]
  split
  · rename_i empty
    rw [empty, List.length_eq_zero_iff] at length
    refine ⟨_, rfl, firstMatch_start caseSensitive hay nee ?_⟩
    rw [length]
    exact List.nil_prefix
  split
  · rename_i longer
    refine ⟨none, rfl, fun i occurs => ?_⟩
    have fits := occurs.add_length_le
    rw [length, hay.length_chars] at fits
    omega
  split
  · rename_i fits same
    refine ⟨_, rfl, firstMatch_start caseSensitive hay nee ?_⟩
    rw [Span.chars, Span.chars, same]
    exact List.take_prefix_take_left (Nat.le_of_not_lt fits)
  · rename_i nonempty _ _
    exact memmatchLoop_first caseSensitive hay nee rfl (Nat.pos_of_ne_zero nonempty)
      (agreesUpTo_zero caseSensitive _ _ 0) fun j before => absurd before (Nat.not_lt_zero j)

end Scan

end ThreadIpc.StringUtils
