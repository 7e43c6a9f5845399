import ThreadIpc.Lib.Glob
import ThreadIpc.StringUtils.Model
import Mathlib.Data.List.Chain

/-!
# Glob matching

`StringMatch` takes the character behind an asterisk for itself, whatever it is. In a run of
asterisks every second one is therefore no wildcard.
-/

namespace ThreadIpc.StringUtils

open CharT Lib.Glob

variable {α : Type} [CharT α]

def IsStar (c : α) : Prop := toInt c = code '*'

instance : DecidablePred (IsStar (α := α)) := fun _ => inferInstanceAs (Decidable (_ = _))

def SameLetter (c d : α) : Prop := toupper (toInt c) = toupper (toInt d)

instance (c d : α) : Decidable (SameLetter c d) := inferInstanceAs (Decidable (_ = _))

def glob (pattern : List α) : List (Token α) :=
  pattern.map fun c => if IsStar c then .any else .one c

/-- Of the characters behind an asterisk, the first one stands for itself. -/
def asRead : List α → List (Token α)
  | [] => []
  | p :: pattern =>
      if IsStar p then
        match pattern with
        | [] => [.any]
        | q :: pattern => .any :: .one q :: asRead pattern
      else .one p :: asRead pattern

def Agrees (target pattern : CString α) : Prop :=
  StringMatch target.chars pattern.chars = true ↔
    Matches SameLetter (glob pattern.chars) target.chars

theorem starLoop_iff (again : List α → Bool) (pattern : α) (target : List α) :
    starLoop again pattern target = true ↔
      ∃ front d rest, target = front ++ d :: rest ∧ SameLetter pattern d ∧ again rest = true := by
  induction target with
  | nil => simp [starLoop]
  | cons t target ih =>
      rw [starLoop, Bool.or_eq_true, Bool.and_eq_true, beq_iff_eq, ih]
      constructor
      · rintro (⟨same, matched⟩ | ⟨front, d, rest, rfl, both⟩)
        · exact ⟨[], t, target, rfl, same, matched⟩
        · exact ⟨t :: front, d, rest, rfl, both⟩
      · rintro ⟨front, d, rest, split_, same, matched⟩
        cases front with
        | nil =>
            cases split_
            exact .inl ⟨same, matched⟩
        | cons _ front =>
            cases split_
            exact .inr ⟨front, d, rest, rfl, same, matched⟩

theorem asRead_character {p : α} (noStar : ¬ IsStar p) (pattern : List α) :
    asRead (p :: pattern) = .one p :: asRead pattern := by
  cases pattern <;> simp [asRead, noStar]

theorem stringMatch_character {p : α} (noStar : ¬ IsStar p) (t : α) (target pattern : List α) :
    StringMatch (t :: target) (p :: pattern) = true ↔
      SameLetter p t ∧ StringMatch target pattern = true := by
  have noStar' : ¬ toInt p = code '*' := noStar
  by_cases same : SameLetter p t
  · have same' : toupper (toInt p) = toupper (toInt t) := same
    cases pattern <;> simp [StringMatch, noStar', same, same']
  · have other : ¬ toupper (toInt p) = toupper (toInt t) := same
    cases pattern <;> simp [StringMatch, noStar', same, other]

theorem stringMatch_iff (target pattern : List α) :
    StringMatch target pattern = true ↔ Matches SameLetter (asRead pattern) target := by
  induction pattern using asRead.induct generalizing target with
  | case1 => simp [StringMatch, asRead]
  | case2 p star => simp [StringMatch, asRead, star, show toInt p = code '*' from star]
  | case3 p star q pattern ih =>
      have star' : toInt p = code '*' := star
      simp only [StringMatch, asRead, if_pos star, if_pos star', starLoop_iff, matches_any_one_iff,
        ih]
  | case4 p pattern noStar ih =>
      have noStar' : ¬ toInt p = code '*' := noStar
      rw [asRead_character noStar]
      cases target with
      | nil => cases pattern <;> simp [StringMatch, noStar']
      | cons t target => rw [stringMatch_character noStar, matches_one_cons_iff, ih]

theorem asRead_narrow (pattern : List α) :
    List.Forall₂ (fun token token' => token' = token ∨ token' = .any) (asRead pattern)
      (glob pattern) := by
  have widened (c : α) : (if IsStar c then Token.any else .one c) = .one c ∨
      (if IsStar c then Token.any else .one c) = .any := by
    split
    · exact .inr rfl
    · exact .inl rfl
  induction pattern using asRead.induct with
  | case1 => exact .nil
  | case2 p star => simp [asRead, glob, star]
  | case3 p star q pattern ih =>
      simp only [asRead, glob, List.map_cons, if_pos star]
      exact .cons (.inl rfl) (.cons (widened q) ih)
  | case4 p pattern noStar ih =>
      rw [asRead_character noStar]
      simp only [glob, List.map_cons, if_neg noStar]
      exact .cons (.inl rfl) ih

theorem agrees_iff (target pattern : CString α) : Agrees target pattern ↔
    (Matches SameLetter (glob pattern.chars) target.chars →
      Matches SameLetter (asRead pattern.chars) target.chars) := by
  rw [Agrees, stringMatch_iff]
  constructor
  · exact fun same => same.mpr
  · exact fun read => ⟨fun matched => matched.widen (asRead_narrow _), read⟩

def StarsApart (pattern : List α) : Prop := pattern.IsChain fun c d => ¬(IsStar c ∧ IsStar d)

theorem asRead_starsApart {pattern : List α} (apart : StarsApart pattern) :
    asRead pattern = glob pattern := by
  induction pattern using asRead.induct with
  | case1 => rfl
  | case2 p star => simp [asRead, glob, star]
  | case3 p star q pattern ih =>
      obtain ⟨notBoth, apart⟩ := List.isChain_cons_cons.mp apart
      have noStar : ¬ IsStar q := fun star' => notBoth ⟨star, star'⟩
      simp only [asRead, glob, List.map_cons, if_pos star, if_neg noStar]
      rw [ih apart.of_cons, glob]
  | case4 p pattern noStar ih =>
      rw [asRead_character noStar, ih apart.of_cons]
      simp only [glob, List.map_cons, if_neg noStar]

theorem exists_star_asRead {pattern : List α} (together : ¬ StarsApart pattern) :
    ∃ star, IsStar star ∧ .one star ∈ asRead pattern := by
  induction pattern using asRead.induct with
  | case1 => exact absurd List.IsChain.nil together
  | case2 p star => exact absurd (List.IsChain.singleton p) together
  | case3 p star q pattern ih =>
      simp only [asRead, if_pos star]
      by_cases star' : IsStar q
      · exact ⟨q, star', by simp⟩
      · have later : ¬ StarsApart pattern := by
          intro apart
          apply together
          apply List.isChain_cons_cons.mpr
          refine ⟨fun both => star' both.2, ?_⟩
          cases pattern with
          | nil => exact List.IsChain.singleton q
          | cons r pattern => exact List.isChain_cons_cons.mpr ⟨fun both => star' both.1, apart⟩
        obtain ⟨star'', isStar, member⟩ := ih later
        exact ⟨star'', isStar, by simp [member]⟩
  | case4 p pattern noStar ih =>
      rw [asRead_character noStar]
      have later : ¬ StarsApart pattern := by
        intro apart
        apply together
        cases pattern with
        | nil => exact List.IsChain.singleton p
        | cons q pattern => exact List.isChain_cons_cons.mpr ⟨fun both => noStar both.1, apart⟩
      obtain ⟨star, isStar, member⟩ := ih later
      exact ⟨star, isStar, List.mem_cons_of_mem _ member⟩

def CString.unstarred (pattern : CString α) : CString α where
  chars := pattern.chars.filter fun c => !decide (IsStar c)
  noNul c member := pattern.noNul c (List.mem_filter.mp member).1

theorem unstarred_matches (pattern : List α) :
    Matches SameLetter (glob pattern) (pattern.filter fun c => !decide (IsStar c)) := by
  induction pattern with
  | nil => exact .nil
  | cons c pattern ih =>
      by_cases star : IsStar c
      · simp only [glob, List.map_cons, List.filter_cons, star, decide_true,
          Bool.not_true, Bool.false_eq_true, if_false]
        exact .any [] ih
      · simp only [glob, List.map_cons, List.filter_cons, star, decide_false,
          Bool.not_false, if_true]
        exact .one rfl ih

theorem SameLetter.isStar {c d : α} (same : SameLetter c d) (star : IsStar c) : IsStar d := by
  have upper : toupper (toInt c) = code '*' := by
    rw [show toInt c = code '*' from star]
    rfl
  rw [SameLetter, upper, toupper] at same
  have letter : code '*' = 42 ∧ code 'a' = 97 ∧ code 'z' = 122 := ⟨rfl, rfl, rfl⟩
  rw [IsStar]
  split at same <;> omega

/-- Right for every string exactly if no two asterisks are adjacent, and for a single string as long
as it matches the pattern as it is read or not at all. -/
theorem stringMatch_right_iff (pattern : CString α) :
    ((∀ target, Agrees target pattern) ↔ StarsApart pattern.chars) ∧
      ∀ target, Agrees target pattern ↔
        (Matches SameLetter (glob pattern.chars) target.chars →
          Matches SameLetter (asRead pattern.chars) target.chars) := by
  refine ⟨⟨?_, ?_⟩, fun target => agrees_iff target pattern⟩
  · intro agrees
    by_contra together
    obtain ⟨star, isStar, member⟩ := exists_star_asRead together
    have matched := (agrees_iff pattern.unstarred pattern).mp (agrees _)
      (unstarred_matches pattern.chars)
    obtain ⟨d, inText, same⟩ := matched.exists_same member
    have noStar : ¬ IsStar d := by simpa using (List.mem_filter.mp inText).2
    exact noStar (same.isStar isStar)
  · intro apart target
    rw [agrees_iff, asRead_starsApart apart]
    exact id

def twoStars : CString Int8 :=
  ⟨[ofInt 42, ofInt 42],
    List.forall_mem_cons.mpr ⟨by decide, List.forall_mem_singleton.mpr (by decide)⟩⟩

def letter : CString Int8 := ⟨[ofInt 97], List.forall_mem_singleton.mpr (by decide)⟩

theorem two_stars_do_not_match :
    Matches SameLetter (glob twoStars.chars) letter.chars ∧
      StringMatch letter.chars twoStars.chars = false ∧ ¬ Agrees letter twoStars := by
  have matched : Matches SameLetter (glob twoStars.chars) letter.chars :=
    .any [ofInt 97] (.any [] .nil)
  have refused : StringMatch letter.chars twoStars.chars = false := by decide
  refine ⟨matched, refused, fun agrees => ?_⟩
  rw [Agrees, refused] at agrees
  exact Bool.false_ne_true (agrees.mpr matched)

end ThreadIpc.StringUtils
