import ThreadIpc.StringUtils.Model

/-!
# Parsing of integers

The digits that have been read keep `total` at the opposite of the number that they denote, so that
the least number of the type is reached without leaving it.
-/

namespace ThreadIpc.StringUtils

open CharT Lib

variable {α : Type} [CharT α]

def IsDigit (c : α) : Prop := code '0' ≤ toInt c ∧ toInt c ≤ code '9'

def digitOf (c : α) : Nat := (toInt c - code '0').toNat

def numberFrom (n : Nat) (digits : List α) : Nat :=
  digits.foldl (fun n c => 10 * n + digitOf c) n

def AllDigits (digits : List α) : Prop := ∀ c ∈ digits, IsDigit c

inductive Denotes : List α → Int → Prop
  | unsigned {digits : List α} : digits ≠ [] → AllDigits digits →
      Denotes digits (numberFrom 0 digits)
  | plus {sign : α} {digits : List α} : toInt sign = code '+' → digits ≠ [] → AllDigits digits →
      Denotes (sign :: digits) (numberFrom 0 digits)
  | minus {sign : α} {digits : List α} : toInt sign = code '-' → digits ≠ [] → AllDigits digits →
      Denotes (sign :: digits) (-numberFrom 0 digits)

def InRange (number : Int) : Prop := -2 ^ 31 ≤ number ∧ number < 2 ^ 31

def ParsesStrictly (s : List α) (result : Option (Option Int)) : Prop :=
  ∃ found, result = some found ∧ ∀ value, found = some value ↔ Denotes s value ∧ InRange value

theorem digitOf_eq {c : α} (digit : IsDigit c) : (digitOf c : Int) = toInt c - code '0' :=
  Int.toNat_of_nonneg (Int.sub_nonneg_of_le digit.1)

theorem le_numberFrom (n : Nat) (digits : List α) : n ≤ numberFrom n digits := by
  induction digits generalizing n with
  | nil => exact Nat.le_refl n
  | cons c digits ih =>
      have further := ih (10 * n + digitOf c)
      rw [numberFrom, List.foldl_cons]
      exact le_trans (by omega) further

theorem lastDigit_eq : lastDigit = some 8 := by decide

theorem accumulate_digit {c : α} (digit : IsDigit c) {n : Nat} (fits : n ≤ 2 ^ 31) (str : List α) :
    accumulate (-n) (c :: str) =
      if 10 * n + digitOf c ≤ 2 ^ 31 then accumulate (-(10 * n + digitOf c : Nat)) str
      else some none := by
  have value := digitOf_eq digit
  obtain ⟨low, high⟩ := digit
  have literals : code '0' = 48 ∧ code '9' = 57 := ⟨rfl, rfl⟩
  have least : kint32min.tdiv 10 = -214748364 := rfl
  have difference : signed 32 (toInt c - code '0') = some (digitOf c : Int) := by
    rw [value]
    exact signed_eq (by omega) (by omega)
  rw [accumulate, if_neg (by omega), if_neg (by omega), difference, lastDigit_eq, least]
  simp only [Option.bind_eq_bind, Option.bind_some]
  by_cases more : 10 * n + digitOf c ≤ 2 ^ 31
  · have scaled : signed 32 (10 * -(n : Int)) = some (10 * -(n : Int)) :=
      signed_eq (by omega) (by omega)
    have sum : signed 32 (10 * -(n : Int) - digitOf c) = some (-((10 * n + digitOf c : Nat) : Int)) := by
      rw [signed_eq (by omega) (by omega)]
      exact congrArg some (by omega)
    rw [if_neg (by omega), if_pos more, scaled, Option.bind_some, sum, Option.bind_some]
  · rw [if_pos (by omega), if_neg more]

theorem accumulate_eq {str : List α} (noNul : ∀ c ∈ str, toInt c ≠ 0) {n : Nat}
    (fits : n ≤ 2 ^ 31) :
    ∃ found, accumulate (-n) str = some found ∧ ∀ total, found = some total ↔
      AllDigits str ∧ numberFrom n str ≤ 2 ^ 31 ∧ total = -numberFrom n str := by
  induction str generalizing n with
  | nil =>
      refine ⟨_, rfl, fun total => ?_⟩
      have noDigits : AllDigits ([] : List α) := fun c member => absurd member List.not_mem_nil
      rw [Option.some.injEq, eq_comm]
      exact ⟨fun same => ⟨noDigits, fits, same⟩, fun same => same.2.2⟩
  | cons c str ih =>
      obtain ⟨notNul, noNul⟩ := List.forall_mem_cons.mp noNul
      by_cases digit : IsDigit c
      · rw [accumulate_digit digit fits]
        split
        · rename_i more
          obtain ⟨found, result, exact_⟩ := ih noNul more
          refine ⟨found, result, fun total => ?_⟩
          rw [exact_, AllDigits, AllDigits, List.forall_mem_cons]
          simp only [digit, true_and]
          rfl
        · rename_i overflow
          refine ⟨none, rfl, fun total => ?_⟩
          simp only [reduceCtorEq, false_iff]
          rintro ⟨_, within, _⟩
          exact absurd (le_trans (le_numberFrom _ str) within) overflow
      · refine ⟨none, ?_, fun total => ?_⟩
        · rw [accumulate, if_neg notNul, if_pos]
          rw [IsDigit] at digit
          omega
        · simp only [reduceCtorEq, false_iff]
          rintro ⟨digits, _⟩
          exact absurd (digits c List.mem_cons_self) digit

section Sign

variable {c : α} {s str : List α}

def IsSign (c : α) : Prop := toInt c = code '-' ∨ toInt c = code '+'

theorem IsSign.not_digit (sign : IsSign c) : ¬ IsDigit c := by
  rintro ⟨low, _⟩
  have literals : code '0' = 48 ∧ code '-' = 45 ∧ code '+' = 43 := ⟨rfl, rfl, rfl⟩
  rcases sign with minus | plus <;> omega

theorem minus_ne_plus : code '-' ≠ code '+' := by decide

theorem denotes_minus (minus : toInt c = code '-') (value : Int) :
    Denotes (c :: str) value ↔ str ≠ [] ∧ AllDigits str ∧ value = -numberFrom 0 str := by
  constructor
  · intro denotes
    cases denotes with
    | unsigned _ digits => exact absurd (digits c List.mem_cons_self) (IsSign.not_digit (.inl minus))
    | plus plus => exact absurd (minus.symm.trans plus) minus_ne_plus
    | minus _ some_ digits => exact ⟨some_, digits, rfl⟩
  · rintro ⟨some_, digits, rfl⟩
    exact .minus minus some_ digits

theorem denotes_plus (plus : toInt c = code '+') (value : Int) :
    Denotes (c :: str) value ↔ str ≠ [] ∧ AllDigits str ∧ value = numberFrom 0 str := by
  constructor
  · intro denotes
    cases denotes with
    | unsigned _ digits => exact absurd (digits c List.mem_cons_self) (IsSign.not_digit (.inr plus))
    | plus _ some_ digits => exact ⟨some_, digits, rfl⟩
    | minus minus => exact absurd (minus.symm.trans plus) minus_ne_plus
  · rintro ⟨some_, digits, rfl⟩
    exact .plus plus some_ digits

theorem denotes_unsigned (noSign : ∀ c ∈ s.head?, ¬ IsSign c) (value : Int) :
    Denotes s value ↔ s ≠ [] ∧ AllDigits s ∧ value = numberFrom 0 s := by
  constructor
  · intro denotes
    cases denotes with
    | unsigned some_ digits => exact ⟨some_, digits, rfl⟩
    | plus plus => exact absurd (.inr plus) (noSign _ rfl)
    | minus minus => exact absurd (.inl minus) (noSign _ rfl)
  · rintro ⟨some_, digits, rfl⟩
    exact .unsigned some_ digits

theorem stringTToInt_minus (minus : toInt c = code '-') (noNul : ∀ c ∈ str, toInt c ≠ 0) :
    ∃ found, StringTToInt (c :: str) = some found ∧ ∀ value, found = some value ↔
      AllDigits str ∧ value = -numberFrom 0 str ∧ InRange value := by
  obtain ⟨found, result, exact_⟩ := accumulate_eq noNul (Nat.zero_le (2 ^ 31))
  refine ⟨found, ?_, fun value => ?_⟩
  · simp only [StringTToInt, List.head?_cons, Option.map_some, Option.getD_some, minus, true_or,
      if_true, List.tail_cons]
    rw [show accumulate 0 str = some found from result]
    cases found <;> rfl
  · rw [exact_, InRange]
    constructor
    · rintro ⟨digits, within, rfl⟩
      exact ⟨digits, rfl, by omega, by omega⟩
    · rintro ⟨digits, rfl, low, _⟩
      exact ⟨digits, by omega, rfl⟩

theorem stringTToInt_plus (noMinus : (s.head?.map toInt).getD 0 ≠ code '-')
    (rest : (if (s.head?.map toInt).getD 0 = code '-' ∨ (s.head?.map toInt).getD 0 = code '+'
      then s.tail else s) = str) (noNul : ∀ c ∈ str, toInt c ≠ 0) :
    ∃ found, StringTToInt s = some found ∧ ∀ value, found = some value ↔
      AllDigits str ∧ value = numberFrom 0 str ∧ InRange value := by
  obtain ⟨found, result, exact_⟩ := accumulate_eq noNul (Nat.zero_le (2 ^ 31))
  have least : kint32min = -2 ^ 31 := rfl
  simp only [StringTToInt]
  rw [rest]
  simp only [noMinus, if_false]
  rw [show accumulate 0 str = some found from result]
  cases found with
  | none =>
      refine ⟨none, rfl, fun value => ?_⟩
      simp only [reduceCtorEq, false_iff]
      rintro ⟨digits, rfl, _, high⟩
      exact absurd ((exact_ _).mpr ⟨digits, by omega, rfl⟩) (Option.some_ne_none _).symm
  | some total =>
      obtain ⟨digits, within, rfl⟩ := (exact_ total).mp rfl
      by_cases overflow : -(numberFrom 0 str : Int) = kint32min
      · refine ⟨none, by simp [overflow], fun value => ?_⟩
        simp only [reduceCtorEq, false_iff]
        rintro ⟨_, rfl, _, high⟩
        omega
      · have negated : signed 32 (numberFrom 0 str) = some (numberFrom 0 str : Int) :=
          signed_eq (by omega) (by omega)
        refine ⟨some (numberFrom 0 str), by simp [overflow, negated], fun value => ?_⟩
        rw [Option.some.injEq, InRange]
        constructor
        · rintro rfl
          exact ⟨digits, rfl, by omega, by omega⟩
        · rintro ⟨_, rfl, _⟩
          rfl

theorem parsesStrictly_iff {number : Int} {result : Option (Option Int)}
    (denotes : ∀ value, Denotes s value ↔ str ≠ [] ∧ AllDigits str ∧ value = number)
    (parsed : ∃ found, result = some found ∧ ∀ value, found = some value ↔
      AllDigits str ∧ value = number ∧ InRange value)
    (nothing : str = [] → number = 0) : ParsesStrictly s result ↔ str ≠ [] := by
  obtain ⟨found, rfl, parsed⟩ := parsed
  constructor
  · rintro ⟨_, same, strict⟩ rfl
    cases same
    have zero : found = some 0 := by
      rw [parsed, nothing rfl]
      exact ⟨fun _ member => absurd member List.not_mem_nil, rfl, by decide, by decide⟩
    exact ((denotes 0).mp ((strict 0).mp zero).1).1 rfl
  · intro some_
    refine ⟨found, rfl, fun value => ?_⟩
    rw [parsed, denotes, and_iff_right some_, and_assoc]

/-- Nothing at all, or a sign with nothing behind it. -/
def WithoutDigits : List α → Prop
  | [] => True
  | [c] => IsSign c
  | _ => False

theorem stringTToInt_strict_iff (s : CString α) :
    ParsesStrictly s.chars (StringTToInt s.chars) ↔ ¬ WithoutDigits s.chars := by
  obtain ⟨s, noNul⟩ := s
  have withoutDigits {c : α} (sign : IsSign c) (str : List α) :
      str ≠ [] ↔ ¬ WithoutDigits (c :: str) := by
    cases str <;> simp [WithoutDigits, sign]
  cases s with
  | nil =>
      have noSign : ∀ c ∈ ([] : List α).head?, ¬ IsSign c := by simp
      rw [parsesStrictly_iff (denotes_unsigned noSign)
        (stringTToInt_plus (s := []) (show (0 : Int) ≠ 45 by decide) rfl noNul) fun _ => rfl]
      simp [WithoutDigits]
  | cons c str =>
      have noNul' := (List.forall_mem_cons.mp noNul).2
      have nothing : str = [] → (numberFrom 0 str : Int) = 0 := by
        rintro rfl
        rfl
      by_cases minus : toInt c = code '-'
      · rw [parsesStrictly_iff (denotes_minus minus) (stringTToInt_minus minus noNul')
          fun empty => neg_eq_zero.mpr (nothing empty), withoutDigits (.inl minus)]
      by_cases plus : toInt c = code '+'
      · rw [parsesStrictly_iff (denotes_plus plus)
          (stringTToInt_plus (s := c :: str) minus (show _ = str from if_pos (.inr plus)) noNul')
          nothing, withoutDigits (.inr plus)]
      · have noSign : ¬ IsSign c := not_or.mpr ⟨minus, plus⟩
        have noSign' : ∀ d ∈ (c :: str).head?, ¬ IsSign d := by simpa using noSign
        rw [parsesStrictly_iff (denotes_unsigned noSign')
          (stringTToInt_plus (s := c :: str) minus (if_neg noSign) noNul) fun empty => by cases empty]
        cases str <;> simp [WithoutDigits, noSign]

end Sign

/-- Strict on every string that is more than a sign. -/
theorem stringToInt_strict_iff (s : CString Int8) (s16 : CString UInt16) :
    (ParsesStrictly s.chars (StringToInt s.chars) ↔ ¬ WithoutDigits s.chars) ∧
      (ParsesStrictly s16.chars (String16ToInt s16.chars) ↔ ¬ WithoutDigits s16.chars) :=
  ⟨stringTToInt_strict_iff s, stringTToInt_strict_iff s16⟩

def emptyString : CString Int8 := ⟨[], by simp⟩

theorem empty_string_is_zero :
    StringToInt emptyString.chars = some (some 0) ∧
      (∀ value, ¬ Denotes emptyString.chars value) ∧
      ¬ ParsesStrictly emptyString.chars (StringToInt emptyString.chars) := by
  have found : StringToInt emptyString.chars = some (some 0) := by decide
  have nothing (value : Int) : ¬ Denotes emptyString.chars value := by
    intro denotes
    cases denotes with
    | unsigned some_ => exact some_ rfl
  refine ⟨found, nothing, ?_⟩
  rintro ⟨_, result, strict⟩
  cases found.symm.trans result
  exact nothing 0 ((strict 0).mp rfl).1

end ThreadIpc.StringUtils
