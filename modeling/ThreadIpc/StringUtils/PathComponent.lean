import ThreadIpc.StringUtils.Model

/-!
# Components of a path

What the repair leaves behind is a valid component, and a valid component is left alone.
-/

namespace ThreadIpc.StringUtils

open CharT

variable {α : Type} [CharT α]

def IsDot (c : α) : Prop := toInt c = code '.'

structure ValidComponent (s : List α) : Prop where
  head : ∀ c ∈ s.head?, ¬ IsDot c
  chars : ∀ c ∈ s, IsCharValidInPathComponent (toInt c) true = true
  last : ∀ c ∈ s.getLast?, ¬ IsDot c

theorem isStringValid_iff (s : CString α) :
    IsStringValidPathComponent (some s) = true ↔ ValidComponent s.chars := by
  obtain ⟨s, noNul⟩ := s
  cases s with
  | nil =>
      refine iff_of_true rfl ⟨?_, ?_, ?_⟩ <;> simp
  | cons c s =>
      have valid : IsStringValidPathComponent (some ⟨c :: s, noNul⟩) = true ↔
          ¬ IsDot c ∧ (∀ d ∈ c :: s, IsCharValidInPathComponent (toInt d) true = true) ∧
            ¬ IsDot ((c :: s).getLast (List.cons_ne_nil _ _)) := by
        simp [IsStringValidPathComponent, IsDot]
      rw [valid]
      constructor
      · rintro ⟨head, chars, last⟩
        refine ⟨?_, chars, ?_⟩
        · simpa using head
        · simpa [List.getLast?_eq_some_getLast] using last
      · rintro ⟨head, chars, last⟩
        refine ⟨head c rfl, chars, last _ ?_⟩
        exact List.getLast?_eq_some_getLast _

section Characters

theorem toInt_underscore : toInt (ofInt (code '_') : α) = code '_' :=
  toInt_ofInt (by decide) (by decide)

theorem underscore_not_dot : ¬ IsDot (ofInt (code '_') : α) := by
  rw [IsDot, toInt_underscore]
  decide

theorem underscore_valid (strict : Bool) :
    IsCharValidInPathComponent (toInt (ofInt (code '_') : α)) strict = true := by
  rw [toInt_underscore]
  cases strict <;> decide

theorem replaceInvalid_valid (strict : Bool) (c : α) :
    IsCharValidInPathComponent (toInt (replaceInvalid strict c)) strict = true := by
  rw [replaceInvalid]
  split
  · assumption
  · exact underscore_valid strict

theorem replaceInvalid_eq_self {strict : Bool} {c : α}
    (valid : IsCharValidInPathComponent (toInt c) strict = true) : replaceInvalid strict c = c :=
  if_pos valid

theorem replaceInvalid_not_dot {strict : Bool} {c : α} (noDot : ¬ IsDot c) :
    ¬ IsDot (replaceInvalid strict c) := by
  rw [replaceInvalid]
  split
  · exact noDot
  · exact underscore_not_dot

theorem toInt_ne_zero_of_valid {c : α}
    (valid : IsCharValidInPathComponent (toInt c) true = true) : toInt c ≠ 0 := by
  intro zero
  rw [zero] at valid
  exact absurd valid (by decide)

end Characters

section LastDot

variable {s : List α}

def replaceDot (c : α) : α := if toInt c = code '.' then ofInt (code '_') else c

theorem replaceLastDot_concat (s : List α) (last : α) :
    replaceLastDot (s ++ [last]) = s ++ [replaceDot last] := by
  induction s with
  | nil => rfl
  | cons c s ih =>
      rw [List.cons_append, List.cons_append, ← ih]
      cases s <;> rfl

theorem replaceDot_not_dot (c : α) : ¬ IsDot (replaceDot c) := by
  rw [replaceDot]
  split
  · exact underscore_not_dot
  · assumption

theorem replaceDot_valid {c : α} (valid : IsCharValidInPathComponent (toInt c) true = true) :
    IsCharValidInPathComponent (toInt (replaceDot c)) true = true := by
  rw [replaceDot]
  split
  · exact underscore_valid true
  · exact valid

theorem length_replaceLastDot (s : List α) : (replaceLastDot s).length = s.length := by
  rcases List.eq_nil_or_concat s with rfl | ⟨s, last, rfl⟩
  · rfl
  · simp [replaceLastDot_concat]

theorem replaceLastDot_valid (head : ∀ c ∈ s.head?, ¬ IsDot c)
    (chars : ∀ c ∈ s, IsCharValidInPathComponent (toInt c) true = true) :
    ValidComponent (replaceLastDot s) := by
  rcases List.eq_nil_or_concat s with rfl | ⟨s, last, rfl⟩
  · exact ⟨head, chars, by simp [replaceLastDot]⟩
  · rw [List.concat_eq_append] at head chars ⊢
    rw [replaceLastDot_concat]
    rw [List.forall_mem_append, List.forall_mem_singleton] at chars
    refine ⟨?_, ?_, ?_⟩
    · cases s with
      | nil => simpa using replaceDot_not_dot last
      | cons c s => simpa using head
    · rw [List.forall_mem_append, List.forall_mem_singleton]
      exact ⟨chars.1, replaceDot_valid chars.2⟩
    · simpa using replaceDot_not_dot last

theorem replaceLastDot_eq_self (last : ∀ c ∈ s.getLast?, ¬ IsDot c) : replaceLastDot s = s := by
  rcases List.eq_nil_or_concat s with rfl | ⟨s, c, rfl⟩
  · rfl
  · rw [List.concat_eq_append] at last ⊢
    have noDot : ¬ IsDot c := by simpa using last
    rw [replaceLastDot_concat, show replaceDot c = c from if_neg noDot]

end LastDot

section Repair

variable {s : List α}

/-- The repair of the first character skips the check of the others. -/
def repairFirst (strict : Bool) (c : α) : α :=
  if toInt c = code '.' then ofInt (code '_') else replaceInvalid strict c

theorem ensure_cons (strict : Bool) (c : α) (s : List α) :
    EnsureStringValidPathComponent (c :: s) strict =
      replaceLastDot (repairFirst strict c :: s.map (replaceInvalid strict)) := by
  rw [EnsureStringValidPathComponent, repairFirst]
  split <;> rfl

theorem length_ensure (s : List α) (strict : Bool) :
    (EnsureStringValidPathComponent s strict).length = s.length := by
  cases s with
  | nil => rfl
  | cons c s =>
      rw [ensure_cons, length_replaceLastDot, List.length_cons, List.length_map, List.length_cons]

theorem ensure_valid (s : List α) : ValidComponent (EnsureStringValidPathComponent s true) := by
  cases s with
  | nil => refine ⟨?_, ?_, ?_⟩ <;> simp [EnsureStringValidPathComponent]
  | cons c s =>
      rw [ensure_cons]
      have first : ¬ IsDot (repairFirst true c) ∧
          IsCharValidInPathComponent (toInt (repairFirst true c)) true = true := by
        rw [repairFirst]
        split
        · exact ⟨underscore_not_dot, underscore_valid true⟩
        · rename_i noDot
          exact ⟨replaceInvalid_not_dot noDot, replaceInvalid_valid true c⟩
      apply replaceLastDot_valid
      · simpa using first.1
      · rw [List.forall_mem_cons, List.forall_mem_map]
        exact ⟨first.2, fun d _ => replaceInvalid_valid true d⟩

theorem ensure_eq_self (valid : ValidComponent s) : EnsureStringValidPathComponent s true = s := by
  obtain ⟨head, chars, last⟩ := valid
  cases s with
  | nil => rfl
  | cons c s =>
      have first : repairFirst true c = c := by
        have noDot : ¬ toInt c = code '.' := head c rfl
        rw [repairFirst, if_neg noDot, replaceInvalid_eq_self (chars c List.mem_cons_self)]
      have others : s.map (replaceInvalid true) = s := by
        conv_rhs => rw [← List.map_id s]
        apply List.map_congr_left
        intro d member
        exact replaceInvalid_eq_self (chars d (List.mem_cons_of_mem c member))
      rw [ensure_cons, first, others, replaceLastDot_eq_self last]

end Repair

/-- The repaired component has no NUL, so that the check sees all of it. -/
theorem ensure_repairs (s : List α) :
    (∃ repaired : CString α, repaired.chars = EnsureStringValidPathComponent s true ∧
      IsStringValidPathComponent (some repaired) = true) ∧
    (EnsureStringValidPathComponent s true).length = s.length ∧
    EnsureStringValidPathComponent (EnsureStringValidPathComponent s true) true =
      EnsureStringValidPathComponent s true ∧
    ∀ valid : CString α, valid.chars = s → IsStringValidPathComponent (some valid) = true →
      EnsureStringValidPathComponent s true = s := by
  have valid := ensure_valid s
  refine ⟨?_, length_ensure s true, ensure_eq_self valid, ?_⟩
  · exact ⟨⟨_, fun c member => toInt_ne_zero_of_valid (valid.chars c member)⟩, rfl,
      (isStringValid_iff _).mpr valid⟩
  · rintro already rfl accepted
    exact ensure_eq_self ((isStringValid_iff already).mp accepted)

end ThreadIpc.StringUtils
