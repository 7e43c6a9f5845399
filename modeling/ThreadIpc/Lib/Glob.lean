import Mathlib.Data.List.Basic

/-!
# Patterns with wildcards

A pattern is a list of its tokens, over any alphabet and any notion of what a character matches.
-/

namespace ThreadIpc.Lib.Glob

inductive Token (α : Type*)
  | any
  | one (c : α)
  deriving DecidableEq

variable {α : Type*} {same : α → α → Prop}

/-- The language of a pattern. `same c d` says that `c` in a pattern matches `d`. -/
inductive Matches (same : α → α → Prop) : List (Token α) → List α → Prop
  | nil : Matches same [] []
  | one {c d : α} {pattern : List (Token α)} {text : List α} : same c d →
      Matches same pattern text → Matches same (.one c :: pattern) (d :: text)
  | any {pattern : List (Token α)} (front : List α) {text : List α} :
      Matches same pattern text → Matches same (.any :: pattern) (front ++ text)

section
variable {c : α} {pattern : List (Token α)} {text : List α}

@[simp] theorem matches_nil_iff : Matches same [] text ↔ text = [] := by
  constructor
  · rintro ⟨⟩
    rfl
  · rintro rfl
    exact .nil

theorem matches_one_iff : Matches same (.one c :: pattern) text ↔
    ∃ d rest, text = d :: rest ∧ same c d ∧ Matches same pattern rest := by
  constructor
  · intro matched
    cases matched with
    | one sameChar rest => exact ⟨_, _, rfl, sameChar, rest⟩
  · rintro ⟨d, rest, rfl, sameChar, matched⟩
    exact .one sameChar matched

@[simp] theorem not_matches_one_nil : ¬ Matches same (.one c :: pattern) [] := by
  rw [matches_one_iff]
  rintro ⟨_, _, none_, _⟩
  cases none_

@[simp] theorem matches_one_cons_iff {d : α} : Matches same (.one c :: pattern) (d :: text) ↔
    same c d ∧ Matches same pattern text := by
  rw [matches_one_iff]
  constructor
  · rintro ⟨_, _, split_, both⟩
    cases split_
    exact both
  · exact fun both => ⟨d, text, rfl, both⟩

theorem matches_any_iff : Matches same (.any :: pattern) text ↔
    ∃ front rest, text = front ++ rest ∧ Matches same pattern rest := by
  constructor
  · intro matched
    cases matched with
    | any front rest => exact ⟨front, _, rfl, rest⟩
  · rintro ⟨front, rest, rfl, matched⟩
    exact .any front matched

@[simp] theorem matches_any_nil : Matches same [.any] text :=
  matches_any_iff.mpr ⟨text, [], (List.append_nil text).symm, .nil⟩

theorem matches_any_one_iff : Matches same (.any :: .one c :: pattern) text ↔
    ∃ front d rest, text = front ++ d :: rest ∧ same c d ∧ Matches same pattern rest := by
  rw [matches_any_iff]
  constructor
  · rintro ⟨front, rest, rfl, matched⟩
    obtain ⟨d, rest, rfl, both⟩ := matches_one_iff.mp matched
    exact ⟨front, d, rest, rfl, both⟩
  · rintro ⟨front, d, rest, rfl, sameChar, matched⟩
    exact ⟨front, d :: rest, rfl, .one sameChar matched⟩

theorem Matches.widen {wide : List (Token α)} (matched : Matches same pattern text)
    (wider : List.Forall₂ (fun token token' => token' = token ∨ token' = .any) pattern wide) :
    Matches same wide text := by
  induction matched generalizing wide with
  | nil =>
      cases wider
      exact .nil
  | @one c d pattern text sameChar matched ih =>
      cases wider with
      | cons first rest =>
          rcases first with rfl | rfl
          · exact .one sameChar (ih rest)
          · exact .any [d] (ih rest)
  | any front matched ih =>
      cases wider with
      | cons first rest =>
          rcases first with rfl | rfl <;> exact .any front (ih rest)

theorem Matches.exists_same (matched : Matches same pattern text) (member : .one c ∈ pattern) :
    ∃ d ∈ text, same c d := by
  induction matched with
  | nil => cases member
  | @one c' d pattern text sameChar matched ih =>
      rcases List.mem_cons.mp member with first | later
      · cases first
        exact ⟨d, List.mem_cons_self, sameChar⟩
      · obtain ⟨d', inText, both⟩ := ih later
        exact ⟨d', List.mem_cons_of_mem _ inText, both⟩
  | any front matched ih =>
      rcases List.mem_cons.mp member with first | later
      · cases first
      · obtain ⟨d, inText, both⟩ := ih later
        exact ⟨d, List.mem_append_right _ inText, both⟩

end

end ThreadIpc.Lib.Glob
