import Mathlib.Logic.Relation

namespace ThreadIpc.Lib

open Relation (ReflTransGen TransGen)

variable {α : Type*} {R : α → α → Prop} {a b : α}

def ReachesCycle (R : α → α → Prop) (a : α) : Prop :=
  ∃ c, ReflTransGen R a c ∧ TransGen R c c

theorem exists_reached_iff (P : α → Prop) : (∃ c, ReflTransGen R a c ∧ P c) ↔
    P a ∨ ∃ b, R a b ∧ ∃ c, ReflTransGen R b c ∧ P c := by
  constructor
  · rintro ⟨c, reaches, holds⟩
    rcases ReflTransGen.cases_head_iff.mp reaches with rfl | ⟨b, step, rest⟩
    · exact .inl holds
    · exact .inr ⟨b, step, c, rest, holds⟩
  · rintro (holds | ⟨b, step, c, rest, holds⟩)
    · exact ⟨a, .refl, holds⟩
    · exact ⟨c, .head step rest, holds⟩

theorem forall_reached_iff (P : α → Prop) : (∀ c, ReflTransGen R a c → P c) ↔
    P a ∧ ∀ b, R a b → ∀ c, ReflTransGen R b c → P c := by
  constructor
  · intro all
    exact ⟨all a .refl, fun b step c rest => all c (.head step rest)⟩
  · rintro ⟨here, later⟩ c reaches
    rcases ReflTransGen.cases_head_iff.mp reaches with rfl | ⟨b, step, rest⟩
    · exact here
    · exact later b step c rest

theorem ReachesCycle.of_transGen (loop : TransGen R a a) : ReachesCycle R a :=
  ⟨a, .refl, loop⟩

theorem reachesCycle_iff : ReachesCycle R a ↔ ∃ b, R a b ∧ ReachesCycle R b := by
  rw [ReachesCycle, exists_reached_iff]
  constructor
  · rintro (loop | later)
    · obtain ⟨b, step, back⟩ := TransGen.head'_iff.mp loop
      exact ⟨b, step, b, .refl, TransGen.tail' back step⟩
    · exact later
  · exact .inr

end ThreadIpc.Lib
