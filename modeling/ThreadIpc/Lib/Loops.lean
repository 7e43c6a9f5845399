import Mathlib.Data.List.Basic
import Mathlib.Data.Multiset.Bind

/-!
# Loops over lists

One that may fail has put together what is a function of the part of its list that is done.
-/

namespace ThreadIpc.Lib

variable {σ α β γ : Type*}

theorem foldlM_front {f : σ → α → Option σ} {held : List β → σ} {adds : α → List β} {list : List α}
    (turn : ∀ front, ∀ a ∈ list, f (held front) a = some (held (front ++ adds a)))
    (front : List β) : list.foldlM f (held front) = some (held (front ++ list.flatMap adds)) := by
  induction list generalizing front with
  | nil => simp
  | cons a list ih =>
      have first := turn front a List.mem_cons_self
      have later := ih (fun front b member => turn front b (List.mem_cons_of_mem a member))
      rw [List.foldlM_cons, first, Option.bind_eq_bind, Option.bind_some, later,
        List.flatMap_cons, List.append_assoc]

theorem flatten_mapM_iff {f : α → Option (List β)} {read : β → γ} {g : α → List γ} {size : Nat}
    {list : List α} (given : ∀ a ∈ list, ∀ piece ∈ f a, piece.length = size)
    (wanted : ∀ a ∈ list, (g a).length = size) :
    (list.mapM f).map (fun pieces => pieces.flatten.map read) = some (list.flatMap g) ↔
      ∀ a ∈ list, (f a).map (List.map read) = some (g a) := by
  induction list with
  | nil => simp
  | cons a list ih =>
      have later := ih (fun b member => given b (List.mem_cons_of_mem a member))
        (fun b member => wanted b (List.mem_cons_of_mem a member))
      rw [List.forall_mem_cons, ← later, List.mapM_cons, List.flatMap_cons]
      cases first : f a with
      | none => simp
      | some piece =>
          have same : (piece.map read).length = (g a).length := by
            rw [List.length_map, given a List.mem_cons_self piece first,
              wanted a List.mem_cons_self]
          cases list.mapM f with
          | none => simp
          | some pieces =>
              simp only [Option.bind_eq_bind, Option.bind_some, Option.pure_def, Option.map_some,
                List.flatten_cons, List.map_append, Option.some.injEq]
              constructor
              · exact fun equal => List.append_inj equal same
              · rintro ⟨front, behind⟩
                rw [front, behind]

theorem flatMap_comm (outer : List α) (inner : List β) (f : α → β → List γ) :
    (outer.flatMap fun a => inner.flatMap fun b => f a b).Perm
      (inner.flatMap fun b => outer.flatMap fun a => f a b) := by
  rw [← Multiset.coe_eq_coe]
  simp only [← Multiset.coe_bind]
  exact Multiset.bind_bind _ _

end ThreadIpc.Lib
