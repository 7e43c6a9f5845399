import Mathlib.Data.List.Nodup
import Mathlib.Logic.Function.Basic

/-!
# Circles of links

`Leads next first nodes last` says that the links from `first` on lead over `nodes` to `last`. A
circle leads back to where it starts.
-/

namespace ThreadIpc.Lib

variable {α : Type*}

def Leads (next : α → α) : α → List α → α → Prop
  | first, [], last => next first = last
  | first, node :: nodes, last => next first = node ∧ Leads next node nodes last

structure Circle (next : α → α) (node : α) (others : List α) : Prop where
  leads : Leads next node others node
  nodup : (node :: others).Nodup

section Following
variable {next later : α → α} {first node last target : α} {nodes others : List α}

theorem Leads.append (front : Leads next first nodes node) (back : Leads next node others last) :
    Leads next first (nodes ++ node :: others) last := by
  induction nodes generalizing first with
  | nil => exact ⟨front, back⟩
  | cons second nodes ih => exact ⟨front.1, ih front.2⟩

theorem Leads.split (leads : Leads next first (nodes ++ node :: others) last) :
    Leads next first nodes node ∧ Leads next node others last := by
  induction nodes generalizing first with
  | nil => exact leads
  | cons second nodes ih =>
      obtain ⟨front, back⟩ := ih leads.2
      exact ⟨⟨leads.1, front⟩, back⟩

theorem Leads.congr (same : ∀ node ∈ first :: nodes, later node = next node)
    (leads : Leads next first nodes last) : Leads later first nodes last := by
  induction nodes generalizing first with
  | nil => exact (same first List.mem_cons_self).trans leads
  | cons second nodes ih =>
      refine ⟨(same first List.mem_cons_self).trans leads.1, ?_⟩
      exact ih (fun node member => same node (List.mem_cons_of_mem _ member)) leads.2

theorem Circle.rotate (circle : Circle next first (nodes ++ node :: others)) :
    Circle next node (others ++ first :: nodes) := by
  obtain ⟨front, back⟩ := circle.leads.split
  refine ⟨back.append front, ?_⟩
  exact (@List.perm_append_comm _ (first :: nodes) (node :: others)).nodup_iff.mp circle.nodup

theorem Circle.congr (same : ∀ node ∈ first :: nodes, later node = next node)
    (circle : Circle next first nodes) : Circle later first nodes :=
  ⟨circle.leads.congr same, circle.nodup⟩

theorem Circle.around (circle : Circle next first nodes) (member : node ∈ first :: nodes) :
    ∃ others, Circle next node others ∧ ∀ other, other ∈ node :: others ↔ other ∈ first :: nodes := by
  obtain same | inside := List.mem_cons.mp member
  · subst same
    exact ⟨nodes, circle, fun _ => Iff.rfl⟩
  · obtain ⟨front, back, rfl⟩ := List.append_of_mem inside
    refine ⟨back ++ first :: front, circle.rotate, fun other => ?_⟩
    simp only [List.mem_cons, List.mem_append]
    tauto

theorem Circle.alone_iff (circle : Circle next first nodes) : next first = first ↔ nodes = [] := by
  cases nodes with
  | nil => exact iff_of_true circle.leads rfl
  | cons second nodes =>
      refine iff_of_false (fun loop => ?_) (List.cons_ne_nil second nodes)
      rw [circle.leads.1] at loop
      exact (List.nodup_cons.mp circle.nodup).1 (loop ▸ List.mem_cons_self)

variable [DecidableEq α]

/-- The node whose link is the target. -/
def nodeBefore (next : α → α) (target : α) : Nat → α → Option α
  | 0, _ => none
  | fuel + 1, node => if next node = target then some node else nodeBefore next target fuel (next node)

theorem Leads.nodeBefore (leads : Leads next first nodes target) (outside : target ∉ nodes) {fuel : Nat}
    (enough : nodes.length < fuel) :
    nodeBefore next target fuel first = some ((first :: nodes).getLast (List.cons_ne_nil _ _)) := by
  induction nodes generalizing first fuel with
  | nil =>
      cases fuel with
      | zero => cases enough
      | succ fuel => exact if_pos leads
  | cons second nodes ih =>
      cases fuel with
      | zero => cases enough
      | succ fuel =>
          obtain ⟨here, later⟩ := leads
          rw [List.mem_cons, not_or] at outside
          have behind := ih later outside.2 (Nat.lt_of_succ_lt_succ enough)
          rw [Lib.nodeBefore, here, if_neg (Ne.symm outside.1), behind]
          exact congrArg some (List.getLast_cons (List.cons_ne_nil _ _)).symm

theorem Leads.relink (leads : Leads next first nodes last) (nodup : (first :: nodes).Nodup)
    (target : α) : Leads (Function.update next
      ((first :: nodes).getLast (List.cons_ne_nil _ _)) target) first nodes target := by
  induction nodes generalizing first with
  | nil => exact Function.update_self ..
  | cons second nodes ih =>
      obtain ⟨here, later⟩ := leads
      obtain ⟨new, nodup⟩ := List.nodup_cons.mp nodup
      rw [List.getLast_cons (List.cons_ne_nil _ _)]
      refine ⟨?_, ih later nodup⟩
      rw [Function.update_of_ne, here]
      exact fun same => new (same ▸ List.getLast_mem _)

theorem Circle.join (circle : Circle next first nodes) (outside : node ∉ first :: nodes) :
    Circle (Function.update (Function.update next ((first :: nodes).getLast (List.cons_ne_nil _ _)) node)
      node first) first (nodes ++ [node]) := by
  refine ⟨Leads.append ?_ (Function.update_self ..), ?_⟩
  · refine (circle.leads.relink circle.nodup node).congr fun other member => ?_
    rw [Function.update_of_ne]
    exact fun same => outside (same ▸ member)
  · rw [← List.cons_append]
    exact List.nodup_append.mpr ⟨circle.nodup, List.nodup_singleton node, by
      rintro other member _ (same : _ ∈ [node]) rfl
      exact outside (List.mem_singleton.mp same ▸ member)⟩

theorem Circle.depart (circle : Circle next first (node :: nodes)) :
    Circle (Function.update next ((node :: nodes).getLast (List.cons_ne_nil _ _)) (next first)) node
      nodes := by
  have nodup := (List.nodup_cons.mp circle.nodup).2
  rw [circle.leads.1]
  exact ⟨circle.leads.2.relink nodup node, nodup⟩

end Following

end ThreadIpc.Lib
