import Mathlib.Data.Fintype.Basic
import Mathlib.Data.List.Perm.Subperm
import ThreadIpc.LinkedPtr.Model

/-!
# One circle for each object

The pointers to an object are the circle of each of them. So the last that leaves knows that it is the
last.
-/

namespace ThreadIpc.LinkedPtr

open Lib

section Sharing
variable {P V : Type} {next later : P → P} {value value' : P → Option V} {members members' others : List P}
  {p q r : P} {v : Option V}

def Shares (value : P → Option V) (p q : P) : Prop := q = p ∨ ∃ o, value p = some o ∧ value q = some o

theorem Shares.symm (shares : Shares value p q) : Shares value q p := by
  rcases shares with rfl | ⟨o, first, second⟩
  · exact .inl rfl
  · exact .inr ⟨o, second, first⟩

theorem Shares.trans (first : Shares value p q) (second : Shares value q r) : Shares value p r := by
  rcases first with rfl | ⟨o, held, same⟩
  · exact second
  rcases second with rfl | ⟨o', held', same'⟩
  · exact .inr ⟨o, held, same⟩
  · obtain rfl := Option.some.inj (same.symm.trans held')
    exact .inr ⟨o, held, same'⟩

structure CircleOf (next : P → P) (value : P → Option V) (members : List P) (p : P) (others : List P) :
    Prop where
  circle : Circle next p others
  shared : ∀ q, q ∈ p :: others ↔ q ∈ members ∧ Shares value p q

def Circles (next : P → P) (value : P → Option V) (members : List P) : Prop :=
  ∀ p ∈ members, ∃ others, CircleOf next value members p others

theorem CircleOf.congr (circle : CircleOf next value members p others)
    (same : ∀ q ∈ p :: others, later q = next q)
    (kept : ∀ q, q ∈ members' ∧ Shares value' p q ↔ q ∈ members ∧ Shares value p q) :
    CircleOf later value' members' p others :=
  ⟨circle.circle.congr same, fun q => (circle.shared q).trans (kept q).symm⟩

theorem CircleOf.around (circle : CircleOf next value members p others) (member : q ∈ members)
    (shares : Shares value p q) : ∃ others, CircleOf next value members q others := by
  obtain ⟨around, circle', same⟩ := circle.circle.around ((circle.shared q).mpr ⟨member, shares⟩)
  refine ⟨around, circle', fun r => (same r).trans ((circle.shared r).trans ?_)⟩
  exact and_congr_right fun _ => ⟨shares.symm.trans, shares.trans⟩

theorem CircleOf.short (circle : CircleOf next value members p others) :
    others.length < members.length := by
  have inside : p :: others ⊆ members := fun q mem => ((circle.shared q).mp mem).1
  exact (List.subperm_of_subset circle.circle.nodup inside).length_le

theorem Circles.alone_iff (circles : Circles next value members) (member : p ∈ members) :
    next p = p ↔ ∀ q ∈ members, Shares value p q → q = p := by
  obtain ⟨others, circle⟩ := circles p member
  rw [circle.circle.alone_iff]
  constructor
  · rintro rfl q inside shares
    exact List.mem_singleton.mp ((circle.shared q).mpr ⟨inside, shares⟩)
  · intro alone
    refine List.eq_nil_iff_forall_not_mem.mpr fun q mem => ?_
    obtain ⟨inside, shares⟩ := (circle.shared q).mp (List.mem_cons_of_mem p mem)
    obtain rfl := alone q inside shares
    exact (List.nodup_cons.mp circle.circle.nodup).1 mem

variable [DecidableEq P]

theorem shares_update (outside : p ≠ q) (different : p ≠ r) :
    Shares (Function.update value p v) q r ↔ Shares value q r := by
  rw [Shares, Shares, Function.update_of_ne (Ne.symm outside), Function.update_of_ne (Ne.symm different)]

theorem CircleOf.beside (circle : CircleOf next value members q others) (new : p ∉ members)
    (member : q ∈ members) (unshared : ∀ o ∈ v, value q ≠ some o)
    (same : ∀ r ∈ q :: others, later r = next r) :
    CircleOf later (Function.update value p v) (p :: members) q others := by
  have apart : p ≠ q := fun equal => new (equal ▸ member)
  refine circle.congr same fun r => ?_
  by_cases equal : r = p
  · subst equal
    refine iff_of_false (fun both => ?_) (fun both => new both.1)
    rcases both.2 with rfl | ⟨o, held, held'⟩
    · exact apart rfl
    · rw [Function.update_of_ne (Ne.symm apart)] at held
      rw [Function.update_self] at held'
      exact unshared o held' held
  · rw [shares_update apart (Ne.symm equal), List.mem_cons, or_iff_right equal]

theorem Circles.joinNew (circles : Circles next value members) (new : p ∉ members)
    (unshared : ∀ q ∈ members, ∀ o ∈ v, value q ≠ some o) :
    Circles (Function.update next p p) (Function.update value p v) (p :: members) := by
  intro q member
  rcases List.mem_cons.mp member with rfl | inside
  · refine ⟨[], ⟨Function.update_self .., List.nodup_singleton _⟩, fun r => ?_⟩
    rw [List.mem_singleton]
    constructor
    · rintro rfl
      exact ⟨List.mem_cons_self, .inl rfl⟩
    · rintro ⟨inside, rfl | ⟨o, held, held'⟩⟩
      · rfl
      · by_contra other
        rw [Function.update_self] at held
        rw [Function.update_of_ne other] at held'
        exact unshared r ((List.mem_cons.mp inside).resolve_left other) o held held'
  · obtain ⟨others, circle⟩ := circles q inside
    refine ⟨others, circle.beside new inside (unshared q inside) fun r mem => ?_⟩
    have different : r ≠ p := by
      rintro rfl
      exact new ((circle.shared r).mp mem).1
    exact Function.update_of_ne different ..

theorem Circles.join (circles : Circles next value members) (new : p ∉ members) (member : q ∈ members)
    (held : (value q).isSome) {fuel : Nat} (enough : members.length ≤ fuel) :
    ∃ last, nodeBefore next q fuel q = some last ∧
      Circles (Function.update (Function.update next last p) p q)
        (Function.update value p (value q)) (p :: members) := by
  obtain ⟨o, held⟩ := Option.isSome_iff_exists.mp held
  have apart : q ≠ p := fun equal => new (equal ▸ member)
  obtain ⟨others, circle⟩ := circles q member
  have outside : p ∉ q :: others := fun mem => new ((circle.shared p).mp mem).1
  have found := circle.circle.leads.nodeBefore (List.nodup_cons.mp circle.circle.nodup).1
    (Nat.lt_of_lt_of_le circle.short enough)
  refine ⟨_, found, ?_⟩
  have whole : CircleOf (Function.update (Function.update next
      ((q :: others).getLast (List.cons_ne_nil _ _)) p) p q) (Function.update value p (value q))
      (p :: members) q (others ++ [p]) := by
    refine ⟨circle.circle.join outside, fun r => ?_⟩
    rw [← List.cons_append, List.mem_append, circle.shared, List.mem_singleton, List.mem_cons]
    by_cases equal : r = p
    · subst equal
      refine iff_of_true (.inr rfl) ⟨.inl rfl, .inr ⟨o, ?_, ?_⟩⟩
      · rw [Function.update_of_ne apart, held]
      · rw [Function.update_self, held]
    · rw [shares_update (Ne.symm apart) (Ne.symm equal), or_iff_left equal, or_iff_right equal]
  intro r inside
  by_cases shares : Shares (Function.update value p (value q)) q r
  · exact whole.around inside shares
  · have mem : r ∈ members := by
      refine (List.mem_cons.mp inside).resolve_left ?_
      rintro rfl
      refine shares (.inr ⟨o, ?_, ?_⟩)
      · rw [Function.update_of_ne apart, held]
      · rw [Function.update_self, held]
    have different : p ≠ r := fun equal => new (equal ▸ mem)
    rw [shares_update (Ne.symm apart) different] at shares
    obtain ⟨others', circle'⟩ := circles r mem
    refine ⟨others', circle'.beside new mem ?_ fun s around => ?_⟩
    · intro o' same held'
      exact shares (.inr ⟨o', same, held'⟩)
    · obtain ⟨member', shares'⟩ := (circle'.shared s).mp around
      have different : s ≠ p := by
        rintro rfl
        exact new member'
      rw [Function.update_of_ne different, Function.update_of_ne]
      rintro rfl
      exact shares (((circle.shared _).mp (List.getLast_mem _)).2.trans shares'.symm)

theorem Circles.depart (circles : Circles next value members) (nodup : members.Nodup)
    (member : p ∈ members) (shared : next p ≠ p) {fuel : Nat} (enough : members.length ≤ fuel) :
    ∃ last, nodeBefore next p fuel (next p) = some last ∧
      Circles (Function.update next last (next p)) value (members.erase p) := by
  obtain ⟨others, circle⟩ := circles p member
  cases others with
  | nil => exact absurd circle.circle.leads shared
  | cons second rest =>
      obtain rfl : next p = second := circle.circle.leads.1
      have new := (List.nodup_cons.mp circle.circle.nodup).1
      have short := circle.short
      rw [List.length_cons] at short
      have found : nodeBefore next p fuel (next p) = some ((next p :: rest).getLast (List.cons_ne_nil _ _)) :=
        circle.circle.leads.2.nodeBefore (fun mem => new (List.mem_cons_of_mem _ mem)) (by omega)
      refine ⟨_, found, ?_⟩
      have shares : Shares value p (next p) := ((circle.shared (next p)).mp (by simp)).2
      have left (r : P) : r ∈ next p :: rest ↔ r ∈ members.erase p ∧ Shares value p r := by
        rw [nodup.mem_erase_iff, and_assoc, ← circle.shared r]
        constructor
        · intro mem
          exact ⟨fun equal => new (equal ▸ mem), List.mem_cons_of_mem p mem⟩
        · rintro ⟨other, mem⟩
          exact (List.mem_cons.mp mem).resolve_left other
      have whole : CircleOf (Function.update next ((next p :: rest).getLast (List.cons_ne_nil _ _))
          (next p)) value (members.erase p) (next p) rest := by
        refine ⟨circle.circle.depart, fun r => (left r).trans (and_congr_right fun _ => ?_)⟩
        exact ⟨shares.symm.trans, shares.trans⟩
      intro r inside
      by_cases together : Shares value (next p) r
      · exact whole.around inside together
      · have mem := List.mem_of_mem_erase inside
        obtain ⟨others', circle'⟩ := circles r mem
        refine ⟨others', circle'.congr (fun s around => ?_) fun s => ?_⟩
        · refine Function.update_of_ne ?_ ..
          rintro rfl
          have here := ((left _).mp (List.getLast_mem (List.cons_ne_nil _ _))).2
          exact together (shares.symm.trans (here.trans ((circle'.shared _).mp around).2.symm))
        · rw [nodup.mem_erase_iff, and_assoc]
          refine and_iff_right_of_imp ?_
          rintro ⟨-, with_⟩ rfl
          exact together (shares.symm.trans with_.symm)

theorem Circles.leave (circles : Circles next value members) (nodup : members.Nodup)
    (alone : ∀ q ∈ members, Shares value p q → q = p) : Circles next value (members.erase p) := by
  intro q inside
  obtain ⟨others, circle⟩ := circles q (List.mem_of_mem_erase inside)
  refine ⟨others, circle.congr (fun _ _ => rfl) fun r => ?_⟩
  rw [nodup.mem_erase_iff, and_assoc]
  refine and_iff_right_of_imp ?_
  rintro ⟨-, shares⟩ rfl
  obtain rfl := alone q (List.mem_of_mem_erase inside) shares.symm
  exact nodup.not_mem_erase inside

end Sharing

variable {P V : Type} {s after : State P V} {members members' : List P} {p q : P} {v : Option V}

structure Valid (s : State P V) (members : List P) : Prop where
  circles : Circles s.next s.value members
  nodup : members.Nodup
  enough : members.length ≤ s.live.length
  held : ∀ p ∈ members, ∀ o ∈ s.value p, o ∈ s.taken ∧ o ∉ s.deleted
  kept : ∀ o ∈ s.taken, o ∉ s.deleted → ∃ p ∈ members, s.value p = some o
  once : s.deleted.Nodup
  own : ∀ o ∈ s.deleted, o ∈ s.taken

structure Left (s after : State P V) (p : P) (gone : Option V) (members : List P) : Prop where
  live : after.live = s.live
  value : after.value = s.value
  taken : after.taken = s.taken
  deleted : after.deleted = gone.toList ++ s.deleted
  last : ∀ o, gone = some o →
    s.value p = some o ∧ ∀ q ∈ members, q ≠ p → ∀ o ∈ s.value q, s.value p ≠ some o

namespace Valid

theorem perm (valid : Valid s members) (same : members.Perm members') : Valid s members' := by
  obtain ⟨circles, nodup, enough, held, kept, once, own⟩ := valid
  have member (p : P) : p ∈ members' ↔ p ∈ members := same.mem_iff.symm
  refine ⟨fun p inside => ?_, same.nodup nodup, same.length_eq ▸ enough, fun p inside => ?_,
    fun o taken alive => ?_, once, own⟩
  · obtain ⟨others, circle⟩ := circles p ((member p).mp inside)
    exact ⟨others, circle.congr (fun _ _ => rfl) fun q => and_congr_left fun _ => member q⟩
  · exact held p ((member p).mp inside)
  · obtain ⟨p, inside, holds⟩ := kept o taken alive
    exact ⟨p, (member p).mpr inside, holds⟩

variable [DecidableEq P]

omit [DecidableEq P] in
theorem apart (new : p ∉ members) {other : P} (member : other ∈ members) : other ≠ p := by
  rintro rfl
  exact new member

theorem attach (valid : Valid s members) (new : p ∉ members) (room : members.length < s.live.length)
    {next : P → P} {taken : List V}
    (circles : Circles next (Function.update s.value p v) (p :: members))
    (given : ∀ o ∈ v, o ∈ taken ∧ o ∉ s.deleted)
    (more : ∀ o, o ∈ taken ↔ o ∈ v ∨ o ∈ s.taken) :
    Valid { s with next, value := Function.update s.value p v, taken } (p :: members) where
  circles := circles
  nodup := List.nodup_cons.mpr ⟨new, valid.nodup⟩
  enough := room
  held other inside o holds := by
    rcases List.mem_cons.mp inside with rfl | inside
    · exact given o ((Function.update_self other v s.value).symm.trans holds)
    · have holds' : s.value other = some o :=
        (Function.update_of_ne (apart new inside) v s.value).symm.trans holds
      obtain ⟨taken', alive⟩ := valid.held other inside o holds'
      exact ⟨(more o).mpr (.inr taken'), alive⟩
  kept o taken' alive := by
    rcases (more o).mp taken' with mem | before
    · exact ⟨p, List.mem_cons_self, (Function.update_self p v s.value).trans mem⟩
    · obtain ⟨other, inside, holds⟩ := valid.kept o before alive
      exact ⟨other, List.mem_cons_of_mem p inside,
        (Function.update_of_ne (apart new inside) v s.value).trans holds⟩
  once := valid.once
  own o gone := (more o).mpr (.inr (valid.own o gone))

theorem capture (valid : Valid s members) (new : p ∉ members) (room : members.length < s.live.length)
    (fresh : ∀ o ∈ v, o ∉ s.taken ∧ o ∉ s.deleted) : Valid (s.capture p v) (p :: members) := by
  refine valid.attach new room ?_ (fun o mem => ?_) fun o => ?_
  · refine valid.circles.joinNew new fun q inside o mem holds => ?_
    exact (fresh o mem).1 (valid.held q inside o holds).1
  · exact ⟨List.mem_append_left _ (Option.mem_toList.mpr mem), (fresh o mem).2⟩
  · rw [List.mem_append, Option.mem_toList, Option.mem_def]

theorem copy (valid : Valid s members) (new : p ∉ members) (room : members.length < s.live.length)
    (member : q ∈ members) : ∃ after, s.copy p q = some after ∧
      (after.live = s.live ∧ after.taken = s.taken ∧ after.deleted = s.deleted) ∧
      Valid after (p :: members) := by
  have held : ∀ o ∈ s.value q, o ∈ s.taken ∧ o ∉ s.deleted := valid.held q member
  have more (o : V) : o ∈ s.taken ↔ o ∈ s.value q ∨ o ∈ s.taken :=
    (or_iff_right_of_imp fun mem => (held o mem).1).symm
  rw [State.copy]
  simp only [Function.update_self]
  cases value : s.value q with
  | none =>
      refine ⟨_, if_neg Bool.false_ne_true, ⟨rfl, rfl, rfl⟩, ?_⟩
      rw [← value]
      refine valid.attach new room (valid.circles.joinNew new fun q' _ o mem => ?_) held more
      rw [value] at mem
      cases mem
  | some o =>
      obtain ⟨last, found, circles⟩ :=
        valid.circles.join new member (Option.isSome_iff_exists.mpr ⟨o, value⟩) (Nat.le_of_lt room)
      rw [State.join, if_pos Option.isSome_some]
      rw [← value]
      refine ⟨_, congrArg _ found, ⟨rfl, rfl, rfl⟩, ?_⟩
      exact valid.attach new room circles held more

theorem alone_iff (valid : Valid s members) (member : p ∈ members) :
    s.next p = p ↔ ∀ q ∈ members, q ≠ p → ∀ o ∈ s.value q, s.value p ≠ some o := by
  rw [valid.circles.alone_iff member]
  constructor
  · intro alone q inside other o holds same
    exact other (alone q inside (.inr ⟨o, same, holds⟩))
  · intro alone q inside shares
    rcases shares with same | ⟨o, held, held'⟩
    · exact same
    · by_contra other
      exact alone q inside other o held' held

theorem leave (valid : Valid s members) (member : p ∈ members) :
    ∃ after gone, s.leave p = some (after, gone) ∧ Left s after p gone members ∧
      Valid after (members.erase p) := by
  have fewer : (members.erase p).length ≤ s.live.length :=
    Nat.le_trans (List.length_erase_le) valid.enough
  have inside {q : P} (left : q ∈ members.erase p) : q ∈ members ∧ q ≠ p :=
    ⟨List.mem_of_mem_erase left, fun same => valid.nodup.not_mem_erase (same ▸ left)⟩
  rw [State.leave, State.linkDepart]
  by_cases last : s.next p = p
  · have alone := (valid.alone_iff member).mp last
    have circles := valid.circles.leave valid.nodup ((valid.circles.alone_iff member).mp last)
    rw [if_pos last]
    refine ⟨s.delete (s.value p), s.value p, rfl, ?_⟩
    cases value : s.value p with
    | none =>
        refine ⟨⟨rfl, rfl, rfl, rfl, fun o is => (Option.some_ne_none o is.symm).elim⟩, circles,
          valid.nodup.erase p, fewer, fun q left => ?_, ?_, valid.once, valid.own⟩
        · exact valid.held q (inside left).1
        · intro o taken alive
          obtain ⟨q, mem, holds⟩ := valid.kept o taken alive
          refine ⟨q, (valid.nodup.mem_erase_iff).mpr ⟨?_, mem⟩, holds⟩
          rintro rfl
          rw [value] at holds
          cases holds
    | some o =>
        obtain ⟨taken, alive⟩ := valid.held p member o value
        refine ⟨⟨rfl, rfl, rfl, rfl, fun o' is => ?_⟩, circles, valid.nodup.erase p, fewer,
          fun q left o' holds => ?_, ?_, List.nodup_cons.mpr ⟨alive, valid.once⟩, ?_⟩
        · obtain rfl := Option.some.inj is
          exact ⟨value, alone⟩
        · obtain ⟨taken', alive'⟩ := valid.held q (inside left).1 o' holds
          refine ⟨taken', fun gone => ?_⟩
          rcases List.mem_cons.mp gone with rfl | before
          · exact alone q (inside left).1 (inside left).2 o' holds value
          · exact alive' before
        · intro o' taken' alive'
          obtain ⟨q, mem, holds⟩ := valid.kept o' taken' fun gone => alive' (List.mem_cons_of_mem o gone)
          refine ⟨q, (valid.nodup.mem_erase_iff).mpr ⟨?_, mem⟩, holds⟩
          rintro rfl
          obtain rfl := Option.some.inj (value.symm.trans holds)
          exact alive' List.mem_cons_self
        · intro o' gone
          rcases List.mem_cons.mp gone with rfl | before
          · exact taken
          · exact valid.own o' before
  · obtain ⟨node, found, circles⟩ := valid.circles.depart valid.nodup member last valid.enough
    rw [if_neg last, found]
    refine ⟨_, none, rfl, ⟨rfl, rfl, rfl, rfl, fun o is => (Option.some_ne_none o is.symm).elim⟩, circles,
      valid.nodup.erase p, fewer, fun q left => ?_, ?_, valid.once,
      valid.own⟩
    · exact valid.held q (inside left).1
    · intro o taken alive
      obtain ⟨q, mem, holds⟩ := valid.kept o taken alive
      by_cases same : q = p
      · subst same
        rw [valid.alone_iff member] at last
        push Not at last
        obtain ⟨r, mem', other, o', holds', same⟩ := last
        obtain rfl := Option.some.inj (holds.symm.trans same)
        exact ⟨r, (valid.nodup.mem_erase_iff).mpr ⟨other, mem'⟩, holds'⟩
      · exact ⟨q, (valid.nodup.mem_erase_iff).mpr ⟨same, mem⟩, holds⟩

theorem release [DecidableEq V] (valid : Valid s members) (member : p ∈ members)
    (sole : ∀ q ∈ members, q ≠ p → ∀ o ∈ s.value q, s.value p ≠ some o) :
    Valid { s with
      value := Function.update s.value p none
      taken := s.taken.filter fun o => s.value p ≠ some o } (p :: members.erase p) where
  circles := by
    have alone := (valid.alone_iff member).mpr sole
    have left := valid.circles.leave valid.nodup ((valid.circles.alone_iff member).mp alone)
    have joined := @Circles.joinNew P V s.next s.value _ p none _ left valid.nodup.not_mem_erase nofun
    have same : Function.update s.next p p = s.next := Function.update_eq_self_iff.mpr alone.symm
    rwa [same] at joined
  nodup := (List.perm_cons_erase member).nodup valid.nodup
  enough := (List.perm_cons_erase member).length_eq ▸ valid.enough
  held q inside o holds := by
    have holds : Function.update s.value p none q = some o := holds
    by_cases same : q = p
    · rw [same, Function.update_self] at holds
      cases holds
    · rw [Function.update_of_ne same] at holds
      have mem := List.mem_of_mem_erase ((List.mem_cons.mp inside).resolve_left same)
      obtain ⟨taken, alive⟩ := valid.held q mem o holds
      exact ⟨List.mem_filter.mpr ⟨taken, decide_eq_true (sole q mem same o holds)⟩, alive⟩
  kept o taken alive := by
    obtain ⟨taken, other⟩ := List.mem_filter.mp taken
    obtain ⟨q, mem, holds⟩ := valid.kept o taken alive
    have different : q ≠ p := by
      rintro rfl
      exact of_decide_eq_true other holds
    refine ⟨q, ?_, (Function.update_of_ne different none s.value).trans holds⟩
    exact List.mem_cons_of_mem p ((List.mem_erase_of_ne different).mpr mem)
  once := valid.once
  own o gone := by
    refine List.mem_filter.mpr ⟨valid.own o gone, decide_eq_true fun holds => ?_⟩
    exact (valid.held p member o holds).2 gone

end Valid

theorem Left.alive {gone : Option V} (left : Left s after p gone members) {o : V}
    (alive : o ∉ after.deleted) : o ∉ s.deleted ∧ gone ≠ some o := by
  rw [left.deleted, List.mem_append, not_or, Option.mem_toList] at alive
  exact ⟨alive.2, alive.1⟩

/-!
# Members

What is deleted takes its members with it, and they may take further objects. No pointer is destroyed
twice.
-/

variable {layout : Layout P V} {reached : P → Prop} {own todo rest : List P} {value : P → Option V}
  {x y : P} {w : V}

theorem mem_fieldsOf {gone : Option V} :
    x ∈ gone.toList.flatMap layout.fields ↔ ∃ o, gone = some o ∧ x ∈ layout.fields o := by
  rw [List.mem_flatMap]
  exact exists_congr fun o => and_congr_left fun _ => Option.mem_toList

theorem nodup_fieldsOf (gone : Option V) : (gone.toList.flatMap layout.fields).Nodup := by
  cases gone with
  | none => exact List.nodup_nil
  | some o =>
      rw [Option.toList_some, List.flatMap_singleton]
      exact layout.nodup o

def Housed (layout : Layout P V) (s : State P V) : Prop :=
  ∀ v ∈ s.taken, v ∉ s.deleted → ∀ x ∈ layout.fields v, x ∈ s.live

theorem Left.homes {gone : Option V} (left : Left s after p gone members) {v : V}
    (alive : v ∉ after.deleted) (member : x ∈ layout.fields v) :
    x ∉ gone.toList.flatMap layout.fields := by
  intro inside
  obtain ⟨o, is, inside⟩ := mem_fieldsOf.mp inside
  obtain rfl := layout.apart member inside
  exact (left.alive alive).2 is

theorem Housed.same (housed : Housed layout s) (live : ∀ x ∈ s.live, x ∈ after.live)
    (taken : after.taken = s.taken) (deleted : after.deleted = s.deleted) : Housed layout after :=
  fun v there alive x member => live x (housed v (taken ▸ there) (deleted ▸ alive) x member)

theorem Inside.extend {v : V} (inside : Inside layout value v y) (holds : value y = some w)
    (member : x ∈ layout.fields w) : Inside layout value v x := by
  induction inside with
  | member first => exact .beyond first holds (.member member)
  | beyond first holds' _ ih => exact .beyond first holds' (ih holds)

theorem Inside.held {v : V} (inside : Inside layout s.value v x) (valid : Valid s s.live)
    (housed : Housed layout s) (taken : v ∈ s.taken) (alive : v ∉ s.deleted) :
    ∃ w ∈ s.taken, w ∉ s.deleted ∧ x ∈ layout.fields w := by
  induction inside with
  | member first => exact ⟨_, taken, alive, first⟩
  | beyond first holds _ ih =>
      obtain ⟨taken', alive'⟩ := valid.held _ (housed _ taken alive _ first) _ holds
      exact ih taken' alive'

/-- The pointers `todo` are about to be destroyed, while a call works on its `own` ones. Only what is
reached from the former may go with them. -/
structure Doomed (layout : Layout P V) (s : State P V) (reached : P → Prop) (members own todo : List P) :
    Prop where
  valid : Valid s members
  live : s.live.Perm (members ++ own)
  housed : Housed layout s
  closed : ∀ y, reached y → ∀ w ∈ s.value y, ∀ x ∈ layout.fields w, reached x
  spared : ∀ x ∈ own, ¬ reached x
  inside : ∀ x ∈ todo, x ∈ members ∧ reached x
  nodup : todo.Nodup
  homes : ∀ v ∈ s.taken, v ∉ s.deleted → ∀ x ∈ layout.fields v, x ∉ todo

structure Destroyed (layout : Layout P V) (s after : State P V) (reached : P → Prop)
    (own left : List P) : Prop where
  valid : Valid after left
  live : after.live.Perm (left ++ own)
  housed : Housed layout after
  taken : after.taken = s.taken
  sublist : after.live.Sublist s.live
  spared : ∀ x ∈ s.live, ¬ reached x → x ∈ after.live

theorem Doomed.mem_members (doomed : Doomed layout s reached members own todo) (live : x ∈ s.live)
    (within : reached x) : x ∈ members := by
  refine (List.mem_append.mp (doomed.live.mem_iff.mp live)).resolve_right fun mine => ?_
  exact doomed.spared x mine within

variable [DecidableEq P]

theorem Doomed.next {gone : Option V} (doomed : Doomed layout s reached members own (p :: rest))
    (left : Left s after p gone members) (valid : Valid after (members.erase p)) :
    Doomed layout { after with live := after.live.erase p } reached (members.erase p) own
      (gone.toList.flatMap layout.fields ++ rest) := by
  obtain ⟨member, here⟩ := doomed.inside p List.mem_cons_self
  obtain ⟨first, nodup⟩ := List.nodup_cons.mp doomed.nodup
  have live : (after.live.erase p).Perm (members.erase p ++ own) := by
    rw [left.live, ← List.erase_append_left own member]
    exact doomed.live.erase p
  have enough : (members.erase p).length ≤ (after.live.erase p).length := by
    rw [live.length_eq, List.length_append]
    exact Nat.le_add_right _ _
  have other {v : V} (taken : v ∈ s.taken) (alive : v ∉ s.deleted) {x : P} (inside : x ∈ layout.fields v) :
      x ≠ p ∧ x ∉ rest := by
    have away := doomed.homes v taken alive x inside
    rwa [List.mem_cons, not_or] at away
  have held (o : V) (is : gone = some o) : o ∈ s.taken ∧ o ∉ s.deleted :=
    doomed.valid.held p member o (left.last o is).1
  exact {
    valid := { valid with enough := enough }
    live := live
    housed := fun v taken alive x inside => by
      obtain ⟨alive, -⟩ := left.alive alive
      rw [left.taken] at taken
      rw [left.live]
      exact (List.mem_erase_of_ne (other taken alive inside).1).mpr (doomed.housed v taken alive x inside)
    closed := fun y within w holds => doomed.closed y within w (left.value ▸ holds)
    spared := doomed.spared
    inside := fun x inside => by
      rcases List.mem_append.mp inside with inside | inside
      · obtain ⟨o, is, inside⟩ := mem_fieldsOf.mp inside
        obtain ⟨taken, alive⟩ := held o is
        have within := doomed.closed p here o (left.last o is).1 x inside
        refine ⟨?_, within⟩
        exact (List.mem_erase_of_ne (other taken alive inside).1).mpr
          (doomed.mem_members (doomed.housed o taken alive x inside) within)
      · obtain ⟨member', within⟩ := doomed.inside x (List.mem_cons_of_mem p inside)
        refine ⟨(List.mem_erase_of_ne ?_).mpr member', within⟩
        rintro rfl
        exact first inside
    nodup := by
      refine (nodup_fieldsOf gone).append nodup fun x inside inside' => ?_
      obtain ⟨o, is, inside⟩ := mem_fieldsOf.mp inside
      obtain ⟨taken, alive⟩ := held o is
      exact (other taken alive inside).2 inside'
    homes := fun v taken alive x inside => by
      rw [left.taken] at taken
      rw [List.mem_append, not_or]
      exact ⟨left.homes alive inside, (other taken (left.alive alive).1 inside).2⟩ }

/-- Destructors end, whatever is deleted with the pointers. -/
theorem Doomed.destroyAll (doomed : Doomed layout s reached members own todo) {fuel : Nat}
    (enough : members.length ≤ fuel) :
    ∃ after left, s.destroyAll layout fuel todo = some after ∧
      Destroyed layout s after reached own left := by
  induction fuel generalizing s members todo with
  | zero =>
      cases todo with
      | nil => exact ⟨s, members, rfl, doomed.valid, doomed.live, doomed.housed, rfl, .refl _,
          fun _ live _ => live⟩
      | cons p rest =>
          have member := (doomed.inside p List.mem_cons_self).1
          have some_ := List.length_pos_of_mem member
          omega
  | succ fuel ih =>
      cases todo with
      | nil => exact ⟨s, members, rfl, doomed.valid, doomed.live, doomed.housed, rfl, .refl _,
          fun _ live _ => live⟩
      | cons p rest =>
          obtain ⟨member, here⟩ := doomed.inside p List.mem_cons_self
          have live : p ∈ s.live := doomed.live.mem_iff.mpr (List.mem_append_left own member)
          obtain ⟨middle, gone, done, left, valid⟩ := doomed.valid.leave member
          have shorter : (members.erase p).length ≤ fuel := by
            rw [List.length_erase_of_mem member]
            omega
          obtain ⟨after, members', ran, destroyed⟩ := ih (doomed.next left valid) shorter
          refine ⟨after, members', ?_, destroyed.valid, destroyed.live, destroyed.housed,
            destroyed.taken.trans left.taken, ?_, fun x there away => ?_⟩
          · rw [State.destroyAll, if_pos live, done, Option.bind_some]
            exact ran
          · exact destroyed.sublist.trans (left.live ▸ List.erase_sublist)
          · refine destroyed.spared x ?_ away
            have other : x ≠ p := by
              rintro rfl
              exact away here
            rw [left.live]
            exact (List.mem_erase_of_ne other).mpr there

theorem Housed.capture {v : Option V} (housed : Housed layout s)
    (fresh : ∀ o ∈ v, ∀ x ∈ layout.fields o, x ∈ s.live) : Housed layout (s.capture p v) := by
  intro o taken alive x member
  rcases List.mem_append.mp taken with mem | taken
  · exact fresh o (Option.mem_toList.mp mem) x member
  · exact housed o taken alive x member

theorem Valid.depart (valid : Valid s s.live) (housed : Housed layout s) (mine : p ∈ s.live)
    (spares : s.Spares layout p p) :
    ∃ after left reached, s.depart layout p = some after ∧
      Destroyed layout s after reached [p] left ∧ p ∉ left ∧
      (∀ x, s.Spares layout p x → ¬ reached x) ∧
      ∀ x, reached x → ∃ w ∈ s.taken, x ∈ layout.fields w := by
  obtain ⟨middle, gone, done, left, valid'⟩ := valid.leave mine
  let reached : P → Prop := fun x => ∃ o, gone = some o ∧ Inside layout s.value o x
  have spared (x : P) (spares : s.Spares layout p x) : ¬ reached x := by
    rintro ⟨o, is, inside⟩
    obtain ⟨holds, sole⟩ := left.last o is
    exact spares sole o holds inside
  have held (o : V) (is : gone = some o) : o ∈ s.taken ∧ o ∉ s.deleted :=
    valid.held p mine o (left.last o is).1
  have doomed : Doomed layout middle reached (s.live.erase p) [p]
      (gone.toList.flatMap layout.fields) := {
    valid := valid'
    live := by
      rw [left.live]
      exact (List.perm_cons_erase mine).trans (List.perm_append_singleton p _).symm
    housed := fun v taken alive => by
      rw [left.live]
      exact housed v (left.taken ▸ taken) (left.alive alive).1
    closed := by
      rintro y ⟨o, is, inside⟩ w holds x member
      exact ⟨o, is, inside.extend (left.value ▸ holds) member⟩
    spared := fun x is => by
      obtain rfl := List.mem_singleton.mp is
      exact spared x spares
    inside := fun x inside => by
      obtain ⟨o, is, member⟩ := mem_fieldsOf.mp inside
      have within : reached x := ⟨o, is, .member member⟩
      refine ⟨(List.mem_erase_of_ne ?_).mpr (housed o (held o is).1 (held o is).2 x member), within⟩
      rintro rfl
      exact spared x spares within
    nodup := nodup_fieldsOf gone
    homes := fun _ _ alive _ => left.homes alive }
  obtain ⟨after, members, ran, destroyed⟩ := doomed.destroyAll valid'.enough
  have sublist : after.live.Sublist s.live := left.live ▸ destroyed.sublist
  refine ⟨after, members, reached, ?_, ?_, ?_, spared, ?_⟩
  · rw [State.depart, done, Option.bind_some]
    exact ran
  · exact ⟨destroyed.valid, destroyed.live, destroyed.housed, destroyed.taken.trans left.taken, sublist,
      fun x live => destroyed.spared x (left.live ▸ live)⟩
  · have nodup := destroyed.live.nodup (sublist.nodup valid.nodup)
    rw [List.nodup_append] at nodup
    exact fun inside => nodup.2.2 p inside p (List.mem_singleton_self p) rfl
  · rintro x ⟨o, is, inside⟩
    obtain ⟨w, taken, -, member⟩ := inside.held valid housed (held o is).1 (held o is).2
    exact ⟨w, taken, member⟩

variable [DecidableEq V]

theorem step_valid (valid : Valid s s.live) (housed : Housed layout s) {action : Action P V}
    (allowed : permitted layout s action) :
    ∃ after, step layout s action = some after ∧ Valid after after.live ∧ Housed layout after := by
  have more (p : P) : Valid { s with live := p :: s.live } s.live :=
    { valid with enough := Nat.le_succ _ }
  cases action with
  | construct p v =>
      obtain ⟨new, fresh⟩ := allowed
      refine ⟨_, rfl, (more p).capture new (Nat.lt_succ_self _) fun o mem => ?_, ?_⟩
      · exact ⟨(fresh o mem).1, (fresh o mem).2.1⟩
      · refine Housed.capture (housed.same (fun x => List.mem_cons_of_mem p) rfl rfl)
          fun o mem x member => ?_
        exact List.mem_cons_of_mem p ((fresh o mem).2.2 x member)
  | copyConstruct p q =>
      obtain ⟨new, member⟩ := allowed
      obtain ⟨after, done, ⟨live, taken, deleted⟩, valid'⟩ := (more p).copy new (Nat.lt_succ_self _) member
      refine ⟨after, done, live ▸ valid', housed.same (fun x inside => ?_) taken deleted⟩
      rw [live]
      exact List.mem_cons_of_mem p inside
  | assign p q =>
      obtain ⟨mine, member, spares⟩ := allowed
      rw [step]
      by_cases same : q = p
      · exact ⟨s, if_pos same, valid, housed⟩
      · obtain ⟨left, members, reached, departed, destroyed, new, spared, -⟩ :=
          valid.depart housed mine (spares same).1
        have mine' : p ∈ left.live := destroyed.spared p mine (spared p (spares same).1)
        have member' : q ∈ left.live := destroyed.spared q member (spared q (spares same).2)
        have inside : q ∈ members := (List.mem_append.mp (destroyed.live.mem_iff.mp member')).resolve_right
          fun is => same (List.mem_singleton.mp is)
        have room : members.length < left.live.length := by
          rw [destroyed.live.length_eq, List.length_append]
          exact Nat.lt_succ_self _
        obtain ⟨after, done, ⟨live, taken, deleted⟩, copied⟩ := destroyed.valid.copy new room inside
        refine ⟨after, ?_, ?_, destroyed.housed.same (fun x => live ▸ id) taken deleted⟩
        · rw [if_neg same, departed, Option.bind_some, if_pos ⟨mine', member'⟩, done]
        · rw [live]
          exact copied.perm ((destroyed.live.trans (List.perm_append_singleton p members)).symm)
  | reset p v =>
      obtain ⟨mine, fresh, spares⟩ := allowed
      obtain ⟨left, members, reached, departed, destroyed, new, spared, homes⟩ :=
        valid.depart housed mine spares
      have mine' : p ∈ left.live := destroyed.spared p mine (spared p spares)
      have room : members.length < left.live.length := by
        rw [destroyed.live.length_eq, List.length_append]
        exact Nat.lt_succ_self _
      refine ⟨left.capture p v, ?_, ?_, ?_⟩
      · rw [step, departed, Option.bind_some, if_pos mine']
      · refine Valid.perm (destroyed.valid.capture new room fun o mem => ?_)
          (destroyed.live.trans (List.perm_append_singleton p members)).symm
        have untaken : o ∉ left.taken := destroyed.taken ▸ (fresh o mem).1
        exact ⟨untaken, fun gone => untaken (destroyed.valid.own o gone)⟩
      · refine Housed.capture destroyed.housed fun o mem x member => ?_
        refine destroyed.spared x ((fresh o mem).2.2 x member) fun within => ?_
        obtain ⟨w, taken, member'⟩ := homes x within
        obtain rfl := layout.apart member member'
        exact (fresh o mem).1 taken
  | release p =>
      obtain ⟨mine, sole⟩ := allowed
      refine ⟨_, by rw [step, State.linkDepart, if_pos ((valid.alone_iff mine).mpr sole)]; rfl, ?_, ?_⟩
      · exact (valid.release mine sole).perm (List.perm_cons_erase mine).symm
      · exact fun v taken => housed v (List.mem_filter.mp taken).1
  | destroy p =>
      obtain ⟨mine, variable_⟩ := allowed
      have doomed : Doomed layout s (fun _ => True) s.live [] [p] := {
        valid := valid
        live := by rw [List.append_nil]
        housed := housed
        closed := fun _ _ _ _ _ _ => trivial
        spared := fun x is => absurd is List.not_mem_nil
        inside := fun x is => ⟨List.mem_singleton.mp is ▸ mine, trivial⟩
        nodup := List.nodup_singleton p
        homes := fun v taken alive x member is =>
          variable_ v taken alive (List.mem_singleton.mp is ▸ member) }
      obtain ⟨after, members, ran, destroyed⟩ := doomed.destroyAll (Nat.le_refl _)
      have live := destroyed.live
      rw [List.append_nil] at live
      exact ⟨after, ran, destroyed.valid.perm live.symm, destroyed.housed⟩

theorem reachable_valid {next : P → P} {value : P → Option V}
    (reach : Reachable (step layout) (permitted layout) (init next value) s) :
    Valid s s.live ∧ Housed layout s := by
  induction reach with
  | start =>
      exact ⟨⟨nofun, List.nodup_nil, Nat.le_refl 0, nofun, nofun, List.nodup_nil, nofun⟩, nofun⟩
  | next _ allowed moved ih =>
      obtain ⟨after, moved', valid'⟩ := step_valid ih.1 ih.2 allowed
      obtain rfl := Option.some.inj (moved'.symm.trans moved)
      exact valid'

omit [DecidableEq P] [DecidableEq V] in
theorem Inside.exists_field {v : V} (inside : Inside layout value v x) : ∃ w, x ∈ layout.fields w := by
  induction inside with
  | member member => exact ⟨_, member⟩
  | beyond _ _ _ ih => exact ih

def plain (layout : Layout P V) (s : State P V) : Action P V → Prop
  | .construct p v => p ∉ s.live ∧ s.Fresh layout v
  | .copyConstruct p q => p ∉ s.live ∧ q ∈ s.live
  | .assign p q => p ∈ s.live ∧ q ∈ s.live ∧ ∀ v, p ∉ layout.fields v ∧ q ∉ layout.fields v
  | .reset p v => p ∈ s.live ∧ s.Fresh layout v ∧ (s.value p = none ∨ ∀ w, p ∉ layout.fields w)
  | .release p => p ∈ s.live ∧ s.Sole p
  | .destroy p => p ∈ s.live ∧ ∀ v ∈ s.taken, v ∉ s.deleted → p ∉ layout.fields v

omit [DecidableEq P] [DecidableEq V] in
theorem permitted_of_plain {action : Action P V} (allowed : plain layout s action) :
    permitted layout s action := by
  have spares {p x : P} (outside : ∀ v, x ∉ layout.fields v) : s.Spares layout p x := by
    intro _ v _ inside
    obtain ⟨w, member⟩ := inside.exists_field
    exact outside w member
  cases action with
  | construct p v => exact allowed
  | copyConstruct p q => exact allowed
  | assign p q =>
      obtain ⟨mine, member, outside⟩ := allowed
      exact ⟨mine, member, fun _ => ⟨spares fun v => (outside v).1, spares fun v => (outside v).2⟩⟩
  | reset p v =>
      obtain ⟨mine, fresh, null | outside⟩ := allowed
      · refine ⟨mine, fresh, fun _ w holds => ?_⟩
        cases null.symm.trans holds
      · exact ⟨mine, fresh, spares outside⟩
  | release p => exact allowed
  | destroy p => exact allowed

instance [Fintype V] (s : State P V) (action : Action P V) : Decidable (plain layout s action) :=
  match action with
  | .construct p v => inferInstanceAs (Decidable (p ∉ s.live ∧
      ∀ o ∈ v, o ∉ s.taken ∧ o ∉ s.deleted ∧ ∀ x ∈ layout.fields o, x ∈ s.live))
  | .copyConstruct p q => inferInstanceAs (Decidable (p ∉ s.live ∧ q ∈ s.live))
  | .assign p q => inferInstanceAs
      (Decidable (p ∈ s.live ∧ q ∈ s.live ∧ ∀ v, p ∉ layout.fields v ∧ q ∉ layout.fields v))
  | .reset p v => inferInstanceAs (Decidable (p ∈ s.live ∧
      (∀ o ∈ v, o ∉ s.taken ∧ o ∉ s.deleted ∧ ∀ x ∈ layout.fields o, x ∈ s.live) ∧
      (s.value p = none ∨ ∀ w, p ∉ layout.fields w)))
  | .release p => inferInstanceAs
      (Decidable (p ∈ s.live ∧ ∀ q ∈ s.live, q ≠ p → ∀ o ∈ s.value q, s.value p ≠ some o))
  | .destroy p => inferInstanceAs
      (Decidable (p ∈ s.live ∧ ∀ v ∈ s.taken, v ∉ s.deleted → p ∉ layout.fields v))

/-- Two nodes of a list, whose `next` are the pointers 0 and 1. -/
def nodes : Layout Nat (Fin 2) where
  fields node := [node.val]
  nodup _ := List.nodup_singleton _
  apart first second :=
    Fin.ext ((List.mem_singleton.mp first).symm.trans (List.mem_singleton.mp second))

/-- The head of the list moves on through a pointer of its own, and takes the first node away. The
second one goes with the last pointer to it. -/
def sharing : List (Action Nat (Fin 2)) :=
  [.construct 0 none, .construct 2 (some 0), .construct 1 none, .reset 0 (some 1),
    .copyConstruct 3 0, .assign 2 3, .destroy 3, .assign 2 2, .destroy 2]

end ThreadIpc.LinkedPtr
