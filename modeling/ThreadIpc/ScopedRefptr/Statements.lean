import ThreadIpc.ScopedRefptr.Interleavings

/-!
# The statements of the calls

A call reads the pointer that it is given when it begins, and `reset` reads its own one into `tmp` in a
statement before the one that writes it. No other call disturbs what has been read, so that a call may
as well do all of this where it writes `ptr_`.
-/

namespace ThreadIpc.ScopedRefptr

open Lib

/-- A call that has not written `ptr_` yet, with what `p` and `tmp` hold. -/
inductive Call (X O : Type)
  | construct (x : X) (source : Source X O) (p : Option O)
  | reset (h : Holder X O) (source : Source X O) (p : Option O)
  | resetTmp (h : Holder X O) (source : Source X O) (p tmp : Option O)

namespace Call
variable {X O : Type}

def target : Call X O → Holder X O
  | construct x _ _ => .variable_ x
  | reset h _ _ | resetTmp h _ _ _ => h

def source : Call X O → Source X O
  | construct _ source _ | reset _ source _ | resetTmp _ source _ _ => source

def p : Call X O → Option O
  | construct _ _ p | reset _ _ p | resetTmp _ _ p _ => p

def action {T : Type} (t : T) : Call X O → Action T X O
  | construct x source _ => .construct t x source
  | reset h source _ | resetTmp h source _ _ => .reset t h source

def Uses (c : Call X O) (h : Holder X O) : Prop := c.target = h ∨ c.source = .pointer h

def Apart (c c' : Call X O) : Prop :=
  ¬ c'.Uses c.target ∧ ∀ o, c.source = .fresh o → c'.source ≠ .fresh o

instance [DecidableEq X] [DecidableEq O] (c : Call X O) (h : Holder X O) : Decidable (c.Uses h) :=
  inferInstanceAs (Decidable (_ ∨ _))

end Call

def Source.value {T X O : Type} (s : State T X O) : Source X O → Option O
  | .null => none
  | .fresh o => some o
  | .pointer b => s.ptr b

structure Machine (T X O : Type) where
  state : State T X O
  call : T → Option (Call X O)

section Steps
variable {T X O : Type} [DecidableEq T] [DecidableEq X] [DecidableEq O] (members : O → Nat)

namespace State
variable (s : State T X O)

def assign (t : T) (h self : Holder X O) (p : Option O) : Source X O → State T X O
  | .null =>
      { s with
        ptr := Function.update s.ptr h p
        todo := Function.update s.todo t (.doRef h none :: s.todo t) }
  | .fresh o =>
      { s with
        ptr := Function.update s.ptr h p
        stage := Function.update s.stage o .taken
        todo := Function.update s.todo t (.doRef h none :: s.todo t) }
  | .pointer b =>
      { s with
        ptr := Function.update s.ptr h p
        todo := Function.update s.todo t (.doRef h (some (if b = h then self else b)) :: s.todo t) }

def construct (t : T) (x : X) (source : Source X O) (p : Option O) : State T X O :=
  { s with live := Function.update s.live (.variable_ x) true }.assign t (.variable_ x) (.variable_ x)
    p source

def overwrite (t : T) (h : Holder X O) (source : Source X O) (p tmp : Option O) : State T X O :=
  let kept := .tmp s.temps
  { s with
    temps := s.temps + 1
    live := Function.update s.live kept true
    ptr := Function.update s.ptr kept tmp
    todo := Function.update s.todo t (.doUnref kept :: s.todo t) }.assign t h kept p source

end State

namespace Machine
variable (m : Machine T X O)

def init : Machine T X O := ⟨.init, fun _ => none⟩

def perform (action : Action T X O) : Option (Machine T X O) :=
  (step members m.state action).map fun s => { m with state := s }

def begin_ (t : T) (c : Call X O) : Machine T X O :=
  { m with call := Function.update m.call t (some c) }

/-- No call that has not written its pointer yet works on this one. -/
def Untouched (h : Holder X O) : Prop := ∀ t, ∀ c ∈ m.call t, ¬ c.Uses h

/-- No such call writes what is read, or takes over the same new object. -/
def Unclaimed : Source X O → Prop
  | .null => True
  | .fresh o => ∀ t, ∀ c ∈ m.call t, c.source ≠ .fresh o
  | .pointer b => ∀ t, ∀ c ∈ m.call t, c.target ≠ b

def MayRelease : List (Instr X O) → Prop
  | .doUnref h :: _ => ∀ o ∈ m.state.ptr h, m.state.count o = 1 →
      ∀ i < members o, m.Untouched (.member o i)
  | _ => True

end Machine

def statement (m : Machine T X O) : Action T X O → Option (Machine T X O)
  | .make o => m.perform members (.make o)
  | .construct t x source =>
      match m.call t with
      | none => some (m.begin_ t (.construct x source (source.value m.state)))
      | some _ => none
  | .reset t h source =>
      match m.call t with
      | none => some (m.begin_ t (.reset h source (source.value m.state)))
      | some _ => none
  | .destroy t x =>
      match m.call t with
      | none => m.perform members (.destroy t x)
      | some _ => none
  | .advance t =>
      match m.call t with
      | none => m.perform members (.advance t)
      | some (.construct x source p) =>
          some ⟨m.state.construct t x source p, Function.update m.call t none⟩
      | some (.reset h source p) => some (m.begin_ t (.resetTmp h source p (m.state.ptr h)))
      | some (.resetTmp h source p tmp) =>
          some ⟨m.state.overwrite t h source p tmp, Function.update m.call t none⟩

/-- What is permitted of a call holds when it begins, also towards the calls that have begun. -/
def allowed (m : Machine T X O) : Action T X O → Prop
  | .make o => permitted members m.state (.make o)
  | .construct t x source => permitted members m.state (.construct t x source) ∧
      m.Untouched (.variable_ x) ∧ m.Unclaimed source
  | .reset t h source =>
      permitted members m.state (.reset t h source) ∧ m.Untouched h ∧ m.Unclaimed source
  | .destroy t x => permitted members m.state (.destroy t x) ∧ m.Untouched (.variable_ x)
  | .advance t => m.call t = none →
      permitted members m.state (.advance t) ∧ m.MayRelease members (m.state.todo t)

end Steps

variable {T X O : Type} {members : O → Nat} {s after : State T X O} {t : T} {c : Call X O}
  {h : Holder X O}

def Call.Free (s : State T X O) : Call X O → Prop
  | .construct x _ _ => s.live (.variable_ x) = false
  | .reset h _ _ | .resetTmp h _ _ _ => s.live h = true ∧ s.Idle h ∧ s.Unborrowed h

structure Call.Ready (s : State T X O) (c : Call X O) : Prop where
  free : c.Free s
  usable : s.Usable c.source
  p : c.p = c.source.value s
  tmp : ∀ h source p tmp, c = .resetTmp h source p tmp → tmp = s.ptr h

namespace Call.Ready

theorem target (ready : c.Ready s) : s.live c.target = true ∧ s.Idle c.target ∧ s.Unborrowed c.target ∨
    s.live c.target = false ∧ ∃ x source p, c = .construct x source p := by
  have free := ready.free
  cases c with
  | construct x source p => exact .inr ⟨free, x, source, p, rfl⟩
  | reset h source p => exact .inl free
  | resetTmp h source p tmp => exact .inl free

theorem permitted (ready : c.Ready s) : permitted members s (c.action t) := by
  have free := ready.free
  cases c with
  | construct x source p => exact ⟨free, ready.usable⟩
  | reset h source p => exact ⟨free.1, free.2.1, free.2.2, ready.usable⟩
  | resetTmp h source p tmp => exact ⟨free.1, free.2.1, free.2.2, ready.usable⟩

theorem live_of_uses (ready : c.Ready s) (uses : c.Uses h) :
    s.live h = true ∨ c.target = h ∧ ∃ x source p, c = .construct x source p := by
  rcases uses with rfl | read
  · rcases ready.target with ⟨live, -⟩ | ⟨-, constructs⟩
    · exact .inl live
    · exact .inr ⟨rfl, constructs⟩
  · have usable := ready.usable
    rw [read] at usable
    exact .inl usable.1

theorem key_ne (ready : c.Ready s) (sound : Sound members s (Pending s.todo)) {i : Instr X O}
    (left : Pending s.todo i) (uses : c.Uses h) : i.key ≠ h := by
  rcases uses with rfl | read
  · rcases ready.target with ⟨-, idle, -⟩ | ⟨dead, -⟩
    · exact idle.of_pending i left
    · intro same
      cases dead.symm.trans (same ▸ sound.live i left)
  · have usable := ready.usable
    rw [read] at usable
    exact usable.2.of_pending i left

theorem tmp_ne (ready : c.Ready s) (sound : Sound members s (Pending s.todo)) (uses : c.Uses h) {n : Nat}
    (large : s.temps ≤ n) : .tmp n ≠ h := by
  rintro rfl
  rcases ready.live_of_uses uses with live | ⟨same, x, source, p, rfl⟩
  · cases (sound.later n large).symm.trans live
  · cases same

theorem stable (ready : c.Ready s) (ptr : ∀ h, c.Uses h → after.ptr h = s.ptr h)
    (live : ∀ h, c.Uses h → after.live h = s.live h)
    (fresh : ∀ o, c.source = .fresh o → s.stage o = .made → after.stage o = .made)
    (todo : ∀ i, Pending after.todo i → Pending s.todo i ∨
      (∀ h, c.Uses h → i.key ≠ h) ∧ i.guard ≠ some c.target) : c.Ready after := by
  have idle {h : Holder X O} (uses : c.Uses h) (idle : s.Idle h) : after.Idle h := by
    intro t i inside
    rcases todo i ⟨t, inside⟩ with left | ⟨other, -⟩
    · exact idle.of_pending i left
    · exact other h uses
  have target : c.Uses c.target := .inl rfl
  have unborrowed (unborrowed : s.Unborrowed c.target) : after.Unborrowed c.target := by
    intro t i inside
    rcases todo i ⟨t, inside⟩ with left | ⟨-, other⟩
    · exact unborrowed.of_pending i left
    · exact other
  refine ⟨?_, ?_, ?_, fun h source p tmp same => ?_⟩
  · have free := ready.free
    cases c with
    | construct x source p => exact (live _ target).trans free
    | reset h source p =>
        exact ⟨(live h target).trans free.1, idle target free.2.1, unborrowed free.2.2⟩
    | resetTmp h source p tmp =>
        exact ⟨(live h target).trans free.1, idle target free.2.1, unborrowed free.2.2⟩
  · have usable := ready.usable
    cases read : c.source with
    | null => trivial
    | fresh o =>
        rw [read] at usable
        exact fresh o read usable
    | pointer b =>
        rw [read] at usable
        exact ⟨(live b (.inr read)).trans usable.1, idle (.inr read) usable.2⟩
  · rw [ready.p]
    cases read : c.source with
    | null => rfl
    | fresh o => rfl
    | pointer b => exact (ptr b (.inr read)).symm
  · rw [ready.tmp h source p tmp same]
    subst same
    exact (ptr h target).symm

end Call.Ready

structure Local (s after : State T X O) (touches : Holder X O → Prop) (takes : O → Prop)
    (adds : Instr X O → Prop) : Prop where
  ptr : ∀ k, ¬ touches k → after.ptr k = s.ptr k
  live : ∀ k, ¬ touches k → after.live k = s.live k
  made : ∀ o, ¬ takes o → s.stage o = .made → after.stage o = .made
  todo : ∀ i, Pending after.todo i → Pending s.todo i ∨ adds i

theorem Call.Ready.away {touches : Holder X O → Prop} {takes : O → Prop} {adds : Instr X O → Prop}
    (ready : c.Ready s) (local_ : Local s after touches takes adds) (ptr : ∀ h, c.Uses h → ¬ touches h)
    (fresh : ∀ o, c.source = .fresh o → ¬ takes o)
    (todo : ∀ i, adds i → (∀ h, c.Uses h → i.key ≠ h) ∧ i.guard ≠ some c.target) : c.Ready after :=
  ready.stable (fun h uses => local_.ptr h (ptr h uses)) (fun h uses => local_.live h (ptr h uses))
    (fun o read => local_.made o (fresh o read)) fun i left => (local_.todo i left).imp_right (todo i)

/-- Every call that has begun could still do everything at once, whatever the others do. -/
structure Prepared (m : Machine T X O) : Prop where
  ready : ∀ t, ∀ c ∈ m.call t, c.Ready m.state
  apart : ∀ t t', t ≠ t' → ∀ c ∈ m.call t, ∀ c' ∈ m.call t', c.Apart c'

section Calls
variable {m : Machine T X O} {t' : T} {c' : Call X O}

theorem Machine.Untouched.apart (untouched : m.Untouched c.target) (unclaimed : m.Unclaimed c.source)
    (there : c' ∈ m.call t') : c.Apart c' ∧ c'.Apart c := by
  have fresh (o : O) (read : c.source = .fresh o) : c'.source ≠ .fresh o := by
    rw [read] at unclaimed
    exact unclaimed t' c' there
  refine ⟨⟨untouched t' c' there, fresh⟩, ?_, fun o read read' => fresh o read' read⟩
  rintro (same | read)
  · exact untouched t' c' there (.inl same.symm)
  · rw [read] at unclaimed
    exact unclaimed t' c' there rfl

variable [DecidableEq T]

theorem Machine.mem_begin (there : c' ∈ (m.begin_ t c).call t') :
    t' = t ∧ c' = c ∨ t' ≠ t ∧ c' ∈ m.call t' := by
  by_cases same : t' = t
  · subst same
    have self : (m.begin_ t' c).call t' = some c := Function.update_self ..
    rw [self] at there
    exact .inl ⟨rfl, (Option.some.inj there).symm⟩
  · have other : (m.begin_ t c).call t' = m.call t' := Function.update_of_ne same ..
    rw [other] at there
    exact .inr ⟨same, there⟩

theorem mem_ended {call : T → Option (Call X O)}
    (there : c' ∈ Function.update call t none t') : t' ≠ t ∧ c' ∈ call t' := by
  by_cases same : t' = t
  · rw [same, Function.update_self] at there
    cases there
  · rw [Function.update_of_ne same] at there
    exact ⟨same, there⟩

theorem Prepared.begin_ (prepared : Prepared m) (ready : c.Ready m.state)
    (apart : ∀ t', t' ≠ t → ∀ c' ∈ m.call t', c.Apart c' ∧ c'.Apart c) : Prepared (m.begin_ t c) := by
  refine ⟨fun t' c' there => ?_, fun t' t'' other c' first c'' second => ?_⟩
  · rcases Machine.mem_begin there with ⟨-, rfl⟩ | ⟨-, there⟩
    · exact ready
    · exact prepared.ready t' c' there
  · rcases Machine.mem_begin first with ⟨rfl, rfl⟩ | ⟨away, old⟩
    · rcases Machine.mem_begin second with ⟨rfl, -⟩ | ⟨away', old'⟩
      · exact absurd rfl other
      · exact (apart t'' away' c'' old').1
    · rcases Machine.mem_begin second with ⟨rfl, rfl⟩ | ⟨-, old'⟩
      · exact (apart t' away c' old).2
      · exact prepared.apart t' t'' other c' old c'' old'

end Calls

variable [DecidableEq T] [DecidableEq X] [DecidableEq O]

theorem acquire_eq_assign {self : Holder X O} {p : Option O} {source : Source X O}
    (null : source = .null → p = none) (fresh : ∀ o, source = .fresh o → p = some o)
    (pointer : ∀ b, source = .pointer b → p = s.ptr (if b = h then self else b)) :
    s.acquire t h self source = s.assign t h self p source := by
  cases source with
  | null => rw [null rfl]; rfl
  | fresh o => rw [fresh o rfl]; rfl
  | pointer b => rw [pointer b rfl]; rfl

theorem step_construct {x : X} {source : Source X O} {p : Option O}
    (ready : (Call.construct x source p).Ready s) :
    step members s (.construct t x source) = some (s.construct t x source p) := by
  have value : p = source.value s := ready.p
  refine congrArg some (acquire_eq_assign ?_ ?_ ?_)
  · rintro rfl
    exact value
  · rintro o rfl
    exact value
  · rintro b rfl
    rw [ite_eq_right_iff.mpr Eq.symm]
    exact value

theorem step_reset (sound : Sound members s (Pending s.todo)) {source : Source X O} {p tmp : Option O}
    (ready : (Call.resetTmp h source p tmp).Ready s) :
    step members s (.reset t h source) = some (s.overwrite t h source p tmp) := by
  have value : p = source.value s := ready.p
  have kept : tmp = s.ptr h := ready.tmp _ _ _ _ rfl
  subst kept
  refine congrArg some (acquire_eq_assign ?_ ?_ ?_)
  · rintro rfl
    exact value
  · rintro o rfl
    exact value
  · rintro b rfl
    rw [value]
    by_cases self : b = h
    · rw [if_pos self, self]
      exact (Function.update_self (.tmp s.temps : Holder X O) (s.ptr h) s.ptr).symm
    · rw [if_neg self]
      have other : b ≠ .tmp s.temps := (ready.tmp_ne sound (.inr rfl) (Nat.le_refl _)).symm
      exact (Function.update_of_ne other ..).symm

/-- An instruction on the two pointers that a call writes. -/
def OfCall (h kept : Holder X O) (source : Source X O) (i : Instr X O) : Prop :=
  (i.key = h ∨ i.key = kept) ∧ ∀ b, i.guard = some b → b = h ∨ b = kept ∨ source = .pointer b

theorem acquire_local (s : State T X O) (t : T) (h self : Holder X O) (source : Source X O) :
    Local s (s.acquire t h self source) (· = h) (fun o => source = .fresh o) fun i =>
      ∃ guard, i = .doRef h guard ∧ ∀ b, guard = some b → b = self ∨ source = .pointer b := by
  have pending (guard : Option (Holder X O)) (i : Instr X O) :
      Pending (Function.update s.todo t (.doRef h guard :: s.todo t)) i ↔
        Pending s.todo i ∨ i = .doRef h guard :=
    (@pending_prepend _ _ _ s.todo t i [.doRef h guard] _).trans (or_congr_right List.mem_singleton)
  cases source with
  | null =>
      refine ⟨fun k other => Function.update_of_ne other .., fun _ _ => rfl, fun _ _ made => made,
        fun i left => ((pending _ i).mp left).imp_right fun is => ⟨none, is, fun k equal => ?_⟩⟩
      cases equal
  | fresh o =>
      refine ⟨fun k other => Function.update_of_ne other .., fun _ _ => rfl, fun o' other made => ?_,
        fun i left => ((pending _ i).mp left).imp_right fun is => ⟨none, is, fun k equal => ?_⟩⟩
      · have apart : o' ≠ o := by
          rintro rfl
          exact other rfl
        exact (Function.update_of_ne apart ..).trans made
      · cases equal
  | pointer b =>
      refine ⟨fun k other => Function.update_of_ne other .., fun _ _ => rfl, fun _ _ made => made,
        fun i left => ((pending _ i).mp left).imp_right fun is => ⟨_, is, fun k equal => ?_⟩⟩
      obtain rfl := Option.some.inj equal
      split
      · exact .inl rfl
      · exact .inr rfl

theorem construct_local {x : X} {source : Source X O}
    (moved : step members s (.construct t x source) = some after) :
    Local s after (fun k => k = .variable_ x ∨ k = .tmp s.temps) (fun o => source = .fresh o)
      (OfCall (.variable_ x) (.tmp s.temps) source) := by
  obtain rfl := Option.some.inj moved
  have acquired := acquire_local { s with live := Function.update s.live (.variable_ x) true } t
    (.variable_ x) (.variable_ x) source
  refine ⟨fun k other => ?_, fun k other => ?_, acquired.made, fun i left => ?_⟩
  · exact acquired.ptr k fun same => other (.inl same)
  · refine (acquired.live k fun same => other (.inl same)).trans ?_
    exact Function.update_of_ne (fun same => other (.inl same)) ..
  · refine (acquired.todo i left).imp_right ?_
    rintro ⟨guard, rfl, from_⟩
    exact ⟨.inl rfl, fun b relies => (from_ b relies).imp_right .inr⟩

theorem reset_local {source : Source X O} (moved : step members s (.reset t h source) = some after) :
    Local s after (fun k => k = h ∨ k = .tmp s.temps) (fun o => source = .fresh o)
      (OfCall h (.tmp s.temps) source) := by
  obtain rfl := Option.some.inj moved
  have acquired := acquire_local
    { s with
      temps := s.temps + 1
      live := Function.update s.live (.tmp s.temps) true
      ptr := Function.update s.ptr (.tmp s.temps) (s.ptr h)
      todo := Function.update s.todo t (.doUnref (.tmp s.temps) :: s.todo t) } t h (.tmp s.temps) source
  refine ⟨fun k other => ?_, fun k other => ?_, acquired.made, fun i left => ?_⟩
  · refine (acquired.ptr k fun same => other (.inl same)).trans ?_
    exact Function.update_of_ne (fun same => other (.inr same)) ..
  · refine (acquired.live k fun same => other (.inl same)).trans ?_
    exact Function.update_of_ne (fun same => other (.inr same)) ..
  · rcases acquired.todo i left with left | ⟨guard, rfl, from_⟩
    · have split_ := (@pending_prepend _ _ _ s.todo t i [.doUnref (.tmp s.temps)] _).mp left
      refine split_.imp_right fun added => ?_
      obtain rfl := List.mem_singleton.mp added
      exact ⟨.inr rfl, fun b relies => absurd relies (Instr.guard_doUnref _ _)⟩
    · exact .inr ⟨.inl rfl, fun b relies => .inr (from_ b relies)⟩

theorem call_local (moved : step members s (c.action t) = some after) :
    Local s after (fun k => k = c.target ∨ k = .tmp s.temps) (fun o => c.source = .fresh o)
      (OfCall c.target (.tmp s.temps) c.source) := by
  cases c with
  | construct x source p => exact construct_local moved
  | reset h source p => exact reset_local moved
  | resetTmp h source p tmp => exact reset_local moved

theorem make_local {o : O} (moved : step members s (.make o) = some after) :
    Local s after (fun k => k.owner = some o) (fun _ => False) fun _ => False := by
  obtain rfl := Option.some.inj moved
  refine ⟨fun _ _ => rfl, fun k other => if_neg other, fun o' _ made => ?_, fun i left => .inl left⟩
  by_cases same : o' = o
  · rw [same]
    exact Function.update_self ..
  · exact (Function.update_of_ne same ..).trans made

theorem destroy_local {x : X} (moved : step members s (.destroy t x) = some after) :
    Local s after (fun _ => False) (fun _ => False) (· = .doUnref (.variable_ x)) := by
  obtain rfl := Option.some.inj moved
  refine ⟨fun _ _ => rfl, fun _ _ => rfl, fun _ _ made => made, fun i left => ?_⟩
  have split_ := (@pending_prepend _ _ _ s.todo t i [.doUnref (.variable_ x)] _).mp left
  exact split_.imp_right List.mem_singleton.mp

def Releases (members : O → Nat) (s : State T X O) (instr i : Instr X O) : Prop :=
  ∃ h o n, instr = .doUnref h ∧ s.ptr h = some o ∧ s.count o = 1 ∧ n < members o ∧
    i = .doUnref (.member o n)

theorem advance_local (orderly : Orderly members s) (moved : step members s (.advance t) = some after) :
    ∃ instr rest, s.todo t = instr :: rest ∧
      Local s after (· = instr.key) (fun _ => False) (Releases members s instr) := by
  cases here : s.todo t with
  | nil =>
      rw [step, here] at moved
      cases moved
  | cons instr rest =>
      rw [step, here] at moved
      obtain rfl := Option.some.inj moved
      refine ⟨instr, rest, rfl, ?_⟩
      have pending {i : Instr X O} (left : Pending (Function.update s.todo t rest) i) : Pending s.todo i :=
        ((orderly.apart.pending_advance here).mp left).1
      have old {h : Holder X O} {o o' : O} (points : s.ptr h = some o) (made : s.stage o' = .made) :
          o' ≠ o := by
        rintro rfl
        rcases orderly.sound.stage_of_ptr points with stage | stage
        · cases made.symm.trans stage
        · cases made.symm.trans stage
      cases instr with
      | doRef h guard =>
          show Local s (State.ref _ (s.ptr h)) _ _ _
          cases points : s.ptr h with
          | none =>
              exact ⟨fun _ _ => rfl, fun _ _ => rfl, fun _ _ made => made, fun i left =>
                .inl (pending left)⟩
          | some o =>
              refine ⟨fun _ _ => rfl, fun _ _ => rfl, fun o' _ made => ?_, fun i left =>
                .inl (pending left)⟩
              exact (Function.update_of_ne (old points made) ..).trans made
      | doUnref h =>
          show Local s (State.unref members _ t (s.ptr h)) _ _ _
          cases points : s.ptr h with
          | none =>
              exact ⟨fun _ other => Function.update_of_ne other .., fun _ other =>
                Function.update_of_ne other .., fun _ _ made => made, fun i left => .inl (pending left)⟩
          | some o =>
              rw [State.unref]
              by_cases last : s.count o - 1 = 0
              · simp only [if_pos last]
                refine ⟨fun _ other => Function.update_of_ne other .., fun _ other =>
                  Function.update_of_ne other .., fun o' _ made => ?_, fun i left => ?_⟩
                · exact (Function.update_of_ne (old points made) ..).trans made
                · refine (pending_prepend.mp left).imp pending fun added => ?_
                  obtain ⟨n, inside, rfl⟩ := List.mem_map.mp added
                  exact ⟨h, o, n, rfl, points, by omega, List.mem_range.mp inside, rfl⟩
              · simp only [if_neg last]
                exact ⟨fun _ other => Function.update_of_ne other .., fun _ other =>
                  Function.update_of_ne other .., fun _ _ made => made, fun i left => .inl (pending left)⟩

namespace Prepared
variable {m : Machine T X O}

theorem write (orderly : Orderly members m.state) (prepared : Prepared m) (here : c ∈ m.call t)
    (moved : step members m.state (c.action t) = some after) :
    Prepared ⟨after, Function.update m.call t none⟩ := by
  refine ⟨fun t' c' there => ?_, fun t' t'' other c' first c'' second => ?_⟩
  · obtain ⟨other, there⟩ := mem_ended there
    have ready := prepared.ready t' c' there
    have one := prepared.apart t t' other.symm c here c' there
    have two := prepared.apart t' t other c' there c here
    have away {h : Holder X O} (uses : c'.Uses h) : ¬ (h = c.target ∨ h = .tmp m.state.temps) := by
      rintro (rfl | rfl)
      · exact one.1 uses
      · exact ready.tmp_ne orderly.sound uses (Nat.le_refl _) rfl
    refine ready.away (call_local moved) (fun h => away) (fun o read read' => one.2 o read' read)
      fun i added => ⟨?_, ?_⟩
    · rintro h uses rfl
      exact away uses added.1
    · intro relies
      rcases added.2 _ relies with same | same | read
      · exact away (.inl rfl) (.inl same)
      · exact away (.inl rfl) (.inr same)
      · exact two.1 (.inr read)
  · exact prepared.apart t' t'' other c' (mem_ended first).2 c'' (mem_ended second).2

theorem make {o : O} (orderly : Orderly members m.state) (prepared : Prepared m)
    (unmade : m.state.stage o = .unmade) (moved : step members m.state (.make o) = some after) :
    Prepared { m with state := after } := by
  refine ⟨fun t c there => ?_, prepared.apart⟩
  have ready := prepared.ready t c there
  refine ready.away (make_local moved) (fun h uses owned => ?_) (fun _ _ => id) fun _ => False.elim
  cases h with
  | member o' i =>
      obtain rfl := Option.some.inj owned
      have dead := orderly.sound.memberDead o' i unmade
      rcases ready.live_of_uses uses with live | ⟨same, x, source, p, rfl⟩
      · cases dead.symm.trans live
      · cases same
  | variable_ x => cases owned
  | tmp n => cases owned

theorem destroy {x : X} (prepared : Prepared m) (untouched : m.Untouched (.variable_ x))
    (moved : step members m.state (.destroy t x) = some after) :
    Prepared { m with state := after } := by
  refine ⟨fun t c there => ?_, prepared.apart⟩
  refine (prepared.ready t c there).away (destroy_local moved) (fun _ _ => id) (fun _ _ => id)
    fun i is => ?_
  subst is
  refine ⟨fun h uses same => ?_, Instr.guard_doUnref _ _⟩
  obtain rfl : .variable_ x = h := same
  exact untouched t c there uses

theorem advance (orderly : Orderly members m.state) (prepared : Prepared m)
    (may : m.MayRelease members (m.state.todo t))
    (moved : step members m.state (.advance t) = some after) : Prepared { m with state := after } := by
  obtain ⟨instr, rest, here, moved⟩ := advance_local orderly moved
  have left : Pending m.state.todo instr := ⟨t, here ▸ List.mem_cons_self⟩
  refine ⟨fun t' c there => ?_, prepared.apart⟩
  have ready := prepared.ready t' c there
  refine ready.away moved (fun h uses same => ready.key_ne orderly.sound left uses same.symm)
    (fun _ _ => id) fun i added => ?_
  obtain ⟨h, o, n, rfl, points, last, inside, rfl⟩ := added
  refine ⟨fun k uses same => ?_, Instr.guard_doUnref _ _⟩
  rw [here] at may
  obtain rfl : .member o n = k := same
  exact may o points last n inside t' c there uses

end Prepared

theorem Machine.of_perform {m m' : Machine T X O} {action : Action T X O}
    (moved : m.perform members action = some m') :
    ∃ after, step members m.state action = some after ∧ m' = { m with state := after } := by
  obtain ⟨after, moved, is⟩ := Option.map_eq_some_iff.mp moved
  exact ⟨after, moved, is.symm⟩

/-- Every statement of a call but the one that writes `ptr_` changes nothing that others can see. -/
theorem statement_refines {m m' : Machine T X O} (orderly : Orderly members m.state)
    (prepared : Prepared m) {action : Action T X O} (may : allowed members m action)
    (moved : statement members m action = some m') :
    Prepared m' ∧ (m'.state = m.state ∨ ∃ coarse, permitted members m.state coarse ∧
      step members m.state coarse = some m'.state) := by
  cases action with
  | make o =>
      obtain ⟨after, stepped, rfl⟩ := Machine.of_perform moved
      exact ⟨prepared.make orderly may stepped, .inr ⟨.make o, may, stepped⟩⟩
  | construct t x source =>
      rw [statement] at moved
      split at moved
      · obtain rfl := Option.some.inj moved
        refine ⟨prepared.begin_ ⟨may.1.1, may.1.2, rfl, fun _ _ _ _ same => ?_⟩ fun t' _ c' there => ?_,
          .inl rfl⟩
        · cases same
        · exact may.2.1.apart may.2.2 there
      · cases moved
  | reset t h source =>
      rw [statement] at moved
      split at moved
      · obtain rfl := Option.some.inj moved
        obtain ⟨⟨live, idle, unborrowed, usable⟩, untouched, unclaimed⟩ := may
        refine ⟨prepared.begin_ ⟨⟨live, idle, unborrowed⟩, usable, rfl, fun _ _ _ _ same => ?_⟩
          fun t' _ c' there => ?_, .inl rfl⟩
        · cases same
        · exact untouched.apart unclaimed there
      · cases moved
  | destroy t x =>
      rw [statement] at moved
      split at moved
      · obtain ⟨after, stepped, rfl⟩ := Machine.of_perform moved
        exact ⟨prepared.destroy may.2 stepped, .inr ⟨_, may.1, stepped⟩⟩
      · cases moved
  | advance t =>
      rw [statement] at moved
      split at moved
      · rename_i here
        obtain ⟨after, stepped, rfl⟩ := Machine.of_perform moved
        obtain ⟨permitted, may⟩ := may here
        exact ⟨prepared.advance orderly may stepped, .inr ⟨_, permitted, stepped⟩⟩
      · rename_i x source p here
        obtain rfl := Option.some.inj moved
        have ready := prepared.ready t _ here
        have stepped : step members m.state (.construct t x source) =
            some (m.state.construct t x source p) := step_construct ready
        exact ⟨prepared.write orderly here stepped, .inr ⟨_, ready.permitted, stepped⟩⟩
      · rename_i h source p here
        obtain rfl := Option.some.inj moved
        have ready := prepared.ready t _ here
        refine ⟨prepared.begin_ ⟨ready.free, ready.usable, ready.p, ?_⟩ fun t' other c' there => ?_,
          .inl rfl⟩
        · rintro h source p tmp ⟨⟩
          rfl
        · exact ⟨prepared.apart t t' other.symm _ here c' there,
            prepared.apart t' t other c' there (.reset h source p) here⟩
      · rename_i h source p tmp here
        obtain rfl := Option.some.inj moved
        have ready := prepared.ready t _ here
        have stepped : step members m.state (.reset t h source) =
            some (m.state.overwrite t h source p tmp) := step_reset orderly.sound ready
        exact ⟨prepared.write orderly here stepped, .inr ⟨_, ready.permitted, stepped⟩⟩

theorem Machine.refines {m : Machine T X O}
    (reach : Reachable (statement members) (allowed members) .init m) :
    Reachable (step members) (permitted members) .init m.state ∧ Prepared m := by
  induction reach with
  | start => exact ⟨.start, fun _ _ there => (Option.not_mem_none _ there).elim,
      fun _ _ _ _ there => (Option.not_mem_none _ there).elim⟩
  | next _ may moved ih =>
      obtain ⟨reach, prepared⟩ := ih
      obtain ⟨prepared, same | ⟨coarse, permitted, moved⟩⟩ :=
        statement_refines (Orderly.reachable reach) prepared may moved
      · exact ⟨same ▸ reach, prepared⟩
      · exact ⟨.next reach permitted moved, prepared⟩

/-- Whatever the order of the threads' statements, no assertion fails, and no pointer dangles, nor does
what a call has read. Once every call that has written its pointer is done, an object has as many
pointers as its count says, and without any it is deleted. -/
theorem reachable_counted {m : Machine T X O}
    (reach : Reachable (statement members) (allowed members) .init m) :
    m.state.broken = false ∧
    (∀ h o, m.state.ptr h = some o → m.state.stage o = .shared ∨ m.state.stage o = .taken) ∧
    (∀ t, ∀ c ∈ m.call t, ∀ o ∈ c.p,
      m.state.stage o = .made ∨ m.state.stage o = .shared ∨ m.state.stage o = .taken) ∧
    ((∀ t, m.state.todo t = []) → ∀ o, Counts (fun h => m.state.ptr h = some o) (m.state.count o).toNat ∧
      ((∃ h, m.state.ptr h = some o) ↔ m.state.stage o = .shared) ∧ m.state.stage o ≠ .taken) := by
  obtain ⟨reach, prepared⟩ := Machine.refines reach
  have orderly := Orderly.reachable reach
  refine ⟨orderly.unbroken, fun h o => orderly.sound.stage_of_ptr, fun t c there o read => ?_,
    orderly.between⟩
  have ready := prepared.ready t c there
  have usable := ready.usable
  have value := ready.p.symm.trans read
  cases given : c.source with
  | null =>
      rw [given] at value
      cases value
  | fresh o' =>
      rw [given] at value usable
      obtain rfl := Option.some.inj value
      exact .inl usable
  | pointer b =>
      rw [given] at value
      exact .inr (orderly.sound.stage_of_ptr value)

section Decidability
variable [Fintype T] (m : Machine T X O)

instance (h : Holder X O) : Decidable (m.Untouched h) :=
  inferInstanceAs (Decidable (∀ t, ∀ c ∈ m.call t, ¬ c.Uses h))

instance (source : Source X O) : Decidable (m.Unclaimed source) :=
  match source with
  | .null => inferInstanceAs (Decidable True)
  | .fresh o => inferInstanceAs (Decidable (∀ t, ∀ c ∈ m.call t, c.source ≠ .fresh o))
  | .pointer b => inferInstanceAs (Decidable (∀ t, ∀ c ∈ m.call t, c.target ≠ b))

instance (instrs : List (Instr X O)) : Decidable (m.MayRelease members instrs) :=
  match instrs with
  | [] => inferInstanceAs (Decidable True)
  | .doRef _ _ :: _ => inferInstanceAs (Decidable True)
  | .doUnref h :: _ => inferInstanceAs (Decidable (∀ o ∈ m.state.ptr h, m.state.count o = 1 →
      ∀ i < members o, m.Untouched (.member o i)))

instance (action : Action T X O) : Decidable (allowed members m action) :=
  match action with
  | .make o => inferInstanceAs (Decidable (permitted members m.state (.make o)))
  | .construct t x source => inferInstanceAs (Decidable (permitted members m.state
      (.construct t x source) ∧ m.Untouched (.variable_ x) ∧ m.Unclaimed source))
  | .reset t h source => inferInstanceAs (Decidable (permitted members m.state (.reset t h source) ∧
      m.Untouched h ∧ m.Unclaimed source))
  | .destroy t x => inferInstanceAs
      (Decidable (permitted members m.state (.destroy t x) ∧ m.Untouched (.variable_ x)))
  | .advance t => inferInstanceAs (Decidable (m.call t = none →
      permitted members m.state (.advance t) ∧ m.MayRelease members (m.state.todo t)))

end Decidability

/-- The first object owns the second one. Two threads hand the first around, and the last pointer to it
takes both away. -/
def handedAround : List (Action Bool Bool Bool) :=
  [.make false, .construct false false (.fresh false), .advance false, .advance false, .make true,
    .reset false (.member false 0) (.fresh true), .advance false,
    .construct true true (.pointer (.variable_ false)), .advance false, .advance true, .advance false,
    .advance true, .advance false, .destroy false false,
    .reset true (.variable_ true) (.pointer (.variable_ true)), .advance true, .advance true,
    .advance false, .advance true, .advance true, .destroy true true, .advance true, .advance true]

theorem reachable_counted_handedAround :
    let members : Bool → Nat := fun o => if o then 0 else 1
    let m := final (statement members) (allowed members) .init handedAround (by decide +kernel)
    m.state.broken = false ∧
    (∀ h o, m.state.ptr h = some o → m.state.stage o = .shared ∨ m.state.stage o = .taken) ∧
    (∀ t, ∀ c ∈ m.call t, ∀ o ∈ c.p,
      m.state.stage o = .made ∨ m.state.stage o = .shared ∨ m.state.stage o = .taken) ∧
    ((∀ t, m.state.todo t = []) → ∀ o, Counts (fun h => m.state.ptr h = some o) (m.state.count o).toNat ∧
      ((∃ h, m.state.ptr h = some o) ↔ m.state.stage o = .shared) ∧ m.state.stage o ≠ .taken) :=
  reachable_counted (reachable_final _ _)

end ThreadIpc.ScopedRefptr
