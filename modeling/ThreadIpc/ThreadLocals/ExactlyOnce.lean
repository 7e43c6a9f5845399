import ThreadIpc.ThreadLocals.Ledger

namespace ThreadIpc.ThreadLocals

variable {V D : Type}

def UserCode : List (Frame V D) → Prop
  | [] => True
  | frame :: _ => frame.isDestructor = true

def WellFormed (tls : Option Nat) : List (Frame V D) → Prop
  | [] => True
  | .destroyEntries _ _ _ :: outer => outer = []
  | .setValue slot _ :: outer => slot < kMaxSlots ∧ UserCode outer ∧ WellFormed tls outer
  | .destroyValue array slot :: outer => tls = some array ∧
      (UserCode outer ∨ ∃ stored rest, outer = .setValue slot stored :: rest) ∧ WellFormed tls outer

/-- On Windows the array stays the thread's own while the loop runs. Elsewhere it does not, and so
nothing comes into the slots that the loop has passed. -/
def LoopsOver (state : State V D) (array i : Nat) : Platform → Prop
  | .win32 => state.tls = some array
  | .posix _ => state.tls ≠ some array ∧
      ∀ slot < i, (state.entries (array, slot)).valid = false

def Loops (frames : List (Frame V D)) (array i : Nat) : Prop :=
  ∃ inside, Frame.destroyEntries array i inside ∈ frames

structure Shape (platform : Platform) (state : State V D) : Prop where
  wellFormed : WellFormed state.tls state.frames
  tls : ∀ array, state.tls = some array → array < state.nextArray
  placed : ∀ cell, (state.entries cell).valid = true → cell.2 < kMaxSlots ∧
    (state.tls = some cell.1 ∨ ∃ i, Loops state.frames cell.1 i)
  loop : ∀ array i, Loops state.frames array i →
    array < state.nextArray ∧ LoopsOver state array i platform

def State.Kept (state : State V D) : Prop :=
  Ledger state.entries state.stored state.destroyed (state.frames.filterMap Frame.cell)

def Vacant (state : State V D) : Prop :=
  ∀ slot stored outer, state.frames = .setValue slot stored :: outer →
    ∀ array, state.tls = some array → (state.entries (array, slot)).valid = false

structure Live (platform : Platform) (state : State V D) : Prop where
  kept : state.Kept
  shape : Shape platform state
  vacant : Vacant state

structure Finished (state : State V D) : Prop where
  kept : state.Kept
  frames : state.frames = []
  nothingOwed : ∀ cell, (state.entries cell).isOwed = false

def Sound (platform : Platform) (state : State V D) : Prop :=
  state.gone = false ∧ Live platform state ∨ state.gone = true ∧ Finished state

theorem vacant_of_userCode {state : State V D} (user : UserCode state.frames) : Vacant state := by
  intro slot stored outer frames
  rw [frames] at user
  contradiction

theorem wellFormed_some {frames : List (Frame V D)} (wellFormed : WellFormed none frames)
    (array : Nat) : WellFormed (some array) frames := by
  induction frames with
  | nil => trivial
  | cons frame outer ih =>
      cases frame with
      | destroyEntries _ _ _ => exact wellFormed
      | setValue _ _ => exact ⟨wellFormed.1, wellFormed.2.1, ih wellFormed.2.2⟩
      | destroyValue _ _ => exact absurd wellFormed.1 (by simp)

@[simp] theorem loops_setValue (slot : Nat) (stored : Stored V D) (outer : List (Frame V D))
    (array i : Nat) : Loops (.setValue slot stored :: outer) array i ↔ Loops outer array i := by
  simp [Loops]

@[simp] theorem loops_destroyValue (other slot : Nat) (outer : List (Frame V D)) (array i : Nat) :
    Loops (.destroyValue other slot :: outer) array i ↔ Loops outer array i := by
  simp [Loops]

@[simp] theorem loops_destroyEntries (other j : Nat) (inside : Bool) (array i : Nat) :
    Loops [(.destroyEntries other j inside : Frame V D)] array i ↔ array = other ∧ i = j := by
  simp [Loops]

@[simp] theorem not_loops (array i : Nat) : ¬ Loops ([] : List (Frame V D)) array i := by
  simp [Loops]

theorem LoopsOver.fewer {platform : Platform} {state after : State V D} {array i : Nat}
    (loops : LoopsOver state array i platform) (tls : after.tls = state.tls)
    (fewer : ∀ cell, (after.entries cell).valid = true → (state.entries cell).valid = true) :
    LoopsOver after array i platform := by
  cases platform with
  | win32 => exact tls.trans loops
  | posix destructorIterations =>
      refine ⟨by rw [tls]; exact loops.1, fun slot passed => ?_⟩
      cases valid : (after.entries (array, slot)).valid with
      | false => rfl
      | true => exact absurd (fewer _ valid) (by simp [loops.2 slot passed])

theorem Shape.fewer {platform : Platform} {state after : State V D} (shape : Shape platform state)
    (wellFormed : WellFormed after.tls after.frames) (tls : after.tls = state.tls)
    (nextArray : after.nextArray = state.nextArray)
    (loops : ∀ array i, Loops after.frames array i ↔ Loops state.frames array i)
    (fewer : ∀ cell, (after.entries cell).valid = true → (state.entries cell).valid = true) :
    Shape platform after where
  wellFormed := wellFormed
  tls := by
    rw [tls, nextArray]
    exact shape.tls
  placed := by
    intro cell valid
    simp only [tls, loops]
    exact shape.placed cell (fewer cell valid)
  loop := by
    intro array i member
    obtain ⟨older, covers⟩ := shape.loop array i ((loops _ _).mp member)
    exact ⟨nextArray ▸ older, covers.fewer tls fewer⟩

theorem invalidate_valid (state : State V D) (cell other : Nat × Nat)
    (valid : ((state.invalidate cell).entries other).valid = true) :
    (state.entries other).valid = true := by
  have elsewhere := invalidate_kept state.entries cell other valid
  rwa [show (state.invalidate cell).entries other = state.entries other from
    invalidate_other state.entries elsewhere] at valid

theorem invalidate_self (state : State V D) (cell : Nat × Nat) :
    ((state.invalidate cell).entries cell).valid = false := by
  simp [State.invalidate, Entry.invalidate]

theorem apart_not_running {state : State V D} {array slot : Nat} (tls : state.tls = some array)
    (apart : state.isBeingDestroyed slot = false) :
    (array, slot) ∉ state.frames.filterMap Frame.cell := by
  rw [State.isBeingDestroyed, tls] at apart
  exact of_decide_eq_false apart

theorem live_destroyValue {platform : Platform} {state : State V D} {slot : Nat} (kept : state.Kept)
    (shape : Shape platform state) (apart : state.isBeingDestroyed slot = false)
    (top : UserCode state.frames ∨ ∃ stored rest, state.frames = .setValue slot stored :: rest) :
    Live platform (state.destroyValue slot) := by
  unfold State.destroyValue
  cases tls : state.tls with
  | none =>
      refine ⟨kept, shape, ?_⟩
      intro _ _ _ _ array isSome
      rw [tls] at isSome
      contradiction
  | some array =>
      simp only
      split
      · rename_i valid
        split
        · rename_i destructor
          have has : (state.entries (array, slot)).hasDestructor = true := by
            rw [Entry.hasDestructor, valid, destructor]
            rfl
          refine ⟨kept.call has (apart_not_running tls apart), ?_, ?_⟩
          · exact shape.fewer ⟨tls, top, shape.wellFormed⟩ rfl rfl
              (fun _ _ => loops_destroyValue _ _ _ _ _) (fun _ valid => valid)
          · exact vacant_of_userCode rfl
        · rename_i none
          have has : (state.entries (array, slot)).hasDestructor = false := by
            rw [Entry.hasDestructor, Bool.eq_false_iff.mpr none, Bool.and_false]
          refine ⟨kept.clear has, ?_, ?_⟩
          · exact shape.fewer shape.wellFormed rfl rfl (fun _ _ => Iff.rfl)
              (invalidate_valid state (array, slot))
          · rcases top with user | ⟨stored, rest, frames⟩
            · exact vacant_of_userCode user
            · intro other _ _ otherFrames otherArray otherTls
              change state.frames = _ at otherFrames
              change state.tls = _ at otherTls
              rw [frames] at otherFrames
              rw [tls] at otherTls
              cases otherFrames
              cases otherTls
              exact invalidate_self state _
      · rename_i invalid
        refine ⟨kept, shape, ?_⟩
        rcases top with user | ⟨stored, rest, frames⟩
        · exact vacant_of_userCode user
        · intro other _ _ otherFrames otherArray otherTls
          rw [frames] at otherFrames
          rw [tls] at otherTls
          cases otherFrames
          cases otherTls
          exact Bool.eq_false_iff.mpr invalid

theorem live_setValue {platform : Platform} {state : State V D} {slot : Nat} (live : Live platform state)
    (user : UserCode state.frames) (bound : slot < kMaxSlots)
    (apart : state.isBeingDestroyed slot = false) (stored : Stored V D) :
    Live platform (state.setValue slot stored) := by
  refine live_destroyValue live.kept ?_ ?_ (.inr ⟨stored, state.frames, rfl⟩)
  · exact live.shape.fewer ⟨bound, user, live.shape.wellFormed⟩ rfl rfl
      (fun _ _ => loops_setValue _ _ _ _ _) (fun _ valid => valid)
  · exact apart

structure Obtained (platform : Platform) (state : State V D) (array slot : Nat)
    (after : State V D) : Prop where
  shape : Shape platform after
  tls : after.tls = some array
  vacant : (after.entries (array, slot)).valid = false
  entries : after.entries = state.entries
  frames : after.frames = state.frames
  stored : after.stored = state.stored
  destroyed : after.destroyed = state.destroyed
  gone : after.gone = state.gone

theorem getEntries_obtained {platform : Platform} {state : State V D} (shape : Shape platform state)
    {slot : Nat} (vacant : ∀ array, state.tls = some array →
      (state.entries (array, slot)).valid = false) :
    Obtained platform state state.getEntries.1 slot state.getEntries.2 := by
  unfold State.getEntries
  cases tls : state.tls with
  | some array => exact ⟨shape, tls, vacant array tls, rfl, rfl, rfl, rfl, rfl⟩
  | none =>
      obtain ⟨wellFormed, -, placed, loop⟩ := shape
      rw [tls] at wellFormed
      have older (cell : Nat × Nat) (valid : (state.entries cell).valid = true) :
          cell.1 < state.nextArray ∧ ∃ i, Loops state.frames cell.1 i := by
        rcases (placed cell valid).2 with isSome | ⟨i, loops⟩
        · rw [tls] at isSome
          contradiction
        · exact ⟨(loop _ _ loops).1, i, loops⟩
      refine ⟨⟨wellFormed_some wellFormed _, ?_, ?_, ?_⟩, rfl, ?_, rfl, rfl, rfl, rfl, rfl⟩
      · intro array here
        rw [← Option.some.inj here]
        exact Nat.lt_succ_self _
      · intro cell valid
        exact ⟨(placed cell valid).1, .inr (older cell valid).2⟩
      · intro array i loops
        obtain ⟨old, covers⟩ := loop array i loops
        refine ⟨Nat.lt_succ_of_lt old, ?_⟩
        cases platform with
        | win32 => exact absurd covers (by simp [LoopsOver, tls])
        | posix destructorIterations =>
            refine ⟨fun here => ?_, covers.2⟩
            rw [Option.some.inj here] at old
            exact Nat.lt_irrefl _ old
      · cases valid : (state.entries (state.nextArray, slot)).valid with
        | false => rfl
        | true => exact absurd (older _ valid).1 (Nat.lt_irrefl _)

theorem live_store {platform : Platform} {state : State V D} (live : Live platform state)
    {slot : Nat} {value : Stored V D} {outer : List (Frame V D)}
    (frames : state.frames = .setValue slot value :: outer) :
    Live platform (state.store slot value outer) := by
  obtain ⟨shape, tls, vacant, entries, sameFrames, stored, destroyed, -⟩ :=
    getEntries_obtained live.shape (live.vacant slot value outer frames)
  unfold State.store
  generalize state.getEntries = obtained at *
  obtain ⟨array, after⟩ := obtained
  simp only at shape tls vacant entries sameFrames stored destroyed ⊢
  obtain ⟨wellFormed, tlsOld, placed, loop⟩ := shape
  rw [sameFrames, frames] at wellFormed placed loop
  obtain ⟨bound, user, inner⟩ := wellFormed
  have kept := live.kept
  rw [State.Kept, frames, ← entries, ← stored, ← destroyed] at kept
  refine ⟨kept.store vacant value, ⟨inner, tlsOld, ?_, ?_⟩, vacant_of_userCode user⟩
  · intro cell valid
    by_cases here : cell = (array, slot)
    · rw [here]
      exact ⟨bound, .inl tls⟩
    · change (Function.update after.entries _ _ cell).valid = true at valid
      rw [Function.update_of_ne here] at valid
      simpa using placed cell valid
  · intro other i loops
    obtain ⟨old, covers⟩ := loop other i ((loops_setValue _ _ _ _ _).mpr loops)
    refine ⟨old, ?_⟩
    cases platform with
    | win32 => exact covers
    | posix destructorIterations =>
        refine ⟨covers.1, fun passed bound => ?_⟩
        have elsewhere : (other, passed) ≠ (array, slot) := by
          intro same
          exact covers.1 (by rw [tls, (Prod.mk.inj same).1])
        show (Function.update after.entries _ _ (other, passed)).valid = false
        rw [Function.update_of_ne elsewhere]
        exact covers.2 passed bound

theorem live_destroyValueReturns {platform : Platform} {state : State V D} (live : Live platform state)
    {array slot : Nat} {outer : List (Frame V D)}
    (frames : state.frames = .destroyValue array slot :: outer) :
    Live platform { state.invalidate (array, slot) with frames := outer } := by
  have kept := live.kept
  have wellFormed := live.shape.wellFormed
  rw [State.Kept, frames] at kept
  rw [frames] at wellFormed
  obtain ⟨tls, top, inner⟩ := wellFormed
  refine ⟨kept.finish, ?_, ?_⟩
  · exact live.shape.fewer inner rfl rfl (fun _ _ => by simp [frames])
      (invalidate_valid state (array, slot))
  · rcases top with user | ⟨stored, rest, rfl⟩
    · exact vacant_of_userCode user
    · intro other _ _ otherFrames otherArray otherTls
      change state.tls = _ at otherTls
      rw [tls] at otherTls
      cases otherFrames
      cases otherTls
      exact invalidate_self state _

theorem Shape.advance {platform : Platform} {state : State V D} (shape : Shape platform state)
    {array i : Nat} {inside : Bool} (frames : state.frames = [.destroyEntries array i inside]) :
    Shape platform { state.invalidate (array, i) with
      frames := [.destroyEntries array (i + 1) false] } where
  wellFormed := rfl
  tls := shape.tls
  placed := by
    intro cell valid
    have before := shape.placed cell (invalidate_valid state (array, i) cell valid)
    simpa [frames, State.invalidate] using before
  loop := by
    intro other j loops
    obtain ⟨rfl, rfl⟩ := (loops_destroyEntries _ _ _ _ _).mp loops
    obtain ⟨old, covers⟩ := shape.loop other i (by simp [frames])
    refine ⟨old, ?_⟩
    cases platform with
    | win32 => exact covers
    | posix destructorIterations =>
        refine ⟨covers.1, fun slot passed => ?_⟩
        by_cases here : slot = i
        · rw [here]
          exact invalidate_self state (other, i)
        · cases valid : ((state.invalidate (other, i)).entries (other, slot)).valid with
          | false => rfl
          | true =>
              have before := covers.2 slot (by omega)
              rw [invalidate_valid state (other, i) _ valid] at before
              contradiction

theorem Live.destroyEntries_last {platform : Platform} {state : State V D}
    (live : Live platform state) {array i : Nat} {running : Bool} {outer : List (Frame V D)}
    (frames : state.frames = .destroyEntries array i running :: outer) : outer = [] := by
  have wellFormed := live.shape.wellFormed
  rw [frames] at wellFormed
  exact wellFormed

theorem live_loopDestructorReturns {platform : Platform} {state : State V D}
    (live : Live platform state) {array i : Nat} {outer : List (Frame V D)}
    (frames : state.frames = .destroyEntries array i true :: outer) :
    Live platform { state.invalidate (array, i) with
      frames := .destroyEntries array (i + 1) false :: outer } := by
  obtain rfl := live.destroyEntries_last frames
  have kept := live.kept
  rw [State.Kept, frames] at kept
  refine ⟨kept.finish, live.shape.advance frames, ?_⟩
  intro _ _ _ otherFrames
  cases otherFrames

theorem nothingValid {platform : Platform} {state : State V D} (shape : Shape platform state)
    (tls : state.tls = none) (frames : state.frames = []) (cell : Nat × Nat) :
    (state.entries cell).valid = false := by
  cases valid : (state.entries cell).valid with
  | false => rfl
  | true => simpa [tls, frames] using (shape.placed cell valid).2

theorem notOwed_of_invalid {entry : Entry V D} (invalid : entry.valid = false) :
    entry.isOwed = false := by
  rw [Entry.isOwed, invalid]
  rfl

theorem Shape.destroyEntries {platform : Platform} {state : State V D} {array : Nat}
    (older : array < state.nextArray)
    (placed : ∀ cell, (state.entries cell).valid = true → cell.2 < kMaxSlots ∧ cell.1 = array) :
    Shape platform (state.destroyEntries platform array) where
  wellFormed := rfl
  tls := by
    intro other here
    cases platform with
    | win32 => exact Option.some.inj here ▸ older
    | posix _ => cases here
  placed := by
    intro cell valid
    obtain ⟨bound, here⟩ := placed cell valid
    exact ⟨bound, .inr ⟨0, by simp [State.destroyEntries, here]⟩⟩
  loop := by
    intro other i loops
    obtain ⟨rfl, rfl⟩ := (loops_destroyEntries _ _ _ _ _).mp loops
    refine ⟨older, ?_⟩
    cases platform with
    | win32 => rfl
    | posix _ => exact ⟨by simp [State.destroyEntries, Platform.tlsAtExit], by simp⟩

theorem sound_exit {platform : Platform} {state : State V D} (live : Live platform state)
    (notGone : state.gone = false) (frames : state.frames = []) :
    Sound platform (state.exit platform) := by
  have kept := live.kept
  unfold State.exit
  cases tls : state.tls with
  | none =>
      exact .inr ⟨rfl, kept, frames,
        fun cell => notOwed_of_invalid (nothingValid live.shape tls frames cell)⟩
  | some array =>
      rw [State.Kept, frames] at kept
      refine .inl ⟨notGone, kept, ?_, ?_⟩
      · refine Shape.destroyEntries (live.shape.tls array tls) fun cell valid => ?_
        simpa [tls, frames, eq_comm] using live.shape.placed cell valid
      · intro _ _ _ otherFrames
        cases otherFrames

theorem Shape.call {platform : Platform} {state : State V D} (shape : Shape platform state)
    {array i : Nat} (frames : state.frames = [.destroyEntries array i false]) :
    Shape platform (state.callDestructor (array, i) [.destroyEntries array i true]) :=
  shape.fewer rfl rfl rfl (fun _ _ => by simp [frames, State.callDestructor]) (fun _ valid => valid)

theorem hasOwed_false {state : State V D} {array : Nat} (none : state.hasOwed array = false)
    {slot : Nat} (bound : slot < kMaxSlots) : (state.entries (array, slot)).isOwed = false := by
  have := List.any_eq_false.mp none slot (List.mem_range.mpr bound)
  exact Bool.eq_false_iff.mpr this

theorem deleteEntries_valid {state : State V D} {array : Nat} {cell : Nat × Nat}
    (valid : ((state.deleteEntries array).entries cell).valid = true) :
    cell.1 ≠ array ∧ (state.entries cell).valid = true := by
  simp only [State.deleteEntries] at valid
  split at valid
  · contradiction
  · exact ⟨by assumption, valid⟩

theorem deleteEntries_other (state : State V D) {array : Nat} {cell : Nat × Nat}
    (elsewhere : cell.1 ≠ array) : (state.deleteEntries array).entries cell = state.entries cell :=
  if_neg elsewhere

theorem Ledger.delete {state : State V D} {array : Nat}
    (ledger : Ledger state.entries state.stored state.destroyed [])
    (notOwed : ∀ slot, (state.entries (array, slot)).isOwed = false) :
    Ledger (state.deleteEntries array).entries state.stored state.destroyed [] := by
  refine ledger.drop ?_ ?_ (fun _ _ => Iff.rfl) (List.Sublist.refl _) (by simp)
  · intro cell valid
    exact deleteEntries_other state (deleteEntries_valid valid).1
  · intro cell owed
    refine .inl (deleteEntries_other state fun here => ?_)
    have := notOwed cell.2
    rw [← here, owed] at this
    contradiction

theorem sound_win32Destroyed {state : State V D} (live : Live .win32 state) {array i : Nat}
    (frames : state.frames = [.destroyEntries array i false]) (none : state.hasOwed array = false) :
    Finished (state.entriesDestroyed array .win32) := by
  have kept := live.kept
  rw [State.Kept, frames] at kept
  have tls : state.tls = some array := (live.shape.loop array i (by simp [frames])).2
  have nothingOwed (cell : Nat × Nat) : (state.entries cell).isOwed = false := by
    cases valid : (state.entries cell).valid with
    | false => exact notOwed_of_invalid valid
    | true =>
        obtain ⟨bound, place⟩ := live.shape.placed cell valid
        have here : cell = (array, cell.2) := by
          simp only [tls, frames, loops_destroyEntries, Option.some.injEq] at place
          rcases place with same | ⟨_, same, _⟩
          · rw [same]
          · rw [← same]
        rw [here]
        exact hasOwed_false none bound
  refine ⟨kept.delete fun slot => nothingOwed _, rfl, fun cell => ?_⟩
  by_cases here : cell.1 = array
  · have gone : (state.deleteEntries array).entries cell = .empty := if_pos here
    show ((state.deleteEntries array).entries cell).isOwed = false
    rw [gone]
    rfl
  · show ((state.deleteEntries array).entries cell).isOwed = false
    rw [deleteEntries_other state here]
    exact nothingOwed cell

theorem sound_posixDestroyed {state : State V D} {destructorIterations : Nat}
    (live : Live (.posix destructorIterations) state) {array i : Nat}
    (frames : state.frames = [.destroyEntries array i false]) (ended : kMaxSlots ≤ i)
    (none : destructorIterations ≤ state.passes → state.tls.any state.hasOwed = false)
    (notGone : state.gone = false) :
    Sound (.posix destructorIterations) (state.entriesDestroyed array (.posix destructorIterations)) := by
  have kept := live.kept
  rw [State.Kept, frames] at kept
  obtain ⟨-, apart, empty⟩ := live.shape.loop array i (by simp [frames])
  have placed (cell : Nat × Nat) (valid : (state.entries cell).valid = true) :
      cell.2 < kMaxSlots ∧ state.tls = some cell.1 := by
    obtain ⟨bound, inTls | ⟨j, loops⟩⟩ := live.shape.placed cell valid
    · exact ⟨bound, inTls⟩
    · rw [frames, loops_destroyEntries] at loops
      have here := empty cell.2 (by omega)
      rw [← loops.1, valid] at here
      contradiction
  have invalid (slot : Nat) : (state.entries (array, slot)).valid = false := by
    cases valid : (state.entries (array, slot)).valid with
    | false => rfl
    | true => exact absurd (placed _ valid).2 apart
  have deleted := kept.delete fun slot => notOwed_of_invalid (invalid slot)
  unfold State.entriesDestroyed
  simp only
  cases tls : state.tls with
  | none =>
      refine .inr ⟨rfl, deleted, rfl, fun cell => notOwed_of_invalid ?_⟩
      show ((state.deleteEntries array).entries cell).valid = false
      cases valid : ((state.deleteEntries array).entries cell).valid with
      | false => rfl
      | true => simpa [tls] using (placed cell (deleteEntries_valid valid).2).2
  | some again =>
      simp only
      split
      · refine .inl ⟨notGone, deleted, ?_, ?_⟩
        · refine Shape.destroyEntries (live.shape.tls again tls) fun cell valid => ?_
          obtain ⟨bound, inTls⟩ := placed cell (deleteEntries_valid valid).2
          rw [tls] at inTls
          exact ⟨bound, (Option.some.inj inTls).symm⟩
        · intro _ _ _ otherFrames
          cases otherFrames
      · rename_i last
        have nothing := none (Nat.le_of_not_lt last)
        rw [tls] at nothing
        refine .inr ⟨rfl, deleted, rfl, fun cell => ?_⟩
        show ((state.deleteEntries array).entries cell).isOwed = false
        cases valid : ((state.deleteEntries array).entries cell).valid with
        | false => exact notOwed_of_invalid valid
        | true =>
            obtain ⟨elsewhere, before⟩ := deleteEntries_valid valid
            obtain ⟨bound, inTls⟩ := placed cell before
            rw [tls] at inTls
            have here : cell = (again, cell.2) := by
              rw [Option.some.inj inTls]
            rw [deleteEntries_other state elsewhere, here]
            exact hasOwed_false nothing bound

theorem sound_loop {platform : Platform} {state : State V D} (live : Live platform state)
    {array i : Nat} {outer : List (Frame V D)}
    (frames : state.frames = .destroyEntries array i false :: outer)
    (apart : state.leavesValues platform = false) (notGone : state.gone = false) :
    Sound platform (state.loop platform array i outer) := by
  obtain rfl := live.destroyEntries_last frames
  have kept := live.kept
  rw [State.Kept, frames] at kept
  unfold State.loop
  split
  · refine .inl ?_
    split
    · rename_i has
      exact ⟨notGone, kept.call has (by simp [Frame.cell]), live.shape.call frames,
        vacant_of_userCode rfl⟩
    · rename_i none
      refine ⟨notGone, kept.clear (Bool.eq_false_iff.mpr none), live.shape.advance frames, ?_⟩
      intro _ _ _ otherFrames
      cases otherFrames
  · rename_i ended
    have ended := Nat.le_of_not_lt ended
    simp only [State.leavesValues, frames, decide_eq_true ended, Bool.true_and] at apart
    cases platform with
    | win32 => exact .inr ⟨rfl, sound_win32Destroyed live frames apart⟩
    | posix destructorIterations =>
        refine sound_posixDestroyed live frames ended (fun last => ?_) notGone
        simpa [last] using apart

theorem destroyValue_gone (state : State V D) (slot : Nat) :
    (state.destroyValue slot).gone = state.gone := by
  unfold State.destroyValue
  split
  · rfl
  · simp only
    split
    · split <;> rfl
    · rfl

theorem store_gone (state : State V D) (slot : Nat) (value : Stored V D) (outer : List (Frame V D)) :
    (state.store slot value outer).gone = state.gone := by
  unfold State.store State.getEntries
  cases state.tls <;> rfl

theorem runsUserCode_user {state : State V D} (runs : state.runsUserCode = true) :
    state.gone = false ∧ UserCode state.frames := by
  rw [State.runsUserCode, Bool.and_eq_true] at runs
  refine ⟨Bool.not_eq_true' _ ▸ runs.1, ?_⟩
  have user := runs.2
  cases frames : state.frames with
  | nil => trivial
  | cons frame outer =>
      rw [frames] at user
      exact user

theorem inRange_toNat {key : Int} (bounds : inRange key = true) : key.toNat < kMaxSlots := by
  simp only [inRange, Bool.not_eq_true', Bool.or_eq_false_iff, decide_eq_false_iff_not] at bounds
  omega

theorem Sound.live {platform : Platform} {state : State V D} (sound : Sound platform state)
    (notGone : state.gone = false) : Live platform state := by
  rcases sound with ⟨-, live⟩ | ⟨gone, -⟩
  · exact live
  · rw [notGone] at gone
    contradiction

theorem Sound.frame {platform : Platform} {state : State V D} (sound : Sound platform state)
    {frame : Frame V D} {outer : List (Frame V D)} (frames : state.frames = frame :: outer) :
    state.gone = false ∧ Live platform state := by
  rcases sound with live | ⟨-, finished⟩
  · exact live
  · rw [finished.frames] at frames
    contradiction

theorem sound_step {platform : Platform} {state after : State V D} {action : Action V D}
    (sound : Sound platform state) (apart : destroysApart platform state action)
    (moved : step platform state action = some after) : Sound platform after := by
  cases action with
  | setValue key stored =>
      simp only [step, Option.ite_none_right_eq_some, Option.some.injEq] at moved
      obtain ⟨runs, rfl⟩ := moved
      obtain ⟨notGone, user⟩ := runsUserCode_user runs
      split
      · rename_i bounds
        refine .inl ⟨(destroyValue_gone _ _).trans notGone, ?_⟩
        exact live_setValue (sound.live notGone) user (inRange_toNat bounds) (apart bounds) stored
      · exact sound
  | destroyValue key =>
      simp only [step, Option.ite_none_right_eq_some, Option.some.injEq] at moved
      obtain ⟨runs, rfl⟩ := moved
      obtain ⟨notGone, user⟩ := runsUserCode_user runs
      have live := sound.live notGone
      split
      · rename_i bounds
        refine .inl ⟨(destroyValue_gone _ _).trans notGone, ?_⟩
        exact live_destroyValue live.kept live.shape (apart bounds) (.inl user)
      · exact sound
  | store =>
      simp only [step] at moved
      split at moved
      · rename_i frames
        obtain ⟨notGone, live⟩ := sound.frame frames
        rw [← Option.some.inj moved]
        exact .inl ⟨(store_gone _ _ _ _).trans notGone, live_store live frames⟩
      · contradiction
  | destructorReturns =>
      simp only [step, State.destructorReturns] at moved
      split at moved
      · rename_i frames
        obtain ⟨notGone, live⟩ := sound.frame frames
        rw [← Option.some.inj moved]
        exact .inl ⟨notGone, live_destroyValueReturns live frames⟩
      · rename_i frames
        obtain ⟨notGone, live⟩ := sound.frame frames
        rw [← Option.some.inj moved]
        exact .inl ⟨notGone, live_loopDestructorReturns live frames⟩
      · contradiction
  | exit =>
      simp only [step, Option.ite_none_right_eq_some, Option.some.injEq, Bool.and_eq_true,
        List.isEmpty_iff, Bool.not_eq_true'] at moved
      obtain ⟨⟨frames, notGone⟩, rfl⟩ := moved
      exact sound_exit (sound.live notGone) notGone frames
  | loop =>
      simp only [step] at moved
      split at moved
      · rename_i frames
        obtain ⟨notGone, live⟩ := sound.frame frames
        rw [← Option.some.inj moved]
        exact sound_loop live frames apart notGone
      · contradiction

theorem sound_init (platform : Platform) : Sound platform (State.init : State V D) := by
  refine .inl ⟨rfl, Ledger.empty, ⟨trivial, ?_, ?_, ?_⟩, vacant_of_userCode trivial⟩
  · intro array tls
    cases tls
  · intro cell valid
    cases valid
  · intro array i loops
    exact absurd loops (not_loops _ _)

theorem kept_destroyed_once {state : State V D} (kept : state.Kept)
    (nothingOwed : ∀ cell, (state.entries cell).isOwed = false) {number : Nat} {value : Stored V D}
    (isStored : state.stored[number]? = some value) (owed : value.isOwed = true) :
    state.destroyed.count number = 1 := by
  rcases kept.accounted number value isStored owed with once | ⟨cell, valid, rfl⟩
  · exact once
  · have recorded := kept.recorded cell valid
    rw [isStored] at recorded
    have entryOwed := nothingOwed cell
    rw [Entry.isOwed, valid, ← Option.some.inj recorded, owed] at entryOwed
    contradiction

theorem Sound.destroysExactlyOnce {platform : Platform} {state : State V D}
    (sound : Sound platform state) : DestroysExactlyOnce state := by
  intro number value isStored owed
  rcases sound with ⟨notGone, live⟩ | ⟨gone, finished⟩
  · refine ⟨live.kept.once number, fun gone => ?_⟩
    rw [notGone] at gone
    contradiction
  · exact ⟨finished.kept.once number,
      fun _ => kept_destroyed_once finished.kept finished.nothingOwed isStored owed⟩

theorem destroyed_exactly_once {platform : Platform} {state : State V D}
    (reach : Lib.Reachable (step platform) (destroysApart platform) .init state) :
    DestroysExactlyOnce state :=
  (reach.invariant (sound_init platform)
    fun _ _ _ sound apart moved => sound_step sound apart moved).destroysExactlyOnce

/-- The destructor of slot 5 stores into slot 7, which the loop has yet to reach. -/
def storesAheadRun : List (Action Nat Unit) :=
  [.setValue 5 ⟨some 10, some ()⟩, .store, .exit] ++ List.replicate 6 .loop ++
    [.setValue 7 ⟨some 20, some ()⟩, .store, .destructorReturns] ++ List.replicate 2 .loop ++
    [.destructorReturns] ++ List.replicate 57 .loop

theorem storesAhead_enabled :
    (Lib.run (step .win32) (destroysApart .win32) State.init storesAheadRun).isSome = true := by
  decide +kernel

def storesAhead : State Nat Unit :=
  Lib.final (step .win32) (destroysApart .win32) .init storesAheadRun storesAhead_enabled

theorem storesAhead_gone : storesAhead.gone = true ∧
    storesAhead.stored = [⟨some 10, some ()⟩, ⟨some 20, some ()⟩] := by
  decide +kernel

theorem storesAhead_once :
    storesAhead.destroyed.count 0 = 1 ∧ storesAhead.destroyed.count 1 = 1 := by
  have reach : Lib.Reachable (step .win32) (destroysApart .win32) .init storesAhead :=
    Lib.reachable_final storesAheadRun storesAhead_enabled
  have once := destroyed_exactly_once reach
  obtain ⟨gone, stored⟩ := storesAhead_gone
  exact ⟨(once 0 _ (by rw [stored]; rfl) rfl).2 gone, (once 1 _ (by rw [stored]; rfl) rfl).2 gone⟩

/-- The destructor of slot 0 destroys slot 0 again, once. -/
def reentersRun : List (Action Nat Unit) :=
  [.setValue 0 ⟨some 10, some ()⟩, .store, .destroyValue 0, .destroyValue 0]

def reentered : State Nat Unit :=
  Lib.final (step .win32) Lib.anyAction .init reentersRun (by decide)

/-- The destructor of slot 5 stores into slot 2, which the loop has passed. -/
def storesBehindRun : List (Action Nat Unit) :=
  [.setValue 5 ⟨some 10, some ()⟩, .store, .exit] ++ List.replicate 6 .loop ++
    [.setValue 2 ⟨some 20, some ()⟩, .store, .destructorReturns] ++ List.replicate 59 .loop

theorem storesBehind_enabled :
    (Lib.run (step .win32) Lib.anyAction State.init storesBehindRun).isSome = true := by
  decide +kernel

def storesBehind : State Nat Unit :=
  Lib.final (step .win32) Lib.anyAction .init storesBehindRun storesBehind_enabled

theorem not_destroyed_once :
    (Reached .win32 reentered ∧ reentered.destroyed = [0, 0] ∧ ¬ DestroysExactlyOnce reentered) ∧
    (Reached .win32 storesBehind ∧ storesBehind.gone = true ∧ storesBehind.destroyed = [0] ∧
      ¬ DestroysExactlyOnce storesBehind) := by
  have again : reentered.destroyed = [0, 0] := by
    decide
  have lost : storesBehind.gone = true ∧ storesBehind.destroyed = [0] ∧
      storesBehind.stored[1]? = some ⟨some 20, some ()⟩ := by
    decide +kernel
  refine ⟨⟨Lib.reachable_final reentersRun (by decide), again, fun once => ?_⟩,
    Lib.reachable_final storesBehindRun storesBehind_enabled, lost.1, lost.2.1, fun once => ?_⟩
  · have twice := (once 0 ⟨some 10, some ()⟩ (by decide) rfl).1
    rw [again] at twice
    exact absurd twice (by decide)
  · have never := (once 1 _ lost.2.2 rfl).2 lost.1
    rw [lost.2.1] at never
    exact absurd never (by decide)

end ThreadIpc.ThreadLocals
