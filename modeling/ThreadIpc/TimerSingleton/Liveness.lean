import ThreadIpc.TimerSingleton.Reach

/-!
# Timers that fire are alive and scheduled

`Callback` does not look whether a timer of its copy is still there. It goes wrong as soon as a
callback leaves within the reach of a `Callback` in progress a timer that is destroyed, or one that
is due but out of the queue since a `Callback` entered meanwhile has fired it.
-/

namespace ThreadIpc.TimerSingleton

def Frame.Unharmed (state : State) (clock : Int) (timer : Pointer) (call : TimedCall)
    (frame : Frame) : Prop :=
  if call.repeats then
    let heap := Function.update state.heap timer (some { call with deadline := clock + call.delay })
    ∀ other ∈ frame.reach heap, other ∈ frame.reach state.heap ∨
      state.heap other ≠ none ∧ (state.heap.due frame.now other → other ∈ state.timerQueue)
  else timer ∈ frame.reach state.heap → ¬ state.heap.due frame.now timer

def State.FiresHarmlessly (state : State) (clock : Int) : Prop :=
  match state.callbacks with
  | ⟨now, timer :: _⟩ :: outer => ∀ call ∈ state.heap timer, call.deadline ≤ now →
      ∀ frame ∈ outer, frame.Unharmed state clock timer call
  | _ => True

def Action.Harmless (state : State) : Action → Prop
  | .construct .. => True
  | .destroy timer => ∀ frame ∈ state.callbacks, timer ∉ frame.reach state.heap
  | .callback now clock _ => (state.copied now).FiresHarmlessly clock
  | .returns clock _ => state.FiresHarmlessly clock

def Frame.Sound (state : State) (frame : Frame) : Prop :=
  ∀ timer ∈ frame.reach state.heap, state.heap timer ≠ none ∧
    (state.heap.due frame.now timer → timer ∈ state.timerQueue)

def oneShots (fired : List Fired) : List Pointer :=
  (fired.filter fun fired => !fired.repeats).map (·.timer)

structure Consistent (state : State) : Prop where
  intact : state.corrupted = false
  numbers : ∀ timer, state.heap timer ≠ none → timer.number < state.constructed
  queued : ∀ timer ∈ state.timerQueue, state.heap timer ≠ none
  nodup : state.timerQueue.Nodup
  copies : ∀ frame ∈ state.callbacks,
    frame.rest.Nodup ∧ ∀ timer ∈ frame.rest, timer.number < state.constructed
  sound : ∀ frame ∈ state.callbacks, frame.Sound state
  fired : ∀ fired ∈ state.fired, fired.alive = true ∧ fired.scheduled = true
  done : ∀ timer ∈ oneShots state.fired, timer ∉ state.timerQueue ∧ timer.number < state.constructed
  once : (oneShots state.fired).Nodup

section
variable {state after : State} {timer : Pointer}

theorem init_consistent : Consistent .init where
  intact := rfl
  numbers _ present := absurd rfl present
  queued _ member := absurd member List.not_mem_nil
  nodup := List.nodup_nil
  copies _ member := absurd member List.not_mem_nil
  sound _ member := absurd member List.not_mem_nil
  fired _ member := absurd member List.not_mem_nil
  done _ member := absurd member List.not_mem_nil
  once := List.nodup_nil

theorem Consistent.pop (inv : Consistent state) {outer : List Frame}
    (innermost : outer ⊆ state.callbacks) : Consistent { state with callbacks := outer } :=
  { inv with
    copies := fun frame member => inv.copies frame (innermost member)
    sound := fun frame member => inv.sound frame (innermost member) }

theorem Consistent.copied (inv : Consistent state) (now : Int) : Consistent (state.copied now) where
  intact := inv.intact
  numbers := inv.numbers
  queued := inv.queued
  nodup := inv.nodup
  copies := by
    intro frame member
    rcases List.mem_cons.mp member with rfl | outer
    · exact ⟨inv.nodup, fun timer queued => inv.numbers timer (inv.queued timer queued)⟩
    · exact inv.copies frame outer
  sound := by
    intro frame member
    rcases List.mem_cons.mp member with rfl | outer
    · intro timer reached
      have queued : timer ∈ state.timerQueue := reach_subset reached
      exact ⟨inv.queued timer queued, fun _ => queued⟩
    · exact inv.sound frame outer
  fired := inv.fired
  done := inv.done
  once := inv.once

theorem Consistent.construct (inv : Consistent state) (address : Nat) (clock delay : Int)
    (repeats : Bool) : Consistent (state.construct address clock delay repeats) := by
  have fresh (timer : Pointer) (old : timer.number < state.constructed) :
      timer ≠ ⟨address, state.constructed⟩ := by
    rintro rfl
    exact absurd old (Nat.lt_irrefl _)
  have same (timer : Pointer) (old : timer.number < state.constructed) :
      (state.construct address clock delay repeats).heap timer = state.heap timer :=
    Function.update_of_ne (fresh timer old) ..
  constructor
  · exact inv.intact
  · intro timer present
    by_cases new : timer = ⟨address, state.constructed⟩
    · exact new ▸ Nat.lt_succ_self _
    · have unchanged : (state.construct address clock delay repeats).heap timer =
          state.heap timer := Function.update_of_ne new ..
      rw [unchanged] at present
      exact Nat.lt_succ_of_lt (inv.numbers timer present)
  · intro timer queued
    rcases mem_insert.mp queued with rfl | queued
    · have new : (state.construct address clock delay repeats).heap
          ⟨address, state.constructed⟩ = some ⟨delay, repeats, clock + delay⟩ :=
        Function.update_self ..
      rw [new]
      exact nofun
    · have present := inv.queued timer queued
      rw [same timer (inv.numbers timer present)]
      exact present
  · apply insert_nodup inv.nodup
    intro queued
    exact absurd (inv.numbers _ (inv.queued _ queued)) (Nat.lt_irrefl _)
  · intro frame member
    obtain ⟨nodup, old⟩ := inv.copies frame member
    exact ⟨nodup, fun timer inRest => Nat.lt_succ_of_lt (old timer inRest)⟩
  · intro frame member timer reached
    obtain ⟨_, old⟩ := inv.copies frame member
    have unchanged : frame.reach (state.construct address clock delay repeats).heap =
        frame.reach state.heap :=
      reach_congr fun timer reached => same timer (old timer (reach_subset reached))
    rw [unchanged] at reached
    obtain ⟨present, due⟩ := inv.sound frame member timer reached
    rw [Heap.due, same timer (old timer (reach_subset reached))]
    exact ⟨present, fun isDue => mem_insert.mpr (.inr (due isDue))⟩
  · exact inv.fired
  · intro timer shot
    obtain ⟨notQueued, old⟩ := inv.done timer shot
    refine ⟨?_, Nat.lt_succ_of_lt old⟩
    intro queued
    rcases mem_insert.mp queued with new | queued
    · exact fresh timer old new
    · exact notQueued queued
  · exact inv.once

theorem Consistent.destroy (inv : Consistent state)
    (unreached : ∀ frame ∈ state.callbacks, timer ∉ frame.reach state.heap) :
    Consistent (state.destroy timer) := by
  have same (other : Pointer) (different : other ≠ timer) :
      (state.destroy timer).heap other = state.heap other :=
    Function.update_of_ne different ..
  constructor
  · exact inv.intact
  · intro other present
    by_cases different : other = timer
    · subst different
      have gone : (state.destroy other).heap other = none := Function.update_self ..
      exact absurd gone present
    · rw [same other different] at present
      exact inv.numbers other present
  · intro other queued
    obtain ⟨queued, different⟩ := mem_erase.mp queued
    rw [same other different]
    exact inv.queued other queued
  · exact erase_nodup inv.nodup
  · exact inv.copies
  · intro frame member other reached
    have unchanged : frame.reach (state.destroy timer).heap = frame.reach state.heap :=
      reach_congr fun other reached =>
        same other fun equal => unreached frame member (equal ▸ reached)
    rw [unchanged] at reached
    have different : other ≠ timer := fun equal => unreached frame member (equal ▸ reached)
    obtain ⟨present, due⟩ := inv.sound frame member other reached
    rw [Heap.due, same other different]
    exact ⟨present, fun isDue => mem_erase.mpr ⟨due isDue, different⟩⟩
  · exact inv.fired
  · intro other shot
    obtain ⟨notQueued, old⟩ := inv.done other shot
    exact ⟨fun queued => notQueued (mem_erase.mp queued).1, old⟩
  · exact inv.once

theorem due_iff {heap : Heap} {now : Int} {call : TimedCall} (present : heap timer = some call) :
    heap.due now timer = true ↔ call.deadline ≤ now := by
  rw [Heap.due, present, Option.any_some, decide_eq_true_eq]

theorem mem_reach_behind {heap : Heap} {now : Int} {rest : List Pointer} {other : Pointer}
    (due : heap.due now timer = true) (reached : other ∈ heap.reach now rest) :
    other ∈ heap.reach now (timer :: rest) := by
  rw [Heap.reach, if_pos due]
  exact List.mem_cons_of_mem _ reached

theorem oneShots_append (fired : List Fired) (last : Fired) : oneShots (fired ++ [last]) =
    oneShots fired ++ if last.repeats then [] else [last.timer] := by
  rw [oneShots, List.filter_append, List.map_append]
  cases repeats : last.repeats <;> simp [oneShots, repeats]

section
variable {now clock : Int} {rest : List Pointer} {outer : List Frame} {call : TimedCall}

theorem Consistent.head_scheduled (inv : Consistent state)
    (innermost : state.callbacks = ⟨now, timer :: rest⟩ :: outer)
    (due : state.heap.due now timer = true) : timer ∈ state.timerQueue := by
  have member : ⟨now, timer :: rest⟩ ∈ state.callbacks := innermost ▸ List.mem_cons_self
  exact (inv.sound _ member timer List.mem_cons_self).2 due

theorem Consistent.head_not_behind (inv : Consistent state)
    (innermost : state.callbacks = ⟨now, timer :: rest⟩ :: outer) : timer ∉ rest := by
  have member : ⟨now, timer :: rest⟩ ∈ state.callbacks := innermost ▸ List.mem_cons_self
  exact (List.nodup_cons.mp (inv.copies _ member).1).1

theorem Consistent.copies_behind (inv : Consistent state)
    (innermost : state.callbacks = ⟨now, timer :: rest⟩ :: outer) {frame : Frame}
    (member : frame ∈ ⟨now, rest⟩ :: outer) :
    frame.rest.Nodup ∧ ∀ timer ∈ frame.rest, timer.number < state.constructed := by
  have copies := inv.copies
  rw [innermost] at copies
  rcases List.mem_cons.mp member with rfl | outer
  · obtain ⟨nodup, old⟩ := copies _ List.mem_cons_self
    exact ⟨(List.nodup_cons.mp nodup).2, fun timer inRest => old timer (List.mem_cons_of_mem _ inRest)⟩
  · exact copies frame (List.mem_cons_of_mem _ outer)

theorem Consistent.fired_append (inv : Consistent state) (scheduled : timer ∈ state.timerQueue)
    (repeats : Bool) : ∀ fired ∈ state.fired ++ [⟨timer, true, timer ∈ state.timerQueue, repeats⟩],
      fired.alive = true ∧ fired.scheduled = true := by
  intro fired member
  rcases List.mem_append.mp member with before | last
  · exact inv.fired fired before
  · cases List.mem_singleton.mp last
    exact ⟨rfl, decide_eq_true scheduled⟩

theorem Consistent.fireOnce (inv : Consistent state)
    (innermost : state.callbacks = ⟨now, timer :: rest⟩ :: outer)
    (due : state.heap.due now timer = true)
    (unharmed : ∀ frame ∈ outer, timer ∈ frame.reach state.heap → ¬ state.heap.due frame.now timer) :
    Consistent { state with
      timerQueue := TimerQueue.erase state.heap timer state.timerQueue
      callbacks := ⟨now, rest⟩ :: outer
      fired := state.fired ++ [⟨timer, true, timer ∈ state.timerQueue, false⟩] } := by
  have scheduled := inv.head_scheduled innermost due
  have notBehind := inv.head_not_behind innermost
  have oneShots := oneShots_append state.fired ⟨timer, true, timer ∈ state.timerQueue, false⟩
  constructor
  · exact inv.intact
  · exact inv.numbers
  · exact fun other queued => inv.queued other (mem_erase.mp queued).1
  · exact erase_nodup inv.nodup
  · exact fun frame member => inv.copies_behind innermost member
  · intro frame member other reached
    have sound := inv.sound
    rw [innermost] at sound
    rcases List.mem_cons.mp member with rfl | further
    · obtain ⟨present, isQueued⟩ := sound _ List.mem_cons_self other (mem_reach_behind due reached)
      have different : other ≠ timer := fun equal => notBehind (equal ▸ reach_subset reached)
      exact ⟨present, fun isDue => mem_erase.mpr ⟨isQueued isDue, different⟩⟩
    · obtain ⟨present, isQueued⟩ := sound frame (List.mem_cons_of_mem _ further) other reached
      refine ⟨present, fun isDue => mem_erase.mpr ⟨isQueued isDue, ?_⟩⟩
      rintro rfl
      exact unharmed frame further reached isDue
  · exact inv.fired_append scheduled false
  · intro other shot
    rw [oneShots] at shot
    rcases List.mem_append.mp shot with before | last
    · obtain ⟨notQueued, old⟩ := inv.done other before
      exact ⟨fun queued => notQueued (mem_erase.mp queued).1, old⟩
    · cases List.mem_singleton.mp last
      exact ⟨fun queued => (mem_erase.mp queued).2 rfl, inv.numbers timer (inv.queued timer scheduled)⟩
  · rw [oneShots]
    apply List.nodup_append'.mpr
    refine ⟨inv.once, List.nodup_singleton timer, ?_⟩
    intro other before last
    cases List.mem_singleton.mp last
    exact (inv.done timer before).1 scheduled

theorem Consistent.fireAgain (inv : Consistent state)
    (innermost : state.callbacks = ⟨now, timer :: rest⟩ :: outer)
    (due : state.heap.due now timer = true) {heap : Heap}
    (same : ∀ other ≠ timer, heap other = state.heap other) (stays : heap timer ≠ none)
    (unharmed : ∀ frame ∈ outer, ∀ other ∈ frame.reach heap, other ∈ frame.reach state.heap ∨
      state.heap other ≠ none ∧ (state.heap.due frame.now other → other ∈ state.timerQueue)) :
    Consistent { state with
      heap
      timerQueue := TimerQueue.insert heap timer
        (TimerQueue.erase state.heap timer state.timerQueue)
      callbacks := ⟨now, rest⟩ :: outer
      fired := state.fired ++ [⟨timer, true, timer ∈ state.timerQueue, true⟩] } := by
  have scheduled := inv.head_scheduled innermost due
  have queue {other : Pointer} : other ∈ TimerQueue.insert heap timer
      (TimerQueue.erase state.heap timer state.timerQueue) ↔ other ∈ state.timerQueue := by
    rw [mem_insert, mem_erase]
    by_cases equal : other = timer
    · simp [equal, scheduled]
    · simp [equal]
  have lives {other : Pointer} (present : state.heap other ≠ none) : heap other ≠ none := by
    by_cases equal : other = timer
    · exact equal ▸ stays
    · rw [same other equal]
      exact present
  have notBehind := inv.head_not_behind innermost
  have oneShots := oneShots_append state.fired ⟨timer, true, timer ∈ state.timerQueue, true⟩
  rw [if_pos rfl, List.append_nil] at oneShots
  constructor
  · exact inv.intact
  · intro other present
    by_cases equal : other = timer
    · exact equal ▸ inv.numbers timer (inv.queued timer scheduled)
    · exact inv.numbers other fun gone => present ((same other equal).trans gone)
  · exact fun other queued => lives (inv.queued other (queue.mp queued))
  · apply insert_nodup (erase_nodup inv.nodup)
    exact fun queued => (mem_erase.mp queued).2 rfl
  · exact fun frame member => inv.copies_behind innermost member
  · intro frame member other reached
    have sound := inv.sound
    rw [innermost] at sound
    by_cases equal : other = timer
    · subst equal
      exact ⟨stays, fun _ => queue.mpr scheduled⟩
    · have sameDue : heap.due frame.now other = state.heap.due frame.now other := by
        rw [Heap.due, Heap.due, same other equal]
      have atOther : state.heap other ≠ none ∧
          (state.heap.due frame.now other → other ∈ state.timerQueue) := by
        rcases List.mem_cons.mp member with rfl | further
        · have unchanged : heap.reach now rest = state.heap.reach now rest :=
            reach_congr fun other reached =>
              same other fun equal => notBehind (equal ▸ reach_subset reached)
          have before : other ∈ state.heap.reach now rest := unchanged ▸ reached
          exact sound _ List.mem_cons_self other (mem_reach_behind due before)
        · rcases unharmed frame further other reached with before | fine
          · exact sound frame (List.mem_cons_of_mem _ further) other before
          · exact fine
      refine ⟨lives atOther.1, fun isDue => queue.mpr (atOther.2 ?_)⟩
      exact sameDue ▸ isDue
  · exact inv.fired_append scheduled true
  · intro other shot
    rw [oneShots] at shot
    obtain ⟨notQueued, old⟩ := inv.done other shot
    exact ⟨fun queued => notQueued (queue.mp queued), old⟩
  · rw [oneShots]
    exact inv.once

theorem Consistent.advance (inv : Consistent state) (clock garbage : Int)
    (harmless : state.FiresHarmlessly clock) : Consistent (state.advance clock garbage) := by
  rw [State.FiresHarmlessly] at harmless
  rw [State.advance]
  split
  · exact inv
  · rename_i innermost
    exact inv.pop (innermost ▸ List.subset_cons_self _ _)
  · rename_i now timer rest outer innermost
    simp only [innermost] at harmless
    have member : ⟨now, timer :: rest⟩ ∈ state.callbacks := innermost ▸ List.mem_cons_self
    split
    · rename_i gone
      exact absurd gone (inv.sound _ member timer List.mem_cons_self).1
    · rename_i call present
      split
      · rename_i isDue
        have due : state.heap.due now timer = true := (due_iff present).mpr isDue
        have unharmed := harmless call present isDue
        simp only [State.fire]
        cases repeats : call.repeats with
        | false =>
            rw [if_neg Bool.false_ne_true]
            apply inv.fireOnce innermost due
            intro frame further
            have unharmed := unharmed frame further
            rw [Frame.Unharmed, repeats, if_neg Bool.false_ne_true] at unharmed
            exact unharmed
        | true =>
            rw [if_pos rfl]
            apply inv.fireAgain innermost due
            · exact fun other different => Function.update_of_ne different ..
            · rw [Function.update_self]
              exact nofun
            · intro frame further
              have unharmed := unharmed frame further
              rw [Frame.Unharmed, repeats, if_pos rfl] at unharmed
              exact unharmed
      · exact inv.pop (innermost ▸ List.subset_cons_self _ _)

end

theorem Consistent.step (inv : Consistent state) {action : Action} (harmless : action.Harmless state)
    (moved : step state action = some after) : Consistent after := by
  cases action with
  | construct address clock delay repeats =>
      rw [step_construct moved]
      exact inv.construct address clock delay repeats
  | destroy timer =>
      rw [step_destroy moved]
      exact inv.destroy harmless
  | callback now clock garbage =>
      rw [step_callback moved]
      exact (inv.copied now).advance clock garbage harmless
  | returns clock garbage =>
      rw [(step_returns moved).2]
      exact inv.advance clock garbage harmless

end

/-- Every call of `Fire` by `Callback` is right, and a one-shot timer gets one at most. -/
structure State.Correct (state : State) : Prop where
  intact : state.corrupted = false
  fired : ∀ fired ∈ state.fired, fired.alive = true ∧ fired.scheduled = true
  once : (oneShots state.fired).Nodup

theorem fired_alive_and_scheduled {state : State}
    (reach : Lib.Reachable step (fun state action => action.Harmless state) .init state) :
    state.Correct := by
  have inv : Consistent state := by
    induction reach with
    | start => exact init_consistent
    | next _ harmless moved ih => exact ih.step harmless moved
  exact ⟨inv.intact, inv.fired, inv.once⟩

instance (state : State) (clock : Int) (timer : Pointer) (call : TimedCall) (frame : Frame) :
    Decidable (frame.Unharmed state clock timer call) := by
  unfold Frame.Unharmed
  infer_instance

instance (state : State) (clock : Int) : Decidable (state.FiresHarmlessly clock) := by
  unfold State.FiresHarmlessly
  split <;> infer_instance

instance (state : State) (action : Action) : Decidable (action.Harmless state) :=
  match action with
  | .construct .. => inferInstanceAs (Decidable True)
  | .destroy timer =>
      inferInstanceAs (Decidable (∀ frame ∈ state.callbacks, timer ∉ frame.reach state.heap))
  | .callback now clock _ => inferInstanceAs (Decidable ((state.copied now).FiresHarmlessly clock))
  | .returns clock _ => inferInstanceAs (Decidable (state.FiresHarmlessly clock))

/-- A timer deletes itself, and a nested loop fires one that the outer one is too early for. -/
def nestedLoop : List Action :=
  [.construct 1 0 5 true, .construct 2 0 1 false, .construct 3 0 10 false, .callback 6 6 0,
    .destroy ⟨2, 1⟩, .construct 2 6 100 false, .returns 6 0, .callback 12 12 0, .returns 12 0,
    .returns 12 0, .returns 12 0, .destroy ⟨3, 2⟩]

def nested : State :=
  Lib.final step (fun state action => action.Harmless state) .init nestedLoop (by decide +kernel)

theorem nested_correct : nested.fired.map (·.timer) = [⟨2, 1⟩, ⟨1, 0⟩, ⟨3, 2⟩, ⟨1, 0⟩] ∧
    nested.Correct := by
  have reach : Lib.Reachable step (fun state action => action.Harmless state) .init nested :=
    Lib.reachable_final nestedLoop (by decide +kernel)
  exact ⟨by decide +kernel, fired_alive_and_scheduled reach⟩

def deletesOther : State :=
  Lib.final step Lib.anyAction .init
    [.construct 1 0 0 false, .construct 2 0 0 false, .callback 1 1 0, .destroy ⟨2, 1⟩, .returns 1 0]
    (by decide +kernel)

def firesTwice : State :=
  Lib.final step Lib.anyAction .init
    [.construct 1 0 0 false, .construct 2 0 0 false, .callback 1 1 0, .callback 1 1 0,
      .returns 1 0, .returns 1 0]
    (by decide +kernel)

theorem fired_destroyed_and_twice :
    (Lib.Reachable step Lib.anyAction .init deletesOther ∧
      ⟨⟨2, 1⟩, false, false, false⟩ ∈ deletesOther.fired ∧ ¬ deletesOther.Correct) ∧
    Lib.Reachable step Lib.anyAction .init firesTwice ∧
      oneShots firesTwice.fired = [⟨1, 0⟩, ⟨2, 1⟩, ⟨2, 1⟩] ∧ ¬ firesTwice.Correct := by
  have dead : (⟨⟨2, 1⟩, false, false, false⟩ : Fired) ∈ deletesOther.fired := by decide +kernel
  have shots : oneShots firesTwice.fired = [⟨1, 0⟩, ⟨2, 1⟩, ⟨2, 1⟩] := by decide +kernel
  refine ⟨⟨Lib.reachable_final _ _, dead, ?_⟩, Lib.reachable_final _ _, shots, ?_⟩
  · intro correct
    exact absurd (correct.fired _ dead).1 Bool.false_ne_true
  · intro correct
    have once := correct.once
    rw [shots] at once
    exact absurd once (by decide)

end ThreadIpc.TimerSingleton
