import ThreadIpc.ThreadMessageWindow.Model
import Mathlib.Data.List.Perm.Basic

/-!
# Every event is dispatched once
-/

namespace ThreadIpc.ThreadMessageWindow

variable {D : Type} {state after : State D}

def Frame.remaining : Frame D → List (MessageEvent D)
  | .entered => []
  | .loop localEvents => localEvents
  | .handler _ rest => rest

def State.waiting (state : State D) : List (MessageEvent D) :=
  state.stack.flatMap Frame.remaining ++ state.events_

structure Sound (state : State D) : Prop where
  outstanding : state.outstanding = if state.events_ = [] then 0 else 1
  assertFailed : state.assertFailed = false
  numbered : state.sent.map MessageEvent.number = List.range state.sent.length
  conserved : (state.dispatched ++ state.waiting).Perm state.sent

theorem sound_init : Sound (.init : State D) where
  outstanding := rfl
  assertFailed := rfl
  numbered := rfl
  conserved := List.Perm.refl _

theorem Sound.postThreadMessage (sound : Sound state) (messageType : Int) (messageData : D) :
    Sound (state.postThreadMessage messageType messageData) := by
  constructor
  · have outstanding := sound.outstanding
    simp only [State.outstanding] at outstanding
    cases events : state.events_ with
    | nil =>
        simp only [events, if_true] at outstanding
        simp [State.outstanding, State.postThreadMessage, events]
        omega
    | cons first rest =>
        simp only [events, reduceCtorEq, if_false] at outstanding
        simp [State.outstanding, State.postThreadMessage, events, outstanding]
  · exact sound.assertFailed
  · simp [State.postThreadMessage, sound.numbered, List.range_succ]
  · have appended := sound.conserved.append_right [⟨messageType, messageData, state.sent.length⟩]
    simpa [State.postThreadMessage, State.waiting] using appended

theorem Sound.takeMessage (sound : Sound state) (moved : state.takeMessage = some after) : Sound after := by
  obtain ⟨may, same⟩ := Option.ite_none_right_eq_some.mp moved
  obtain rfl := Option.some.inj same
  have available : 0 < state.posted := by
    simpa using (Bool.and_eq_true_iff.mp may).2
  constructor
  · have outstanding := sound.outstanding
    simp only [State.outstanding, List.countP_cons, Frame.isEntered, if_true] at outstanding ⊢
    rw [← outstanding]
    omega
  · exact sound.assertFailed
  · exact sound.numbered
  · simpa [State.waiting, Frame.remaining] using sound.conserved

theorem Sound.swap {outer : List (Frame D)} (sound : Sound state) (stack : state.stack = .entered :: outer) :
    Sound (state.swap outer) := by
  have outstanding := sound.outstanding
  simp only [State.outstanding, stack, List.countP_cons, Frame.isEntered, if_true] at outstanding
  have nonempty : state.events_ ≠ [] := by
    intro empty
    simp [empty] at outstanding
  rw [if_neg nonempty] at outstanding
  constructor
  · have quiet : state.posted + outer.countP Frame.isEntered = 0 := by omega
    simpa [State.outstanding, State.swap, Frame.isEntered] using quiet
  · simp [State.swap, sound.assertFailed, nonempty]
  · exact sound.numbered
  · have conserved := sound.conserved
    simp only [State.waiting, stack, List.flatMap_cons, Frame.remaining, List.nil_append] at conserved
    apply List.Perm.trans _ conserved
    apply List.Perm.append_left
    simpa [State.swap, State.waiting, Frame.remaining] using List.perm_append_comm

theorem Sound.dispatch {inner : Frame D} {stack : List (Frame D)} {dispatched : List (MessageEvent D)}
    {outer : List (Frame D)} (sound : Sound state) (top : state.stack = inner :: outer)
    (swapped : inner.isEntered = false) (still : stack.countP Frame.isEntered = outer.countP Frame.isEntered)
    (conserved : dispatched ++ stack.flatMap Frame.remaining =
      state.dispatched ++ state.stack.flatMap Frame.remaining) :
    Sound { state with stack := stack, dispatched := dispatched } := by
  constructor
  · have outstanding := sound.outstanding
    simp only [State.outstanding, top, List.countP_cons, swapped, Bool.false_eq_true, if_false] at outstanding
    simpa [State.outstanding, still] using outstanding
  · exact sound.assertFailed
  · exact sound.numbered
  · have before := sound.conserved
    rw [State.waiting, ← List.append_assoc, ← conserved, List.append_assoc] at before
    exact before

theorem Sound.advance (sound : Sound state) (moved : state.advance = some after) : Sound after := by
  unfold State.advance at moved
  split at moved
  · contradiction
  · rename_i outer stack
    obtain rfl := Option.some.inj moved
    exact sound.swap stack
  · rename_i outer stack
    obtain rfl := Option.some.inj moved
    exact sound.dispatch stack rfl rfl (by simp [stack, Frame.remaining])
  · rename_i front rest outer stack
    obtain rfl := Option.some.inj moved
    exact sound.dispatch stack rfl (by simp [Frame.isEntered]) (by simp [stack, Frame.remaining])
  · rename_i front rest outer stack
    obtain rfl := Option.some.inj moved
    exact sound.dispatch stack rfl (by simp [Frame.isEntered]) (by simp [stack, Frame.remaining])

theorem reached_sound (reach : Reached state) : Sound state := by
  induction reach with
  | start => exact sound_init
  | @next before after action _ _ moved ih =>
      cases action with
      | postThreadMessage messageType messageData =>
          obtain rfl := Option.some.inj moved
          exact ih.postThreadMessage messageType messageData
      | takeMessage => exact ih.takeMessage moved
      | advance => exact ih.advance moved

theorem threadMessageWindow_delivers (state : State D) (reach : Reached state) : Delivers state := by
  have sound := reached_sound reach
  refine ⟨sound.outstanding, sound.assertFailed, ⟨?_, ?_⟩, ?_⟩
  · intro event dispatched
    exact sound.conserved.subset (List.mem_append_left _ dispatched)
  · have numbers := sound.conserved.map MessageEvent.number
    rw [sound.numbered, List.map_append] at numbers
    exact (List.nodup_append.mp (numbers.nodup_iff.mpr List.nodup_range)).1
  · intro outstanding idle
    have empty : state.events_ = [] := by
      by_contra some_
      rw [sound.outstanding, if_neg some_] at outstanding
      contradiction
    simpa [State.waiting, idle, empty] using sound.conserved

/-- The handler of the first event runs a message loop, in which the second one is dispatched, and posts
a third one. -/
def nestedRun : List (Action String) :=
  [.postThreadMessage 1 "first", .takeMessage, .advance, .advance, .postThreadMessage 2 "second",
   .takeMessage, .postThreadMessage 3 "third", .advance, .advance, .advance, .advance, .advance, .advance,
   .advance, .advance]

def nested : State String :=
  Lib.final step Lib.anyAction .init nestedRun (by decide +kernel)

theorem nested_delivers :
    nested.dispatched.map MessageEvent.messageData = ["first", "second", "third"] ∧ nested.stack = [] ∧
      Delivers nested :=
  ⟨by decide +kernel, by decide +kernel,
    threadMessageWindow_delivers nested (Lib.reachable_final nestedRun (by decide +kernel))⟩

end ThreadIpc.ThreadMessageWindow
