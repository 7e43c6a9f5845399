import Mathlib.Data.List.Perm.Basic
import ThreadIpc.SFThreadMessageQueue.Model

/-!
# Delivery, whatever becomes of the Mach messages
-/

namespace ThreadIpc.SFThreadMessageQueue

variable {T D : Type} {limit : Nat} {thread after : Thread D} {port : ThreadMessagePort D}
  {outer : List (Frame D)}

namespace Thread

structure Sound (thread : Thread D) : Prop where
  woken : ∀ port ∈ thread.port, port.events ≠ [] → 0 < port.queued ∨ .entered ∈ thread.stack
  numbered : thread.accepted.map MessageEvent.number = List.range thread.accepted.length
  conserved : (thread.settled.map Prod.fst ++ thread.waiting).Perm thread.accepted
  inOrder : thread.nested = false → thread.stack.length ≤ 1 ∧
    thread.settled.map Prod.fst ++ thread.waiting = thread.accepted
  released : thread.port.isSome = thread.hooked

namespace Sound

theorem init : Sound (.init : Thread D) where
  woken _ port := nomatch port
  numbered := rfl
  conserved := List.Perm.refl _
  inOrder _ := ⟨Nat.zero_le 1, rfl⟩
  released := rfl

theorem delivers (sound : Sound thread) : Delivers thread where
  woken := sound.woken
  conserved := sound.conserved
  once := by
    have numbers := sound.conserved.map MessageEvent.number
    rw [sound.numbered, List.map_append, List.map_map] at numbers
    exact (List.nodup_append.mp (numbers.nodup_iff.mpr List.nodup_range)).1
  inOrder straight := (sound.inOrder straight).2
  released := sound.released

theorem initThreadMessageQueue (sound : Sound thread) (created : Bool) :
    Sound (thread.initThreadMessageQueue created) := by
  rw [Thread.initThreadMessageQueue]
  split
  · exact sound
  · rename_i absent
    split
    · have waiting : ({ thread with port := some ⟨0, []⟩, hooked := true } : Thread D).waiting =
          thread.waiting := by simp only [waiting, events, absent]; rfl
      refine ⟨fun port new some_ => ?_, sound.numbered, ?_, fun straight => ?_, rfl⟩
      · cases new
        exact absurd rfl some_
      · rw [waiting]
        exact sound.conserved
      · rw [waiting]
        exact sound.inOrder straight
    · exact sound

theorem add (sound : Sound thread) (here : thread.port = some port) {queued : Nat} (told : 0 < queued)
    {event : MessageEvent D} (number : event.number = thread.accepted.length) :
    Sound { thread with
      port := some ⟨queued, port.events ++ [event]⟩
      accepted := thread.accepted ++ [event] } := by
  have waiting : ({ thread with
      port := some ⟨queued, port.events ++ [event]⟩
      accepted := thread.accepted ++ [event] } : Thread D).waiting = thread.waiting ++ [event] := by
    simp [waiting, events, here]
  refine ⟨fun port' new _ => ?_, ?_, ?_, fun straight => ?_, ?_⟩
  · cases new
    exact .inl told
  · simp [sound.numbered, number, List.range_succ]
  · rw [waiting, ← List.append_assoc]
    exact sound.conserved.append_right [event]
  · rw [waiting, ← List.append_assoc]
    exact ⟨(sound.inOrder straight).1, congrArg (· ++ [event]) (sound.inOrder straight).2⟩
  · have released := sound.released
    rw [here] at released
    exact released

theorem send (sound : Sound thread) (room : 0 < limit) (messageType : Int) (messageData : D)
    {ret : MachMsgReturn} (allowed : thread.allows limit ret) :
    Sound (thread.send messageType messageData ret).2 := by
  cases here : thread.port with
  | none =>
      rw [Thread.send, here]
      exact sound
  | some port =>
      rw [Thread.send, here]
      cases ret with
      | success => exact sound.add here (Nat.succ_pos _) rfl
      | sendTimedOut => exact sound.add here (Nat.lt_of_lt_of_le room (allowed port here)) rfl
      | failed =>
          show Sound { thread with port := some ⟨port.queued, (port.events ++ [_]).dropLast⟩ }
          rw [List.dropLast_concat, ← here]
          exact sound

theorem receive (sound : Sound thread) (moved : thread.receive = some after) : Sound after := by
  rw [Thread.receive] at moved
  split at moved
  · contradiction
  · rename_i port here
    obtain ⟨-, same⟩ := Option.ite_none_right_eq_some.mp moved
    obtain rfl := Option.some.inj same
    have waiting : ({ thread with
        port := some { port with queued := port.queued - 1 }
        stack := .entered :: thread.stack
        nested := thread.nested || !thread.stack.isEmpty } : Thread D).waiting = thread.waiting := by
      simp only [waiting, events, here]
      rfl
    refine ⟨fun _ _ _ => .inr List.mem_cons_self, sound.numbered, ?_, fun straight => ?_, ?_⟩
    · rw [waiting]
      exact sound.conserved
    · obtain ⟨before, empty⟩ := Bool.or_eq_false_iff.mp straight
      have stack : thread.stack = [] := by simpa using empty
      rw [waiting]
      refine ⟨?_, (sound.inOrder before).2⟩
      simp [stack]
    · have released := sound.released
      rw [here] at released
      exact released

theorem dispatch {stack : List (Frame D)} {settled : List (MessageEvent D × Fate)} (sound : Sound thread)
    (entered : .entered ∈ thread.stack → .entered ∈ stack) (shorter : stack.length ≤ thread.stack.length)
    (conserved : settled.map Prod.fst ++ stack.flatMap Frame.remaining =
      thread.settled.map Prod.fst ++ thread.stack.flatMap Frame.remaining) :
    Sound { thread with stack := stack, settled := settled } := by
  have same : settled.map Prod.fst ++ ({ thread with stack := stack, settled := settled } : Thread D).waiting =
      thread.settled.map Prod.fst ++ thread.waiting := by
    rw [waiting, waiting, ← List.append_assoc, conserved, List.append_assoc]
    rfl
  refine ⟨fun port here some_ => ?_, sound.numbered, ?_, fun straight => ?_, sound.released⟩
  · exact (sound.woken port here some_).imp_right entered
  · exact same ▸ sound.conserved
  · exact ⟨Nat.le_trans shorter (sound.inOrder straight).1, same ▸ (sound.inOrder straight).2⟩

theorem swap (sound : Sound thread) (top : thread.stack = .entered :: outer)
    (here : thread.port = some port) :
    Sound { thread with
      port := some { port with events := [] }
      stack := .loop port.events :: outer } := by
  have before : thread.waiting = outer.flatMap Frame.remaining ++ port.events := by
    simp [waiting, events, top, here, Frame.remaining]
  have after : ({ thread with
      port := some { port with events := [] }
      stack := .loop port.events :: outer } : Thread D).waiting =
        port.events ++ outer.flatMap Frame.remaining := by
    simp [waiting, events, Frame.remaining]
  refine ⟨fun port' new some_ => ?_, sound.numbered, ?_, fun straight => ?_, ?_⟩
  · cases new
    exact absurd rfl some_
  · rw [after]
    have conserved := sound.conserved
    rw [before] at conserved
    exact (List.Perm.append_left _ List.perm_append_comm).trans conserved
  · obtain ⟨short, order⟩ := sound.inOrder straight
    -- Without a nested call there is no other list.
    have alone : outer = [] := by
      rw [top, List.length_cons] at short
      exact List.length_eq_zero_iff.mp (by omega)
    rw [before, alone] at order
    rw [after, alone]
    exact ⟨Nat.le_refl 1, by simpa using order⟩
  · have released := sound.released
    rw [here] at released
    exact released

theorem advance (sound : Sound thread) (moved : thread.advance = some after) : Sound after := by
  rw [Thread.advance] at moved
  split at moved
  · contradiction
  · rename_i outer top
    split at moved
    · rename_i absent
      obtain rfl := Option.some.inj moved
      refine ⟨fun port here => (nomatch absent.symm.trans here), sound.numbered, ?_, fun straight => ?_,
        sound.released⟩
      · have conserved := sound.conserved
        rw [waiting, top] at conserved
        exact conserved
      · have order := sound.inOrder straight
        rw [waiting, top] at order
        exact ⟨Nat.le_of_succ_le order.1, order.2⟩
    · rename_i port here
      obtain rfl := Option.some.inj moved
      exact sound.swap top here
  · rename_i outer top
    obtain rfl := Option.some.inj moved
    refine sound.dispatch (fun inside => ?_) (by simp [top]) (by simp [top, Frame.remaining])
    rw [top] at inside
    exact (List.mem_cons.mp inside).resolve_left nofun
  · rename_i event rest outer top
    obtain rfl := Option.some.inj moved
    refine sound.dispatch (fun inside => ?_) (by simp [top]) (by simp [top, Frame.remaining])
    rw [top] at inside
    exact List.mem_cons_of_mem _ ((List.mem_cons.mp inside).resolve_left nofun)
  · rename_i rest outer top
    obtain rfl := Option.some.inj moved
    refine sound.dispatch (fun inside => ?_) (by simp [top]) (by simp [top, Frame.remaining])
    rw [top] at inside
    exact List.mem_cons_of_mem _ ((List.mem_cons.mp inside).resolve_left nofun)

theorem threadEnd (sound : Sound thread) (idle : thread.stack = []) : Sound thread.threadEnd := by
  rw [Thread.threadEnd]
  split
  · have dropped : (((thread.port.elim [] ThreadMessagePort.events).map fun event =>
        (event, Fate.dropped)).map Prod.fst) = thread.events := by
      rw [List.map_map]
      exact List.map_id _
    have whole : (thread.settled ++ (thread.port.elim [] ThreadMessagePort.events).map fun event =>
        (event, Fate.dropped)).map Prod.fst = thread.settled.map Prod.fst ++ thread.waiting := by
      rw [List.map_append, dropped, waiting, idle]
      rfl
    refine ⟨fun port gone => (nomatch gone), sound.numbered, ?_, fun straight => ?_, rfl⟩
    · simp only [waiting, events, idle]
      simpa [whole] using sound.conserved
    · simp only [waiting, events, idle]
      simpa [whole] using (sound.inOrder straight).2
  · exact sound

end Sound

end Thread

variable [DecidableEq T] {s : State T D}

theorem sound_set {t : T} {new : Thread D} (sound : ∀ t, (s.threads t).Sound) (here : new.Sound) (t' : T) :
    ((s.set t new).threads t').Sound := by
  by_cases same : t' = t
  · subst same
    simpa [State.set] using here
  · simpa [State.set, same] using sound t'

theorem reachable_delivers (room : 0 < limit)
    (reach : Lib.Reachable step (permitted limit) (.init : State T D) s) (t : T) : (s.threads t).Delivers := by
  suffices sound : ∀ t, (s.threads t).Sound from (sound t).delivers
  induction reach with
  | start => exact fun _ => .init
  | @next before _ action _ allowed moved ih =>
      cases action with
      | initThreadMessageQueue t created =>
          cases moved
          exact sound_set ih ((ih t).initThreadMessageQueue created)
      | send t messageType messageData ret =>
          cases moved
          rw [State.send]
          split
          · exact sound_set ih ((ih t).send room messageType messageData allowed)
          · exact ih
      | receive t =>
          obtain ⟨thread, received, rfl⟩ := Option.map_eq_some_iff.mp moved
          exact sound_set ih ((ih t).receive received)
      | advance t =>
          obtain ⟨thread, advanced, rfl⟩ := Option.map_eq_some_iff.mp moved
          exact sound_set ih ((ih t).advance advanced)
      | threadEnd t =>
          cases moved
          exact sound_set ih ((ih t).threadEnd allowed)

/-- The second event finds the port full and the third one fails. The handler of the first runs the run
loop, and what comes after the thread has ended goes to the next one of its id. -/
def fullPort : List (Action Bool String) :=
  [.initThreadMessageQueue false true, .send false 1 "first" .success, .send false 1 "second" .sendTimedOut,
    .send false 1 "third" .failed, .send true 1 "nobody" .success, .receive false, .advance false,
    .advance false, .send false 1 "fourth" .success, .receive false] ++ List.replicate 8 (.advance false) ++
  [.send false 1 "late" .success, .threadEnd false, .initThreadMessageQueue false true,
    .send false 1 "next" .success]

theorem reachable_delivers_fullPort :
    let s := Lib.final step (permitted 1) .init fullPort (by decide +kernel)
    ((s.threads false).settled.map fun event => (event.1.messageData, event.2)) =
      [("first", .dispatched), ("fourth", .dispatched), ("second", .dispatched), ("late", .dropped)] ∧
      (s.threads false).Delivers :=
  ⟨by decide +kernel, reachable_delivers Nat.one_pos (Lib.reachable_final _ _) false⟩

end ThreadIpc.SFThreadMessageQueue
