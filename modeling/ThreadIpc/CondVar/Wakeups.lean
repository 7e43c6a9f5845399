import ThreadIpc.CondVar.Generations

/-!
# Which call wakes which waiter
-/

namespace ThreadIpc.CondVar

variable {T : Type} [DecidableEq T] {state : State T} {thread : T}

theorem Sound.advance {after : State T} (sound : Sound state) (advanced : state.advance thread = some after) :
    Sound after.tick := by
  have fits := sound.fits thread
  cases at_ : state.phase thread <;> rw [State.advance, at_] at advanced <;> rw [at_] at fits
  case outside => contradiction
  case waitForSingleObject event captured timed =>
      obtain ⟨-, same⟩ := Option.ite_none_right_eq_some.mp advanced
      obtain rfl := Option.some.inj same
      exact sound.move fits (by rw [at_]; rfl) (by rw [at_]; rfl)
  all_goals obtain rfl := Option.some.inj advanced
  case unlock event captured timed => exact sound.move fits (by rw [at_]; rfl) (by rw [at_]; rfl)
  case lock event captured timedOut => exact sound.move fits (by rw [at_]; rfl) (by rw [at_]; rfl)
  case releaseEvent event captured timedOut => exact sound.releaseEvent at_
  case detach call =>
      cases current : state.currentEvent_ with
      | none => exact sound.detachNone at_ current
      | some event => exact sound.detachCurrent at_ current
  case setEvent call event => exact sound.setEvent at_
  case releaseOld call event => exact sound.releaseOld at_

theorem sound_step {action : Action T} {after : State T} (sound : Sound state)
    (moved : step state action = some after) : Sound after := by
  obtain ⟨before, acted, rfl⟩ := Option.map_eq_some_iff.mp moved
  cases action with
  | wait thread timed =>
      cases at_ : state.phase thread <;> simp only [State.act, at_, reduceCtorEq, Option.some.injEq] at acted
      subst acted
      cases current : state.currentEvent_ with
      | none => exact sound.captureNew at_ current
      | some event => exact sound.captureCurrent at_ current
  | signalAll thread =>
      cases at_ : state.phase thread <;> simp only [State.act, at_, reduceCtorEq, Option.some.injEq] at acted
      subst acted
      exact sound.begin at_
  | advance thread => exact sound.advance acted
  | timeout thread =>
      have fits := sound.fits thread
      simp only [State.act] at acted
      split at acted
      · rename_i event captured at_
        obtain rfl := Option.some.inj acted
        rw [at_] at fits
        exact sound.move fits (by rw [at_]; rfl) (by rw [at_]; rfl)
      · contradiction

theorem reached_sound (reach : Reached state) : Sound state :=
  reach.invariant sound_init fun _ _ _ sound _ moved => sound_step sound moved

omit [DecidableEq T] in
theorem Sound.captured (sound : Sound state) {event captured : Nat}
    (waits : (state.phase thread).captured = some (event, captured)) : state.Captured event captured := by
  have fits := sound.fits thread
  revert fits waits
  cases state.phase thread <;> simp +contextual [Phase.captured, State.Fits]

omit [DecidableEq T] in
theorem Sound.takes_iff (sound : Sound state) {call event : Nat} (inside : call < state.signals) :
    (state.signal call).detached = some event ↔ ∃ time, state.Takes call event time := by
  constructor
  · intro detached
    obtain ⟨time, looked⟩ := (sound.calls call inside).detached event detached
    exact ⟨time, inside, detached, looked⟩
  · rintro ⟨time, -, detached, -⟩
    exact detached

omit [DecidableEq T] in
theorem Sound.first (sound : Sound state) {event captured call : Nat} (held : state.Captured event captured)
    (inside : call < state.signals) :
    (state.signal call).detached = some event ↔ FirstAfter state captured call := by
  obtain ⟨made, born, -, running⟩ := held
  have first := fun time => sound.epochs.ends_iff_first call time made born running
  constructor
  · intro detached
    obtain ⟨time, takes⟩ := (sound.takes_iff inside).mp detached
    obtain ⟨-, after, least⟩ := (first time).mp takes
    refine ⟨event, time, detached, takes.2.2, after, ?_⟩
    intro other within later took looked
    obtain ⟨taken, took⟩ := Option.isSome_iff_exists.mp took
    exact least other taken later ⟨within, took, looked⟩
  · rintro ⟨taken, time, detached, looked, after, least⟩
    have takes := (first time).mpr ⟨⟨taken, inside, detached, looked⟩, after, ?_⟩
    · exact takes.2.1
    · intro other ended later took
      exact least other took.1 later (by simp [took.2.1]) took.2.2

omit [DecidableEq T] in
theorem Sound.released (sound : Sound state) {event captured call time : Nat}
    (held : state.Captured event captured) (inside : call < state.signals)
    (later : captured < (state.signal call).began) (returned : (state.signal call).returned = some time)
    (others : ∀ other < state.signals, (state.signal other).began < time →
      (state.signal other).returned.isSome = true) : state.isSet event = true := by
  obtain ⟨made, born, -, -⟩ := held
  have calls := sound.calls call inside
  obtain ⟨⟨looked, at_, before⟩, -⟩ := calls.returned time returned
  have began := (calls.looked looked at_).1
  -- the call found the event taken, or took it
  obtain ⟨other, earlier, takes, first⟩ := calls.swept looked at_ event made (by omega)
  have within := takes.1
  have earlier_began := ((sound.calls other within).looked earlier takes.2.2).1
  obtain ⟨back, done⟩ := Option.isSome_iff_exists.mp (others other within (by omega))
  have hasSet := ((sound.calls other within).returned back done).2 event takes.2.1
  exact (sound.setBy event).mpr ⟨other, within, takes.2.1, hasSet⟩

omit [DecidableEq T] in
theorem Sound.open_ (sound : Sound state) {event captured : Nat}
    (waits : (state.phase thread).captured = some (event, captured)) : state.closed event = false := by
  have made := (sound.captured waits).1
  have holds : state.Holds event (some thread) := by
    rw [State.Holds]
    revert waits
    cases state.phase thread <;> simp +contextual [Phase.captured, Phase.event]
  have positive := (sound.counts event made).pos holds
  by_contra closed
  have gone := ((sound.closed event).mp (by simpa using closed)).2
  omega

theorem condVar_wakesRight (state : State T) (reach : Reached state) : WakesRight state := by
  have sound := reached_sound reach
  constructor
  · intro waiter event captured waits call inside
    exact sound.first (sound.captured waits) inside
  · intro call inside other within event one two
    obtain ⟨time, takes⟩ := (sound.takes_iff inside).mp one
    obtain ⟨again, took⟩ := (sound.takes_iff within).mp two
    exact (sound.epochs.once event call time other again takes took).1
  · exact sound.setBy
  · intro waiter event captured waits call inside later time returned others
    have set := sound.released (sound.captured waits) inside later returned others
    refine ⟨set, ?_⟩
    intro timed at_
    refine ⟨(state.move waiter (.lock event captured false)).tick, ?_, by simp [State.tick, State.move]⟩
    simp [step, State.act, State.advance, at_, set]
  · intro waiter event captured waits call inside looked detached at_
    exact (sound.captured waits).2.2.2 call looked ⟨inside, detached, at_⟩
  · exact fun waiter event captured waits => sound.open_ waits

/-- Two generations: the second waiter captures a new event while the first one is not yet woken. -/
def twoGenerations : List (Action Nat) :=
  [.wait 0 false, .signalAll 2, .advance 2, .wait 1 true, .advance 0, .advance 1, .signalAll 3, .advance 2,
   .advance 2, .advance 0, .advance 3, .advance 3, .advance 3, .advance 1]

def twoWoken : State Nat :=
  Lib.final step Lib.anyAction .init twoGenerations (by decide +kernel)

theorem twoWoken_wakesRight :
    (twoWoken.phase 0, twoWoken.phase 1) = (.lock 0 0 false, .lock 1 3 false) ∧ WakesRight twoWoken :=
  ⟨by decide +kernel, condVar_wakesRight twoWoken (Lib.reachable_final twoGenerations (by decide +kernel))⟩

end ThreadIpc.CondVar
