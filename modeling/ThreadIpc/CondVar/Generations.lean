import ThreadIpc.CondVar.Model
import ThreadIpc.Lib.Epochs
import ThreadIpc.Lib.RefCount
import ThreadIpc.Lib.Threads

/-!
# The generations of events

Each event is an epoch of the condition variable: it starts with its first waiter and ends when a
`SignalAll` takes it.
-/

namespace ThreadIpc.CondVar

variable {T : Type}

namespace Phase

def event : Phase → Option Nat
  | .unlock event _ _ | .waitForSingleObject event _ _ | .lock event _ _ | .releaseEvent event _ _
  | .setEvent _ event | .releaseOld _ event => some event
  | .outside | .detach _ => none

@[simp] theorem event_outside : outside.event = none := rfl

def call : Phase → Option Nat
  | .detach call | .setEvent call _ | .releaseOld call _ => some call
  | .outside | .unlock _ _ _ | .waitForSingleObject _ _ _ | .lock _ _ _ | .releaseEvent _ _ _ => none

end Phase

namespace State
variable (state : State T)

def Takes (call event time : Nat) : Prop :=
  call < state.signals ∧ (state.signal call).detached = some event ∧ (state.signal call).looked = some time

def Holds (event : Nat) : Option T → Prop
  | none => state.currentEvent_ = some event
  | some thread => (state.phase thread).event = some event

def Captured (event captured : Nat) : Prop :=
  event < state.created ∧ state.born event ≤ captured ∧ captured < state.clock ∧
    ∀ call time, state.Takes call event time → captured < time

def Fits : Phase → Prop
  | .outside => True
  | .unlock event captured _ | .waitForSingleObject event captured _ | .lock event captured _
  | .releaseEvent event captured _ => state.Captured event captured
  | .detach call => call < state.signals ∧ (state.signal call).looked = none ∧
      (state.signal call).detached = none ∧ (state.signal call).hasSet = false
  | .setEvent call event => call < state.signals ∧ (state.signal call).detached = some event ∧
      (state.signal call).returned = none
  | .releaseOld call event => call < state.signals ∧ (state.signal call).detached = some event ∧
      (state.signal call).hasSet = true

/-- A call began, looked and returned in this order, swept away what was there when it looked, and set
what it took before it returned. -/
structure CallSound (call : Nat) : Prop where
  began : (state.signal call).began < state.clock
  looked : ∀ time, (state.signal call).looked = some time → (state.signal call).began < time ∧ time < state.clock
  swept : ∀ time, (state.signal call).looked = some time → ∀ event < state.created, state.born event < time →
    ∃ other earlier, state.Takes other event earlier ∧ earlier ≤ time
  detached : ∀ event, (state.signal call).detached = some event → ∃ time, (state.signal call).looked = some time
  returned : ∀ time, (state.signal call).returned = some time →
    (∃ earlier, (state.signal call).looked = some earlier ∧ earlier ≤ time) ∧
      ∀ event, (state.signal call).detached = some event → (state.signal call).hasSet = true

end State

structure Sound (state : State T) : Prop where
  epochs : Lib.Epochs state.created state.currentEvent_ state.born state.Takes state.clock
  calls : ∀ call < state.signals, state.CallSound call
  setBy : ∀ event, state.isSet event = true ↔
    ∃ call < state.signals, (state.signal call).detached = some event ∧ (state.signal call).hasSet = true
  fits : ∀ thread, state.Fits (state.phase thread)
  alone : Lib.Apart Phase.call state.phase
  counts : ∀ event < state.created, Lib.Counts (state.Holds event) (state.refs event)
  closed : ∀ event, state.closed event = true ↔ event < state.created ∧ state.refs event = 0

variable {state after : State T}

theorem sound_init : Sound (.init : State T) where
  epochs := Lib.Epochs.none.congr (by simp [State.Takes, State.init])
  calls := by simp [State.init]
  setBy := by simp [State.init]
  fits := fun _ => trivial
  alone := by simp [Lib.Apart, State.init, Phase.call]
  counts := by simp [State.init]
  closed := by simp [State.init]

structure Grows (state after : State T) : Prop where
  clock : state.clock ≤ after.clock
  signals : state.signals ≤ after.signals
  created : state.created ≤ after.created
  born : ∀ event < state.created, after.born event = state.born event
  newborn : ∀ event < after.created, ¬ event < state.created → state.clock ≤ after.born event
  takes : ∀ call event time, state.Takes call event time → after.Takes call event time
  took : ∀ call event time, after.Takes call event time → state.Takes call event time ∨ state.clock ≤ time

theorem State.Captured.grows {event captured : Nat} (held : state.Captured event captured)
    (grows : Grows state after) : after.Captured event captured := by
  obtain ⟨inside, born, before, running⟩ := held
  refine ⟨Nat.lt_of_lt_of_le inside grows.created, ?_, Nat.lt_of_lt_of_le before grows.clock, ?_⟩
  · rwa [grows.born event inside]
  · intro call time takes
    rcases grows.took call event time takes with old | new
    · exact running call time old
    · exact Nat.lt_of_lt_of_le before new

theorem State.Fits.grows {phase : Phase} (fits : state.Fits phase) (grows : Grows state after)
    (same : ∀ call, phase.call = some call → after.signal call = state.signal call) : after.Fits phase := by
  cases phase with
  | outside => trivial
  | unlock event captured timed => exact State.Captured.grows fits grows
  | waitForSingleObject event captured timed => exact State.Captured.grows fits grows
  | lock event captured timedOut => exact State.Captured.grows fits grows
  | releaseEvent event captured timedOut => exact State.Captured.grows fits grows
  | detach call =>
      rw [State.Fits, same call rfl]
      exact ⟨Nat.lt_of_lt_of_le fits.1 grows.signals, fits.2⟩
  | setEvent call event =>
      rw [State.Fits, same call rfl]
      exact ⟨Nat.lt_of_lt_of_le fits.1 grows.signals, fits.2⟩
  | releaseOld call event =>
      rw [State.Fits, same call rfl]
      exact ⟨Nat.lt_of_lt_of_le fits.1 grows.signals, fits.2⟩

theorem State.Fits.call_lt {phase : Phase} {call : Nat} (fits : state.Fits phase)
    (uses : phase.call = some call) : call < state.signals := by
  cases phase <;> simp_all [Phase.call, State.Fits]

theorem State.CallSound.change {call : Nat} (sound : state.CallSound call) (grows : Grows state after)
    (began : (after.signal call).began = (state.signal call).began)
    (looked : (after.signal call).looked = (state.signal call).looked)
    (detached : (after.signal call).detached = (state.signal call).detached)
    (returned : ∀ time, (after.signal call).returned = some time →
      (∃ earlier, (state.signal call).looked = some earlier ∧ earlier ≤ time) ∧
        ∀ event, (state.signal call).detached = some event → (after.signal call).hasSet = true) :
    after.CallSound call := by
  constructor
  · rw [began]
    exact Nat.lt_of_lt_of_le sound.began grows.clock
  · rw [began, looked]
    intro time at_
    obtain ⟨began, past⟩ := sound.looked time at_
    exact ⟨began, Nat.lt_of_lt_of_le past grows.clock⟩
  · rw [looked]
    intro time at_ event inside born
    by_cases old : event < state.created
    · rw [grows.born event old] at born
      obtain ⟨other, earlier, takes, before⟩ := sound.swept time at_ event old born
      exact ⟨other, earlier, grows.takes other event earlier takes, before⟩
    · have late := grows.newborn event inside old
      have past := (sound.looked time at_).2
      omega
  · rw [looked, detached]
    exact sound.detached
  · rw [looked, detached]
    exact returned

theorem State.CallSound.unreturned {call : Nat} (sound : state.CallSound call)
    (unlooked : (state.signal call).looked = none) : (state.signal call).returned = none := by
  rw [Option.eq_none_iff_forall_ne_some]
  intro time returned
  obtain ⟨earlier, looked, _⟩ := (sound.returned time returned).1
  rw [unlooked] at looked
  contradiction

theorem State.CallSound.grows {call : Nat} (sound : state.CallSound call) (grows : Grows state after)
    (same : after.signal call = state.signal call) : after.CallSound call := by
  apply sound.change grows (by rw [same]) (by rw [same]) (by rw [same])
  rw [same]
  exact sound.returned

theorem takes_of_same (signals : after.signals = state.signals)
    (calls : ∀ call, (after.signal call).detached = (state.signal call).detached ∧
      (after.signal call).looked = (state.signal call).looked) (call event time : Nat) :
    after.Takes call event time ↔ state.Takes call event time := by
  rw [State.Takes, State.Takes, signals, (calls call).1, (calls call).2]

theorem grows_of_same (clock : state.clock ≤ after.clock)
    (events : after.created = state.created ∧ after.born = state.born) (signals : after.signals = state.signals)
    (calls : ∀ call, (after.signal call).detached = (state.signal call).detached ∧
      (after.signal call).looked = (state.signal call).looked) : Grows state after := by
  have same := takes_of_same signals calls
  constructor
  · exact clock
  · exact Nat.le_of_eq signals.symm
  · exact Nat.le_of_eq events.1.symm
  · simp [events.2]
  · intro event inside outside
    rw [events.1] at inside
    exact absurd inside outside
  · exact fun call event time => (same call event time).mpr
  · exact fun call event time takes => .inl ((same call event time).mp takes)

theorem State.Fits.event_lt {phase : Phase} {event : Nat} (fits : state.Fits phase) (sound : Sound state)
    (has : phase.event = some event) : event < state.created := by
  cases phase with
  | outside => contradiction
  | detach call => contradiction
  | setEvent call own =>
      obtain rfl := Option.some.inj has
      obtain ⟨time, looked⟩ := (sound.calls call fits.1).detached own fits.2.1
      exact (sound.epochs.span call own time ⟨fits.1, fits.2.1, looked⟩).1
  | releaseOld call own =>
      obtain rfl := Option.some.inj has
      obtain ⟨time, looked⟩ := (sound.calls call fits.1).detached own fits.2.1
      exact (sound.epochs.span call own time ⟨fits.1, fits.2.1, looked⟩).1
  | _ =>
      obtain rfl := Option.some.inj has
      exact fits.1

variable [DecidableEq T] {thread : T}

theorem fits_update {target : Phase} (grows : Grows state after) (fits : ∀ other, state.Fits (state.phase other))
    (moved : after.phase = Function.update state.phase thread target) (own : after.Fits target)
    (others : ∀ other, other ≠ thread → ∀ call, (state.phase other).call = some call →
      after.signal call = state.signal call) : ∀ other, after.Fits (after.phase other) := by
  rw [moved]
  apply (Function.forall_update_iff state.phase fun _ => after.Fits).mpr
  exact ⟨own, fun other different => (fits other).grows grows (others other different)⟩

theorem holds_update {target : Phase} {event : Nat} (moved : after.phase = Function.update state.phase thread target)
    (current : after.currentEvent_ = state.currentEvent_) (holder : Option T) (other : holder ≠ some thread) :
    after.Holds event holder ↔ state.Holds event holder := by
  cases holder with
  | none => rw [State.Holds, State.Holds, current]
  | some reader =>
      have different : reader ≠ thread := by
        rintro rfl
        exact other rfl
      rw [State.Holds, State.Holds, moved, Function.update_of_ne different]

theorem Sound.counts_apart {target : Phase} {event : Nat} (sound : Sound state) (inside : event < state.created)
    (moved : after.phase = Function.update state.phase thread target)
    (current : after.currentEvent_ = some event ↔ state.currentEvent_ = some event)
    (same : target.event = some event ↔ (state.phase thread).event = some event) :
    Lib.Counts (after.Holds event) (state.refs event) := by
  apply (sound.counts event inside).congr
  intro holder
  cases holder with
  | none => exact current
  | some reader =>
      by_cases own : reader = thread
      · rwa [State.Holds, State.Holds, moved, own, Function.update_self]
      · rw [State.Holds, State.Holds, moved, Function.update_of_ne own]

theorem Sound.counts_of_same {target : Phase} (sound : Sound state)
    (moved : after.phase = Function.update state.phase thread target)
    (current : after.currentEvent_ = state.currentEvent_) (same : target.event = (state.phase thread).event) :
    ∀ event < state.created, Lib.Counts (after.Holds event) (state.refs event) :=
  fun _ inside => sound.counts_apart inside moved (by rw [current]) (by rw [same])

theorem Sound.move {target : Phase} (sound : Sound state) (fits : state.Fits target)
    (event : target.event = (state.phase thread).event) (call : target.call = (state.phase thread).call) :
    Sound (state.move thread target).tick := by
  have grows : Grows state (state.move thread target).tick :=
    grows_of_same (Nat.le_succ _) ⟨rfl, rfl⟩ rfl fun _ => ⟨rfl, rfl⟩
  refine ⟨sound.epochs.later (Nat.le_succ _), ?_, sound.setBy, ?_, ?_, sound.counts_of_same rfl rfl event,
    sound.closed⟩
  · exact fun other inside => (sound.calls other inside).grows grows rfl
  · exact fits_update grows sound.fits rfl (fits.grows grows fun _ _ => rfl) fun _ _ _ _ => rfl
  · exact sound.alone.keep fun key has => call ▸ has

theorem Sound.drop {event : Nat} (sound : Sound state) (has : (state.phase thread).event = some event)
    (inside : event < state.created) : ∀ other < state.created,
    Lib.Counts (((state.unref event).move thread .outside).Holds other)
      ((state.unref event).refs other) := by
  have moved : ((state.unref event).move thread .outside).phase =
      Function.update state.phase thread .outside := rfl
  intro other within
  by_cases same : other = event
  · subst same
    have count : (state.unref other).refs other = state.refs other - 1 := by simp [State.unref]
    have holds : state.Holds other (some thread) := has
    rw [count]
    apply (sound.counts other inside).lose holds
    intro holder
    by_cases own : holder = some thread
    · simp [own, State.Holds, moved]
    · simp only [own, ne_eq, not_false_eq_true, and_true]
      exact holds_update moved rfl holder own
  · have count : (state.unref event).refs other = state.refs other := by simp [State.unref, same]
    rw [count]
    exact sound.counts_apart within moved Iff.rfl (by simp [has, Ne.symm same])

omit [DecidableEq T] in
theorem Sound.unref_closed {event : Nat} (sound : Sound state) (has : (state.phase thread).event = some event)
    (inside : event < state.created) (other : Nat) : (state.unref event).closed other = true ↔
      other < state.created ∧ (state.unref event).refs other = 0 := by
  by_cases same : other = event
  · subst same
    have holds : state.Holds other (some thread) := has
    have positive := (sound.counts other inside).pos holds
    have open_ := sound.closed other
    simp only [State.unref, Function.update_self, Bool.or_eq_true, open_, beq_iff_eq]
    omega
  · simpa [State.unref, same] using sound.closed other

theorem Sound.releaseEvent {event captured : Nat} {timedOut : Bool} (sound : Sound state)
    (at_ : state.phase thread = .releaseEvent event captured timedOut) :
    Sound ((state.unref event).move thread .outside).tick := by
  have held : state.Captured event captured := by
    have fits := sound.fits thread
    rwa [at_] at fits
  have has : (state.phase thread).event = some event := by rw [at_, Phase.event]
  have grows : Grows state ((state.unref event).move thread .outside).tick :=
    grows_of_same (Nat.le_succ _) ⟨rfl, rfl⟩ rfl fun _ => ⟨rfl, rfl⟩
  refine ⟨sound.epochs.later (Nat.le_succ _), ?_, sound.setBy, ?_, ?_, sound.drop has held.1,
    sound.unref_closed has held.1⟩
  · exact fun other inside => (sound.calls other inside).grows grows rfl
  · exact fits_update grows sound.fits rfl trivial fun _ _ _ _ => rfl
  · exact sound.alone.keep (by simp [Phase.call])

omit [DecidableEq T] in
theorem not_holds_of_event {event : Nat} (without : (state.phase thread).event = none) :
    ¬ state.Holds event (some thread) := by
  simp [State.Holds, without]

theorem Sound.captureCurrent {event : Nat} {timed : Bool} (sound : Sound state)
    (at_ : state.phase thread = .outside) (current : state.currentEvent_ = some event) :
    Sound (state.capture thread timed).tick := by
  have captured : (state.capture thread timed).tick =
      { (state.move thread (.unlock event state.clock timed)).tick with
        refs := Function.update state.refs event (state.refs event + 1) } := by
    simp only [State.capture, current, State.tick, State.move]
  have inside := sound.epochs.inside event current
  rw [captured]
  have grows : Grows state { (state.move thread (.unlock event state.clock timed)).tick with
      refs := Function.update state.refs event (state.refs event + 1) } :=
    grows_of_same (Nat.le_succ _) ⟨rfl, rfl⟩ rfl fun _ => ⟨rfl, rfl⟩
  refine ⟨sound.epochs.later (Nat.le_succ _), ?_, sound.setBy, ?_, ?_, ?_, ?_⟩
  · exact fun other inside => (sound.calls other inside).grows grows rfl
  · apply fits_update grows sound.fits rfl _ fun _ _ _ _ => rfl
    refine ⟨inside, Nat.le_of_lt (sound.epochs.past event inside), Nat.lt_succ_self _, ?_⟩
    intro call time takes
    exact absurd takes (sound.epochs.running event current call time)
  · exact sound.alone.keep (by simp [Phase.call])
  · intro other within
    have moved : (state.move thread (.unlock event state.clock timed)).tick.phase =
      Function.update state.phase thread (.unlock event state.clock timed) := rfl
    by_cases same : other = event
    · subst same
      simp only [Function.update_self]
      apply (sound.counts other inside).gain (not_holds_of_event (by rw [at_]; rfl))
      intro holder
      by_cases own : holder = some thread
      · subst own
        simp [State.Holds, moved, Phase.event]
      · simp only [own, false_or]
        exact holds_update moved rfl holder own
    · simp only [Function.update_of_ne same]
      exact sound.counts_apart within moved Iff.rfl (by simp [Phase.event, at_, Ne.symm same])
  · intro other
    by_cases same : other = event
    · subst same
      have holds : state.Holds other none := current
      have positive := (sound.counts other inside).pos holds
      have open_ := sound.closed other
      simp only [State.tick, State.move, Function.update_self, open_]
      omega
    · simpa [State.tick, State.move, same] using sound.closed other

theorem Sound.captureNew {timed : Bool} (sound : Sound state) (at_ : state.phase thread = .outside)
    (current : state.currentEvent_ = none) : Sound (state.capture thread timed).tick := by
  have captured : (state.capture thread timed).tick =
      { (state.move thread (.unlock state.created state.clock timed)).tick with
        currentEvent_ := some state.created
        created := state.created + 1
        born := Function.update state.born state.created state.clock
        refs := Function.update state.refs state.created 2 } := by
    simp only [State.capture, current, State.tick, State.move]
  rw [captured]
  have epochs := sound.epochs
  rw [current] at epochs
  have born : ∀ event, event < state.created → event ≠ state.created := fun _ => Nat.ne_of_lt
  have same : ∀ event, event < state.created →
      Function.update state.refs state.created 2 event = state.refs event :=
    fun event inside => Function.update_of_ne (born event inside) _ _
  have grows : Grows state { (state.move thread (.unlock state.created state.clock timed)).tick with
      currentEvent_ := some state.created
      created := state.created + 1
      born := Function.update state.born state.created state.clock
      refs := Function.update state.refs state.created 2 } := by
    refine ⟨Nat.le_succ _, Nat.le_refl _, Nat.le_succ _, ?_, ?_, fun _ _ _ takes => takes,
      fun _ _ _ takes => .inl takes⟩
    · exact fun event inside => Function.update_of_ne (born event inside) _ _
    · intro event inside outside
      obtain rfl : event = state.created := Nat.le_antisymm (Nat.le_of_lt_succ inside) (Nat.le_of_not_lt outside)
      simp
  refine ⟨epochs.start, ?_, sound.setBy, ?_, sound.alone.keep (by simp [Phase.call]), ?_, ?_⟩
  · exact fun other inside => (sound.calls other inside).grows grows rfl
  · apply fits_update grows sound.fits rfl _ fun _ _ _ _ => rfl
    refine ⟨Nat.lt_succ_self _, by simp, Nat.lt_succ_self _, ?_⟩
    intro call time takes
    exact absurd (sound.epochs.span call state.created time takes).1 (Nat.lt_irrefl _)
  · intro event inside
    have unheld : ∀ other, (state.phase other).event ≠ some state.created :=
      fun other has => Nat.lt_irrefl _ ((sound.fits other).event_lt sound has)
    by_cases new : event = state.created
    · subst new
      simp only [Function.update_self]
      have waiter : Lib.Counts (fun holder => holder = some thread) 1 := Lib.Counts.single fun _ => Iff.rfl
      apply waiter.gain (Option.some_ne_none thread).symm
      intro holder
      cases holder with
      | none => simp [State.Holds]
      | some other =>
          by_cases own : other = thread
          · subst own
            simp [State.Holds, State.tick, State.move, Phase.event]
          · simpa [State.Holds, State.tick, State.move, own] using unheld other
    · have old : event < state.created := Nat.lt_of_le_of_ne (Nat.le_of_lt_succ inside) new
      simp only [same event old]
      exact sound.counts_apart old rfl (by simp [current, Ne.symm new])
        (by simp [Phase.event, at_, Ne.symm new])
  · intro event
    have open_ := sound.closed event
    by_cases new : event = state.created
    · subst new
      simpa [State.tick, State.move] using open_
    · simp only [State.tick, State.move, Function.update_of_ne new, open_]
      omega

theorem Sound.begin (sound : Sound state) (at_ : state.phase thread = .outside) :
    Sound (state.begin thread).tick := by
  have old : ∀ call, call < state.signals → (state.begin thread).tick.signal call = state.signal call := by
    intro call inside
    exact Function.update_of_ne (Nat.ne_of_lt inside) _ _
  have new : (state.begin thread).tick.signal state.signals = ⟨state.clock, none, none, false, none⟩ :=
    Function.update_self _ _ _
  have same : ∀ call event time, (state.begin thread).tick.Takes call event time ↔ state.Takes call event time := by
    intro call event time
    constructor
    · rintro ⟨inside, detached, looked⟩
      rcases Nat.lt_succ_iff_lt_or_eq.mp inside with before | rfl
      · rw [old call before] at detached looked
        exact ⟨before, detached, looked⟩
      · rw [new] at detached
        contradiction
    · rintro ⟨inside, detached, looked⟩
      rw [← old call inside] at detached looked
      exact ⟨Nat.lt_succ_of_lt inside, detached, looked⟩
  have grows : Grows state (state.begin thread).tick := by
    refine ⟨Nat.le_succ _, Nat.le_succ _, Nat.le_refl _, fun _ _ => rfl, ?_, ?_, ?_⟩
    · exact fun event inside outside => absurd inside outside
    · exact fun call event time => (same call event time).mpr
    · exact fun call event time takes => .inl ((same call event time).mp takes)
  refine ⟨(sound.epochs.congr same).later (Nat.le_succ _), ?_, ?_, ?_, ?_,
    sound.counts_of_same rfl rfl (by rw [at_]; rfl), sound.closed⟩
  · intro call inside
    rcases Nat.lt_succ_iff_lt_or_eq.mp inside with before | rfl
    · exact (sound.calls call before).grows grows (old call before)
    · constructor <;> simp [new]
      exact Nat.lt_succ_self state.clock
  · intro event
    apply (sound.setBy event).trans
    constructor
    · rintro ⟨call, inside, set⟩
      exact ⟨call, Nat.lt_succ_of_lt inside, by rwa [old call inside]⟩
    · rintro ⟨call, inside, set⟩
      rcases Nat.lt_succ_iff_lt_or_eq.mp inside with before | rfl
      · exact ⟨call, before, by rwa [old call before] at set⟩
      · simp [new] at set
  · apply fits_update grows sound.fits rfl
    · exact ⟨Nat.lt_succ_self _, by rw [new], by rw [new], by rw [new]⟩
    · intro other _ call uses
      exact old call ((sound.fits other).call_lt uses)
  · apply sound.alone.update
    intro call new other _ uses
    obtain rfl := Option.some.inj new
    exact Nat.lt_irrefl _ ((sound.fits other).call_lt uses)

omit [DecidableEq T] in
theorem signal_apart {call : Nat} {signal : Signal} (sound : Sound state)
    (own : (state.phase thread).call = some call) (other : T) (different : other ≠ thread) (used : Nat)
    (uses : (state.phase other).call = some used) :
    Function.update state.signal call signal used = state.signal used := by
  apply Function.update_of_ne
  rintro rfl
  exact sound.alone.other own other different uses

omit [DecidableEq T] in
theorem Sound.calls_except {call : Nat} (sound : Sound state) (grows : Grows state after)
    (old : ∀ other, other ≠ call → after.signal other = state.signal other)
    (own : after.CallSound call) : ∀ other < state.signals, after.CallSound other := by
  intro other within
  by_cases mine : other = call
  · rwa [mine]
  · exact (sound.calls other within).grows grows (old other mine)

omit [DecidableEq T] in
theorem Sound.setBy_except {call taken : Nat} (sound : Sound state)
    (old : ∀ other, other ≠ call → after.signal other = state.signal other)
    (own : (state.signal call).detached = some taken ∧ (state.signal call).hasSet = true ↔
      (after.signal call).detached = some taken ∧ (after.signal call).hasSet = true) :
    state.isSet taken = true ↔ ∃ other < state.signals,
      (after.signal other).detached = some taken ∧ (after.signal other).hasSet = true := by
  apply (sound.setBy taken).trans
  apply exists_congr
  intro other
  by_cases mine : other = call
  · rw [mine, own]
  · rw [old other mine]

theorem Sound.detachNone {call : Nat} (sound : Sound state) (at_ : state.phase thread = .detach call)
    (current : state.currentEvent_ = none) : Sound (state.detach thread call).tick := by
  have fits := sound.fits thread
  rw [at_] at fits
  obtain ⟨inside, unlooked, untaken, unset⟩ := fits
  have own : (state.phase thread).call = some call := by rw [at_, Phase.call]
  let after : State T := { (state.move thread .outside).tick with
    signal := Function.update state.signal call
      { state.signal call with looked := some state.clock, returned := some state.clock } }
  have moved : (state.detach thread call).tick = after := by
    simp only [State.detach, current, State.tick, State.move, after]
  have old : ∀ other, other ≠ call → after.signal other = state.signal other :=
    fun other different => Function.update_of_ne different _ _
  have new : after.signal call =
      { state.signal call with looked := some state.clock, returned := some state.clock } :=
    Function.update_self _ _ _
  have takes : ∀ other taken time, after.Takes other taken time ↔ state.Takes other taken time := by
    intro other taken time
    by_cases mine : other = call
    · subst mine
      simp [State.Takes, new, untaken]
    · rw [State.Takes, old other mine]
      rfl
  have grows : Grows state after := by
    refine ⟨Nat.le_succ _, Nat.le_refl _, Nat.le_refl _, fun _ _ => rfl, ?_, ?_, ?_⟩
    · exact fun event inside outside => absurd inside outside
    · exact fun other taken time => (takes other taken time).mpr
    · exact fun other taken time took => .inl ((takes other taken time).mp took)
  rw [moved]
  refine ⟨(sound.epochs.congr takes).later (Nat.le_succ _), ?_, ?_, ?_, sound.alone.keep (by simp [Phase.call]),
    sound.counts_of_same rfl rfl (by rw [at_]; rfl), sound.closed⟩
  · apply sound.calls_except grows old
    have before := sound.calls call inside
    constructor <;> simp only [new, untaken, Option.some.injEq, reduceCtorEq, false_implies, implies_true]
    · exact Nat.lt_succ_of_lt before.began
    · rintro time rfl
      exact ⟨before.began, Nat.lt_succ_self _⟩
    · rintro time rfl event made -
      obtain ⟨who, earlier, took⟩ := sound.epochs.ended event made (by simp [current])
      exact ⟨who, earlier, (takes who event earlier).mpr took,
        Nat.le_of_lt (sound.epochs.span who event earlier took).2.2⟩
    · rintro time rfl
      exact ⟨⟨state.clock, rfl, Nat.le_refl _⟩, trivial⟩
  · exact fun taken => sound.setBy_except old (by simp [new, untaken])
  · apply fits_update grows sound.fits rfl trivial
    exact signal_apart sound own

theorem Sound.detachCurrent {call event : Nat} (sound : Sound state) (at_ : state.phase thread = .detach call)
    (current : state.currentEvent_ = some event) : Sound (state.detach thread call).tick := by
  have fits := sound.fits thread
  rw [at_] at fits
  obtain ⟨inside, unlooked, untaken, unset⟩ := fits
  have own : (state.phase thread).call = some call := by rw [at_, Phase.call]
  have before := sound.calls call inside
  have unreturned := before.unreturned unlooked
  let after : State T := { (state.move thread (.setEvent call event)).tick with
    currentEvent_ := none
    signal := Function.update state.signal call
      { state.signal call with looked := some state.clock, detached := some event } }
  have moved : (state.detach thread call).tick = after := by
    simp only [State.detach, current, State.tick, State.move, after]
  have old : ∀ other, other ≠ call → after.signal other = state.signal other :=
    fun other different => Function.update_of_ne different _ _
  have new : after.signal call =
      { state.signal call with looked := some state.clock, detached := some event } :=
    Function.update_self _ _ _
  have takes : ∀ other taken time, after.Takes other taken time ↔
      state.Takes other taken time ∨ other = call ∧ taken = event ∧ time = state.clock := by
    intro other taken time
    by_cases mine : other = call
    · subst mine
      simp only [State.Takes, new, untaken, Option.some.injEq, reduceCtorEq, false_and, and_false, false_or, true_and]
      constructor
      · exact fun took => ⟨took.2.1.symm, took.2.2.symm⟩
      · exact fun took => ⟨inside, took.1.symm, took.2.symm⟩
    · rw [State.Takes, old other mine]
      simp only [mine, false_and, or_false]
      rfl
  have grows : Grows state after := by
    refine ⟨Nat.le_succ _, Nat.le_refl _, Nat.le_refl _, fun _ _ => rfl, ?_, ?_, ?_⟩
    · exact fun event inside outside => absurd inside outside
    · exact fun other taken time took => (takes other taken time).mpr (.inl took)
    · intro other taken time took
      exact ((takes other taken time).mp took).imp_right fun new => Nat.le_of_eq new.2.2.symm
  rw [moved]
  have epochs := sound.epochs
  rw [current] at epochs
  refine ⟨epochs.close.congr takes, ?_, ?_, ?_, ?_, ?_, sound.closed⟩
  · apply sound.calls_except grows old
    constructor <;> simp only [new, Option.some.injEq]
    · exact Nat.lt_succ_of_lt before.began
    · rintro time rfl
      exact ⟨before.began, Nat.lt_succ_self _⟩
    · rintro time rfl taken within -
      by_cases same : taken = event
      · exact ⟨call, state.clock, (takes _ _ _).mpr (.inr ⟨rfl, same, rfl⟩), Nat.le_refl _⟩
      · obtain ⟨who, earlier, took⟩ := epochs.ended taken within (by simpa using Ne.symm same)
        exact ⟨who, earlier, (takes who taken earlier).mpr (.inl took),
          Nat.le_of_lt (epochs.span who taken earlier took).2.2⟩
    · exact fun _ _ => ⟨state.clock, rfl⟩
    · simp [unreturned]
  · exact fun taken => sound.setBy_except old (by simp [new, unset])
  · apply fits_update grows sound.fits rfl
    · exact ⟨inside, by rw [new], by rw [new]; exact unreturned⟩
    · exact signal_apart sound own
  · exact sound.alone.keep (by rw [own]; exact fun _ has => has)
  · intro other within
    have phase : after.phase = Function.update state.phase thread (.setEvent call event) := rfl
    by_cases same : other = event
    · subst same
      have holds : state.Holds other none := current
      apply (sound.counts other within).hand holds (not_holds_of_event (by rw [at_]; rfl))
      intro holder
      cases holder with
      | none => simp [State.Holds, after]
      | some reader =>
          by_cases mine : reader = thread
          · subst mine
            simp [State.Holds, phase, Phase.event]
          · simp [State.Holds, phase, mine]
    · exact sound.counts_apart within phase (by simp [after, current, Ne.symm same])
        (by simp [Phase.event, at_, Ne.symm same])

theorem Sound.setEvent {call event : Nat} (sound : Sound state) (at_ : state.phase thread = .setEvent call event) :
    Sound (state.setEvent thread call event).tick := by
  have fits := sound.fits thread
  rw [at_] at fits
  obtain ⟨inside, detached, unreturned⟩ := fits
  have old : ∀ other, other ≠ call → (state.setEvent thread call event).tick.signal other = state.signal other :=
    fun other different => Function.update_of_ne different _ _
  have new : (state.setEvent thread call event).tick.signal call = { state.signal call with hasSet := true } :=
    Function.update_self _ _ _
  have same : ∀ other, ((state.setEvent thread call event).tick.signal other).detached =
      (state.signal other).detached ∧
      ((state.setEvent thread call event).tick.signal other).looked = (state.signal other).looked := by
    intro other
    by_cases own : other = call
    · simp [own, new]
    · simp [old other own]
  have takes : ∀ other taken time, (state.setEvent thread call event).tick.Takes other taken time ↔
      state.Takes other taken time := takes_of_same rfl same
  have grows : Grows state (state.setEvent thread call event).tick :=
    grows_of_same (Nat.le_succ _) ⟨rfl, rfl⟩ rfl same
  have own : (state.phase thread).call = some call := by rw [at_, Phase.call]
  refine ⟨(sound.epochs.congr takes).later (Nat.le_succ _), ?_, ?_, ?_, ?_,
    sound.counts_of_same rfl rfl (by rw [at_]; rfl), sound.closed⟩
  · apply sound.calls_except grows old
    have before := sound.calls call inside
    apply before.change grows (by rw [new]) (by rw [new]) (by rw [new])
    simp only [new]
    exact fun time returned => ⟨(before.returned time returned).1, fun _ _ => trivial⟩
  · intro taken
    by_cases mine : taken = event
    · subst mine
      simp only [State.setEvent, State.tick, Function.update_self, true_iff]
      exact ⟨call, inside, by simp [detached]⟩
    · have unset : (state.setEvent thread call event).tick.isSet taken = state.isSet taken :=
        Function.update_of_ne mine _ _
      rw [unset, sound.setBy taken]
      apply exists_congr
      intro other
      by_cases same : other = call
      · subst same
        simp [new, detached, Ne.symm mine]
      · rw [old other same]
        rfl
  · apply fits_update grows sound.fits rfl
    · simp [State.Fits, State.setEvent, State.tick, State.move, inside, detached]
    · exact signal_apart sound own
  · exact sound.alone.keep (by rw [own]; exact fun _ has => has)

theorem Sound.releaseOld {call event : Nat} (sound : Sound state)
    (at_ : state.phase thread = .releaseOld call event) : Sound (state.releaseOld thread call event).tick := by
  have fits := sound.fits thread
  rw [at_] at fits
  have has : (state.phase thread).event = some event := by rw [at_, Phase.event]
  have own : (state.phase thread).call = some call := by rw [at_, Phase.call]
  have held := fits.event_lt sound rfl
  obtain ⟨inside, detached, hasSet⟩ := fits
  have old : ∀ other, other ≠ call → (state.releaseOld thread call event).tick.signal other = state.signal other :=
    fun other different => Function.update_of_ne different _ _
  have new : (state.releaseOld thread call event).tick.signal call =
      { state.signal call with returned := some state.clock } := Function.update_self _ _ _
  have same : ∀ other, ((state.releaseOld thread call event).tick.signal other).detached =
      (state.signal other).detached ∧
      ((state.releaseOld thread call event).tick.signal other).looked = (state.signal other).looked := by
    intro other
    by_cases own : other = call
    · simp [own, new]
    · simp [old other own]
  have takes : ∀ other taken time, (state.releaseOld thread call event).tick.Takes other taken time ↔
      state.Takes other taken time := takes_of_same rfl same
  have grows : Grows state (state.releaseOld thread call event).tick :=
    grows_of_same (Nat.le_succ _) ⟨rfl, rfl⟩ rfl same
  refine ⟨(sound.epochs.congr takes).later (Nat.le_succ _), ?_, ?_, ?_, ?_,
    sound.drop has held, sound.unref_closed has held⟩
  · apply sound.calls_except grows old
    have before := sound.calls call inside
    apply before.change grows (by rw [new]) (by rw [new]) (by rw [new])
    simp only [new, Option.some.injEq]
    rintro time rfl
    obtain ⟨earlier, looked⟩ := before.detached event detached
    exact ⟨⟨earlier, looked, Nat.le_of_lt (before.looked earlier looked).2⟩, fun _ _ => hasSet⟩
  · exact fun taken => sound.setBy_except old (by rw [new])
  · apply fits_update grows sound.fits rfl trivial
    exact signal_apart sound own
  · exact sound.alone.keep (by simp [Phase.call])

end ThreadIpc.CondVar
