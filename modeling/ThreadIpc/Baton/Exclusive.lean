import ThreadIpc.Baton.Relay

/-!
# Exclusivity and the handing over of the baton
-/

namespace ThreadIpc.Baton

variable {T I P : Type} {hosts : Hosts T I P} {state : State T I} {thread : T} {baton : I}

def Phase.uses : Phase I → Option I
  | .outside | .ended => none
  | .waitMutex baton | .waitEvent baton | .releaseDone baton | .proceed baton | .releasePass baton
  | .clearGot baton | .setEvent baton | .releaseFinish baton _ => some baton

structure Housed (hosts : Hosts T I P) (state : State T I) : Prop where
  uses : ∀ thread baton, (state.phase thread).uses = some baton → hosts.thread thread = hosts.baton baton
  holding : ∀ thread baton, state.holding baton = some thread → hosts.thread thread = hosts.baton baton

theorem housed_init : Housed hosts (.init : State T I) where
  uses := by simp [State.init, Phase.uses]
  holding := by simp [State.init]

theorem Housed.endThreads {ended : T → Bool} {closed : I → Bool} (housed : Housed hosts state) :
    Housed hosts (state.endThreads ended closed) := by
  constructor
  · intro other mine uses
    simp only [State.endThreads] at uses
    split at uses
    · contradiction
    · exact housed.uses other mine uses
  · intro other mine holds
    exact housed.holding other mine (Option.filter_eq_some_iff.mp holds).1

variable [DecidableEq I] {relay : Relay T I}

theorem Follows.taken_uses (follows : Follows relay state) (taken : relay = .taken thread baton) :
    (state.phase thread).uses = some baton := by
  have admits := follows.admits thread
  subst taken
  revert admits
  cases state.phase thread <;> simp +contextual [Relay.Admits, Relay.thread, Phase.uses]

theorem Follows.housed (follows : Follows relay state) (housed : Housed hosts state)
    (owner : relay.thread = some thread) (mine : relay.baton = some baton) :
    hosts.thread thread = hosts.baton baton := by
  cases relay with
  | free => contradiction
  | taken other own =>
      obtain rfl := Option.some.inj owner
      obtain rfl := Option.some.inj mine
      exact housed.uses other own (follows.taken_uses rfl)
  | held other own =>
      obtain rfl := Option.some.inj owner
      obtain rfl := Option.some.inj mine
      exact housed.holding other own (by simp [follows.holding, Relay.holder])

theorem Follows.endThreads {ended : T → Bool} {closed : I → Bool} (follows : Follows relay state)
    (housed : Housed hosts state)
    (closes : ∀ thread baton, hosts.thread thread = hosts.baton baton → closed baton = true →
      ended thread = true) :
    Follows (relay.without ended) (state.endThreads ended closed) := by
  have kept : ∀ thread baton, ended thread = false → hosts.thread thread = hosts.baton baton →
      closed baton = false := by
    intro thread baton alive same
    by_contra open_
    rw [closes thread baton same (by simpa using open_)] at alive
    contradiction
  refine ⟨?_, ?_, ?_, ?_, ?_, follows.finished, follows.done⟩
  · rcases relay.without_or ended with ⟨free, owner, owned, ends⟩ | ⟨same, alive⟩
    · rw [free]
      have taken : state.mutex.owner = some (owner, 1) := by
        rw [follows.owner, owned]
        rfl
      exact Lib.RecursiveMutex.abandon_owner taken ends
    · rw [same, ← follows.owner, State.endThreads, Lib.RecursiveMutex.abandon_kept]
      intro owner owned
      exact alive owner (follows.mutexThread ▸ owned)
  · funext baton
    rw [State.endThreads, follows.holding]
    exact relay.without_holder ended baton
  · intro baton mine
    rcases relay.without_or ended with ⟨free, -⟩ | ⟨same, alive⟩
    · rw [free] at mine
      contradiction
    · rw [same] at mine
      obtain ⟨owner, owned⟩ : ∃ owner, relay.thread = some owner := by
        cases relay <;> simp_all [Relay.thread, Relay.baton]
      refine List.mem_filter.mpr ⟨follows.opened baton mine, ?_⟩
      simp [kept owner baton (alive owner owned) (follows.housed housed owned mine)]
  · intro thread
    by_cases ends : ended thread = true
    · simp only [State.endThreads, ends, if_true, Relay.Admits]
      intro owner
      rw [(Relay.without_thread owner).2] at ends
      contradiction
    · have alive : ended thread = false := by simpa using ends
      simp only [State.endThreads, alive, Bool.false_eq_true, if_false]
      refine (follows.admits thread).without alive ?_
      intro baton waits
      exact kept thread baton alive (housed.uses thread baton (by rw [waits, Phase.uses]))
  · intro thread baton held signalled
    have before := Relay.without_eq held (by simp)
    have alive := (Relay.without_thread (by rw [held, Relay.thread])).2
    simpa [State.endThreads, alive] using follows.clear thread baton before signalled

variable [DecidableEq T]

omit [DecidableEq I] in
theorem Housed.update {after : State T I} {target : Phase I} (housed : Housed hosts state)
    (moved : after.phase = Function.update state.phase thread target)
    (own : ∀ baton, target.uses = some baton → hosts.thread thread = hosts.baton baton)
    (holding : ∀ other baton, after.holding baton = some other →
      state.holding baton = some other ∨ other = thread ∧ (state.phase thread).uses = some baton) :
    Housed hosts after := by
  constructor
  · intro other mine uses
    rw [moved] at uses
    by_cases same : other = thread
    · subst same
      exact own mine (by simpa using uses)
    · exact housed.uses other mine (by simpa [same] using uses)
  · intro other mine holds
    rcases holding other mine holds with before | ⟨rfl, uses⟩
    · exact housed.holding other mine before
    · exact housed.uses other mine uses

omit [DecidableEq T] in
theorem released_holding {other : T} {mine : I} (holds : Function.update state.holding baton none mine = some other) :
    state.holding mine = some other := by
  by_cases same : mine = baton
  · simp [same] at holds
  · simpa [same] using holds

structure Advances (state after : State T I) (thread : T) (target : Phase I) : Prop where
  phase : after.phase = Function.update state.phase thread target
  uses : ∀ baton, target.uses = some baton → (state.phase thread).uses = some baton
  holding : ∀ other baton, after.holding baton = some other →
    state.holding baton = some other ∨ other = thread ∧ (state.phase thread).uses = some baton
  returned : state.returned <+: after.returned
  signalled : after.signalled = state.signalled ∨ ∃ baton, state.phase thread = .setEvent baton

omit [DecidableEq I] in
theorem Advances.plain {after : State T I} {target : Phase I}
    (phase : after.phase = Function.update state.phase thread target)
    (uses : target.uses = none ∨ target.uses = (state.phase thread).uses)
    (holding : ∀ other baton, after.holding baton = some other → state.holding baton = some other)
    (returned : state.returned <+: after.returned) (signalled : after.signalled = state.signalled) :
    Advances state after thread target := by
  refine ⟨phase, ?_, fun other baton holds => .inl (holding other baton holds), returned, .inl signalled⟩
  intro baton has
  rcases uses with none | same
  · simp [none] at has
  · rwa [← same]

theorem advances {after : State T I} (advanced : state.advance thread = some after) :
    ∃ target, Advances state after thread target := by
  cases at_ : state.phase thread <;> rw [State.advance, at_] at advanced
  case outside => contradiction
  case ended => contradiction
  case waitMutex baton =>
      obtain ⟨mutex, -, rfl⟩ := Option.map_eq_some_iff.mp advanced
      exact ⟨.waitEvent baton, .plain rfl (.inr (by rw [at_]; rfl)) (fun _ _ holds => holds)
        (List.prefix_refl _) rfl⟩
  all_goals obtain rfl := Option.some.inj advanced
  case waitEvent baton =>
      unfold State.waitEvent
      split
      · exact ⟨.releaseDone baton, .plain rfl (.inr (by rw [at_]; rfl)) (fun _ _ holds => holds)
          (List.prefix_refl _) rfl⟩
      · exact ⟨.proceed baton, .plain rfl (.inr (by rw [at_]; rfl)) (fun _ _ holds => holds)
          (List.prefix_refl _) rfl⟩
  case releaseDone baton =>
      exact ⟨.outside, .plain rfl (.inl rfl) (fun _ _ holds => holds) (List.prefix_append _ _) rfl⟩
  case proceed baton =>
      refine ⟨.outside, rfl, by simp [Phase.uses], ?_, List.prefix_append _ _, .inl rfl⟩
      intro other mine holds
      by_cases same : mine = baton
      · subst same
        have own : thread = other := by simpa [State.proceed] using holds
        exact .inr ⟨own.symm, by rw [at_, Phase.uses]⟩
      · exact .inl (by simpa [State.proceed, same] using holds)
  case releasePass baton =>
      unfold State.releasePass
      split
      · exact ⟨.clearGot baton, .plain rfl (.inr (by rw [at_]; rfl)) (fun _ _ => released_holding)
          (List.prefix_refl _) rfl⟩
      · exact ⟨.outside, .plain rfl (.inl rfl) (fun _ _ holds => holds) (List.prefix_append _ _) rfl⟩
  case clearGot baton =>
      exact ⟨.outside, .plain rfl (.inl rfl) (fun _ _ holds => holds) (List.prefix_append _ _) rfl⟩
  case setEvent baton =>
      unfold State.setEvent
      split
      · refine ⟨.releaseFinish baton true, rfl, ?_, fun _ _ holds => .inl holds, List.prefix_refl _,
          .inr ⟨baton, at_⟩⟩
        rw [at_]
        exact fun _ uses => uses
      · exact ⟨.releaseFinish baton false, .plain rfl (.inr (by rw [at_]; rfl)) (fun _ _ holds => holds)
          (List.prefix_refl _) rfl⟩
  case releaseFinish baton ret =>
      unfold State.releaseFinish
      split
      · exact ⟨.outside, .plain rfl (.inl rfl) (fun _ _ => released_holding) (List.prefix_append _ _) rfl⟩
      · exact ⟨.outside, .plain rfl (.inl rfl) (fun _ _ holds => holds) (List.prefix_append _ _) rfl⟩

theorem call_advances (state : State T I) (thread : T) (baton : I) (call : Call) :
    (state.call thread baton call).holding = state.holding ∧
      (state.call thread baton call).signalled = state.signalled ∧
      state.returned <+: (state.call thread baton call).returned ∧
      ∃ target : Phase I, (state.call thread baton call).phase = Function.update state.phase thread target ∧
        ∀ mine, target.uses = some mine → mine = baton := by
  cases call <;> rw [State.call] <;> split
  · exact ⟨rfl, rfl, List.prefix_refl _, .waitMutex baton, rfl, by simp [Phase.uses]⟩
  · exact ⟨rfl, rfl, List.prefix_append _ _, .outside, rfl, by simp [Phase.uses]⟩
  · exact ⟨rfl, rfl, List.prefix_refl _, .releasePass baton, rfl, by simp [Phase.uses]⟩
  · exact ⟨rfl, rfl, List.prefix_append _ _, .outside, rfl, by simp [Phase.uses]⟩
  · exact ⟨rfl, rfl, List.prefix_refl _, .setEvent baton, rfl, by simp [Phase.uses]⟩
  · exact ⟨rfl, rfl, List.prefix_append _ _, .outside, rfl, by simp [Phase.uses]⟩

variable [DecidableEq P]

inductive Steps (hosts : Hosts T I P) (state : State T I) : Action T I P → State T I → Prop
  | opens {thread : T} {baton : I} : Steps hosts state (.init thread baton true) (state.open_ baton)
  | refused {thread : T} {baton : I} : Steps hosts state (.init thread baton false) state
  | calls {thread : T} {call : Call} {baton : I} : state.mayCall hosts thread baton →
      Steps hosts state (.call thread call baton) (state.call thread baton call)
  | advances {thread : T} {after : State T I} : state.advance thread = some after →
      Steps hosts state (.advance thread) after
  | ends {action : Action T I P} {ended : T → Bool} {closed : I → Bool} :
      (∀ thread baton, hosts.thread thread = hosts.baton baton → closed baton = true → ended thread = true) →
      Steps hosts state action (state.endThreads ended closed)

theorem step_steps {action : Action T I P} {after : State T I} (moved : step hosts state action = some after) :
    Steps hosts state action after := by
  cases action with
  | init thread baton created =>
      obtain ⟨-, same⟩ := Option.ite_none_right_eq_some.mp moved
      obtain rfl := Option.some.inj same
      cases created with
      | true => exact .opens
      | false => exact .refused
  | call thread call baton =>
      obtain ⟨may, same⟩ := Option.ite_none_right_eq_some.mp moved
      obtain rfl := Option.some.inj same
      exact .calls may
  | advance thread => exact .advances moved
  | threadEnds thread =>
      obtain rfl := Option.some.inj moved
      exact .ends (by simp)
  | processEnds process =>
      obtain rfl := Option.some.inj moved
      apply Steps.ends
      intro thread baton same closed
      simpa [same] using closed

theorem housed_step {action : Action T I P} {after : State T I} (housed : Housed hosts state)
    (moved : step hosts state action = some after) : Housed hosts after := by
  cases step_steps moved with
  | opens => exact ⟨housed.uses, housed.holding⟩
  | refused => exact housed
  | @calls thread call baton may =>
      obtain ⟨holding, -, -, target, phase, uses⟩ := call_advances state thread baton call
      refine housed.update phase ?_ fun _ _ holds => .inl (holding ▸ holds)
      intro mine has
      rw [uses mine has]
      exact may.2
  | @advances thread _ moved =>
      obtain ⟨target, advances⟩ := advances moved
      exact housed.update advances.phase
        (fun baton has => housed.uses thread baton (advances.uses baton has)) advances.holding
  | ends => exact housed.endThreads

theorem follows_step {action : Action T I P} {after : State T I} (follows : Follows relay state)
    (housed : Housed hosts state) (allowed : Allowed state action)
    (moved : step hosts state action = some after) : ∃ later, Follows later after := by
  cases step_steps moved with
  | @opens _ baton => exact ⟨relay, follows.open_ baton (allowed rfl)⟩
  | refused => exact ⟨relay, follows⟩
  | calls may => exact ⟨relay, follows.call may.1 allowed⟩
  | advances moved => exact follows.advance moved
  | ends inside => exact ⟨_, follows.endThreads housed inside⟩

theorem reached_follows (reach : Lib.Reachable (step hosts) Allowed .init state) :
    Housed hosts state ∧ ∃ relay, Follows relay state := by
  induction reach with
  | start => exact ⟨housed_init, .free, follows_init⟩
  | next _ allowed moved ih =>
      obtain ⟨housed, relay, follows⟩ := ih
      exact ⟨housed_step housed moved, follows_step follows housed allowed moved⟩

theorem step_returned {action : Action T I P} {after : State T I} (moved : step hosts state action = some after) :
    state.returned <+: after.returned := by
  cases step_steps moved with
  | @calls thread call baton _ => exact (call_advances state thread baton call).2.2.1
  | advances moved =>
      obtain ⟨target, advances⟩ := advances moved
      exact advances.returned
  | _ => exact List.prefix_refl _

theorem step_signalled {action : Action T I P} {after : State T I} (moved : step hosts state action = some after)
    (clear : state.signalled = false) :
    after.signalled = false ∨ ∃ setter baton, state.phase setter = .setEvent baton := by
  cases step_steps moved with
  | opens => exact .inl (by simp [State.open_, clear])
  | @calls thread call baton _ => exact .inl ((call_advances state thread baton call).2.1.trans clear)
  | @advances thread _ moved =>
      obtain ⟨target, advances⟩ := advances moved
      rcases advances.signalled with same | setting
      · exact .inl (same.trans clear)
      · exact .inr ⟨thread, setting⟩
  | _ => exact .inl clear

theorem step_bystander {action : Action T I P} {after : State T I} {waiter : T}
    (moved : step hosts state action = some after) (other : action ≠ .advance waiter)
    (inside : state.phase waiter ≠ .outside) :
    after.phase waiter = .ended ∨ after.phase waiter = state.phase waiter := by
  cases step_steps moved with
  | @calls thread call baton may =>
      obtain ⟨-, -, -, target, phase, -⟩ := call_advances state thread baton call
      have different : waiter ≠ thread := by
        rintro rfl
        exact inside may.1
      exact .inr (by rw [phase, Function.update_of_ne different])
  | @advances thread _ moved =>
      obtain ⟨target, advances⟩ := advances moved
      have different : waiter ≠ thread := by
        rintro rfl
        exact other rfl
      exact .inr (by rw [advances.phase, Function.update_of_ne different])
  | ends =>
      simp only [State.endThreads]
      split
      · exact .inl rfl
      · exact .inr rfl
  | _ => exact .inr rfl

/-- The thread is ended, or owns the mutex in a `get` that is going to return `true`, or this `get`
has returned `true` since the log had `logged` entries. -/
def Receives (waiter : T) (baton : I) (logged : Nat) (state : State T I) : Prop :=
  state.phase waiter = .ended ∨
    state.mutex.thread = some waiter ∧
      (state.phase waiter = .waitEvent baton ∧ state.signalled = false ∨ state.phase waiter = .proceed baton) ∨
    ⟨waiter, .get, baton, true⟩ ∈ state.returned.drop logged

structure HandsOver (hosts : Hosts T I P) (state : State T I) : Prop where
  pending : ∀ owner waiter baton, state.mutex.thread = some owner → state.phase waiter = .waitMutex baton →
    state.advance waiter = none
  /-- A holder that ends before its `finish` has set the event leaves the baton to take, and the job undone. -/
  left : ∀ holder baton, state.holding baton = some holder → state.phase holder ≠ .releaseFinish baton true →
    ∀ action : Action T I P, action = .threadEnds holder ∨ action = .processEnds (hosts.thread holder) →
      ∃ after, step hosts state action = some after ∧ after.mutex.thread = none ∧ after.signalled = false
  next : ∀ waiter baton, state.mutex.thread = none → state.signalled = false →
    state.phase waiter = .waitMutex baton → ∃ after, step hosts state (.advance waiter) = some after ∧
      ∀ later, Lib.Reachable (step hosts) Allowed after later →
        Receives waiter baton after.returned.length later

omit [DecidableEq T] [DecidableEq P] in
theorem Follows.taken_of_phase (follows : Follows relay state)
    (inside : state.phase thread = .waitEvent baton ∨ state.phase thread = .proceed baton) :
    relay = .taken thread baton := by
  have admits := follows.admits thread
  rcases inside with at_ | at_
  · rwa [at_] at admits
  · rw [at_] at admits
    exact admits.1

theorem Receives.advance {after : State T I} {waiter : T} {logged : Nat} {next : Relay T I}
    (inside : state.phase waiter = .waitEvent baton ∧ state.signalled = false ∨
      state.phase waiter = .proceed baton) (long : logged ≤ state.returned.length)
    (advanced : state.advance waiter = some after) (follows : Follows next after) :
    Receives waiter baton logged after := by
  rcases inside with ⟨at_, clear⟩ | at_
  · rw [State.advance, at_] at advanced
    obtain rfl := Option.some.inj advanced
    have proceeds : (state.waitEvent waiter baton).phase waiter = .proceed baton := by
      simp [State.waitEvent, clear, State.move]
    have taken := follows.taken_of_phase (.inr proceeds)
    exact .inr (.inl ⟨by rw [follows.mutexThread, taken, Relay.thread], .inr proceeds⟩)
  · rw [State.advance, at_] at advanced
    obtain rfl := Option.some.inj advanced
    refine .inr (.inr ?_)
    have grown : (state.proceed waiter baton).returned.drop logged =
        state.returned.drop logged ++ [⟨waiter, .get, baton, true⟩] :=
      List.drop_append_of_le_length long
    rw [grown]
    simp

theorem Receives.step {action : Action T I P} {after : State T I} {waiter : T} {logged : Nat} {next : Relay T I}
    (receives : Receives waiter baton logged state) (long : logged ≤ state.returned.length)
    (follows : Follows relay state) (moved : step hosts state action = some after)
    (follows' : Follows next after) : Receives waiter baton logged after := by
  rcases receives with ended | ⟨-, inside⟩ | received
  · refine .inl ?_
    have other : action ≠ .advance waiter := by
      rintro rfl
      rw [Baton.step, State.advance, ended] at moved
      contradiction
    rcases step_bystander moved other (by simp [ended]) with gone | same
    · exact gone
    · exact same.trans ended
  · by_cases own : action = .advance waiter
    · subst own
      exact Receives.advance inside long moved follows'
    have phase := step_bystander moved own (by rcases inside with ⟨at_, -⟩ | at_ <;> simp [at_])
    rcases phase with gone | same
    · exact .inl gone
    have stays : after.phase waiter = .waitEvent baton ∧ after.signalled = false ∨
        after.phase waiter = .proceed baton := by
      rcases inside with ⟨at_, clear⟩ | at_
      · rcases step_signalled moved clear with still | ⟨setter, mine, setting⟩
        · exact .inl ⟨same.trans at_, still⟩
        · -- nobody else is in `finish` while this thread has the mutex
          have held := follows.admits setter
          rw [setting, follows.taken_of_phase (.inl at_)] at held
          contradiction
      · exact .inr (same.trans at_)
    refine .inr (.inl ⟨?_, stays⟩)
    have taken := follows'.taken_of_phase (stays.imp_left And.left)
    rw [follows'.mutexThread, taken, Relay.thread]
  · refine .inr (.inr ?_)
    obtain ⟨more, grown⟩ := step_returned moved
    rw [← grown, List.drop_append_of_le_length long]
    exact List.mem_append_left _ received

theorem receives_run {start : State T I} {waiter : T} (reach : Lib.Reachable (step hosts) Allowed .init start)
    (receives : Receives waiter baton start.returned.length start)
    (run : Lib.Reachable (step hosts) Allowed start state) :
    Receives waiter baton start.returned.length state ∧ start.returned.length ≤ state.returned.length := by
  induction run with
  | start => exact ⟨receives, Nat.le_refl _⟩
  | next before allowed moved ih =>
      obtain ⟨receives, long⟩ := ih
      obtain ⟨housed, relay, follows⟩ := reached_follows (reach.trans before)
      obtain ⟨next, follows'⟩ := follows_step follows housed allowed moved
      exact ⟨receives.step long follows moved follows', Nat.le_trans long (step_returned moved).length_le⟩

omit [DecidableEq T] in
theorem Follows.left {ended : T → Bool} {closed : I → Bool} (follows : Follows relay state)
    (holds : state.holding baton = some thread) (unset : state.phase thread ≠ .releaseFinish baton true)
    (ends : ended thread = true) :
    (state.endThreads ended closed).mutex.thread = none ∧ (state.endThreads ended closed).signalled = false := by
  rw [follows.holding] at holds
  have held := Relay.held_of_holder holds
  have owner := follows.owner
  rw [held] at owner
  constructor
  · simp [State.endThreads, Lib.RecursiveMutex.thread, Lib.RecursiveMutex.abandon_owner owner ends]
  · by_contra signalled
    exact unset (follows.clear thread baton held (by simpa [State.endThreads] using signalled))

theorem reached_handsOver (reach : Lib.Reachable (step hosts) Allowed .init state) :
    HandsOver hosts state := by
  obtain ⟨housed, relay, follows⟩ := reached_follows reach
  refine ⟨?_, ?_, ?_⟩
  · intro owner waiter baton owned waits
    have admits := follows.admits waiter
    rw [waits] at admits
    have different : owner ≠ waiter := by
      rintro rfl
      exact admits.1 (follows.mutexThread ▸ owned)
    obtain ⟨⟨_, count⟩, taken, rfl⟩ := Option.map_eq_some_iff.mp owned
    rw [State.advance, waits]
    simp [State.waitMutex, Lib.RecursiveMutex.acquire_owned taken different]
  · rintro holder baton holds unset action (rfl | rfl)
    · exact ⟨_, rfl, follows.left holds unset (by simp)⟩
    · exact ⟨_, rfl, follows.left holds unset (by simp)⟩
  · intro waiter baton unowned clear waits
    have free : state.mutex.owner = none := by simpa [Lib.RecursiveMutex.thread] using unowned
    have moved : state.advance waiter =
        some { state.move waiter (.waitEvent baton) with mutex := ⟨some (waiter, 1), false⟩ } := by
      rw [State.advance, waits]
      simp [State.waitMutex, Lib.RecursiveMutex.acquire_free free]
    have allowed : Allowed state (.advance waiter : Action T I P) := trivial
    refine ⟨_, moved, ?_⟩
    intro later run
    refine (receives_run (.next reach allowed moved) ?_ run).1
    exact .inr (.inl ⟨rfl, .inl ⟨by simp [State.move], clear⟩⟩)

theorem baton_exclusive (hosts : Hosts T I P) (state : State T I)
    (reach : Lib.Reachable (step hosts) Allowed .init state) : Exclusive state ∧ HandsOver hosts state := by
  obtain ⟨-, relay, follows⟩ := reached_follows reach
  exact ⟨follows.exclusive, reached_handsOver reach⟩

def threeProcesses : Hosts Nat Nat Nat := ⟨id, id⟩

/-- The first holder dies, the second one finishes the job, the third one has nothing to do. -/
def relayRun : List (Action Nat Nat Nat) :=
  [.init 0 0 true, .init 1 1 true, .init 2 2 true, .call 0 .get 0, .advance 0, .advance 0, .advance 0,
   .call 1 .get 1, .call 2 .get 2, .processEnds 0, .advance 1, .advance 1, .advance 1,
   .call 1 .finish 1, .advance 1, .advance 1, .advance 2, .advance 2, .advance 2]

def relayed : State Nat Nat :=
  Lib.final (step threeProcesses) Allowed .init relayRun (by decide +kernel)

theorem relayed_exclusive :
    relayed.returned = [⟨0, .get, 0, true⟩, ⟨1, .get, 1, true⟩, ⟨1, .finish, 1, true⟩, ⟨2, .get, 2, false⟩] ∧
      Exclusive relayed :=
  ⟨by decide +kernel,
    (baton_exclusive threeProcesses relayed (Lib.reachable_final relayRun (by decide +kernel))).1⟩

def oneThread : Hosts Unit Bool Unit := ⟨id, fun _ => ()⟩

def twiceRun : List (Action Unit Bool Unit) :=
  [.init () false true, .init () true true, .call () .get false, .advance (), .advance (), .advance (),
   .call () .get true, .advance (), .advance (), .advance ()]

def twice : State Unit Bool :=
  Lib.final (step oneThread) Lib.anyAction .init twiceRun (by decide +kernel)

theorem baton_not_always_exclusive :
    ¬ ∀ state : State Unit Bool, Lib.Reachable (step oneThread) Lib.anyAction .init state → Exclusive state := by
  intro always
  have exclusive := always twice (Lib.reachable_final twiceRun (by decide +kernel))
  have first : twice.holding false = some () := by
    decide +kernel
  have second : twice.holding true = some () := by
    decide +kernel
  have same := exclusive.one false true () () first second
  contradiction

end ThreadIpc.Baton
