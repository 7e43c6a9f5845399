import ThreadIpc.Baton.Model

/-!
# The one baton behind the mutex and the event
-/

namespace ThreadIpc.Baton

variable {T I P : Type}

inductive Relay (T I : Type)
  | free
  | taken (thread : T) (baton : I)
  | held (thread : T) (baton : I)

namespace Relay

def thread : Relay T I → Option T
  | .free => none
  | .taken thread _ | .held thread _ => some thread

def baton : Relay T I → Option I
  | .free => none
  | .taken _ baton | .held _ baton => some baton

def holder [DecidableEq I] : Relay T I → I → Option T
  | .free, _ | .taken _ _, _ => none
  | .held thread baton, other => if other = baton then some thread else none

def Admits (relay : Relay T I) (opened : List I) (signalled : Bool) (thread : T) : Phase I → Prop
  | .outside => ∀ baton, relay ≠ .taken thread baton
  | .waitMutex baton => relay.thread ≠ some thread ∧ baton ∈ opened
  | .waitEvent baton => relay = .taken thread baton
  | .releaseDone baton => relay = .taken thread baton ∧ signalled = true
  | .proceed baton => relay = .taken thread baton ∧ signalled = false
  | .releasePass baton => relay = .held thread baton ∨ relay.thread ≠ some thread
  | .clearGot _ | .ended => relay.thread ≠ some thread
  | .setEvent baton => relay = .held thread baton
  | .releaseFinish baton ret => relay = .held thread baton ∧ ret = true ∧ signalled = true

theorem holder_give [DecidableEq I] (thread : T) (baton : I) :
    Function.update (taken thread baton).holder baton (some thread) = (held thread baton).holder := by
  funext other
  by_cases same : other = baton <;> simp [holder, same]

theorem held_of_holder [DecidableEq I] {relay : Relay T I} {thread : T} {baton : I}
    (holds : relay.holder baton = some thread) : relay = .held thread baton := by
  cases relay with
  | free => simp [holder] at holds
  | taken owner mine => simp [holder] at holds
  | held owner mine =>
      simp only [holder, Option.ite_none_right_eq_some, Option.some.injEq] at holds
      rw [holds.1, holds.2]

theorem holder_release [DecidableEq I] (thread : T) (baton : I) :
    Function.update (held thread baton).holder baton none = (free : Relay T I).holder := by
  funext other
  by_cases same : other = baton <;> simp [holder, same]

inductive Next (thread : T) : Relay T I → Relay T I → Prop
  | take (baton : I) : Next thread .free (.taken thread baton)
  | give (baton : I) : Next thread (.taken thread baton) (.held thread baton)
  | refuse (baton : I) : Next thread (.taken thread baton) .free
  | release (baton : I) : Next thread (.held thread baton) .free

theorem Next.admits {relay later : Relay T I} {thread other : T} {opened : List I} {signalled : Bool}
    {phase : Phase I} (next : Next thread relay later) (different : other ≠ thread)
    (admits : relay.Admits opened signalled other phase) : later.Admits opened signalled other phase := by
  cases next <;> cases phase <;> simp_all [Admits, Relay.thread, Ne.symm different]

end Relay

structure Follows [DecidableEq I] (relay : Relay T I) (state : State T I) : Prop where
  owner : state.mutex.owner = relay.thread.map fun thread => (thread, 1)
  holding : state.holding = relay.holder
  opened : ∀ baton, relay.baton = some baton → baton ∈ state.opened
  admits : ∀ thread, relay.Admits state.opened state.signalled thread (state.phase thread)
  clear : ∀ thread baton, relay = .held thread baton → state.signalled = true →
    state.phase thread = .releaseFinish baton true
  finished : ∀ call ∈ state.returned, call.finished = true → state.signalled = true
  done : state.returned.Pairwise fun earlier later => earlier.finished = true → later.got = false

variable [DecidableEq I] {relay : Relay T I} {state : State T I} {thread : T} {baton : I}

theorem Follows.mutexThread (follows : Follows relay state) : state.mutex.thread = relay.thread := by
  rw [Lib.RecursiveMutex.thread, follows.owner]
  cases relay <;> rfl

theorem Follows.exclusive (follows : Follows relay state) : Exclusive state := by
  refine ⟨?_, follows.done⟩
  intro baton other thread holder one two
  rw [follows.holding] at one two
  cases relay with
  | free => simp [Relay.holder] at one
  | taken owner mine => simp [Relay.holder] at one
  | held owner mine =>
      simp only [Relay.holder, Option.ite_none_right_eq_some] at one two
      rw [one.1, two.1]

theorem follows_init : Follows .free (.init : State T I) where
  owner := rfl
  holding := rfl
  opened := by simp [Relay.baton]
  admits := by simp [State.init, Relay.Admits]
  clear := by simp
  finished := by simp [State.init]
  done := List.Pairwise.nil

variable [DecidableEq T]

theorem Follows.move {target : Phase I} (follows : Follows relay state)
    (admits : relay.Admits state.opened state.signalled thread target)
    (still : state.signalled = true → ∀ baton, relay = .held thread baton →
      target = .releaseFinish baton true) : Follows relay (state.move thread target) := by
  refine ⟨follows.owner, follows.holding, follows.opened, ?_, ?_, follows.finished, follows.done⟩
  · intro other
    by_cases same : other = thread
    · subst same
      simpa [State.move] using admits
    · simpa [State.move, same] using follows.admits other
  · intro holder baton held signalled
    by_cases same : holder = thread
    · subst same
      simpa [State.move] using still signalled baton held
    · simpa [State.move, same] using follows.clear holder baton held signalled

omit [DecidableEq T] in
theorem Follows.log (entry : Returned T I) (follows : Follows relay state)
    (finished : entry.finished = true → state.signalled = true)
    (got : entry.got = true → state.signalled = false) :
    Follows relay { state with returned := state.returned ++ [entry] } := by
  refine ⟨follows.owner, follows.holding, follows.opened, follows.admits, follows.clear, ?_, ?_⟩
  · intro call member done
    rcases List.mem_append.mp member with earlier | own
    · exact follows.finished call earlier done
    · obtain rfl := List.mem_singleton.mp own
      exact finished done
  · refine List.pairwise_append.mpr ⟨follows.done, List.pairwise_singleton _ _, ?_⟩
    intro call member last own done
    obtain rfl := List.mem_singleton.mp own
    have signalled := follows.finished call member done
    by_contra again
    have clear := got (by simpa using again)
    rw [signalled] at clear
    contradiction

theorem Follows.turn {later : Relay T I} (target : Phase I) (mutex : Lib.RecursiveMutex T)
    (follows : Follows relay state) (next : Relay.Next thread relay later)
    (owner : mutex.owner = later.thread.map fun thread => (thread, 1))
    (opened : ∀ baton, later.baton = some baton → baton ∈ state.opened)
    (admits : later.Admits state.opened state.signalled thread target)
    (clear : ∀ baton, later = .held thread baton → state.signalled = false) :
    Follows later { state.move thread target with mutex := mutex, holding := later.holder } := by
  refine ⟨owner, rfl, opened, ?_, ?_, follows.finished, follows.done⟩
  · intro other
    by_cases same : other = thread
    · subst same
      simpa [State.move] using admits
    · simpa [State.move, same] using next.admits same (follows.admits other)
  · intro holder baton held signalled
    cases next with
    | give mine =>
        obtain ⟨rfl, rfl⟩ := Relay.held.inj held
        exact absurd ((clear mine rfl).symm.trans signalled) (by simp)
    | take mine => simp at held
    | refuse mine => simp at held
    | release mine => simp at held

theorem Follows.waitMutex {after : State T I} (follows : Follows relay state)
    (at_ : state.phase thread = .waitMutex baton) (moved : state.waitMutex thread baton = some after) :
    ∃ later, Follows later after := by
  have admits := follows.admits thread
  rw [at_] at admits
  obtain ⟨mutex, acquired, rfl⟩ := Option.map_eq_some_iff.mp moved
  have owner := follows.owner
  cases relay with
  | free =>
      obtain rfl := Option.some.inj (acquired.symm.trans (Lib.RecursiveMutex.acquire_free owner))
      refine ⟨.taken thread baton, ?_⟩
      have turned := follows.turn (.waitEvent baton) ⟨some (thread, 1), false⟩
        (.take baton) rfl (by simpa [Relay.baton] using admits.2) rfl (by simp)
      have same : state.holding = (Relay.taken thread baton).holder := follows.holding
      rwa [← same] at turned
  | taken other mine =>
      have elsewhere : other ≠ thread := by simpa [Relay.thread] using admits.1
      exact absurd (acquired.symm.trans (Lib.RecursiveMutex.acquire_owned owner elsewhere)) (by simp)
  | held other mine =>
      have elsewhere : other ≠ thread := by simpa [Relay.thread] using admits.1
      exact absurd (acquired.symm.trans (Lib.RecursiveMutex.acquire_owned owner elsewhere)) (by simp)

theorem Follows.waitEvent (follows : Follows relay state) (at_ : state.phase thread = .waitEvent baton) :
    Follows relay (state.waitEvent thread baton) := by
  have taken := follows.admits thread
  rw [at_] at taken
  have opened : baton ∈ state.opened := follows.opened baton (by rw [taken, Relay.baton])
  have taken : relay = .taken thread baton := taken
  unfold State.waitEvent
  split
  · rename_i signalled
    exact follows.move ⟨taken, signalled.2⟩ (by simp [taken])
  · rename_i clear
    exact follows.move ⟨taken, by simpa [opened] using clear⟩ (by simp [taken])

theorem Follows.released (follows : Follows relay state) (owner : relay.thread = some thread)
    (mine : relay.baton = some baton) : state.release thread baton = some ⟨none, false⟩ := by
  have owned := follows.owner
  rw [owner] at owned
  rw [State.release, if_pos (follows.opened baton mine)]
  exact Lib.RecursiveMutex.release_once owned

theorem Follows.releaseDone (follows : Follows relay state)
    (at_ : state.phase thread = .releaseDone baton) : Follows .free (state.releaseDone thread baton) := by
  have admits := follows.admits thread
  rw [at_] at admits
  obtain ⟨rfl, signalled⟩ := admits
  have turned := follows.turn .outside ⟨none, false⟩
    (.refuse baton) rfl (by simp [Relay.baton]) (by simp [Relay.Admits]) (by simp)
  have same : state.holding = (Relay.free : Relay T I).holder := follows.holding
  rw [← same] at turned
  have logged := turned.log ⟨thread, .get, baton, false⟩
    (by simp [Returned.finished]) (by simp [Returned.got])
  simpa [State.releaseDone, State.return_, State.move, follows.released rfl rfl] using logged

theorem Follows.proceed (follows : Follows relay state) (at_ : state.phase thread = .proceed baton) :
    Follows (.held thread baton) (state.proceed thread baton) := by
  have admits := follows.admits thread
  rw [at_] at admits
  obtain ⟨rfl, clear⟩ := admits
  have turned := follows.turn .outside state.mutex (.give baton) follows.owner
    follows.opened (by simp [Relay.Admits]) (fun _ _ => clear)
  have logged := turned.log ⟨thread, .get, baton, true⟩ (by simp [Returned.finished])
    (fun _ => clear)
  rw [State.proceed, follows.holding, Relay.holder_give]
  exact ⟨logged.owner, logged.holding, logged.opened, logged.admits, logged.clear, logged.finished, logged.done⟩

theorem Follows.refused {call : Call} (follows : Follows relay state) (elsewhere : ∀ baton, relay ≠ .taken thread baton)
    (unset : state.signalled = true → ∀ baton, relay ≠ .held thread baton) :
    Follows relay (state.return_ thread call baton false) := by
  have moved : Follows relay (state.move thread .outside) :=
    follows.move elsewhere fun signalled mine held => absurd held (unset signalled mine)
  exact moved.log _ (by simp [Returned.finished]) (by simp [Returned.got])

theorem Follows.releasePass (follows : Follows relay state) (at_ : state.phase thread = .releasePass baton) :
    ∃ later, Follows later (state.releasePass thread baton) := by
  have admits := follows.admits thread
  rw [at_] at admits
  by_cases owner : relay.thread = some thread
  · obtain rfl : relay = .held thread baton := admits.resolve_right (by simp [owner])
    refine ⟨.free, ?_⟩
    have turned := follows.turn (.clearGot baton) ⟨none, false⟩ (.release baton) rfl
      (by simp [Relay.baton]) (by simp [Relay.Admits, Relay.thread]) (by simp)
    simp only [State.releasePass, follows.released rfl rfl, follows.holding, Relay.holder_release]
    exact turned
  · refine ⟨relay, ?_⟩
    have other : state.mutex.thread ≠ some thread := by rwa [follows.mutexThread]
    have refused : state.release thread baton = none := by
      rw [State.release, Lib.RecursiveMutex.release_other other, ite_self]
    simp only [State.releasePass, refused]
    exact follows.refused (by rintro mine rfl; exact owner rfl) (by rintro _ mine rfl; exact owner rfl)

theorem Follows.clearGot (follows : Follows relay state) (at_ : state.phase thread = .clearGot baton) :
    Follows relay (state.clearGot thread baton) := by
  have other : relay.thread ≠ some thread := by
    have admits := follows.admits thread
    rwa [at_] at admits
  have moved : Follows relay (state.move thread .outside) :=
    follows.move (by rintro mine rfl; exact other rfl) (by rintro _ mine rfl; exact absurd rfl other)
  have logged := moved.log ⟨thread, .pass, baton, true⟩ (by simp [Returned.finished])
    (by simp [Returned.got])
  exact ⟨logged.owner, logged.holding, logged.opened, logged.admits, logged.clear, logged.finished, logged.done⟩

theorem Follows.setEvent (follows : Follows relay state) (at_ : state.phase thread = .setEvent baton) :
    Follows relay (state.setEvent thread baton) := by
  have held : relay = .held thread baton := by
    have admits := follows.admits thread
    rwa [at_] at admits
  subst held
  rw [State.setEvent, if_pos (follows.opened baton rfl)]
  refine ⟨follows.owner, follows.holding, follows.opened, ?_, ?_, fun _ _ _ => rfl, follows.done⟩
  · intro other
    by_cases same : other = thread
    · subst same
      simp [State.move, Relay.Admits]
    · -- no other thread is between the mutex and the event
      have admits := follows.admits other
      simp only [State.move, Function.update_of_ne same]
      revert admits
      cases state.phase other <;> simp [Relay.Admits, Ne.symm same]
  · intro holder mine held _
    obtain ⟨rfl, rfl⟩ := Relay.held.inj held
    simp [State.move]

theorem Follows.releaseFinish {ret : Bool} (follows : Follows relay state)
    (at_ : state.phase thread = .releaseFinish baton ret) :
    Follows .free (state.releaseFinish thread baton ret) := by
  have admits := follows.admits thread
  rw [at_] at admits
  obtain ⟨rfl, rfl, signalled⟩ := admits
  have turned := follows.turn .outside ⟨none, false⟩ (.release baton) rfl
    (by simp [Relay.baton]) (by simp [Relay.Admits]) (by simp)
  have logged := turned.log ⟨thread, .finish, baton, true⟩ (fun _ => signalled)
    (by simp [Returned.got])
  simp only [State.releaseFinish, follows.released rfl rfl, follows.holding, Relay.holder_release]
  exact logged

theorem Follows.advance {after : State T I} (follows : Follows relay state)
    (advanced : state.advance thread = some after) : ∃ later, Follows later after := by
  cases at_ : state.phase thread <;> rw [State.advance, at_] at advanced
  case outside => contradiction
  case ended => contradiction
  case waitMutex baton => exact follows.waitMutex at_ advanced
  all_goals obtain rfl := Option.some.inj advanced
  case waitEvent baton => exact ⟨relay, follows.waitEvent at_⟩
  case releaseDone baton => exact ⟨.free, follows.releaseDone at_⟩
  case proceed baton => exact ⟨_, follows.proceed at_⟩
  case releasePass baton => exact follows.releasePass at_
  case clearGot baton => exact ⟨relay, follows.clearGot at_⟩
  case setEvent baton => exact ⟨relay, follows.setEvent at_⟩
  case releaseFinish baton ret => exact ⟨.free, follows.releaseFinish at_⟩

theorem Follows.call {call : Call} (follows : Follows relay state) (at_ : state.phase thread = .outside)
    (allowed : Allowed state (.call thread call baton : Action T I P)) :
    Follows relay (state.call thread baton call) := by
  have elsewhere : ∀ mine, relay ≠ .taken thread mine := by
    have admits := follows.admits thread
    rwa [at_] at admits
  -- a holder that is outside has not set the event
  have unset : state.signalled = true → ∀ mine, relay ≠ .held thread mine := by
    intro signalled mine held
    have setting := follows.clear thread mine held signalled
    rw [at_] at setting
    contradiction
  have back : ∀ call, Follows relay (state.return_ thread call baton false) :=
    fun _ => follows.refused elsewhere unset
  have still : ∀ {target : Phase I}, state.signalled = true → ∀ mine, relay = .held thread mine →
      target = .releaseFinish mine true := fun signalled mine held => absurd held (unset signalled mine)
  cases call with
  | get =>
      have other : relay.thread ≠ some thread := by
        rw [← follows.mutexThread]
        exact allowed
      rw [State.call]
      split
      · rename_i opened
        exact follows.move ⟨other, opened⟩ still
      · exact back .get
  | pass =>
      rw [State.call]
      split
      · rename_i got
        refine follows.move ?_ still
        by_cases owner : relay.thread = some thread
        · have holds := allowed got (follows.mutexThread.trans owner)
          rw [follows.holding] at holds
          exact .inl (Relay.held_of_holder holds)
        · exact .inr owner
      · exact back .pass
  | finish =>
      rw [State.call]
      split
      · rename_i got
        have holds : state.holding baton = some thread := allowed got
        rw [follows.holding] at holds
        exact follows.move (Relay.held_of_holder holds) still
      · exact back .finish

omit [DecidableEq T] in
theorem Follows.open_ (follows : Follows relay state) (baton : I)
    (fresh : state.opened = [] → ∀ call ∈ state.returned, call.finished = false) :
    Follows relay (state.open_ baton) := by
  cases opened : state.opened with
  | nil =>
      have free : relay = .free := by
        cases relay with
        | free => rfl
        | taken thread mine => exact absurd (follows.opened mine rfl) (by simp [opened])
        | held thread mine => exact absurd (follows.opened mine rfl) (by simp [opened])
      subst free
      refine ⟨by simp [State.open_, opened, Lib.RecursiveMutex.free, Relay.thread], follows.holding,
        by simp [Relay.baton], ?_, by simp, ?_, follows.done⟩
      · intro thread
        have admits := follows.admits thread
        simp only [State.open_, opened] at admits ⊢
        revert admits
        cases state.phase thread <;> simp [Relay.Admits, Relay.thread]
      · intro call member finished
        rw [fresh opened call member] at finished
        contradiction
  | cons first rest =>
      have same : state.open_ baton = { state with opened := baton :: state.opened } := by
        simp [State.open_, opened]
      rw [same]
      refine ⟨follows.owner, follows.holding, ?_, ?_, follows.clear, follows.finished, follows.done⟩
      · intro mine has
        exact List.mem_cons_of_mem _ (follows.opened mine has)
      · intro thread
        have admits := follows.admits thread
        revert admits
        cases state.phase thread <;> simp +contextual [Relay.Admits]

def Relay.without (relay : Relay T I) (ended : T → Bool) : Relay T I :=
  match relay.thread with
  | some thread => if ended thread then .free else relay
  | none => relay

omit [DecidableEq I] [DecidableEq T] in
theorem Relay.without_or (relay : Relay T I) (ended : T → Bool) :
    (relay.without ended = .free ∧ ∃ thread, relay.thread = some thread ∧ ended thread = true) ∨
      (relay.without ended = relay ∧ ∀ thread, relay.thread = some thread → ended thread = false) := by
  cases relay with
  | free => simp [without, Relay.thread]
  | taken thread baton => cases ends : ended thread <;> simp [without, Relay.thread, ends]
  | held thread baton => cases ends : ended thread <;> simp [without, Relay.thread, ends]

omit [DecidableEq I] [DecidableEq T] in
theorem Relay.without_eq {ended : T → Bool} {other : Relay T I} (same : relay.without ended = other)
    (owned : other ≠ .free) : relay = other := by
  rcases relay.without_or ended with ⟨free, -⟩ | ⟨kept, -⟩
  · exact absurd (same.symm.trans free) owned
  · exact kept.symm.trans same

omit [DecidableEq I] [DecidableEq T] in
theorem Relay.without_thread {ended : T → Bool} (owner : (relay.without ended).thread = some thread) :
    relay.thread = some thread ∧ ended thread = false := by
  rcases relay.without_or ended with ⟨free, -⟩ | ⟨kept, alive⟩
  · rw [free] at owner
    contradiction
  · rw [kept] at owner
    exact ⟨owner, alive thread owner⟩

omit [DecidableEq T] in
theorem Relay.without_holder (relay : Relay T I) (ended : T → Bool) (baton : I) :
    (relay.holder baton).filter (fun thread => !ended thread) = (relay.without ended).holder baton := by
  cases relay with
  | free => simp [without, Relay.thread, holder]
  | taken thread mine => cases ends : ended thread <;> simp [without, Relay.thread, holder, ends]
  | held thread mine =>
      by_cases same : baton = mine <;> cases ends : ended thread <;>
        simp [without, Relay.thread, holder, same, ends]

omit [DecidableEq I] [DecidableEq T] in
theorem Relay.Admits.without {opened : List I} {signalled : Bool} {phase : Phase I} {ended closed : _ → Bool}
    (admits : relay.Admits opened signalled thread phase) (alive : ended thread = false)
    (kept : ∀ baton, phase = .waitMutex baton → closed baton = false) :
    (relay.without ended).Admits (opened.filter fun baton => !closed baton) signalled thread phase := by
  have mine : relay.thread = some thread → relay.without ended = relay := by
    intro owner
    rcases relay.without_or ended with ⟨-, other, owned, ends⟩ | ⟨same, -⟩
    · obtain rfl := Option.some.inj (owner.symm.trans owned)
      rw [alive] at ends
      contradiction
    · exact same
  have elsewhere : relay.thread ≠ some thread → (relay.without ended).thread ≠ some thread :=
    fun other owner => other (Relay.without_thread owner).1
  cases phase with
  | outside =>
      intro baton taken
      exact admits baton (Relay.without_eq taken (by simp))
  | waitMutex baton => exact ⟨elsewhere admits.1, List.mem_filter.mpr ⟨admits.2, by simp [kept baton rfl]⟩⟩
  | waitEvent baton =>
      have taken : relay = .taken thread baton := admits
      exact (mine (by rw [taken, Relay.thread])).trans taken
  | releaseDone baton => exact ⟨(mine (by rw [admits.1, Relay.thread])).trans admits.1, admits.2⟩
  | proceed baton => exact ⟨(mine (by rw [admits.1, Relay.thread])).trans admits.1, admits.2⟩
  | releasePass baton =>
      rcases admits with held | other
      · exact .inl ((mine (by rw [held, Relay.thread])).trans held)
      · exact .inr (elsewhere other)
  | clearGot baton => exact elsewhere admits
  | ended => exact elsewhere admits
  | setEvent baton =>
      have held : relay = .held thread baton := admits
      exact (mine (by rw [held, Relay.thread])).trans held
  | releaseFinish baton ret => exact ⟨(mine (by rw [admits.1, Relay.thread])).trans admits.1, admits.2⟩

end ThreadIpc.Baton
