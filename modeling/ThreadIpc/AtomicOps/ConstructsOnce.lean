import ThreadIpc.AtomicOps.Model

/-!
# When `LazySingleton` constructs once
-/

namespace ThreadIpc.AtomicOps

variable {T : Type}

inductive Stage (T : Type)
  | untouched
  | claimed (creator : T)
  | constructing (creator : T)
  | constructed (creator : T)
  | published

namespace Stage

def me : Stage T → Word
  | .untouched => .null
  | .claimed _ | .constructing _ | .constructed _ => .busy
  | .published => .object 0

def allocated : Stage T → Nat
  | .untouched | .claimed _ => 0
  | .constructing _ | .constructed _ | .published => 1

def objects : Stage T → List Nat
  | .untouched | .claimed _ | .constructing _ => []
  | .constructed _ | .published => [0]

def Placed (phase : T → Phase) : Stage T → Prop
  | .untouched | .published => True
  | .claimed creator => phase creator = .testWord .null
  | .constructing creator => phase creator = .construct 0
  | .constructed creator => phase creator = .publish 0

def Admits (stage : Stage T) (thread : T) : Phase → Prop
  | .outside | .testNull | .claim => True
  | .testBusy => stage.me ≠ .null
  | .testWord result => stage.me ≠ .null ∧ (result = .null → stage = .claimed thread)
  | .construct number => number = 0 ∧ stage = .constructing thread
  | .publish number => number = 0 ∧ stage = .constructed thread
  | .assertPublished number => number = 0 ∧ stage = .published
  | .readInstance => stage = .published

inductive Next (thread : T) : Stage T → Stage T → Prop
  | claim : Next thread .untouched (.claimed thread)
  | construct : Next thread (.claimed thread) (.constructing thread)
  | complete : Next thread (.constructing thread) (.constructed thread)
  | publish : Next thread (.constructed thread) .published

end Stage

structure Follows (stage : Stage T) (state : State T) : Prop where
  me : state.me_ = stage.me
  allocated : state.allocated = stage.allocated
  constructed : state.constructed = stage.objects
  placed : stage.Placed state.phase
  admits : ∀ thread, stage.Admits thread (state.phase thread)
  returned : ∀ call ∈ state.returned,
    stage = .published ∧ call.instance_ = .object 0 ∧ call.constructed = true
  assertFailed : state.assertFailed = false

variable {state : State T} {stage : Stage T} {thread : T}

theorem Follows.constructsOnce (follows : Follows stage state) : ConstructsOnce state := by
  refine ⟨?_, ?_, follows.assertFailed⟩
  · rw [follows.allocated]
    cases stage <;> simp [Stage.allocated]
  · intro call member
    obtain ⟨published, same, complete⟩ := follows.returned call member
    refine ⟨?_, same, complete⟩
    rw [follows.allocated, published, Stage.allocated]

theorem follows_init : Follows .untouched (.init : State T) where
  me := rfl
  allocated := rfl
  constructed := rfl
  placed := trivial
  admits := fun _ => trivial
  returned := by simp [State.init]
  assertFailed := rfl

variable [DecidableEq T]

theorem Stage.Placed.update {phase : T → Phase} {target : Phase} (placed : stage.Placed phase)
    (other : ∀ number, phase thread ≠ .testWord .null ∧ phase thread ≠ .construct number ∧
      phase thread ≠ .publish number) :
    stage.Placed (Function.update phase thread target) := by
  cases stage with
  | untouched => trivial
  | published => trivial
  | claimed creator =>
      have elsewhere : creator ≠ thread := by
        rintro rfl
        exact (other 0).1 placed
      simpa [Stage.Placed, elsewhere] using placed
  | constructing creator =>
      have elsewhere : creator ≠ thread := by
        rintro rfl
        exact (other 0).2.1 placed
      simpa [Stage.Placed, elsewhere] using placed
  | constructed creator =>
      have elsewhere : creator ≠ thread := by
        rintro rfl
        exact (other 0).2.2 placed
      simpa [Stage.Placed, elsewhere] using placed

theorem Follows.move {target : Phase} (follows : Follows stage state)
    (other : ∀ number, state.phase thread ≠ .testWord .null ∧ state.phase thread ≠ .construct number ∧
      state.phase thread ≠ .publish number)
    (admits : stage.Admits thread target) : Follows stage (state.move thread target) := by
  refine ⟨follows.me, follows.allocated, follows.constructed, follows.placed.update other, ?_,
    follows.returned, follows.assertFailed⟩
  intro reader
  by_cases same : reader = thread
  · subst same
    simpa [State.move] using admits
  · simpa [State.move, same] using follows.admits reader

omit [DecidableEq T] in
theorem Stage.Next.admits {later : Stage T} {reader : T} {phase : Phase} (next : Next thread stage later)
    (other : reader ≠ thread) (admits : stage.Admits reader phase) : later.Admits reader phase := by
  cases next <;> cases phase <;> simp_all [Stage.Admits, Stage.me, Ne.symm other]

theorem Follows.enter {later : Stage T} {target : Phase} {after : State T} (follows : Follows stage state)
    (next : Stage.Next thread stage later)
    (moved : after.phase = Function.update state.phase thread target)
    (words : after.me_ = later.me ∧ after.allocated = later.allocated ∧ after.constructed = later.objects)
    (kept : after.returned = state.returned ∧ after.assertFailed = state.assertFailed)
    (placed : later.Placed (Function.update state.phase thread target))
    (admits : later.Admits thread target) : Follows later after := by
  refine ⟨words.1, words.2.1, words.2.2, moved ▸ placed, ?_, ?_, kept.2.trans follows.assertFailed⟩
  · intro reader
    rw [moved]
    by_cases same : reader = thread
    · subst same
      simpa using admits
    · simpa [same] using next.admits same (follows.admits reader)
  · intro call member
    rw [kept.1] at member
    have published := (follows.returned call member).1
    subst published
    cases next

theorem Follows.claim (follows : Follows stage state) (at_ : state.phase thread = .claim) :
    ∃ later, Follows later (state.claim thread) := by
  by_cases found : state.me_ = .null
  · have untouched : stage = .untouched := by
      have me := follows.me
      cases stage <;> simp_all [Stage.me]
    subst untouched
    refine ⟨.claimed thread, follows.enter .claim rfl ⟨?_, follows.allocated, follows.constructed⟩
      ⟨rfl, rfl⟩ ?_ ?_⟩
    · exact compareAndSwap_found found
    · simpa [Stage.Placed] using found
    · simp [Stage.Admits, Stage.me]
  · have kept : state.claim thread = state.move thread (.testWord state.me_) := by
      simp [State.claim, State.move, compareAndSwap_missed found]
    rw [kept]
    exact ⟨stage, follows.move (by simp [at_]) ⟨follows.me ▸ found, fun null => absurd null found⟩⟩

theorem Follows.testWord {result : Word} (follows : Follows stage state)
    (at_ : state.phase thread = .testWord result) (allowed : result = .null ∨ state.me_ ≠ .busy) :
    ∃ later, Follows later (state.testWord thread) := by
  have admits := follows.admits thread
  rw [at_] at admits
  by_cases own : result = .null
  · have claimed : stage = .claimed thread := admits.2 own
    subst claimed
    have busy : state.me_ = .busy := follows.me
    have first : state.allocated = 0 := follows.allocated
    rw [State.testWord, if_pos busy, first]
    exact ⟨.constructing thread, follows.enter .construct rfl ⟨busy, rfl, follows.constructed⟩ ⟨rfl, rfl⟩
      (by simp [Stage.Placed]) ⟨rfl, rfl⟩⟩
  · rw [State.testWord, if_neg (allowed.resolve_left own)]
    exact ⟨stage, follows.move (by simp [at_, own]) trivial⟩

theorem Follows.construct {number : Nat} (follows : Follows stage state)
    (at_ : state.phase thread = .construct number) :
    ∃ later, Follows later (state.construct thread number) := by
  have admits := follows.admits thread
  rw [at_] at admits
  obtain ⟨rfl, rfl⟩ := admits
  have none : state.constructed = [] := follows.constructed
  refine ⟨.constructed thread, follows.enter .complete rfl ⟨follows.me, follows.allocated, ?_⟩ ⟨rfl, rfl⟩
    (by simp [Stage.Placed]) ⟨rfl, rfl⟩⟩
  rw [State.construct, none, Stage.objects]

theorem Follows.publish {number : Nat} (follows : Follows stage state)
    (at_ : state.phase thread = .publish number) :
    ∃ later, Follows later (state.publish thread number) := by
  have admits := follows.admits thread
  rw [at_] at admits
  obtain ⟨rfl, rfl⟩ := admits
  exact ⟨.published, follows.enter .publish rfl
    ⟨compareAndSwap_found follows.me, follows.allocated, follows.constructed⟩ ⟨rfl, rfl⟩ trivial ⟨rfl, rfl⟩⟩

theorem Follows.assertPublished {number : Nat} (follows : Follows stage state)
    (at_ : state.phase thread = .assertPublished number) :
    Follows stage (state.assertPublished thread number) := by
  have admits := follows.admits thread
  rw [at_] at admits
  obtain ⟨rfl, rfl⟩ := admits
  have moved : Follows .published (state.move thread .testNull) := follows.move (by simp [at_]) trivial
  have holds : state.me_ = .object 0 := follows.me
  refine ⟨moved.me, moved.allocated, moved.constructed, moved.placed, moved.admits, moved.returned, ?_⟩
  simp [State.assertPublished, follows.assertFailed, holds]

theorem Follows.readInstance (follows : Follows stage state) (at_ : state.phase thread = .readInstance) :
    Follows stage (state.readInstance thread) := by
  have published := follows.admits thread
  rw [at_] at published
  have moved : Follows stage (state.move thread .outside) := follows.move (by simp [at_]) trivial
  refine ⟨moved.me, moved.allocated, moved.constructed, moved.placed, moved.admits, ?_, moved.assertFailed⟩
  intro call member
  rcases List.mem_append.mp member with earlier | own
  · exact follows.returned call earlier
  · obtain rfl := List.mem_singleton.mp own
    have me := follows.me
    have objects := follows.constructed
    rw [published] at me objects
    exact ⟨published, me, by simp [State.isConstructed, me, objects, Stage.me, Stage.objects]⟩

theorem Follows.advance (follows : Follows stage state) (allowed : Allowed state thread) :
    ∃ later, Follows later (state.advance thread) := by
  have admits := follows.admits thread
  unfold State.advance
  cases at_ : state.phase thread with
  | outside => exact ⟨stage, follows.move (by simp [at_]) trivial⟩
  | testNull =>
      refine ⟨stage, follows.move (by simp [at_]) ?_⟩
      split
      · trivial
      · rename_i other
        rwa [follows.me] at other
  | testBusy =>
      refine ⟨stage, follows.move (by simp [at_]) ?_⟩
      rw [at_] at admits
      have me := follows.me
      split
      · trivial
      · cases stage <;> simp_all [Stage.me, Stage.Admits]
  | claim => exact follows.claim at_
  | testWord result =>
      rw [Allowed, at_] at allowed
      exact follows.testWord at_ allowed
  | construct number => exact follows.construct at_
  | publish number => exact follows.publish at_
  | assertPublished number => exact ⟨stage, follows.assertPublished at_⟩
  | readInstance => exact ⟨stage, follows.readInstance at_⟩

theorem reached_follows (reach : Lib.Reachable step Allowed .init state) : ∃ stage, Follows stage state := by
  induction reach with
  | start => exact ⟨.untouched, follows_init⟩
  | next _ allowed moved ih =>
      obtain ⟨stage, follows⟩ := ih
      cases moved
      exact follows.advance allowed

theorem Follows.testWord_violates {result : Word} (follows : Follows stage state)
    (at_ : state.phase thread = .testWord result) (other : result ≠ .null) (busy : state.me_ = .busy) :
    ∃ later, Lib.Reachable step Lib.anyAction (state.testWord thread) later ∧ ¬ ConstructsOnce later := by
  have tested : state.testWord thread = { state.move thread (.construct state.allocated) with
      allocated := state.allocated + 1 } := by
    rw [State.testWord, if_pos busy]
  cases stage with
  | untouched => exact absurd (busy.symm.trans follows.me) (by simp [Stage.me])
  | published => exact absurd (busy.symm.trans follows.me) (by simp [Stage.me])
  | claimed creator =>
      -- the creator comes to its own `if` with -1 still there
      have elsewhere : creator ≠ thread := by
        rintro rfl
        have placed : state.phase creator = .testWord .null := follows.placed
        exact other (Phase.testWord.inj (at_.symm.trans placed))
      refine ⟨(state.testWord thread).advance creator, .next .start trivial rfl, ?_⟩
      rintro ⟨allocated, -, -⟩
      have placed : state.phase creator = .testWord .null := follows.placed
      simp [State.advance, State.move, elsewhere, placed, State.testWord, busy] at allocated
  | constructing creator =>
      refine ⟨state.testWord thread, .start, ?_⟩
      rintro ⟨allocated, -, -⟩
      simp [tested, follows.allocated, Stage.allocated] at allocated
  | constructed creator =>
      refine ⟨state.testWord thread, .start, ?_⟩
      rintro ⟨allocated, -, -⟩
      simp [tested, follows.allocated, Stage.allocated] at allocated

theorem Follows.disallowed (follows : Follows stage state) (disallowed : ¬ Allowed state thread) :
    ∃ later, Lib.Reachable step Lib.anyAction (state.advance thread) later ∧ ¬ ConstructsOnce later := by
  unfold Allowed at disallowed
  unfold State.advance
  cases at_ : state.phase thread with
  | testWord result =>
      simp only [at_, not_or, not_not] at disallowed
      exact follows.testWord_violates at_ disallowed.1 disallowed.2
  | _ => simp [at_] at disallowed

/-- Every state of an allowed run is right, and after any other step the run can go wrong. -/
theorem lazySingleton_constructsOnce (state : State T) (reach : Lib.Reachable step Allowed .init state) :
    ConstructsOnce state ∧ ∀ thread, ¬ Allowed state thread →
      ∃ later, Lib.Reachable step Lib.anyAction (state.advance thread) later ∧ ¬ ConstructsOnce later := by
  obtain ⟨stage, follows⟩ := reached_follows reach
  exact ⟨follows.constructsOnce, fun _ disallowed => follows.disallowed disallowed⟩

/-- Two threads race for the first call; the one that loses comes to its `if` when `me_` is published. -/
def raceRun : List Bool :=
  [false, true, false, true, false, true, false, false, false, false, false, false, false,
   true, true, true, true]

def raced : State Bool :=
  Lib.final step Allowed .init raceRun (by decide +kernel)

theorem raced_constructsOnce :
    raced.returned = [⟨false, .object 0, true⟩, ⟨true, .object 0, true⟩] ∧ ConstructsOnce raced :=
  ⟨by decide +kernel,
    (lazySingleton_constructsOnce raced (Lib.reachable_final raceRun (by decide +kernel))).1⟩

def doubleRun : List Bool :=
  [false, false, false, true, true, true, true, true, false, false, false, false, false, false, false,
   true, true, true]

def doubled : State Bool :=
  Lib.final step Lib.anyAction .init doubleRun (by decide +kernel)

theorem doubled_counts :
    doubled.allocated = 2 ∧ doubled.returned = [⟨false, .object 1, true⟩] ∧ doubled.assertFailed = true := by
  decide +kernel

theorem lazySingleton_not_always_once :
    ¬ ∀ state : State Bool, Lib.Reachable step Lib.anyAction .init state → ConstructsOnce state := by
  intro always
  have once := always doubled (Lib.reachable_final doubleRun (by decide +kernel))
  have allocated := once.allocated
  rw [doubled_counts.1] at allocated
  contradiction

end ThreadIpc.AtomicOps
