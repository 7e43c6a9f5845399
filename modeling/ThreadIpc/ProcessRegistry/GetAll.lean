import ThreadIpc.ProcessRegistry.Cache

namespace ThreadIpc.ProcessRegistry

namespace State
variable {P : Type}

def GetAllInv (state : State P) (p : P) (start : Nat) : Stage → Prop
  | .repairing _ | .checked => True
  | .leaving _ => ∃ cached, state.cached p = some cached ∧
      Shown Instant.contents state.trace start state.now cached.registry.contents
  | .probing _ | .writing _ => False

structure CallsInv (state : State P) : Prop where
  comparing : ∀ p start, state.process p = .comparing start → start ≤ state.now
  acquiring : ∀ p start, state.process p = .acquiring (.getAll start) → start ≤ state.now
  held : ∀ p start stage, state.mutex = .held p (.getAll start) stage →
    start ≤ state.now ∧ state.GetAllInv p start stage
  returned : ∀ call ∈ state.returned, Shown Instant.contents state.trace call.start call.finish call.list

def Recorded (state : State P) : Prop :=
  state.trace[state.now]?.map Instant.contents = some state.registry.contents

theorem callsInv_init (live : IpcProcessId → Bool) : (init live : State P).CallsInv :=
  ⟨by simp [init], by simp [init], by simp [init], by simp [init]⟩

theorem recorded_recordInstant (state : State P) : state.recordInstant.Recorded := by
  simp [Recorded, recordInstant, now]

theorem CallsInv.recordInstant {state : State P} (inv : state.CallsInv) :
    state.recordInstant.CallsInv := by
  have later : state.now ≤ state.recordInstant.now := by
    simp [now, State.recordInstant]
  refine ⟨fun p start comparing => (inv.comparing p start comparing).trans later,
    fun p start acquiring => (inv.acquiring p start acquiring).trans later, ?_,
    fun call mem => (inv.returned call mem).later le_rfl _⟩
  intro p start stage held
  obtain ⟨started, getAllInv⟩ := inv.held p start stage held
  refine ⟨started.trans later, ?_⟩
  cases stage with
  | leaving result =>
      obtain ⟨cached, opened, shown⟩ := getAllInv
      exact ⟨cached, opened, shown.later later _⟩
  | repairing writes => trivial
  | checked => trivial
  | probing i => exact getAllInv
  | writing writes => exact getAllInv

theorem CallsInv.stage {state : State P} {p : P} {task : Task} {stage : Stage}
    (inv : state.CallsInv)
    (next : ∀ start, task = .getAll start → start ≤ state.now ∧ state.GetAllInv p start stage) :
    (state.stage p task stage).CallsInv where
  comparing := inv.comparing
  acquiring := inv.acquiring
  held := by
    intro q start stage' held
    cases held
    obtain ⟨started, getAllInv⟩ := next start rfl
    exact ⟨started, by cases stage <;> exact getAllInv⟩
  returned := inv.returned

theorem CallsInv.write {state : State P} {write : Write} (inv : state.CallsInv) :
    (state.write write).CallsInv :=
  ⟨inv.comparing, inv.acquiring, fun p start stage held =>
    ⟨(inv.held p start stage held).1, by
      have getAllInv := (inv.held p start stage held).2
      cases stage <;> exact getAllInv⟩, inv.returned⟩

theorem CallsInv.free {state : State P} {abandoned : Bool} {history : List Record}
    (inv : state.CallsInv) :
    CallsInv { state with mutex := .free abandoned, history := history } :=
  ⟨inv.comparing, inv.acquiring, nofun, inv.returned⟩

variable [DecidableEq P]

theorem CallsInv.goto {state : State P} {p : P} {next : ProcessState} (inv : state.CallsInv)
    (comparing : ∀ start, next = .comparing start → start ≤ state.now)
    (acquiring : ∀ start, next = .acquiring (.getAll start) → start ≤ state.now) :
    (state.goto p next).CallsInv where
  comparing := by
    intro q start goes
    simp only [State.goto, Function.update_apply] at goes
    split at goes
    · exact comparing start goes
    · exact inv.comparing q start goes
  acquiring := by
    intro q start goes
    simp only [State.goto, Function.update_apply] at goes
    split at goes
    · exact acquiring start goes
    · exact inv.acquiring q start goes
  held := fun q start stage held =>
    ⟨(inv.held q start stage held).1, by
      have getAllInv := (inv.held q start stage held).2
      cases stage <;> exact getAllInv⟩
  returned := inv.returned

theorem CallsInv.returnList {state : State P} {p : P} {start : Nat} {list : List IpcProcessId}
    (inv : state.CallsInv) (shown : Shown Instant.contents state.trace start state.now list) :
    (state.returnList p start list).CallsInv := by
  refine CallsInv.goto ?_ nofun nofun
  refine ⟨inv.comparing, inv.acquiring, fun q start stage held => ?_, ?_⟩
  · refine ⟨(inv.held q start stage held).1, ?_⟩
    have getAllInv := (inv.held q start stage held).2
    cases stage <;> exact getAllInv
  · intro call mem
    rcases List.mem_append.mp mem with earlier | new
    · exact inv.returned call earlier
    · cases List.mem_singleton.mp new
      exact shown

theorem CallsInv.abandon {state : State P} {p : P} {task : Task} {ending : Ending}
    (inv : state.CallsInv) : (state.abandon p task ending).CallsInv :=
  inv.free.goto nofun nofun

theorem CallsInv.die {state : State P} {p : P} (inv : state.CallsInv) :
    (state.die p).CallsInv := by
  unfold State.die
  split
  · split
    · exact inv.abandon
    · exact inv.goto nofun nofun
  · exact inv.goto nofun nofun

theorem CallsInv.lock {state : State P} {p : P} {task : Task} {abandoned : Bool}
    (inv : state.CallsInv) (acquiring : state.process p = .acquiring task) :
    (state.lock p task abandoned).CallsInv := by
  refine CallsInv.goto ⟨inv.comparing, inv.acquiring, ?_, inv.returned⟩ nofun nofun
  intro q start stage held
  cases held
  refine ⟨inv.acquiring p start acquiring, ?_⟩
  cases abandoned <;> trivial

theorem CallsInv.startBody {state : State P} {p : P} {task : Task} (inv : state.CallsInv)
    (recorded : state.Recorded) (held : state.mutex = .held p task .checked) :
    (state.startBody p task).CallsInv := by
  have read : ∀ task, (∀ start, task = .getAll start → start ≤ state.now) →
      ((state.readRegistry p).stage p task (.leaving true)).CallsInv := by
    intro task started
    refine ⟨inv.comparing, inv.acquiring, ?_, inv.returned⟩
    intro q start stage held
    cases held
    refine ⟨started start rfl, ⟨state.registry, state.increments⟩, ?_, ?_⟩
    · exact Function.update_self _ _ _
    · exact ⟨state.now, started start rfl, le_rfl, recorded⟩
  cases task with
  | openRegistry => exact read _ fun _ same => by cases same
  | getAll start =>
      apply read
      intro start' same
      cases same
      exact (inv.held p start .checked held).1
  | add id =>
      cases slot : state.registry.emptySlot? with
      | some i =>
          simp only [State.startBody, slot]
          exact inv.stage fun _ same => by cases same
      | none =>
          simp only [State.startBody, slot]
          exact inv.stage fun _ same => by cases same
  | remove id | assertRemove id =>
      cases found : state.registry.ourIndex? id with
      | some ourIndex =>
          simp only [State.startBody, found]
          exact inv.stage fun _ same => by cases same
      | none =>
          simp only [State.startBody, found]
          exact inv.stage fun _ same => by cases same

theorem CallsInv.probe {state : State P} {p : P} {asserts : Bool} {id : ValidId} {i : Nat}
    (inv : state.CallsInv) : (state.probe asserts p id i).CallsInv := by
  unfold State.probe
  split
  · split <;> exact inv.stage nofun
  · split
    · exact inv.abandon
    · exact inv.stage nofun

theorem CallsInv.leave {state : State P} {p : P} {task : Task} {result : Bool}
    (inv : state.CallsInv) (held : state.mutex = .held p task (.leaving result)) :
    (state.leave p task result).CallsInv := by
  cases task with
  | openRegistry => exact inv.free.goto nofun nofun
  | add id => exact inv.free.goto nofun nofun
  | remove id => exact inv.free.goto nofun nofun
  | assertRemove id =>
      apply inv.free.goto
      · cases result <;> nofun
      · cases result <;> nofun
  | getAll start =>
      obtain ⟨_, cached, opened, shown⟩ := inv.held p start _ held
      apply inv.free.returnList
      simp only [opened, Option.map_some, Option.getD_some]
      exact shown

theorem CallsInv.advance {state after : State P} {p : P} {task : Task} {stage : Stage}
    {asserts : Bool} (inv : state.CallsInv) (recorded : state.Recorded)
    (held : state.mutex = .held p task stage)
    (advanced : state.advance asserts p task stage = some after) : after.CallsInv := by
  cases advance_advanced advanced with
  | repaired =>
      apply inv.stage
      rintro start rfl
      exact ⟨(inv.held p start _ held).1, trivial⟩
  | repair =>
      apply inv.write.stage
      rintro start rfl
      exact ⟨(inv.held p start _ held).1, trivial⟩
  | body => exact inv.startBody recorded held
  | probe => exact inv.probe
  | written =>
      apply inv.stage
      rintro start rfl
      exact (inv.held p start _ held).2.elim
  | write =>
      apply inv.write.stage
      rintro start rfl
      exact (inv.held p start _ held).2.elim
  | leave => exact inv.leave held

theorem CallsInv.compare {state : State P} {p : P} {start : Nat} {cached : CachedRegistry}
    (inv : state.CallsInv) (recorded : state.Recorded) (cacheInv : state.CacheInv)
    (comparing : state.process p = .comparing start) (opened : state.cached p = some cached)
    (few : state.increments < cached.incrementsSeen + 2 ^ 32) :
    (state.compare p start cached).CallsInv := by
  have started := inv.comparing p start comparing
  unfold State.compare
  split
  · rename_i same
    obtain ⟨_, current⟩ := (cacheInv.cached p cached opened).same_revision cacheInv few same
    apply CallsInv.returnList
    · refine ⟨inv.comparing, inv.acquiring, ?_, inv.returned⟩
      intro q start' stage held
      obtain ⟨started', getAllInv⟩ := inv.held q start' stage held
      refine ⟨started', ?_⟩
      cases stage with
      | leaving result =>
          obtain ⟨cached', opened', shown⟩ := getAllInv
          by_cases same_process : q = p
          · subst same_process
            cases opened.symm.trans opened'
            exact ⟨_, Function.update_self _ _ _, shown⟩
          · exact ⟨cached', (Function.update_of_ne same_process _ _).trans opened', shown⟩
      | repairing writes => trivial
      | checked => trivial
      | probing i => exact getAllInv
      | writing writes => exact getAllInv
    · refine ⟨state.now, started, le_rfl, ?_⟩
      have same_contents : cached.registry.contents = state.registry.contents := by
        simp only [Registry.contents, current]
      exact same_contents ▸ recorded
  · refine inv.goto nofun ?_
    intro start' same
    cases same
    exact started

structure CoherenceInv (state : State P) : Prop where
  calls : state.CallsInv
  cache : state.CacheInv
  recorded : state.Recorded

theorem act_cacheInv {state after : State P} {action : Action P} {asserts : Bool}
    (inv : state.CacheInv) (few : state.fewIncrements action = true)
    (acted : state.act asserts action = some after) : after.CacheInv := by
  cases act_moved acted with
  | @compare p start cached comparing opened =>
      exact inv.compare opened (by simpa [fewIncrements, opened] using few)
  | acquire acquiring free => exact inv.lock
  | advance held advanced => exact inv.advance held advanced
  | die => exact inv.die
  | setLive =>
      exact ⟨inv.revision, fun q cached opened =>
        let cachedInv := inv.cached q cached opened
        ⟨cachedInv.revision, cachedInv.seen, cachedInv.current⟩, inv.pending⟩
  | _ => exact inv.goto

theorem act_callsInv {state after : State P} {action : Action P} {asserts : Bool}
    (inv : state.CoherenceInv) (few : state.fewIncrements action = true)
    (acted : state.act asserts action = some after) : after.CallsInv := by
  have calls := inv.calls
  cases act_moved acted with
  | openRegistry closed => exact calls.goto nofun nofun
  | add idle =>
      refine calls.goto nofun ?_
      cases asserts <;> nofun
  | remove idle => exact calls.goto nofun nofun
  | getAll idle =>
      refine calls.goto ?_ nofun
      intro start same
      cases same
      exact le_rfl
  | @compare p start cached comparing opened =>
      exact calls.compare inv.recorded inv.cache comparing opened
        (by simpa [fewIncrements, opened] using few)
  | acquire acquiring free => exact calls.lock acquiring
  | advance held advanced => exact calls.advance inv.recorded held advanced
  | die => exact calls.die
  | setLive =>
      refine ⟨calls.comparing, calls.acquiring, fun q start stage held => ?_, calls.returned⟩
      refine ⟨(calls.held q start stage held).1, ?_⟩
      have getAllInv := (calls.held q start stage held).2
      cases stage <;> exact getAllInv

theorem coherenceInv_step {state after : State P} {action : Action P} {asserts : Bool}
    (inv : state.CoherenceInv) (few : state.fewIncrements action = true)
    (moved : state.step asserts action = some after) : after.CoherenceInv := by
  obtain ⟨middle, acted, rfl⟩ := Option.map_eq_some_iff.mp moved
  have cache := act_cacheInv inv.cache few acted
  refine ⟨(act_callsInv inv few acted).recordInstant, ?_, recorded_recordInstant _⟩
  exact ⟨cache.revision, fun q cached opened =>
    let cachedInv := cache.cached q cached opened
    ⟨cachedInv.revision, cachedInv.seen, cachedInv.current⟩, cache.pending⟩

abbrev ReachedWithFewIncrements (asserts : Bool) (live : IpcProcessId → Bool) (state : State P) :
    Prop :=
  Lib.Reachable (step asserts) (fun state action => state.fewIncrements action = true) (init live)
    state

end State

theorem getAll_returns_current_contents {P : Type} [DecidableEq P] {asserts : Bool}
    {live : IpcProcessId → Bool} {state : State P}
    (reach : State.ReachedWithFewIncrements asserts live state) :
    (∀ call ∈ state.returned, ∃ k, call.start ≤ k ∧ k ≤ call.finish ∧
      state.trace[k]?.map Instant.contents = some call.list) ∧
    ∀ p cached, state.cached p = some cached →
      state.increments < cached.incrementsSeen + 2 ^ 32 →
      cached.registry.revision = state.registry.revision →
      cached.registry.processes = state.registry.processes := by
  have inv : state.CoherenceInv := reach.invariant
    ⟨State.callsInv_init live, State.cacheInv_init live, rfl⟩
    fun _ _ _ inv few moved => State.coherenceInv_step inv few moved
  refine ⟨inv.calls.returned, ?_⟩
  intro p cached opened few same
  exact ((inv.cache.cached p cached opened).same_revision inv.cache few same).2

def staleCacheRun : List (Action Bool) :=
  [.openRegistry true, .acquire true, .advance, .advance,
    .openRegistry false, .acquire false, .advance, .advance,
    .add true ⟨5, by decide⟩, .acquire true, .advance, .advance, .advance, .advance, .advance,
    .getAll false, .compare false, .acquire false, .advance, .advance,
    .add true ⟨7, by decide⟩, .acquire true, .advance, .advance, .die true,
    .getAll false, .compare false, .acquire false, .advance, .advance, .advance,
    .getAll false, .compare false]

def staleCache : State Bool :=
  Lib.final (State.step false) (fun state action => state.fewIncrements action = true)
    (State.init fun _ => true) staleCacheRun (by decide +kernel)

theorem staleCache_returned :
    staleCache.returned.map Returned.list = [[5], [5], [5]] ∧
    (∀ call ∈ staleCache.returned, ∃ k, call.start ≤ k ∧ k ≤ call.finish ∧
      staleCache.trace[k]?.map Instant.contents = some call.list) ∧
    ∀ p cached, staleCache.cached p = some cached →
      staleCache.increments < cached.incrementsSeen + 2 ^ 32 →
      cached.registry.revision = staleCache.registry.revision →
      cached.registry.processes = staleCache.registry.processes := by
  have reach : State.ReachedWithFewIncrements false (fun _ => true) staleCache :=
    Lib.reachable_final staleCacheRun (by decide +kernel)
  exact ⟨by decide +kernel, getAll_returns_current_contents reach⟩

end ThreadIpc.ProcessRegistry
