import ThreadIpc.ProcessRegistry.Path

/-!
# The registry after crashes

`Performs` says what an operation does to the set that the registry stands for, and `Replay` runs
the operations of a history on it in the order of their critical sections, where one that its
process died inside is either done or skipped. An `Add` into a full set replaces an id that was
dead, and fails only after it found every one alive, at instants while it held the mutex.
-/

namespace ThreadIpc.ProcessRegistry

inductive Performs (seen : IpcProcessId → Bool → Prop) :
    Operation → Bool → Finset IpcProcessId → Finset IpcProcessId → Prop
  | inserted {id : ValidId} {ids} (absent : id.val ∉ ids) (room : ids.card < kMaxProcesses) :
      Performs seen (.add id) true ids (insert id.val ids)
  | replaced {id : ValidId} {old ids} (absent : id.val ∉ ids) (full : ids.card = kMaxProcesses)
      (member : old ∈ ids) (dead : seen old false) :
      Performs seen (.add id) true ids (insert id.val (ids.erase old))
  | noRoom {id : ValidId} {ids} (absent : id.val ∉ ids) (full : ids.card = kMaxProcesses)
      (alive : ∀ other ∈ ids, seen other true) : Performs seen (.add id) false ids ids
  | erased {id : ValidId} {ids} (member : id.val ∈ ids) :
      Performs seen (.remove id) true ids (ids.erase id.val)
  | notFound {id : ValidId} {ids} (absent : id.val ∉ ids) :
      Performs seen (.remove id) false ids ids

def Saw (trace : List Instant) (start finish : Nat) (id : IpcProcessId) (alive : Bool) : Prop :=
  Shown (·.live id) trace start finish alive

abbrev Record.Performs (record : Record) (trace : List Instant) (result : Bool)
    (before after : Finset IpcProcessId) : Prop :=
  ProcessRegistry.Performs (Saw trace record.start record.finish) record.operation result before
    after

inductive Replay (trace : List Instant) : List Record → Finset IpcProcessId → Prop
  | created : Replay trace [] ∅
  | returned {history result before after} {record : Record} : Replay trace history before →
      record.ending = .returned result → record.Performs trace result before after →
      Replay trace (history ++ [record]) after
  | asserted {history before after} {record : Record} : Replay trace history before →
      record.ending = .asserted → record.Performs trace false before after →
      Replay trace (history ++ [record]) after
  | diedDone {history result before after} {record : Record} : Replay trace history before →
      record.ending = .died → record.Performs trace result before after →
      Replay trace (history ++ [record]) after
  | diedUndone {history ids} {record : Record} : Replay trace history ids →
      record.ending = .died → Replay trace (history ++ [record]) ids

theorem Performs.mono {seen seen' : IpcProcessId → Bool → Prop}
    (imp : ∀ id alive, seen id alive → seen' id alive) {operation : Operation} {result : Bool}
    {before after : Finset IpcProcessId} (performs : Performs seen operation result before after) :
    Performs seen' operation result before after := by
  cases performs with
  | inserted absent room => exact .inserted absent room
  | replaced absent full member dead => exact .replaced absent full member (imp _ _ dead)
  | noRoom absent full alive =>
      exact .noRoom absent full fun other member => imp _ _ (alive other member)
  | erased member => exact .erased member
  | notFound absent => exact .notFound absent

theorem Saw.later {trace : List Instant} {start finish finish' : Nat} (later : finish ≤ finish')
    (more : List Instant) (id : IpcProcessId) (alive : Bool) (saw : Saw trace start finish id alive) :
    Saw (trace ++ more) start finish' id alive :=
  Shown.later saw later more

theorem Replay.later {trace : List Instant} {history : List Record} {ids : Finset IpcProcessId}
    (replay : Replay trace history ids) (more : List Instant) :
    Replay (trace ++ more) history ids := by
  induction replay with
  | created => exact .created
  | returned _ ending performs ih =>
      exact .returned ih ending (performs.mono (Saw.later le_rfl more))
  | asserted _ ending performs ih =>
      exact .asserted ih ending (performs.mono (Saw.later le_rfl more))
  | diedDone _ ending performs ih =>
      exact .diedDone ih ending (performs.mono (Saw.later le_rfl more))
  | diedUndone _ ending ih => exact .diedUndone ih ending

section Tasks
variable {trace : List Instant} {start finish : Nat}

def Task.Performs (seen : IpcProcessId → Bool → Prop) (task : Task) (result : Bool)
    (before after : Finset IpcProcessId) : Prop :=
  match task.operation? with
  | some operation => ProcessRegistry.Performs seen operation result before after
  | none => after = before

theorem Task.Performs.mono {seen seen' : IpcProcessId → Bool → Prop}
    (imp : ∀ id alive, seen id alive → seen' id alive) {task : Task} {result : Bool}
    {before after : Finset IpcProcessId} (performs : task.Performs seen result before after) :
    task.Performs seen' result before after := by
  unfold Task.Performs at performs ⊢
  split at performs
  · exact ProcessRegistry.Performs.mono imp performs
  · exact performs

theorem Replay.record {history : List Record} {before after : Finset IpcProcessId} {task : Task}
    {result : Bool} {ending : Ending} (replay : Replay trace history before)
    (performs : task.Performs (Saw trace start finish) result before after)
    (extends_with : ∀ record : Record, record.ending = ending →
      record.Performs trace result before after → Replay trace (history ++ [record]) after) :
    Replay trace (history ++ task.record ending start finish) after := by
  cases operation : task.operation? with
  | none =>
      simp only [Task.Performs, operation] at performs
      simpa [Task.record, operation, performs] using replay
  | some operation' =>
      simp only [Task.Performs, operation] at performs
      simpa [Task.record, operation] using
        extends_with ⟨operation', ending, start, finish⟩ rfl performs

theorem Replay.diedBefore {history : List Record} {ids : Finset IpcProcessId} (task : Task)
    (replay : Replay trace history ids) :
    Replay trace (history ++ task.record .died start finish) ids := by
  cases operation : task.operation? with
  | none => simpa [Task.record, operation] using replay
  | some operation' =>
      simp only [Task.record, operation, Option.map_some, Option.toList_some]
      exact replay.diedUndone rfl

end Tasks

section Invariant
variable {P : Type} (trace : List Instant) (start finish : Nat)

def Settled (history : List Record) (processes : List IpcProcessId) (ids : Ids) : Prop :=
  processes = slots ids.list ∧ Replay trace history ids.list.toFinset

def StageInv (history : List Record) (processes : List IpcProcessId) (task : Task) : Stage → Prop
  | .repairing writes => ∃ ids, Path ids ids processes writes ∧
      Replay trace history ids.list.toFinset
  | .checked => ∃ ids, Settled trace history processes ids
  | .probing i => ∃ ids, Settled trace history processes ids ∧
      ids.list.length = kMaxProcesses ∧ (∀ id, task = .add id → id.val ∉ ids.list) ∧
      ∀ other ∈ ids.list.take i, Saw trace start finish other true
  | .writing writes => ∃ source target, Path source target processes writes ∧
      Replay trace history source.list.toFinset ∧
      task.Performs (Saw trace start finish) true source.list.toFinset target.list.toFinset
  | .leaving result => ∃ source target : Ids, processes = slots target.list ∧
      Replay trace history source.list.toFinset ∧
      task.Performs (Saw trace start finish) result source.list.toFinset target.list.toFinset

def MutexInv (history : List Record) (processes : List IpcProcessId) : Mutex P → Prop
  | .free false => ∃ ids, Settled trace history processes ids
  | .free true => ∃ ids, Repairable ids processes ∧ Replay trace history ids.list.toFinset
  | .held _ task stage => start ≤ finish ∧ StageInv trace start finish history processes task stage

variable {trace start finish}

theorem StageInv.abandoned {history : List Record} {processes : List IpcProcessId} {task : Task}
    {stage : Stage} (inv : StageInv trace start finish history processes task stage) :
    ∃ ids, Repairable ids processes ∧
      Replay trace (history ++ task.record .died start finish) ids.list.toFinset := by
  cases stage with
  | repairing writes =>
      obtain ⟨ids, path, replay⟩ := inv
      exact ⟨ids, path.repairable, replay.diedBefore task⟩
  | checked =>
      obtain ⟨ids, layout, replay⟩ := inv
      exact ⟨ids, .inl layout, replay.diedBefore task⟩
  | probing i =>
      obtain ⟨ids, ⟨layout, replay⟩, _⟩ := inv
      exact ⟨ids, .inl layout, replay.diedBefore task⟩
  | writing writes =>
      obtain ⟨source, target, path, replay, performs⟩ := inv
      rcases path.between with unchanged | repairable
      · exact ⟨source, .inl unchanged, replay.diedBefore task⟩
      · exact ⟨target, repairable, replay.record performs fun _ => replay.diedDone⟩
  | leaving result =>
      obtain ⟨source, target, layout, replay, performs⟩ := inv
      exact ⟨target, .inl layout, replay.record performs fun _ => replay.diedDone⟩

theorem StageInv.later {finish' : Nat} (later : finish ≤ finish') (more : List Instant)
    {history : List Record} {processes : List IpcProcessId} {task : Task} {stage : Stage}
    (inv : StageInv trace start finish history processes task stage) :
    StageInv (trace ++ more) start finish' history processes task stage := by
  have saw := @Saw.later trace start finish finish' later more
  cases stage with
  | repairing writes =>
      obtain ⟨ids, path, replay⟩ := inv
      exact ⟨ids, path, replay.later more⟩
  | checked =>
      obtain ⟨ids, layout, replay⟩ := inv
      exact ⟨ids, layout, replay.later more⟩
  | probing i =>
      obtain ⟨ids, ⟨layout, replay⟩, full, absent, alive⟩ := inv
      exact ⟨ids, ⟨layout, replay.later more⟩, full, absent, fun other member =>
        saw other true (alive other member)⟩
  | writing writes =>
      obtain ⟨source, target, path, replay, performs⟩ := inv
      exact ⟨source, target, path, replay.later more, performs.mono saw⟩
  | leaving result =>
      obtain ⟨source, target, layout, replay, performs⟩ := inv
      exact ⟨source, target, layout, replay.later more, performs.mono saw⟩

theorem MutexInv.later {finish' : Nat} (later : finish ≤ finish') (more : List Instant)
    {history : List Record} {processes : List IpcProcessId} {mutex : Mutex P}
    (inv : MutexInv trace start finish history processes mutex) :
    MutexInv (trace ++ more) start finish' history processes mutex := by
  cases mutex with
  | free abandoned =>
      cases abandoned with
      | false =>
          obtain ⟨ids, layout, replay⟩ := inv
          exact ⟨ids, layout, replay.later more⟩
      | true =>
          obtain ⟨ids, repairable, replay⟩ := inv
          exact ⟨ids, repairable, replay.later more⟩
  | held owner task stage => exact ⟨inv.1.trans later, inv.2.later later more⟩

end Invariant

namespace State
variable {P : Type} [DecidableEq P] {asserts : Bool}

abbrev Holds (state : State P) : Prop :=
  MutexInv state.trace state.lockedAt state.now state.history state.registry.processes state.mutex

theorem die_holds {state : State P} (p : P) (inv : state.Holds) : (state.die p).Holds := by
  cases mutex : state.mutex with
  | free abandoned => simpa only [die, mutex, goto, Holds, now] using inv
  | held owner task stage =>
      simp only [Holds, mutex] at inv
      by_cases owner_dies : owner = p
      · simp only [die, mutex, owner_dies, if_true]
        exact inv.2.abandoned
      · simpa only [die, mutex, owner_dies, if_false, goto, Holds, now] using inv

theorem startBody_holds {state : State P} {p : P} {task : Task} {ids : Ids}
    (settled : Settled state.trace state.history state.registry.processes ids)
    (entered : state.lockedAt ≤ state.now)
    (fresh : ∀ id, task = .add id → id.val ∉ state.registry.processes) :
    (state.startBody p task).Holds := by
  obtain ⟨layout, replay⟩ := settled
  have card : ids.list.toFinset.card = ids.list.length :=
    List.toFinset_card_of_nodup ids.distinct
  have not_found : ∀ id : ValidId, state.registry.ourIndex? id = none →
      id.val ∉ ids.list.toFinset := by
    intro id none
    rw [ourIndex_of_slots layout, List.findIdx?_eq_none_iff] at none
    exact fun member => by simpa using none _ (List.mem_toFinset.mp member)
  have removes : ∀ id i, state.registry.ourIndex? id = some i →
      ∃ target, Path ids target state.registry.processes (state.registry.removeWrites i) ∧
        ∀ seen, Performs seen (.remove id) true ids.list.toFinset target.list.toFinset := by
    intro id i found
    rw [ourIndex_of_slots layout] at found
    obtain ⟨target, path, erased⟩ := remove_path layout found
    obtain ⟨inside, here⟩ := found_at found
    have member : id.val ∈ ids.list.toFinset := List.mem_toFinset.mpr (here ▸ List.getElem_mem _)
    exact ⟨target, path, fun _ => erased ▸ .erased member⟩
  cases task with
  | openRegistry => exact ⟨entered, ids, ids, layout, replay, rfl⟩
  | getAll start => exact ⟨entered, ids, ids, layout, replay, rfl⟩
  | add id =>
      have absent : id.val ∉ ids.list := by
        simpa only [layout, mem_slots id.property] using fresh id rfl
      simp only [startBody, emptySlot_of_slots layout ids.valid]
      by_cases room : ids.list.length < kMaxProcesses
      · simp only [room, if_true]
        obtain ⟨target, path, inserted⟩ := add_path layout absent room
        exact ⟨entered, ids, target, path, replay, inserted ▸
          .inserted (by simpa using absent) (card.trans_lt room)⟩
      · simp only [room, if_false]
        refine ⟨entered, ids, ⟨layout, replay⟩, le_antisymm ids.fits (not_lt.mp room), ?_,
          fun _ member => absurd member List.not_mem_nil⟩
        intro other same
        cases same
        exact absent
  | remove id | assertRemove id =>
      simp only [startBody]
      cases found : state.registry.ourIndex? id with
      | some i =>
          obtain ⟨target, path, performs⟩ := removes id i found
          exact ⟨entered, ids, target, path, replay, performs _⟩
      | none => exact ⟨entered, ids, ids, layout, replay, .notFound (not_found id found)⟩

theorem probe_holds {state : State P} {p : P} {id : ValidId} {i : Nat}
    (inv : StageInv state.trace state.lockedAt state.now state.history state.registry.processes
      (.add id) (.probing i))
    (entered : state.lockedAt ≤ state.now)
    (current : state.trace[state.now]?.map Instant.live = some state.live) :
    (state.probe asserts p id i).Holds := by
  have sees : ∀ other, Saw state.trace state.lockedAt state.now other (state.live other) := by
    intro other
    obtain ⟨instant, recorded, same⟩ := Option.map_eq_some_iff.mp current
    refine ⟨state.now, entered, le_rfl, ?_⟩
    rw [recorded, Option.map_some, same]
  obtain ⟨ids, ⟨layout, replay⟩, full, absent, alive⟩ := inv
  have card : ids.list.toFinset.card = kMaxProcesses :=
    (List.toFinset_card_of_nodup ids.distinct).trans full
  have absent_set : id.val ∉ ids.list.toFinset := by simpa using absent id rfl
  unfold probe
  by_cases more : i < kMaxProcesses
  · have inside : i < ids.list.length := full ▸ more
    rw [if_pos more, processAt_of_slots layout inside]
    have seen := sees ids.list[i]
    cases live : state.live ids.list[i] with
    | true =>
        rw [live] at seen
        refine ⟨entered, ids, ⟨layout, replay⟩, full, absent, ?_⟩
        intro other member
        rw [List.take_add_one, List.getElem?_eq_getElem inside] at member
        rcases List.mem_append.mp member with earlier | here
        · exact alive other earlier
        · cases List.mem_singleton.mp here
          exact seen
    | false =>
        rw [live] at seen
        obtain ⟨target, path, replaced⟩ := replace_path layout (absent id rfl) inside
        have performs := Performs.replaced absent_set card
          (List.mem_toFinset.mpr (List.getElem_mem inside)) seen
        exact ⟨entered, ids, target, path, replay, replaced ▸ performs⟩
  · have all_alive : ∀ other ∈ ids.list.toFinset,
        Saw state.trace state.lockedAt state.now other true := by
      intro other member
      apply alive other
      rw [List.take_of_length_le (full.trans_le (not_lt.mp more))]
      exact List.mem_toFinset.mp member
    have performs := Performs.noRoom absent_set card all_alive
    rw [if_neg more]
    cases asserts with
    | true => exact ⟨ids, .inl layout, replay.asserted rfl performs⟩
    | false => exact ⟨entered, ids, ids, layout, replay, performs⟩

theorem leave_holds {state : State P} {p : P} {task : Task} {result : Bool}
    (inv : StageInv state.trace state.lockedAt state.now state.history state.registry.processes
      task (.leaving result)) :
    (state.leave p task result).Holds := by
  obtain ⟨source, target, layout, replay, performs⟩ := inv
  have settled : Settled state.trace
      (state.history ++ task.record (.returned result) state.lockedAt state.now)
      state.registry.processes target := ⟨layout, replay.record performs fun _ => replay.returned⟩
  cases task <;> exact ⟨target, settled⟩

theorem advance_holds {state after : State P} {p : P} {task : Task} {stage : Stage}
    (inv : StageInv state.trace state.lockedAt state.now state.history state.registry.processes
      task stage)
    (entered : state.lockedAt ≤ state.now)
    (current : state.trace[state.now]?.map Instant.live = some state.live)
    (fresh : ∀ id, task = .add id → stage = .checked → id.val ∉ state.registry.processes)
    (advanced : state.advance asserts p task stage = some after) : after.Holds := by
  cases advance_advanced advanced with
  | repaired =>
      obtain ⟨ids, path, replay⟩ := inv
      exact ⟨entered, ids, path.finished, replay⟩
  | repair =>
      obtain ⟨ids, path, replay⟩ := inv
      exact ⟨entered, ids, path.write, replay⟩
  | body =>
      obtain ⟨ids, settled⟩ := inv
      exact startBody_holds settled entered fun id add => fresh id add rfl
  | probe => exact probe_holds inv entered current
  | written =>
      obtain ⟨source, target, path, replay, performs⟩ := inv
      exact ⟨entered, source, target, path.finished, replay, performs⟩
  | write =>
      obtain ⟨source, target, path, replay, performs⟩ := inv
      exact ⟨entered, source, target, path.write, replay, performs⟩
  | leave => exact leave_holds inv

theorem act_holds {state after : State P} {action : Action P} (inv : state.Holds)
    (current : state.trace[state.now]?.map Instant.live = some state.live)
    (fresh : state.addIsFresh action = true) (acted : state.act asserts action = some after) :
    after.Holds := by
  cases act_moved acted with
  | openRegistry closed => exact inv
  | add idle => exact inv
  | remove idle => exact inv
  | getAll idle => exact inv
  | compare comparing opened =>
      unfold compare
      split <;> exact inv
  | @acquire p task abandoned acquiring free =>
      simp only [Holds, free] at inv
      cases abandoned with
      | false => exact ⟨le_rfl, inv⟩
      | true =>
          obtain ⟨ids, repairable, replay⟩ := inv
          exact ⟨le_rfl, ids, repair_path repairable, replay⟩
  | @advance p task stage after held advanced =>
      simp only [Holds, held] at inv
      refine advance_holds inv.2 inv.1 current ?_ advanced
      intro id add checked
      subst add checked
      simpa [addIsFresh, held] using fresh
  | @die p => exact die_holds p inv
  | setLive => exact inv

structure CrashInv (state : State P) : Prop where
  holds : state.Holds
  current : state.trace[state.now]?.map Instant.live = some state.live

omit [DecidableEq P] in
theorem crashInv_init (live : IpcProcessId → Bool) : (init live : State P).CrashInv where
  holds := ⟨⟨[], by simp, List.nodup_nil, Nat.zero_le _⟩, rfl, .created⟩
  current := rfl

theorem crashInv_step {state after : State P} {action : Action P} (inv : state.CrashInv)
    (fresh : state.addIsFresh action = true) (moved : state.step asserts action = some after) :
    after.CrashInv := by
  obtain ⟨middle, acted, rfl⟩ := Option.map_eq_some_iff.mp moved
  have later : middle.now ≤ middle.recordInstant.now := by
    simp [now, recordInstant]
  refine ⟨(act_holds inv.holds inv.current fresh acted).later later _, ?_⟩
  simp [now, recordInstant]

abbrev Reached (asserts : Bool) (live : IpcProcessId → Bool) (state : State P) : Prop :=
  Lib.Reachable (step asserts) (fun state action => state.addIsFresh action = true) (init live)
    state

def JustChecked (state : State P) : Prop :=
  state.mutex = .free false ∨ ∃ p task, state.mutex = .held p task .checked

end State

theorem processes_of_settled_registry {P : Type} [DecidableEq P] {asserts : Bool}
    {live : IpcProcessId → Bool} {state : State P} (reach : State.Reached asserts live state)
    (checked : state.JustChecked) :
    ∃ ids : List IpcProcessId,
      state.registry.processes =
        ids ++ List.replicate (kMaxProcesses - ids.length) kInvalidProcessId ∧
      kInvalidProcessId ∉ ids ∧ ids.Nodup ∧
      Replay state.trace state.history ids.toFinset := by
  have inv : state.CrashInv :=
    reach.invariant (State.crashInv_init live) fun _ _ _ inv fresh moved =>
      State.crashInv_step inv fresh moved
  have settled : ∃ ids, Settled state.trace state.history state.registry.processes ids := by
    have holds := inv.holds
    rcases checked with free | ⟨p, task, held⟩
    · rw [State.Holds, free] at holds
      exact holds
    · rw [State.Holds, held] at holds
      exact holds.2
  obtain ⟨ids, layout, replay⟩ := settled
  exact ⟨ids.list, layout, ids.valid, ids.distinct, replay⟩

theorem five_valid : (5 : IpcProcessId) ≠ kInvalidProcessId := by decide
theorem seven_valid : (7 : IpcProcessId) ≠ kInvalidProcessId := by decide
theorem nine_valid : (9 : IpcProcessId) ≠ kInvalidProcessId := by decide

def five : ValidId := ⟨5, five_valid⟩
def seven : ValidId := ⟨7, seven_valid⟩
def nine : ValidId := ⟨9, nine_valid⟩

def added (p : Bool) (id : ValidId) : List (Action Bool) :=
  [.add p id, .acquire p, .advance, .advance, .advance, .advance, .advance]

def crashedRemoveRun : List (Action Bool) :=
  [.openRegistry true, .acquire true, .advance, .advance,
    .openRegistry false, .acquire false, .advance, .advance] ++
  added true five ++ added true seven ++ added true nine ++
  [.remove false five, .acquire false, .advance, .advance, .advance, .die false,
    .getAll true, .compare true, .acquire true, .advance, .advance, .advance]

def crashedRemove : State Bool :=
  Lib.final (State.step false) (fun state action => state.addIsFresh action = true)
    (State.init fun _ => true) crashedRemoveRun (by decide +kernel)

theorem crashedRemove_repaired :
    crashedRemove.registry.processes.take 4 = [9, 7, 0, 0] ∧
    ∃ ids : List IpcProcessId,
      crashedRemove.registry.processes =
        ids ++ List.replicate (kMaxProcesses - ids.length) kInvalidProcessId ∧
      kInvalidProcessId ∉ ids ∧ ids.Nodup ∧
      Replay crashedRemove.trace crashedRemove.history ids.toFinset := by
  have reach : State.Reached false (fun _ => true) crashedRemove :=
    Lib.reachable_final crashedRemoveRun (by decide +kernel)
  have held : crashedRemove.mutex = .held true (.getAll 35) .checked := by decide +kernel
  exact ⟨by decide +kernel, processes_of_settled_registry reach (.inr ⟨true, _, held⟩)⟩

end ThreadIpc.ProcessRegistry
