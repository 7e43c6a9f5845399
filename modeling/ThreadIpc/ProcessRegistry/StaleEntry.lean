import Mathlib.Data.List.Count
import ThreadIpc.ProcessRegistry.Path

/-!
# `Add` of an id that the registry still has

A process that crashed leaves its id behind, and a new process may get the same id. `Add` here is
the call as a whole, made by one process while the others keep away; `performs_add` connects it to
the steps of the machine.
-/

namespace ThreadIpc.ProcessRegistry

namespace Registry

def writeAll (registry : Registry) (writes : List Write) : Registry :=
  writes.foldl write registry

def deadIndex? (registry : Registry) (live : IpcProcessId → Bool) : Option Nat :=
  registry.processes.findIdx? fun id => !live id

def removed (registry : Registry) (id : ValidId) : Option Registry :=
  (registry.ourIndex? id).map fun ourIndex => registry.writeAll (registry.removeWrites ourIndex)

def addBody (asserts : Bool) (live : IpcProcessId → Bool) (registry : Registry) (id : ValidId) :
    Except Registry (Bool × Registry) :=
  match registry.emptySlot? with
  | some i => .ok (true, registry.writeAll (addWrites i id))
  | none => match registry.deadIndex? live with
      | some i => .ok (true, registry.writeAll (addWrites i id))
      | none => if asserts then .error registry else .ok (false, registry)

/-- A failed assertion leaves the registry as it is then. -/
def add (asserts : Bool) (live : IpcProcessId → Bool) (registry : Registry) (id : ValidId) :
    Except Registry (Bool × Registry) :=
  if asserts then
    match registry.removed id with
    | some registry => .error registry
    | none => registry.addBody asserts live id
  else registry.addBody asserts live id

end Registry

section Performed
variable {P : Type} [DecidableEq P] {asserts : Bool} {p : P} {id : ValidId}

/-- The steps that the process makes inside of `Add(id)`. -/
def Action.Own (p : P) (id : ValidId) (action : Action P) : Prop :=
  action = .add p id ∨ action = .acquire p ∨ action = .advance

abbrev OwnSteps (asserts : Bool) (p : P) (id : ValidId) (state after : State P) : Prop :=
  Lib.Reachable (State.step asserts) (fun _ action => action.Own p id) state after

structure Holding (p : P) (task : Task) (stage : Stage) (registry : Registry)
    (live : IpcProcessId → Bool) (state : State P) : Prop where
  mutex : state.mutex = .held p task stage
  registry : state.registry = registry
  live : state.live = live
  process : state.process p = .inside

variable {state : State P} {task : Task} {registry : Registry} {live : IpcProcessId → Bool}

theorem Holding.next (asserts : Bool) {stage stage' : Stage} {registry' : Registry}
    {middle : State P} (holding : Holding p task stage registry live state)
    (advanced : state.advance asserts p task stage = some middle)
    (holding' : Holding p task stage' registry' live middle) :
    ∃ after, Holding p task stage' registry' live after ∧
      State.step asserts state .advance = some after := by
  refine ⟨middle.recordInstant, ⟨holding'.mutex, holding'.registry, holding'.live,
    holding'.process⟩, ?_⟩
  simp only [State.step, State.act, holding.mutex, advanced, Option.map_some]

theorem OwnSteps.advance {start after : State P} (steps : OwnSteps asserts p id start state)
    (moved : State.step asserts state .advance = some after) : OwnSteps asserts p id start after :=
  .next steps (.inr (.inr rfl)) moved

theorem Holding.stage {stage stage' : Stage} {start : State P}
    (holding : Holding p task stage registry live state)
    (steps : OwnSteps asserts p id start state)
    (goes : state.advance asserts p task stage = some (state.stage p task stage')) :
    ∃ after, OwnSteps asserts p id start after ∧ Holding p task stage' registry live after := by
  obtain ⟨after, holding', moved⟩ := holding.next asserts goes
    ⟨rfl, holding.registry, holding.live, holding.process⟩
  exact ⟨after, steps.advance moved, holding'⟩

theorem Holding.leave (asserts : Bool) {result : Bool}
    (holding : Holding p task (.leaving result) registry live state) :
    State.step asserts state .advance = some (state.leave p task result).recordInstant := by
  simp only [State.step, State.act, holding.mutex, State.advance, Option.map_some]

theorem performs_writes (writes : List Write) {start : State P}
    (steps : OwnSteps asserts p id start state)
    (holding : Holding p task (.writing writes) registry live state) :
    ∃ after, OwnSteps asserts p id start after ∧
      Holding p task (.leaving true) (registry.writeAll writes) live after := by
  induction writes generalizing state registry with
  | nil => exact holding.stage steps rfl
  | cons write rest ih =>
      have wrote : (state.write write).registry = registry.write write := by
        rw [← holding.registry]
        rfl
      obtain ⟨middle, written, moved⟩ := holding.next asserts rfl
        ⟨rfl, wrote, holding.live, holding.process⟩
      exact ih (steps.advance moved) written

def Ended (p : P) (state : State P) : Except Registry (Bool × Registry) → Prop
  | .ok (result, registry) => state.registry = registry ∧ state.mutex = .free false ∧
      state.process p = .idle ∧ state.history.getLast?.map (·.ending) = some (.returned result)
  | .error registry => state.registry = registry ∧ state.process p = .dead

theorem performs_leaving {result : Bool} {start : State P}
    (steps : OwnSteps asserts p id start state)
    (holding : Holding p (.add id) (.leaving result) registry live state) :
    ∃ after, OwnSteps asserts p id start after ∧ Ended p after (.ok (result, registry)) := by
  refine ⟨_, steps.advance (holding.leave asserts), holding.registry, rfl, ?_, ?_⟩
  · exact Function.update_self ..
  · have last : (state.leave p (.add id) result).recordInstant.history =
        state.history ++ [⟨.add id, .returned result, state.lockedAt, state.now⟩] := rfl
    rw [last, List.getLast?_concat]
    rfl

theorem performs_addWrites (i : Nat) {start : State P} (steps : OwnSteps asserts p id start state)
    (holding : Holding p (.add id) (.writing (Registry.addWrites i id)) registry live state) :
    ∃ after, OwnSteps asserts p id start after ∧
      Ended p after (.ok (true, registry.writeAll (Registry.addWrites i id))) := by
  obtain ⟨written, steps', leaving⟩ := performs_writes _ steps holding
  exact performs_leaving steps' leaving

theorem processAt_eq_getElem {j : Nat} (inside : j < registry.processes.length) :
    registry.processAt j = registry.processes[j] := by
  rw [Registry.processAt, List.getD_eq_getElem?_getD, List.getElem?_eq_getElem inside,
    Option.getD_some]

theorem deadIndex_of_alive {i : Nat} (alive : ∀ j < i, live (registry.processAt j) = true)
    (inside : i < kMaxProcesses) (dead : live (registry.processAt i) = false) :
    registry.deadIndex? live = some i := by
  have size := registry.size
  rw [Registry.deadIndex?, List.findIdx?_eq_some_iff_getElem]
  refine ⟨by omega, ?_, ?_⟩
  · rw [← processAt_eq_getElem, dead]
    rfl
  · intro j before
    rw [← processAt_eq_getElem, alive j before]
    exact Bool.false_ne_true

theorem deadIndex_of_all_alive (alive : ∀ j < kMaxProcesses, live (registry.processAt j) = true) :
    registry.deadIndex? live = none := by
  rw [Registry.deadIndex?, List.findIdx?_eq_none_iff]
  intro other member
  obtain ⟨j, inside, rfl⟩ := List.mem_iff_getElem.mp member
  have living := alive j (registry.size ▸ inside)
  rw [← processAt_eq_getElem inside, living]
  rfl

theorem performs_probing (left i : Nat) (count : i + left = kMaxProcesses) {start : State P}
    (steps : OwnSteps asserts p id start state)
    (alive : ∀ j < i, live (registry.processAt j) = true)
    (holding : Holding p (.add id) (.probing i) registry live state) :
    ∃ after, OwnSteps asserts p id start after ∧ Ended p after
      (match registry.deadIndex? live with
        | some i => .ok (true, registry.writeAll (Registry.addWrites i id))
        | none => if asserts then .error registry else .ok (false, registry)) := by
  have probed : state.advance asserts p (.add id) (.probing i) =
      some (state.probe asserts p id i) := rfl
  induction left generalizing state i with
  | zero =>
      have last : ¬ i < kMaxProcesses := by omega
      rw [deadIndex_of_all_alive fun j inside => alive j (by omega)]
      cases asserts with
      | true =>
          have moved : State.step true state .advance =
              some (state.abandon p (.add id) .asserted).recordInstant := by
            simp only [State.step, State.act, holding.mutex, probed, State.probe, last, if_false,
              if_true, Option.map_some]
          exact ⟨_, steps.advance moved, holding.registry, Function.update_self ..⟩
      | false =>
          have stays : state.probe false p id i = state.stage p (.add id) (.leaving false) := by
            rw [State.probe, if_neg last]
            rfl
          obtain ⟨after, steps', leaving⟩ :=
            holding.stage steps (probed.trans (congrArg some stays))
          exact performs_leaving steps' leaving
  | succ left ih =>
      have inside : i < kMaxProcesses := by omega
      cases living : live (registry.processAt i) with
      | true =>
          have goes : state.probe asserts p id i = state.stage p (.add id) (.probing (i + 1)) := by
            rw [State.probe, if_pos inside, holding.live, holding.registry, if_pos living]
          obtain ⟨after, steps', holding'⟩ :=
            holding.stage steps (probed.trans (congrArg some goes))
          refine ih (i + 1) (by omega) steps' ?_ holding' rfl
          intro j before
          rcases Nat.lt_succ_iff_lt_or_eq.mp before with earlier | rfl
          · exact alive j earlier
          · exact living
      | false =>
          have found : state.probe asserts p id i =
              state.stage p (.add id) (.writing (Registry.addWrites i id)) := by
            rw [State.probe, if_pos inside, holding.live, holding.registry, living]
            rfl
          obtain ⟨after, steps', writing⟩ :=
            holding.stage steps (probed.trans (congrArg some found))
          rw [deadIndex_of_alive alive inside living]
          exact performs_addWrites i steps' writing

theorem performs_addBody {start : State P} (steps : OwnSteps asserts p id start state)
    (holding : Holding p (.add id) .checked registry live state) :
    ∃ after, OwnSteps asserts p id start after ∧
      Ended p after (registry.addBody asserts live id) := by
  have started : state.advance asserts p (.add id) .checked =
      some (state.startBody p (.add id)) := rfl
  unfold Registry.addBody
  cases empty : registry.emptySlot? with
  | some i =>
      have writes : state.startBody p (.add id) =
          state.stage p (.add id) (.writing (Registry.addWrites i id)) := by
        simp only [State.startBody, holding.registry, empty]
      obtain ⟨after, steps', writing⟩ :=
        holding.stage steps (started.trans (congrArg some writes))
      exact performs_addWrites i steps' writing
  | none =>
      have probes : state.startBody p (.add id) = state.stage p (.add id) (.probing 0) := by
        simp only [State.startBody, holding.registry, empty]
      obtain ⟨after, steps', probing⟩ :=
        holding.stage steps (started.trans (congrArg some probes))
      exact performs_probing kMaxProcesses 0 (Nat.zero_add _) steps'
        (fun j before => absurd before (Nat.not_lt_zero j)) probing

theorem performs_acquire {start : State P} (steps : OwnSteps asserts p id start state)
    (acquiring : state.process p = .acquiring task) (free : state.mutex = .free false) :
    ∃ after, OwnSteps asserts p id start after ∧
      Holding p task .checked state.registry state.live after := by
  have moved : State.step asserts state (.acquire p) =
      some (state.lock p task false).recordInstant := by
    simp only [State.step, State.act, acquiring, free, Option.map_some]
  refine ⟨_, .next steps (.inr (.inl rfl)) moved, rfl, rfl, rfl, ?_⟩
  exact Function.update_self ..

theorem performs_assertRemove {start : State P} (steps : OwnSteps asserts p id start state)
    (holding : Holding p (.assertRemove id) .checked registry live state) :
    ∃ after, OwnSteps asserts p id start after ∧
      (∀ removed, registry.removed id = some removed → Ended p after (.error removed)) ∧
      (registry.removed id = none → after.registry = registry ∧ after.live = live ∧
        after.mutex = .free false ∧ after.process p = .acquiring (.add id)) := by
  have started : state.advance asserts p (.assertRemove id) .checked =
      some (state.startBody p (.assertRemove id)) := rfl
  unfold Registry.removed
  cases found : registry.ourIndex? id with
  | some ourIndex =>
      have writes : state.startBody p (.assertRemove id) =
          state.stage p (.assertRemove id) (.writing (registry.removeWrites ourIndex)) := by
        simp only [State.startBody, holding.registry, found]
      obtain ⟨middle, steps', writing⟩ :=
        holding.stage steps (started.trans (congrArg some writes))
      obtain ⟨written, steps'', leaving⟩ := performs_writes _ steps' writing
      refine ⟨_, steps''.advance (leaving.leave asserts), ?_,
        fun none => absurd none (Option.some_ne_none _)⟩
      intro removed same
      cases same
      exact ⟨leaving.registry, Function.update_self ..⟩
  | none =>
      have nothing : state.startBody p (.assertRemove id) =
          state.stage p (.assertRemove id) (.leaving false) := by
        simp only [State.startBody, holding.registry, found]
      obtain ⟨middle, steps', leaving⟩ :=
        holding.stage steps (started.trans (congrArg some nothing))
      refine ⟨_, steps'.advance (leaving.leave asserts), fun _ some => absurd some.symm
        (Option.some_ne_none _), fun _ => ⟨leaving.registry, leaving.live, rfl, ?_⟩⟩
      exact Function.update_self ..

theorem performs_add (idle : state.process p = .idle) (free : state.mutex = .free false) :
    ∃ after, OwnSteps asserts p id state after ∧
      Ended p after (state.registry.add asserts state.live id) := by
  have called : State.step asserts state (.add p id) =
      some (state.goto p (.acquiring (if asserts then .assertRemove id else .add id))).recordInstant
      := by
    simp only [State.step, State.act, idle, Option.map_some]
  have steps : OwnSteps asserts p id state _ := .next .start (.inl rfl) called
  unfold Registry.add
  cases asserts with
  | false =>
      obtain ⟨after, steps, holding⟩ := @performs_acquire P _ false p id _ (.add id) _ steps
        (Function.update_self ..) free
      exact performs_addBody steps holding
  | true =>
      obtain ⟨locked, steps, holding⟩ := @performs_acquire P _ true p id _ (.assertRemove id) _ steps
        (Function.update_self ..) free
      obtain ⟨after, steps, removed, absent⟩ := performs_assertRemove steps holding
      cases found : state.registry.removed id with
      | some registry => exact ⟨after, steps, removed registry found⟩
      | none =>
          obtain ⟨registry, living, free, acquiring⟩ := absent found
          obtain ⟨final, steps, holding⟩ := performs_acquire steps acquiring free
          rw [registry, living] at holding
          exact performs_addBody steps holding

end Performed

theorem Path.writeAll {source target : Ids} {registry : Registry} {writes : List Write}
    (path : Path source target registry.processes writes) :
    (registry.writeAll writes).processes = slots target.list := by
  induction writes generalizing registry with
  | nil => exact path.finished
  | cons write rest ih => exact ih path.write

def Registry.KeepsLiving (live : IpcProcessId → Bool) (id : ValidId) (before after : Registry) :
    Prop :=
  ∃ ids : Ids, after.processes = slots ids.list ∧ ids.list.count id.val = 1 ∧
    ∀ other ∈ before.processes, other ≠ kInvalidProcessId → other ≠ id.val → live other = true →
      other ∈ ids.list

def Registry.AddsOnce (asserts : Bool) (live : IpcProcessId → Bool) (registry : Registry)
    (id : ValidId) : Prop :=
  ∃ result after, registry.add asserts live id = .ok (result, after) ∧
    Registry.KeepsLiving live id registry after

section Stale
variable {live : IpcProcessId → Bool} {registry : Registry} {ids : Ids} {id : ValidId}

theorem slots_of_full (full : ids.list.length = kMaxProcesses) : slots ids.list = ids.list := by
  rw [slots, full, Nat.sub_self]
  exact List.append_nil _

theorem slots_injective {list list' : List IpcProcessId} (valid : kInvalidProcessId ∉ list)
    (valid' : kInvalidProcessId ∉ list') (same : slots list = slots list') : list = list' := by
  rw [← takeWhile_slots valid, same, takeWhile_slots valid']

theorem deadIndex_of_full (layout : registry.processes = slots ids.list)
    (full : ids.list.length = kMaxProcesses) (dead : ∃ old ∈ ids.list, live old = false) :
    ∃ (i : Nat) (inside : i < ids.list.length), registry.deadIndex? live = some i ∧
      live ids.list[i] = false := by
  rw [Registry.deadIndex?, layout, slots_of_full full]
  cases found : ids.list.findIdx? fun id => !live id with
  | none =>
      obtain ⟨old, member, gone⟩ := dead
      have living := List.findIdx?_eq_none_iff.mp found old member
      rw [gone] at living
      contradiction
  | some i =>
      obtain ⟨inside, gone, -⟩ := List.findIdx?_eq_some_iff_getElem.mp found
      exact ⟨i, inside, rfl, by simpa using gone⟩

theorem removed_eq_none_iff (layout : registry.processes = slots ids.list) :
    registry.removed id = none ↔ id.val ∉ ids.list := by
  rw [Registry.removed, Option.map_eq_none_iff, ourIndex_of_slots layout id,
    List.findIdx?_eq_none_iff]
  constructor
  · intro absent member
    have different := absent id.val member
    rw [beq_self_eq_true] at different
    contradiction
  · intro absent other member
    exact beq_eq_false_iff_ne.mpr fun same => absent (same ▸ member)

theorem add_of_absent (asserts : Bool) (layout : registry.processes = slots ids.list)
    (absent : id.val ∉ ids.list) :
    registry.add asserts live id = registry.addBody asserts live id := by
  cases asserts with
  | false => rfl
  | true =>
      unfold Registry.add
      rw [(removed_eq_none_iff layout).mpr absent]
      rfl

theorem mem_ids (layout : registry.processes = slots ids.list) {other : IpcProcessId}
    (member : other ∈ registry.processes) (valid : other ≠ kInvalidProcessId) :
    other ∈ ids.list := by
  rw [layout] at member
  exact (mem_slots valid).mp member

theorem keepsLiving_of_path (layout : registry.processes = slots ids.list) {target : Ids}
    {writes : List Write} (path : Path ids target registry.processes writes)
    (present : id.val ∈ target.list)
    (kept : ∀ other ∈ ids.list, live other = true → other ∈ target.list) :
    Registry.KeepsLiving live id registry (registry.writeAll writes) := by
  refine ⟨target, path.writeAll, List.count_eq_one_of_mem target.distinct present, ?_⟩
  intro other member valid _ living
  exact kept other (mem_ids layout member valid) living

theorem addsOnce_of_absent (asserts : Bool) (layout : registry.processes = slots ids.list)
    (absent : id.val ∉ ids.list)
    (place : ids.list.length < kMaxProcesses ∨ ∃ old ∈ ids.list, live old = false) :
    registry.AddsOnce asserts live id := by
  have empty := emptySlot_of_slots layout ids.valid
  by_cases room : ids.list.length < kMaxProcesses
  · obtain ⟨target, path, members⟩ := add_path layout absent room
    refine ⟨true, registry.writeAll (Registry.addWrites ids.list.length id), ?_,
      keepsLiving_of_path layout path ?_ ?_⟩
    · rw [add_of_absent asserts layout absent, Registry.addBody, empty, if_pos room]
    · rw [← List.mem_toFinset, members]
      exact Finset.mem_insert_self ..
    · intro other member _
      rw [← List.mem_toFinset, members]
      exact Finset.mem_insert_of_mem (List.mem_toFinset.mpr member)
  · have full : ids.list.length = kMaxProcesses := le_antisymm ids.fits (not_lt.mp room)
    obtain ⟨i, inside, found, gone⟩ := deadIndex_of_full layout full (place.resolve_left room)
    obtain ⟨target, path, members⟩ := replace_path layout absent inside
    refine ⟨true, registry.writeAll (Registry.addWrites i id), ?_,
      keepsLiving_of_path layout path ?_ ?_⟩
    · rw [add_of_absent asserts layout absent, Registry.addBody, empty, if_neg room, found]
    · rw [← List.mem_toFinset, members]
      exact Finset.mem_insert_self ..
    · intro other member living
      rw [← List.mem_toFinset, members]
      refine Finset.mem_insert_of_mem (Finset.mem_erase.mpr ⟨?_, List.mem_toFinset.mpr member⟩)
      rintro rfl
      rw [gone] at living
      contradiction

theorem writeAll_addWrites (registry : Registry) (i : Nat) (id : ValidId) :
    (registry.writeAll (Registry.addWrites i id)).processes = registry.processes.set i id.val :=
  rfl

theorem not_addsOnce_of_room (layout : registry.processes = slots ids.list)
    (member : id.val ∈ ids.list) (room : ids.list.length < kMaxProcesses) :
    ¬ registry.AddsOnce false live id := by
  rintro ⟨result, after, added, kept, layout', once, -⟩
  have ran : registry.add false live id =
      .ok (true, registry.writeAll (Registry.addWrites ids.list.length id)) := by
    show registry.addBody false live id = _
    rw [Registry.addBody, emptySlot_of_slots layout ids.valid, if_pos room]
  rw [ran] at added
  cases added
  rw [writeAll_addWrites, layout, slots_set_empty _ _ room] at layout'
  have valid : kInvalidProcessId ∉ ids.list ++ [id.val] := by
    simp only [List.mem_append, List.mem_singleton, not_or]
    exact ⟨ids.valid, id.property.symm⟩
  have same := slots_injective valid kept.valid layout'
  rw [← same, List.count_append, List.count_singleton_self,
    List.count_eq_one_of_mem ids.distinct member] at once
  contradiction

theorem addsOnce_of_full_iff (layout : registry.processes = slots ids.list)
    (member : id.val ∈ ids.list) (full : ids.list.length = kMaxProcesses)
    (dead : ∃ old ∈ ids.list, live old = false) :
    registry.AddsOnce false live id ↔ registry.deadIndex? live = registry.ourIndex? id := by
  obtain ⟨i, inside, found, gone⟩ := deadIndex_of_full layout full dead
  have ran : registry.add false live id =
      .ok (true, registry.writeAll (Registry.addWrites i id)) := by
    show registry.addBody false live id = _
    rw [Registry.addBody, emptySlot_of_slots layout ids.valid, if_neg (not_lt.mpr full.ge), found]
  have after : (registry.writeAll (Registry.addWrites i id)).processes =
      slots (ids.list.set i id.val) := by
    rw [writeAll_addWrites, layout, slots_set _ _ inside]
  obtain ⟨ours, ourInside, here⟩ := List.mem_iff_getElem.mp member
  have ourIndex : registry.ourIndex? id = some ours := by
    rw [ourIndex_of_slots layout id, List.findIdx?_eq_some_iff_getElem]
    refine ⟨ourInside, by rw [here, beq_self_eq_true], ?_⟩
    intro j before
    rw [Bool.not_eq_true, beq_eq_false_iff_ne, ← here]
    intro same
    exact before.ne ((List.Nodup.getElem_inj_iff ids.distinct).mp same)
  rw [found, ourIndex, Option.some.injEq]
  constructor
  · rintro ⟨result, registry', added, kept, layout', once, -⟩
    rw [ran] at added
    cases added
    rw [after] at layout'
    have valid : kInvalidProcessId ∉ ids.list.set i id.val := by
      intro invalid
      rcases List.mem_or_eq_of_mem_set invalid with old | new
      · exact ids.valid old
      · exact id.property new.symm
    have same := slots_injective valid kept.valid layout'
    have distinct := kept.distinct
    rw [← same] at distinct
    by_contra different
    have ourBound : ours < (ids.list.set i id.val).length := by rwa [List.length_set]
    have bound : i < (ids.list.set i id.val).length := by rwa [List.length_set]
    have first : (ids.list.set i id.val)[ours] = id.val := by
      rw [List.getElem_set_ne different, here]
    have second : (ids.list.set i id.val)[i] = id.val := List.getElem_set_self _
    exact different ((List.Nodup.getElem_inj_iff distinct).mp (second.trans first.symm))
  · rintro rfl
    have unchanged : ids.list.set i id.val = ids.list := by
      rw [← here]
      exact List.set_getElem_self _
    refine ⟨true, _, ran, ids, by rw [after, unchanged],
      List.count_eq_one_of_mem ids.distinct member, ?_⟩
    intro other inRegistry valid _ _
    exact mem_ids layout inRegistry valid

theorem add_stale_iff (layout : registry.processes = slots ids.list)
    (place : ids.list.length < kMaxProcesses ∨ ∃ old ∈ ids.list, live old = false) :
    (registry.AddsOnce true live id ↔ id.val ∉ ids.list) ∧
    (registry.AddsOnce false live id ↔ id.val ∉ ids.list ∨
      ids.list.length = kMaxProcesses ∧ registry.deadIndex? live = registry.ourIndex? id) := by
  constructor
  · refine ⟨?_, fun absent => addsOnce_of_absent true layout absent place⟩
    rintro ⟨result, after, added, -⟩
    rw [← removed_eq_none_iff layout]
    cases removed : registry.removed id with
    | none => rfl
    | some left =>
        unfold Registry.add at added
        rw [removed] at added
        cases added
  · by_cases member : id.val ∈ ids.list
    · by_cases room : ids.list.length < kMaxProcesses
      · refine iff_of_false (not_addsOnce_of_room layout member room) ?_
        rintro (absent | ⟨full, -⟩)
        · exact absent member
        · exact room.ne full
      · have full : ids.list.length = kMaxProcesses := le_antisymm ids.fits (not_lt.mp room)
        rw [addsOnce_of_full_iff layout member full (place.resolve_left room)]
        constructor
        · intro same
          exact .inr ⟨full, same⟩
        · rintro (absent | ⟨-, same⟩)
          · exact absurd member absent
          · exact same
    · exact iff_of_true (addsOnce_of_absent false layout member place) (.inl member)

end Stale

theorem forty_valid : (40 : IpcProcessId) ≠ kInvalidProcessId := by decide

theorem sixty_valid : (60 : IpcProcessId) ≠ kInvalidProcessId := by decide

def forty : ValidId := ⟨40, forty_valid⟩

def sixty : ValidId := ⟨60, sixty_valid⟩

def staleIds : Ids where
  list := [40, 50]
  valid := by decide
  distinct := by decide
  fits := by decide

def staleRegistry : Registry where
  revision := 2
  processes := slots staleIds.list
  size := by decide

theorem staleRegistry_adds_sixty :
    staleRegistry.AddsOnce true (fun _ => true) sixty ∧
      staleRegistry.AddsOnce false (fun _ => true) sixty := by
  have place : staleIds.list.length < kMaxProcesses ∨ ∃ old ∈ staleIds.list, true = false :=
    .inl (by decide)
  obtain ⟨asserted, released⟩ :=
    @add_stale_iff (fun _ => true) staleRegistry staleIds sixty rfl place
  have absent : sixty.val ∉ staleIds.list := by decide
  exact ⟨asserted.mpr absent, released.mpr (.inl absent)⟩

/-- With asserts the process stops with the id removed, without them the id is there twice. -/
theorem stale_entry_added :
    (∃ left, staleRegistry.add true (fun _ => true) forty = .error left ∧
      left.processes = slots [50]) ∧
    (∃ after, staleRegistry.add false (fun _ => true) forty = .ok (true, after) ∧
      after.processes = slots [40, 50, 40]) ∧
    ¬ staleRegistry.AddsOnce true (fun _ => true) forty ∧
    ¬ staleRegistry.AddsOnce false (fun _ => true) forty := by
  have stopped : staleRegistry.add true (fun _ => true) forty =
      .error (staleRegistry.writeAll (staleRegistry.removeWrites 0)) := by rfl
  refine ⟨⟨_, stopped, by decide⟩, ⟨_, rfl, by decide⟩, ?_, ?_⟩
  · rintro ⟨result, after, added, -⟩
    rw [stopped] at added
    cases added
  · exact @not_addsOnce_of_room (fun _ => true) staleRegistry staleIds forty rfl (by decide)
      (by decide)

end ThreadIpc.ProcessRegistry
