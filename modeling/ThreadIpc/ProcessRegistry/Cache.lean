import ThreadIpc.ProcessRegistry.Model

namespace ThreadIpc.ProcessRegistry

theorem revision_injective {seen increments : Nat} (before : seen ≤ increments)
    (few : increments < seen + 2 ^ 32) (same : Int32.ofNat seen = Int32.ofNat increments) :
    seen = increments := by
  have bits := congrArg (fun revision => revision.toBitVec.toNat) same
  simp only [← Int32.ofBitVec_ofNat, Int32.toBitVec_ofBitVec, BitVec.toNat_ofNat] at bits
  omega

namespace State
variable {P : Type}

def AllBehind (state : State P) : Prop :=
  ∀ p cached, state.cached p = some cached → cached.incrementsSeen < state.increments

def PendingInv (state : State P) : Stage → Prop
  | .repairing writes | .writing writes =>
      (∀ i id rest, writes ≠ .setProcess i id :: rest) ∨ state.AllBehind
  | _ => True

structure CachedInv (state : State P) (cached : CachedRegistry) : Prop where
  revision : cached.registry.revision = Int32.ofNat cached.incrementsSeen
  seen : cached.incrementsSeen ≤ state.increments
  current : cached.incrementsSeen = state.increments →
    cached.registry.processes = state.registry.processes

structure CacheInv (state : State P) : Prop where
  revision : state.registry.revision = Int32.ofNat state.increments
  cached : ∀ p cached, state.cached p = some cached → state.CachedInv cached
  pending : ∀ p task stage, state.mutex = .held p task stage → state.PendingInv stage

theorem cacheInv_init (live : IpcProcessId → Bool) : (init live : State P).CacheInv where
  revision := rfl
  cached := by simp [init]
  pending := by simp [init]

theorem CachedInv.same_revision {state : State P} {cached : CachedRegistry}
    (inv : state.CacheInv) (cachedInv : state.CachedInv cached)
    (few : state.increments < cached.incrementsSeen + 2 ^ 32)
    (same : cached.registry.revision = state.registry.revision) :
    cached.incrementsSeen = state.increments ∧
      cached.registry.processes = state.registry.processes := by
  rw [cachedInv.revision, inv.revision] at same
  have seen_all := revision_injective cachedInv.seen few same
  exact ⟨seen_all, cachedInv.current seen_all⟩

theorem CacheInv.stage {state : State P} {p : P} {task : Task} {stage : Stage}
    (inv : state.CacheInv) (pending : state.PendingInv stage) :
    (state.stage p task stage).CacheInv where
  revision := inv.revision
  cached := fun q cached opened =>
    let cachedInv := inv.cached q cached opened
    ⟨cachedInv.revision, cachedInv.seen, cachedInv.current⟩
  pending := by
    intro q task' stage' held
    cases held
    exact pending

theorem CacheInv.free {state : State P} {abandoned : Bool} {history : List Record}
    (inv : state.CacheInv) :
    CacheInv { state with mutex := .free abandoned, history := history } where
  revision := inv.revision
  cached := fun q cached opened =>
    let cachedInv := inv.cached q cached opened
    ⟨cachedInv.revision, cachedInv.seen, cachedInv.current⟩
  pending := nofun

theorem CacheInv.write {state : State P} {write : Write} {rest : List Write}
    (inv : state.CacheInv)
    (pending : (∀ i id rest', write :: rest ≠ .setProcess i id :: rest') ∨ state.AllBehind) :
    (state.write write).AllBehind ∧ (state.write write).registry.revision =
      Int32.ofNat (state.write write).increments := by
  cases write with
  | bumpRevision =>
      constructor
      · intro p cached opened
        exact Nat.lt_succ_of_le (inv.cached p cached opened).seen
      · simp only [State.write, Registry.write, if_true, Int32.ofNat_add, inv.revision]
        rfl
  | setProcess i id =>
      have behind := pending.resolve_left fun no_set => no_set i id rest rfl
      exact ⟨behind, inv.revision⟩

theorem CacheInv.written {state : State P} {write : Write} {rest : List Write} {p : P}
    {task : Task} {stage : Stage} (inv : state.CacheInv)
    (pending : (∀ i id rest', write :: rest ≠ .setProcess i id :: rest') ∨ state.AllBehind)
    (next : (state.write write).AllBehind → (state.write write).PendingInv stage) :
    ((state.write write).stage p task stage).CacheInv := by
  obtain ⟨behind, revision⟩ := inv.write pending
  apply CacheInv.stage _ (next behind)
  refine ⟨revision, ?_, ?_⟩
  · intro q cached opened
    have lt := behind q cached opened
    exact ⟨(inv.cached q cached opened).revision, lt.le, fun same => absurd same lt.ne⟩
  · intro q task' stage' held
    have still := inv.pending q task' stage' held
    cases stage' <;> simp only [PendingInv] at still ⊢ <;> exact .inr behind

theorem pendingInv_addWrites (state : State P) (i : Nat) (id : ValidId) :
    state.PendingInv (.writing (Registry.addWrites i id)) := by
  simp [PendingInv, Registry.addWrites]

theorem pendingInv_removeWrites (state : State P) (registry : Registry) (ourIndex : Nat) :
    state.PendingInv (.writing (registry.removeWrites ourIndex)) := by
  refine .inl ?_
  rw [Registry.removeWrites]
  split <;> simp

theorem pendingInv_repairWrites (state : State P) (registry : Registry) :
    state.PendingInv (.repairing registry.repairWrites) := by
  refine .inl ?_
  rw [Registry.repairWrites]
  split
  · simp
  · split <;> simp

variable [DecidableEq P]

theorem CacheInv.goto {state : State P} {p : P} {next : ProcessState} (inv : state.CacheInv) :
    (state.goto p next).CacheInv where
  revision := inv.revision
  cached := fun q cached opened =>
    let cachedInv := inv.cached q cached opened
    ⟨cachedInv.revision, cachedInv.seen, cachedInv.current⟩
  pending := inv.pending

theorem CacheInv.returnList {state : State P} {p : P} {start : Nat} {list : List IpcProcessId}
    (inv : state.CacheInv) : (state.returnList p start list).CacheInv :=
  CacheInv.goto ⟨inv.revision, fun q cached opened =>
    let cachedInv := inv.cached q cached opened
    ⟨cachedInv.revision, cachedInv.seen, cachedInv.current⟩, inv.pending⟩

theorem CacheInv.lock {state : State P} {p : P} {task : Task} {abandoned : Bool}
    (inv : state.CacheInv) : (state.lock p task abandoned).CacheInv := by
  refine CacheInv.goto ⟨inv.revision, fun q cached opened =>
    let cachedInv := inv.cached q cached opened
    ⟨cachedInv.revision, cachedInv.seen, cachedInv.current⟩, ?_⟩
  intro q task' stage held
  cases held
  cases abandoned with
  | false => exact trivial
  | true => exact pendingInv_repairWrites _ _

theorem CacheInv.abandon {state : State P} {p : P} {task : Task} {ending : Ending}
    (inv : state.CacheInv) : (state.abandon p task ending).CacheInv :=
  inv.free.goto

theorem CacheInv.die {state : State P} {p : P} (inv : state.CacheInv) : (state.die p).CacheInv := by
  unfold State.die
  split
  · split
    · exact inv.abandon
    · exact inv.goto
  · exact inv.goto

theorem CacheInv.update {state : State P} {p : P} {new : CachedRegistry} (inv : state.CacheInv)
    (newInv : state.CachedInv new) (q : P) (cached : CachedRegistry)
    (opened : Function.update state.cached p (some new) q = some cached) :
    state.CachedInv cached := by
  rw [Function.update_apply] at opened
  split at opened
  · cases opened
    exact newInv
  · exact inv.cached q cached opened

theorem CacheInv.readRegistry {state : State P} {p : P} {task : Task} {result : Bool}
    (inv : state.CacheInv) :
    ((state.readRegistry p).stage p task (.leaving result)).CacheInv where
  revision := inv.revision
  cached := fun q cached opened =>
    let cachedInv := inv.update ⟨inv.revision, le_rfl, fun _ => rfl⟩ q cached opened
    ⟨cachedInv.revision, cachedInv.seen, cachedInv.current⟩
  pending := by
    intro q task' stage' held
    cases held
    trivial

theorem CacheInv.startBody {state : State P} {p : P} {task : Task} (inv : state.CacheInv) :
    (state.startBody p task).CacheInv := by
  cases task with
  | openRegistry => exact inv.readRegistry
  | getAll start => exact inv.readRegistry
  | add id =>
      cases slot : state.registry.emptySlot? with
      | some i =>
          simp only [State.startBody, slot]
          exact inv.stage (pendingInv_addWrites _ _ _)
      | none =>
          simp only [State.startBody, slot]
          exact inv.stage trivial
  | remove id | assertRemove id =>
      cases found : state.registry.ourIndex? id with
      | some ourIndex =>
          simp only [State.startBody, found]
          exact inv.stage (pendingInv_removeWrites _ _ _)
      | none =>
          simp only [State.startBody, found]
          exact inv.stage trivial

theorem CacheInv.probe {state : State P} {p : P} {asserts : Bool} {id : ValidId} {i : Nat}
    (inv : state.CacheInv) : (state.probe asserts p id i).CacheInv := by
  unfold State.probe
  split
  · split
    · exact inv.stage trivial
    · exact inv.stage (pendingInv_addWrites _ _ _)
  · split
    · exact inv.abandon
    · exact inv.stage trivial

theorem CacheInv.leave {state : State P} {p : P} {task : Task} {result : Bool}
    (inv : state.CacheInv) : (state.leave p task result).CacheInv := by
  cases task with
  | getAll start => exact inv.free.returnList
  | _ => exact inv.free.goto

theorem CacheInv.advance {state after : State P} {p : P} {task : Task} {stage : Stage}
    {asserts : Bool} (inv : state.CacheInv) (held : state.mutex = .held p task stage)
    (advanced : state.advance asserts p task stage = some after) : after.CacheInv := by
  have pending := inv.pending _ _ _ held
  cases advance_advanced advanced with
  | repaired => exact inv.stage trivial
  | repair => exact inv.written pending .inr
  | body => exact inv.startBody
  | probe => exact inv.probe
  | written => exact inv.stage trivial
  | write => exact inv.written pending .inr
  | leave => exact inv.leave

theorem CacheInv.compare {state : State P} {p : P} {start : Nat} {cached : CachedRegistry}
    (inv : state.CacheInv) (opened : state.cached p = some cached)
    (few : state.increments < cached.incrementsSeen + 2 ^ 32) :
    (state.compare p start cached).CacheInv := by
  have cachedInv := inv.cached p cached opened
  unfold State.compare
  split
  · rename_i same
    obtain ⟨seen_all, current⟩ := cachedInv.same_revision inv few same
    apply CacheInv.returnList
    refine ⟨inv.revision, ?_, ?_⟩
    · intro q cached' opened'
      have updated : state.CachedInv { cached with incrementsSeen := state.increments } :=
        ⟨same.trans inv.revision, le_rfl, fun _ => current⟩
      have cachedInv' := inv.update updated q cached' opened'
      exact ⟨cachedInv'.revision, cachedInv'.seen, cachedInv'.current⟩
    · intro q task stage held
      have pending := inv.pending q task stage held
      have not_behind : ¬ state.AllBehind := fun behind => (behind p cached opened).ne seen_all
      cases stage with
      | repairing writes => exact .inl (pending.resolve_right not_behind)
      | writing writes => exact .inl (pending.resolve_right not_behind)
      | _ => trivial
  · exact inv.goto

end State

end ThreadIpc.ProcessRegistry
