import ThreadIpc.AtomicList.Model
import ThreadIpc.Lib.Threads

/-!
# What `AtomicList` keeps, and when it loses its nodes

No `CompareAndSwap` of `dismiss` ever stores, so no node holds the default again and `put` pushes a
node of its own every time.
-/

namespace ThreadIpc.AtomicList
open AtomicOps (compareAndSwap compareAndSwap_missed)

variable {T V : Type}

/-- `dismiss` has returned the value that was put, and has left it in the node. -/
def Put.Faithful (put : Put V) : Prop :=
  ∀ value left, put.dismissal = .returned value left → value = put.value ∧ left = put.value

def Phase.fresh : Phase V → Option Nat
  | .readOld _ node | .link _ node _ | .publish _ node _ => some node
  | .outside | .readHead _ | .testValue _ _ | .reuse _ _ | .readNext _ _ | .allocate _ | .readValue _ _
  | .dismiss _ _ _ => none

namespace State

def nodes (state : State T V) : List Nat :=
  (state.puts.map Put.node).reverse

def Fits (state : State T V) (default : V) : Phase V → Prop
  | .outside => True
  | .readHead value | .allocate value => value ≠ default
  | .testValue value node | .readNext value node => value ≠ default ∧ node ∈ state.nodes
  | .reuse _ _ => False
  | .readOld value node | .link value node _ =>
      node < state.allocated ∧ node ∉ state.nodes ∧ state.value_ node = value
  | .publish value node old =>
      node < state.allocated ∧ node ∉ state.nodes ∧ state.value_ node = value ∧ state.next_ node = old
  | .readValue put node => ∃ entry, state.puts[put]? = some entry ∧ entry.node = node
  | .dismiss put node value =>
      ∃ entry, state.puts[put]? = some entry ∧ entry.node = node ∧ entry.value = value

end State

structure Sound (default : V) (state : State T V) : Prop where
  linked : Lib.Linked state.next_ state.head_ state.nodes
  valued : ∀ node, node < state.allocated → state.value_ node ≠ default
  puts : ∀ put ∈ state.puts,
    put.node < state.allocated ∧ state.value_ put.node = put.value ∧ put.Faithful
  threads : ∀ thread, state.Fits default (state.phase thread)
  alone : Lib.Apart Phase.fresh state.phase

variable {default : V} {state : State T V}

theorem sound_init : Sound default (.init default : State T V) where
  linked := rfl
  valued := by simp [State.init]
  puts := by simp [State.init]
  threads := fun _ => trivial
  alone := by simp [Lib.Apart, State.init, Phase.fresh]

theorem Sound.listed (sound : Sound default state) {node : Nat} (mem : node ∈ state.nodes) :
    node < state.allocated := by
  obtain ⟨put, member, rfl⟩ := List.mem_map.mp (List.mem_reverse.mp mem)
  exact (sound.puts put member).1

theorem Sound.reaches_iff (sound : Sound default state) {node : Nat} :
    state.Reaches node ↔ node ∈ state.nodes := by
  constructor
  · rintro ⟨nodes, linked, mem⟩
    rwa [linked.unique sound.linked] at mem
  · intro mem
    exact ⟨state.nodes, sound.linked, mem⟩

theorem State.Fits.frame {after : State T V} {phase : Phase V} (fits : state.Fits default phase)
    (nodes : ∀ node ∈ state.nodes, node ∈ after.nodes)
    (fresh : ∀ node, phase.fresh = some node → node < state.allocated → node ∉ state.nodes →
      node < after.allocated ∧ node ∉ after.nodes ∧ after.value_ node = state.value_ node ∧
        after.next_ node = state.next_ node)
    (puts : ∀ (put : Nat) (entry : Put V), state.puts[put]? = some entry →
      ∃ later, after.puts[put]? = some later ∧ later.node = entry.node ∧ later.value = entry.value) :
    after.Fits default phase := by
  cases phase with
  | outside => trivial
  | readHead value => exact fits
  | allocate value => exact fits
  | reuse value node => exact fits
  | testValue value node => exact ⟨fits.1, nodes node fits.2⟩
  | readNext value node => exact ⟨fits.1, nodes node fits.2⟩
  | readOld value node =>
      obtain ⟨below, unlisted, holds⟩ := fits
      obtain ⟨below, unlisted, same, -⟩ := fresh node rfl below unlisted
      exact ⟨below, unlisted, same.trans holds⟩
  | link value node old =>
      obtain ⟨below, unlisted, holds⟩ := fits
      obtain ⟨below, unlisted, same, -⟩ := fresh node rfl below unlisted
      exact ⟨below, unlisted, same.trans holds⟩
  | publish value node old =>
      obtain ⟨below, unlisted, holds, linked⟩ := fits
      obtain ⟨below, unlisted, same, kept⟩ := fresh node rfl below unlisted
      exact ⟨below, unlisted, same.trans holds, kept.trans linked⟩
  | readValue put node =>
      obtain ⟨entry, found, rfl⟩ := fits
      obtain ⟨later, found, node, -⟩ := puts put entry found
      exact ⟨later, found, node⟩
  | dismiss put node value =>
      obtain ⟨entry, found, rfl, rfl⟩ := fits
      obtain ⟨later, found, node, value⟩ := puts put entry found
      exact ⟨later, found, node, value⟩

variable [DecidableEq T] {thread : T}

theorem threads_update {after : State T V} {target : Phase V}
    (moved : after.phase = Function.update state.phase thread target) (own : after.Fits default target)
    (others : ∀ other, other ≠ thread → after.Fits default (state.phase other)) :
    ∀ other, after.Fits default (after.phase other) := by
  rw [moved]
  exact (Function.forall_update_iff state.phase fun _ => after.Fits default).mpr ⟨own, others⟩

theorem Sound.move {target : Phase V} (sound : Sound default state) (own : state.Fits default target)
    (fresh : ∀ node, target.fresh = some node → (state.phase thread).fresh = some node) :
    Sound default (state.move thread target) := by
  refine ⟨sound.linked, sound.valued, sound.puts, threads_update rfl own fun other _ => sound.threads other,
    sound.alone.keep fresh⟩

theorem Sound.scan {value : V} {link : Option Nat} (sound : Sound default state) (proper : value ≠ default)
    (inside : ∀ node, link = some node → node ∈ state.nodes) :
    Sound default (state.move thread (.scan value link)) := by
  cases link with
  | none => exact sound.move proper (by simp [Phase.scan, Phase.fresh])
  | some node => exact sound.move ⟨proper, inside node rfl⟩ (by simp [Phase.scan, Phase.fresh])

theorem Sound.allocate [DecidableEq V] {value : V} (sound : Sound default state) (proper : value ≠ default) :
    Sound default (state.allocate thread value) := by
  have unlisted : state.allocated ∉ state.nodes := by
    intro mem
    exact absurd (sound.listed mem) (by omega)
  have apart : ∀ node, node < state.allocated → node ≠ state.allocated := fun _ below => by omega
  refine ⟨sound.linked.update unlisted, ?_, ?_, threads_update rfl ?_ ?_, sound.alone.update ?_⟩
  · intro node below
    by_cases new : node = state.allocated
    · simpa [State.allocate, new] using proper
    · have old : node < state.allocated := by
        have below : node < state.allocated + 1 := below
        omega
      simpa [State.allocate, new] using sound.valued node old
  · intro put member
    obtain ⟨below, holds, faithful⟩ := sound.puts put member
    refine ⟨Nat.lt_succ_of_lt below, ?_, faithful⟩
    simpa [State.allocate, apart _ below] using holds
  · exact ⟨Nat.lt_succ_self _, unlisted, by simp [State.allocate]⟩
  · intro other _
    refine (sound.threads other).frame (fun _ mem => mem) ?_ (fun _ entry found => ⟨entry, found, rfl, rfl⟩)
    intro node _ below unlisted
    exact ⟨Nat.lt_succ_of_lt below, unlisted, by simp [State.allocate, apart _ below]⟩
  · intro node has other _ also
    obtain rfl := Option.some.inj has
    have fits := sound.threads other
    revert fits also
    cases state.phase other <;> simp +contextual [Phase.fresh, State.Fits]

theorem Sound.link [DecidableEq V] {value : V} {node : Nat} {old : Option Nat} (sound : Sound default state)
    (at_ : state.phase thread = .link value node old) :
    Sound default (state.link thread value node old) := by
  have fits := sound.threads thread
  rw [at_] at fits
  obtain ⟨below, unlisted, holds⟩ := fits
  refine ⟨sound.linked.update unlisted, sound.valued, sound.puts, threads_update rfl ?_ ?_,
    sound.alone.keep ?_⟩
  · exact ⟨below, unlisted, holds, by simp [State.link]⟩
  · intro other different
    refine (sound.threads other).frame (fun _ mem => mem) ?_ (fun _ entry found => ⟨entry, found, rfl, rfl⟩)
    intro own has below unlisted
    refine ⟨below, unlisted, rfl, ?_⟩
    have apart : own ≠ node := by
      rintro rfl
      exact different (sound.alone other thread own has (by rw [at_, Phase.fresh]))
    simp [State.link, apart]
  · intro own has
    rwa [at_]

theorem Sound.publish [DecidableEq V] {value : V} {node : Nat} {old : Option Nat}
    (sound : Sound default state) (at_ : state.phase thread = .publish value node old) :
    Sound default (state.publish thread value node old) := by
  have fits := sound.threads thread
  rw [at_] at fits
  obtain ⟨below, unlisted, holds, linked⟩ := fits
  by_cases found : state.head_ = old
  · have swapped : state.publish thread value node old =
        { state.returnPut thread value node with head_ := some node } := by
      simp [State.publish, found, AtomicOps.compareAndSwap]
    have nodes : (state.publish thread value node old).nodes = node :: state.nodes := by
      simp [swapped, State.nodes, State.returnPut, State.move]
    rw [swapped] at nodes ⊢
    refine ⟨?_, sound.valued, ?_, threads_update rfl trivial ?_, sound.alone.keep (by simp [Phase.fresh])⟩
    · rw [nodes]
      refine ⟨rfl, ?_⟩
      have whole := sound.linked
      rwa [found, ← linked] at whole
    · intro put member
      rcases List.mem_append.mp member with earlier | own
      · exact sound.puts put earlier
      · obtain rfl := List.mem_singleton.mp own
        exact ⟨below, holds, by simp [Put.Faithful]⟩
    · intro other different
      refine (sound.threads other).frame ?_ ?_ ?_
      · intro earlier mem
        rw [nodes]
        exact List.mem_cons_of_mem node mem
      · intro own has below unlisted
        refine ⟨below, ?_, rfl, rfl⟩
        rw [nodes, List.mem_cons, not_or]
        refine ⟨?_, unlisted⟩
        rintro rfl
        exact different (sound.alone other thread own has (by rw [at_, Phase.fresh]))
      · intro put entry found
        refine ⟨entry, ?_, rfl, rfl⟩
        exact (List.getElem?_append_left (List.getElem?_eq_some_iff.mp found).1).trans found
  · have missed : state.publish thread value node old = state.move thread (.readOld value node) := by
      simp [State.publish, found, AtomicOps.compareAndSwap, State.move]
    rw [missed]
    refine sound.move ⟨below, unlisted, holds⟩ ?_
    intro own has
    rwa [at_]

omit [DecidableEq T] in
theorem Sound.mark {put : Nat} {dismissal : Dismissal V} (sound : Sound default state)
    (faithful : ∀ entry, state.puts[put]? = some entry → Put.Faithful { entry with dismissal := dismissal }) :
    Sound default (state.mark put dismissal) := by
  have nodes : (state.mark put dismissal).nodes = state.nodes := by
    rw [State.nodes, State.nodes, State.mark]
    congr 1
    apply List.ext_getElem?
    intro i
    simp only [List.getElem?_map, List.getElem?_modify]
    cases state.puts[i]? with
    | none => rfl
    | some entry => by_cases here : put = i <;> simp [here]
  refine ⟨nodes ▸ sound.linked, sound.valued, ?_, ?_, sound.alone⟩
  · intro entry member
    obtain ⟨i, found⟩ := List.mem_iff_getElem?.mp member
    simp only [State.mark, List.getElem?_modify] at found
    obtain ⟨before, located, rfl⟩ := Option.map_eq_some_iff.mp found
    obtain ⟨below, holds, kept⟩ := sound.puts before (List.mem_of_getElem? located)
    by_cases here : put = i
    · subst here
      simpa using ⟨below, holds, faithful before located⟩
    · simpa [here] using ⟨below, holds, kept⟩
  · intro other
    refine (sound.threads other).frame (by simp [nodes]) (fun node _ below unlisted => ?_) ?_
    · exact ⟨below, nodes.symm ▸ unlisted, rfl, rfl⟩
    · intro i entry found
      refine ⟨if put = i then { entry with dismissal := dismissal } else entry, ?_, ?_⟩
      · simp only [State.mark, List.getElem?_modify, found]
        by_cases here : put = i <;> simp [here]
      · by_cases here : put = i <;> simp [here]

theorem Sound.callDismiss [DecidableEq V] {put : Nat} {after : State T V} (sound : Sound default state)
    (called : state.callDismiss thread put = some after) : Sound default after := by
  unfold State.callDismiss at called
  cases found : state.puts[put]? with
  | none => simp [found] at called
  | some entry =>
      simp only [found, Option.some.injEq] at called
      subst called
      have moved : Sound default (state.move thread (.readValue put entry.node)) :=
        sound.move ⟨entry, found, rfl⟩ (by simp [Phase.fresh])
      exact moved.mark (by simp [Put.Faithful])

theorem Sound.dismiss [DecidableEq V] {put node : Nat} {value : V} (sound : Sound default state)
    (at_ : state.phase thread = .dismiss put node value) :
    Sound default (state.dismiss default thread put node value) := by
  have fits := sound.threads thread
  rw [at_] at fits
  obtain ⟨entry, found, rfl, rfl⟩ := fits
  obtain ⟨below, holds, -⟩ := sound.puts entry (List.mem_of_getElem? found)
  -- the node holds the value, not the default that `CompareAndSwap` looks for
  have missed : state.swapValue entry.node default entry.value = state := by
    rw [State.swapValue, compareAndSwap_missed (sound.valued _ below), Function.update_eq_self]
  have moved : Sound default (state.move thread .outside) := sound.move trivial (by simp [Phase.fresh])
  rw [State.dismiss, missed, holds]
  apply moved.mark
  intro same again
  obtain rfl := Option.some.inj (found.symm.trans again)
  rintro _ _ ⟨⟩
  exact ⟨rfl, rfl⟩

omit [DecidableEq T] in
theorem Sound.head_mem {node : Nat} (sound : Sound default state) (first : state.head_ = some node) :
    node ∈ state.nodes := by
  have linked := sound.linked
  revert linked
  cases state.nodes with
  | nil => simp [first]
  | cons other rest => simp +contextual [first]

theorem Sound.advance [DecidableEq V] {after : State T V} (sound : Sound default state)
    (advanced : state.advance default thread = some after) : Sound default after := by
  have fits := sound.threads thread
  cases at_ : state.phase thread <;> rw [State.advance, at_] at advanced <;>
    simp only [Option.some.injEq, reduceCtorEq] at advanced <;> subst advanced <;> rw [at_] at fits
  case readHead value => exact sound.scan fits fun node => sound.head_mem
  case testValue value node =>
      have held := sound.valued node (sound.listed fits.2)
      rw [State.testValue, if_neg held]
      exact sound.move fits (by simp [Phase.fresh])
  case reuse value node => exact fits.elim
  case readNext value node => exact sound.scan fits.1 fun other => sound.linked.next_mem fits.2
  case allocate value => exact sound.allocate fits
  case readOld value node => exact sound.move fits (by simp [at_, Phase.fresh])
  case link value node old => exact sound.link at_
  case publish value node old => exact sound.publish at_
  case readValue put node =>
      obtain ⟨entry, found, rfl⟩ := fits
      have holds := (sound.puts entry (List.mem_of_getElem? found)).2.1
      exact sound.move ⟨entry, found, rfl, holds.symm⟩ (by simp [Phase.fresh])
  case dismiss put node value => exact sound.dismiss at_

theorem sound_step [DecidableEq V] {after : State T V} {action : Action T V} (sound : Sound default state)
    (proper : Proper default state action) (moved : step default state action = some after) :
    Sound default after := by
  cases action with
  | put thread value =>
      cases at_ : state.phase thread <;> simp only [step, at_, Option.some.injEq, reduceCtorEq] at moved
      subst moved
      exact sound.move proper (by simp [Phase.fresh])
  | dismiss thread put =>
      cases at_ : state.phase thread <;> simp only [step, at_, reduceCtorEq] at moved
      exact sound.callDismiss moved
  | advance thread => exact sound.advance moved

theorem reached_sound [DecidableEq V] (reach : Reached default state) : Sound default state :=
  reach.invariant sound_init fun _ _ _ => sound_step

omit [DecidableEq T] in
theorem Sound.apart (sound : Sound default state) {first second : Nat} {put other : Put V}
    (one : state.puts[first]? = some put) (two : state.puts[second]? = some other)
    (same : put.node = other.node) : first = second := by
  have nodup : (state.puts.map Put.node).Nodup := List.nodup_reverse.mp sound.linked.nodup
  obtain ⟨inside, -⟩ := List.getElem?_eq_some_iff.mp one
  apply (List.getElem?_inj (by simpa using inside) nodup).mp
  simp [one, two, same]

omit [DecidableEq T] in
theorem Sound.kept (sound : Sound default state) : Kept state where
  acyclic := ⟨state.nodes, sound.linked, sound.linked.nodup⟩
  held := by
    intro put member _
    refine ⟨sound.reaches_iff.mpr ?_, (sound.puts put member).2.1⟩
    exact List.mem_reverse.mpr (List.mem_map_of_mem member)
  apart := fun _ _ _ _ one two _ _ => sound.apart one two
  returned := fun put member value left returned => ((sound.puts put member).2.2 value left returned).1

omit [DecidableEq T] in
theorem Sound.integrity_iff (sound : Sound default state) :
    Integrity default state ↔ ∀ put ∈ state.puts, put.live = true := by
  constructor
  · intro integrity put member
    by_contra dead
    obtain ⟨below, holds, faithful⟩ := sound.puts put member
    cases dismissal : put.dismissal with
    | notCalled => simp [Put.live, dismissal] at dead
    | called => simp [Put.live, dismissal] at dead
    | returned value left =>
        have cleared := integrity.reset put member value left dismissal
        have left := (faithful value left dismissal).2
        exact sound.valued _ below (holds.trans (left.symm.trans cleared))
  · intro live
    refine ⟨sound.kept, ?_, ?_⟩
    · intro node reaches _
      obtain ⟨put, member, rfl⟩ := List.mem_map.mp (List.mem_reverse.mp (sound.reaches_iff.mp reaches))
      exact ⟨put, member, live put member, rfl⟩
    · intro put member value left returned
      have alive := live put member
      simp [Put.live, returned] at alive

theorem atomicList_integrity [DecidableEq V] (default : V) (state : State T V) (reach : Reached default state) :
    Kept state ∧ (Integrity default state ↔ ∀ put ∈ state.puts, put.live = true) :=
  ⟨(reached_sound reach).kept, (reached_sound reach).integrity_iff⟩

/-- Two threads put 5 and 7 at once; the one that loses the race for `head_` tries again. -/
def raceRun : List (Action Bool Nat) :=
  [.put false 5, .put true 7, .advance false, .advance true, .advance false, .advance true,
   .advance false, .advance true, .advance false, .advance true, .advance false, .advance true,
   .advance true, .advance true, .advance true]

def raced : State Bool Nat :=
  Lib.final (step 0) (Proper 0) (.init 0) raceRun (by decide +kernel)

theorem raced_integrity : raced.puts = [⟨5, 0, .notCalled⟩, ⟨7, 1, .notCalled⟩] ∧ Integrity 0 raced := by
  have puts : raced.puts = [⟨5, 0, .notCalled⟩, ⟨7, 1, .notCalled⟩] := by
    decide +kernel
  refine ⟨puts, (atomicList_integrity 0 raced (Lib.reachable_final raceRun (by decide +kernel))).2.mpr ?_⟩
  simp [puts, Put.live]

def dismissRun : List (Action Bool Nat) :=
  [.put false 5, .advance false, .advance false, .advance false, .advance false, .advance false,
   .dismiss true 0, .advance true, .advance true]

def dismissed : State Bool Nat :=
  Lib.final (step 0) (Proper 0) (.init 0) dismissRun (by decide +kernel)

theorem atomicList_dismiss_keeps_value :
    ¬ ∀ state : State Bool Nat, Reached 0 state → Integrity 0 state := by
  intro always
  have integrity := always dismissed (Lib.reachable_final dismissRun (by decide +kernel))
  have puts : dismissed.puts = [⟨5, 0, .returned 5 5⟩] := by
    decide +kernel
  have cleared := integrity.reset ⟨5, 0, .returned 5 5⟩ (by simp [puts]) 5 5 rfl
  contradiction

end ThreadIpc.AtomicList
