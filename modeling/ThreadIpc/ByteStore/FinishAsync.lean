import ThreadIpc.ByteStore.Pending

/-!
# When a store is right beside a writer
-/

namespace ThreadIpc.ByteStore
open Lib State
open Serialization (Conversion)

section
variable {conversion : Conversion} {platform : Platform} {content wrote : List UInt8}
  {state after : State} {pending : Pending} {run next : AsyncRun}

theorem Presents.length_le (presents : Presents platform content state)
    (inMemory : state.isUsingData = true) : content.length ≤ state.data.size := by
  have answer := presents.read 0 content.length (Int.le_refl _) (Int.natCast_nonneg _)
  rw [read_inMemory inMemory (Int.le_refl _) (Int.natCast_nonneg _), range, Int.toNat_zero,
    Int.toNat_natCast, List.drop_zero, List.drop_zero, List.take_length, Option.some.injEq] at answer
  have lengths := congrArg List.length answer
  rw [List.length_map, List.length_take] at lengths
  exact lengths ▸ Nat.min_le_right _ _

theorem perform_takes (lends : Lends platform content wrote pending.length state)
    (roomy : state.Roomy platform) (place : pending.place = .data)
    (block : state.data.reallocations = pending.block) {action : Action} {added : List UInt8}
    (performed : state.perform conversion platform action = some (after, added))
    (intact : pending.Intact after) : action.Respects platform state := by
  have inMemory := lends.inMemory
  have stays : after.data.reallocations = state.data.reallocations := by
    have same := intact.block
    rw [place] at same
    exact same.trans block.symm
  have moves {num : Int} (full : state.data.capacity ≤ num)
      (reserved : after.data = state.data.reserve num) : False := by
    rw [reserved, reserve_reallocates full] at stays
    exact Nat.succ_ne_self _ stays
  cases action with
  | reserve disk length =>
      cases performed
      rw [Action.Respects]
      split
      · rename_i small
        by_contra full
        apply moves (Int.not_lt.mp full)
        rw [State.reserve, if_pos inMemory, if_neg (Int.not_lt.mpr small)]
      · rename_i large
        intro created copied
        have still : (state.reserve platform disk length).file = none :=
          Option.isNone_iff_eq_none.mp (intact.inMemory place)
        have fits : state.data.size ≤ maxInt64 := by
          have limit := platform.kMaxBufferSize_le
          exact (lends.size ▸ lends.fits).trans limit
        obtain ⟨opened, file, done⟩ := openFile_succeeds lends.absent created copied fits
        rw [State.reserve, if_pos inMemory, if_pos (Int.not_le.mp large), addDataToFile, done] at still
        cases still
  | getDataElement =>
      cases performed
      by_contra exposed
      rw [Action.Respects, not_or, Bool.not_eq_true, Bool.not_eq_true] at exposed
      apply moves (Int.ofNat_le.mpr roomy.grown.capacity_le)
      rw [State.getDataElement, exposed.1, inMemory, exposed.2]
      rfl
  | addData | addDataDirect | addString | createBlob | read | readDirect | finalize => trivial

theorem call_careful {action : Action} (sound : run.Sound platform state)
    (present : run.store = some state) (called : run.call conversion platform action = some next)
    (correct : next.Correct platform) : run.Careful platform (.call action) := by
  have mayCall : run.MayCall action := by
    by_contra never
    rw [AsyncRun.call, if_neg never] at called
    contradiction
  obtain ⟨after, still, correct⟩ := correct
  have performs : ∃ added, state.perform conversion platform action = some (after, added) ∧
      next.pending = run.pending.or (AsyncRun.started platform state after action) := by
    rw [AsyncRun.call, if_pos mayCall, present, Option.map_some, Option.some.injEq] at called
    split at called
    · cases called
      cases still
    · rename_i performed
      cases called
      cases still
      exact ⟨_, performed, rfl⟩
  obtain ⟨added, performed, waiting⟩ := performs
  constructor
  · intro _ same pending remains place
    obtain rfl : state = _ := Option.some.inj (present.symm.trans same)
    have keeps := sound.kept pending remains
    have block := keeps.block
    rw [place] at block
    rw [remains, Option.some_or] at waiting
    exact perform_takes (keeps.data place).2 sound.roomy place block performed
      (correct.intact pending waiting)
  · have counts {length : Int} (idle : run.pending = none)
        (canCount : 0 < length → state.CanCount length) :
        ∀ store ∈ run.store, store.CanCount length := by
      intro _ same inMemory
      obtain rfl : state = _ := Option.some.inj (present.symm.trans same)
      have holds := (sound.settled idle).1
      rcases lt_or_ge 0 length with positive | nothing
      · exact canCount positive inMemory
      · have fits : state.data.size ≤ maxInt64 := (holds.inMemory inMemory).2.2 ▸ holds.fits
        omega
    cases action with
    | addData disk data length =>
        obtain ⟨_, done, _⟩ := Option.map_eq_some_iff.mp performed
        exact counts mayCall fun positive => addData_canCount positive done
    | addDataDirect writer maxLength =>
        obtain ⟨_, done, _⟩ := Option.map_eq_some_iff.mp performed
        exact counts mayCall fun positive => addDataDirect_canCount positive.le done
    | addString | reserve | getDataElement | createBlob | read | readDirect | finalize => trivial

theorem finish_careful {disk : Disk} {length : Nat} (sound : run.Sound platform state)
    (present : run.store = some state)
    (finished : run.step conversion platform (.finish disk length) = some next)
    (correct : next.Correct platform) : run.Careful platform (.finish disk length) := by
  intro _ same pending remains place
  obtain rfl : state = _ := Option.some.inj (present.symm.trans same)
  by_contra inMemory
  rw [Bool.not_eq_false] at inMemory
  have keeps := sound.kept pending remains
  obtain ⟨_, holds, _⟩ := keeps.writeBuffer place
  have some_ := keeps.some_
  have waiting : ¬ (length = 0 ∧ state.asyncAddLength = 0) := by
    rw [keeps.async]
    omega
  have remains : run.pending = some pending := remains
  simp only [AsyncRun.step, present, remains, bind, Option.bind] at finished
  split at finished
  · contradiction
  · rename_i inside
    rw [State.addDataDirectFinishAsync, if_neg waiting, if_pos inMemory] at finished
    obtain ⟨after, still, correct⟩ := correct
    split at finished
    · cases finished
      cases still
    · rename_i done
      split at done
      · contradiction
      · cases done
        cases finished
        cases still
        have size := @size_resize (state.data.size - (state.asyncAddLength - length)) state.data
        have total : (run.content ++ pending.wrote.take length).length =
            state.data.size + length := by
          rw [List.length_append, List.length_take_of_le (Nat.not_lt.mp inside),
            (holds.inMemory inMemory).2.2]
        have enough : (run.content ++ pending.wrote.take length).length ≤
            (state.data.resize (state.data.size - (state.asyncAddLength - length))).size :=
          (correct.settled rfl).length_le inMemory
        rw [size, total, keeps.async] at enough
        omega

theorem step_sound {action : AsyncAction} (sound : run.Sound platform state)
    (present : run.store = some state) (careful : run.Careful platform action)
    (moved : run.step conversion platform action = some next) :
    ∃ after, next.store = some after ∧ next.Sound platform after := by
  cases action with
  | call action => exact call_sound sound present careful moved
  | write bytes => exact write_sound sound present moved
  | finish disk length => exact finish_sound sound present careful moved

theorem step_correct_iff {action : AsyncAction} (sound : run.Sound platform state)
    (present : run.store = some state)
    (moved : run.step conversion platform action = some next) :
    next.Correct platform ↔ run.Careful platform action := by
  constructor
  · intro correct
    cases action with
    | call action => exact call_careful sound present moved correct
    | write bytes => trivial
    | finish disk length => exact finish_careful sound present moved correct
  · intro careful
    obtain ⟨after, still, sound⟩ := step_sound sound present careful moved
    exact ⟨after, still, sound.correctIn⟩

theorem reachable_sound (reach : Lib.Reachable (AsyncRun.step conversion platform)
      (AsyncRun.Careful platform) .init run) :
    ∃ state, run.store = some state ∧ run.Sound platform state := by
  induction reach with
  | start => exact ⟨.init, rfl, init_sound⟩
  | next _ careful moved ih =>
      obtain ⟨state, present, sound⟩ := ih
      exact step_sound sound present careful moved

/-- A store is right beside a writer up to the first step that is not careful. -/
theorem async_correct_iff (reach : Lib.Reachable (AsyncRun.step conversion platform)
      (AsyncRun.Careful platform) .init run) :
    run.Correct platform ∧ ∀ action next, run.step conversion platform action = some next →
      (next.Correct platform ↔ run.Careful platform action) := by
  obtain ⟨state, present, sound⟩ := reachable_sound reach
  refine ⟨⟨state, present, sound.correctIn⟩, ?_⟩
  intro action next moved
  exact step_correct_iff sound present moved

end

instance (platform : Platform) (state : State) (action : Action) :
    Decidable (action.Respects platform state) :=
  match action with
  | .reserve disk length => inferInstanceAs (Decidable (if length ≤ platform.kMaxBufferSize
      then length < state.data.capacity else disk.creates = true → disk.copy ≠ .complete))
  | .getDataElement =>
      inferInstanceAs (Decidable (state.isFinalized = true ∨ state.preserveData = true))
  | .addData .. | .addDataDirect .. | .addString .. | .createBlob | .read .. | .readDirect ..
  | .finalize => inferInstanceAs (Decidable True)

instance (platform : Platform) (run : AsyncRun) (action : AsyncAction) :
    Decidable (run.Careful platform action) :=
  match action with
  | .call (.addData _ _ length) | .call (.addDataDirect _ length) =>
      inferInstanceAs (Decidable ((∀ state ∈ run.store, ∀ pending ∈ run.pending,
        pending.place = .data → True) ∧ ∀ state ∈ run.store, state.CanCount length))
  | .call (.addString ..) | .call .createBlob | .call (.read ..) | .call (.readDirect ..)
  | .call .finalize =>
      inferInstanceAs (Decidable ((∀ state ∈ run.store, ∀ pending ∈ run.pending,
        pending.place = .data → True) ∧ True))
  | .call (.reserve disk length) =>
      inferInstanceAs (Decidable ((∀ state ∈ run.store, ∀ pending ∈ run.pending,
        pending.place = .data → (Action.reserve disk length).Respects platform state) ∧ True))
  | .call .getDataElement =>
      inferInstanceAs (Decidable ((∀ state ∈ run.store, ∀ pending ∈ run.pending,
        pending.place = .data → Action.getDataElement.Respects platform state) ∧ True))
  | .write _ => inferInstanceAs (Decidable True)
  | .finish _ _ => inferInstanceAs (Decidable (∀ state ∈ run.store, ∀ pending ∈ run.pending,
      pending.place = .writeBuffer → state.isUsingData = false))

def asyncWriter (disk : Disk) (first : List (List UInt8)) : List WriterCall :=
  first.map (⟨some ·, disk⟩) ++ [⟨none, disk⟩]

def threeWriters : List AsyncAction :=
  [.call (.addData goodDisk (fun _ => 7) 2),
    .call (.addDataDirect (asyncWriter goodDisk [[1], [2, 3]]) 9), .write [4, 5],
    .call (.reserve ⟨false, .complete, .complete⟩ 40000), .call (.read 1 3), .call .createBlob,
    .write [6], .finish goodDisk 2, .call (.reserve goodDisk 40000),
    .call (.addDataDirect (asyncWriter goodDisk []) 3), .write [8, 8], .call (.readDirect [4] 0 9),
    .finish fullDisk 2, .call (.addDataDirect (asyncWriter goodDisk [[9]]) 3), .write [10],
    .call .getDataElement, .finish goodDisk 1]

def finished : AsyncRun :=
  Lib.final (AsyncRun.step ascii .android) (AsyncRun.Careful .android) .init threeWriters
    (by decide +kernel)

theorem finished_correct : finished.content = [7, 7, 1, 2, 3, 4, 5, 9, 10] ∧
    finished.Correct .android ∧ ∀ action next, finished.step ascii .android action = some next →
      (next.Correct .android ↔ finished.Careful .android action) := by
  have reach : Lib.Reachable (AsyncRun.step ascii .android) (AsyncRun.Careful .android) .init
      finished := Lib.reachable_final _ _
  exact ⟨by decide +kernel, async_correct_iff reach⟩

def lent : AsyncRun :=
  Lib.final (AsyncRun.step ascii .android) Lib.anyAction .init
    [.call (.addDataDirect (asyncWriter goodDisk []) 2), .write [1]] (by decide +kernel)

def exposed : AsyncRun :=
  Lib.final (AsyncRun.step ascii .android) Lib.anyAction lent [.call .getDataElement]
    (by decide +kernel)

def unfiled : AsyncRun :=
  Lib.final (AsyncRun.step ascii .android) Lib.anyAction .init
    [.call (.addData goodDisk (fun _ => 7) 3),
      .call (.addDataDirect (asyncWriter ⟨false, .complete, .complete⟩ []) 40000),
      .finish goodDisk 0] (by decide +kernel)

theorem writer_in_the_way :
    (Lib.Reachable (AsyncRun.step ascii .android) Lib.anyAction .init lent ∧
      ∃ state, lent.store = some state ∧ state.length = 0 ∧
        (state.read 0 2).2 = some [some 1, none]) ∧
    (Lib.Reachable (AsyncRun.step ascii .android) Lib.anyAction lent exposed ∧
      ∃ state pending, exposed.store = some state ∧ exposed.pending = some pending ∧
        (state.buffer pending.place).reallocations ≠ pending.block ∧ ¬ exposed.Correct .android) ∧
    Lib.Reachable (AsyncRun.step ascii .android) Lib.anyAction .init unfiled ∧
      unfiled.content = [7, 7, 7] ∧ unfiled.store = none ∧ ¬ unfiled.Correct .android := by
  have lost : unfiled.store = none := by decide +kernel
  refine ⟨⟨Lib.reachable_final _ _, ?_⟩, ⟨Lib.reachable_final _ _, ?_⟩, Lib.reachable_final _ _,
    by decide +kernel, lost, ?_⟩
  · exact ⟨_, Option.eq_some_of_isSome (by decide +kernel), by decide +kernel, by decide +kernel⟩
  · have blocks : exposed.store.bind (fun state => exposed.pending.map fun pending =>
        decide ((state.buffer pending.place).reallocations = pending.block)) = some false := by
      decide +kernel
    obtain ⟨state, present, found⟩ := Option.bind_eq_some_iff.mp blocks
    obtain ⟨pending, waiting, elsewhere⟩ := Option.map_eq_some_iff.mp found
    have moved := of_decide_eq_false elsewhere
    refine ⟨state, pending, present, waiting, moved, ?_⟩
    rintro ⟨_, present', correct⟩
    obtain rfl : state = _ := Option.some.inj (present.symm.trans present')
    exact moved (correct.intact pending waiting).block
  · rintro ⟨state, present, _⟩
    exact nomatch lost.symm.trans present

end ThreadIpc.ByteStore
