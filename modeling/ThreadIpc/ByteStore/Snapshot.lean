import ThreadIpc.ByteStore.FinishAsync

/-!
# `ByteStore::Blob`

A blob keeps the length that its store had, and reads from the store up to there. The store may have
grown or moved to a file since.
-/

namespace ThreadIpc.ByteStore
open Lib State
open Serialization (Conversion)

namespace Blob

/-- The `max_bytes` that are left of a range that begins inside; the sum overflows when it is `none`. -/
def clamp (blob : Blob) (offset maxBytes : Int) : Option Int :=
  if maxInt64 < offset + maxBytes ∨ offset + maxBytes < -(maxInt64 + 1) then none
  else some (if blob.length ≤ offset + maxBytes then blob.length - offset else maxBytes)

def read (blob : Blob) (offset maxBytes : Int) (state : State) :
    Option (State × Option (List Cell)) :=
  if blob.length ≤ offset then some (state, some [])
  else (blob.clamp offset maxBytes).map fun maxBytes => state.read offset maxBytes

def readDirect (platform : Platform) (blob : Blob) (reader : List Nat) (offset maxBytes : Int)
    (state : State) : Option (State × Option (List ReaderCall)) :=
  if blob.length ≤ offset then some (state, some [])
  else (blob.clamp offset maxBytes).map fun maxBytes =>
    state.readDirect platform reader offset maxBytes

end Blob

structure Blob.Snapshot (platform : Platform) (blob : Blob) (content : List UInt8)
    (offset maxBytes : Int) (state : State) : Prop where
  read : ∃ after, blob.read offset maxBytes state =
    some (after, some ((range content offset.toNat maxBytes.toNat).map some))
  readDirect : ∀ reader, ∃ after calls, blob.readDirect platform reader offset maxBytes state =
    some (after, some calls) ∧ HandsOver (range content offset.toNat maxBytes.toNat) calls

section
variable {conversion : Conversion} {platform : Platform} {content whole : List UInt8}
  {state made : State} {blob : Blob} {offset maxBytes : Int} {before after : AsyncRun}

theorem range_past {offset : Nat} (past : content.length ≤ offset) (maxLength : Nat) :
    range content offset maxLength = [] := by
  rw [range, List.drop_eq_nil_of_le past, List.take_nil]

theorem range_extended (kept : content <+: whole) {offset maxLength : Nat}
    (inside : offset + maxLength ≤ content.length) :
    range whole offset maxLength = range content offset maxLength := by
  obtain ⟨more, rfl⟩ := kept
  rw [range, range, List.drop_append_of_le_length (by omega), List.take_append_of_le_length]
  rw [List.length_drop]
  omega

theorem Shows.snapshot (shows_ : Shows platform whole state) (kept : content <+: whole)
    (length : blob.length = content.length) (offset_nonneg : 0 ≤ offset)
    (maxBytes_nonneg : 0 ≤ maxBytes) (inside : offset < content.length)
    (sum_le : offset + maxBytes ≤ maxInt64) :
    blob.Snapshot platform content offset maxBytes state := by
  have shorter := kept.length_le
  generalize clamped : (if blob.length ≤ offset + maxBytes then blob.length - offset
    else maxBytes) = bytes
  have bytes_nonneg : 0 ≤ bytes := by
    rw [← clamped]
    split <;> omega
  have fits : offset + bytes ≤ content.length := by
    rw [← clamped]
    split <;> omega
  have same : range whole offset.toNat bytes.toNat = range content offset.toNat maxBytes.toNat := by
    rw [range_extended kept (by omega), ← range_cut _ bytes.toNat, ← range_cut _ maxBytes.toNat]
    congr 1
    rw [← clamped]
    split <;> omega
  have within : ¬ state.ReachesPast offset bytes := by
    rintro ⟨_, _, _, _, past⟩
    rw [shows_.length] at past
    omega
  have clamp : blob.clamp offset maxBytes = some bytes := by
    have counted : ¬ (maxInt64 < offset + maxBytes ∨ offset + maxBytes < -(maxInt64 + 1)) := by omega
    rw [Blob.clamp, if_neg counted, clamped]
  have starts : ¬ (blob.length : Int) ≤ offset := by omega
  constructor
  · have answer := (shows_.read_iff offset bytes offset_nonneg bytes_nonneg).mpr within
    refine ⟨(state.read offset bytes).1, ?_⟩
    rw [Blob.read, if_neg starts, clamp, ← same, ← answer]
    rfl
  · intro reader
    obtain ⟨calls, answer, hands⟩ :=
      (shows_.readDirect_iff reader offset bytes offset_nonneg bytes_nonneg).mpr within
    rw [same] at hands
    refine ⟨(state.readDirect platform reader offset bytes).1, calls, ?_, hands⟩
    rw [Blob.readDirect, if_neg starts, clamp, ← answer]
    rfl

theorem snapshot_past (length : blob.length = content.length) (past : content.length ≤ offset) :
    blob.Snapshot platform content offset maxBytes state := by
  have nothing : range content offset.toNat maxBytes.toNat = [] := range_past (by omega) _
  have ends : (blob.length : Int) ≤ offset := by omega
  constructor
  · rw [Blob.read, if_pos ends, nothing]
    exact ⟨state, rfl⟩
  · intro reader
    rw [Blob.readDirect, if_pos ends, nothing]
    exact ⟨state, [], rfl, rfl⟩

theorem Blob.Snapshot.counts (snapshot : blob.Snapshot platform content offset maxBytes state)
    (inside : offset < blob.length) : offset + maxBytes ≤ maxInt64 := by
  obtain ⟨after, answer⟩ := snapshot.read
  by_contra tooLong
  rw [Blob.read, if_neg (Int.not_le.mpr inside), Blob.clamp,
    if_pos (.inl (Int.not_le.mp tooLong))] at answer
  exact nomatch answer

theorem step_content {action : AsyncAction}
    (moved : before.step conversion platform action = some after) :
    before.content <+: after.content := by
  cases action with
  | call action =>
      simp only [AsyncRun.step, AsyncRun.call] at moved
      split at moved
      · obtain ⟨state, _, rfl⟩ := Option.map_eq_some_iff.mp moved
        split
        · exact List.prefix_rfl
        · exact List.prefix_append _ _
      · contradiction
  | write bytes =>
      obtain ⟨state, _, moved⟩ := Option.bind_eq_some_iff.mp moved
      obtain ⟨pending, _, moved⟩ := Option.bind_eq_some_iff.mp moved
      by_cases full : pending.length < pending.wrote.length + bytes.length
      · rw [if_pos full] at moved
        contradiction
      · rw [if_neg full] at moved
        by_cases stray : (state.buffer pending.place).reallocations ≠ pending.block
        · rw [if_pos stray] at moved
          cases moved
          exact List.prefix_rfl
        · rw [if_neg stray] at moved
          cases moved
          exact List.prefix_rfl
  | finish disk length =>
      obtain ⟨state, _, moved⟩ := Option.bind_eq_some_iff.mp moved
      obtain ⟨pending, _, moved⟩ := Option.bind_eq_some_iff.mp moved
      split at moved
      · contradiction
      · split at moved
        · cases moved
          exact List.prefix_rfl
        · cases moved
          exact List.prefix_append _ _

theorem later_content
    (later : Lib.Reachable (AsyncRun.step conversion platform) (AsyncRun.Careful platform)
      before after) : before.content <+: after.content := by
  induction later with
  | start => exact List.prefix_rfl
  | next _ _ moved ih => exact ih.trans (step_content moved)

/-- A blob shows what its store held when it was made, up to where the sum of a range overflows. -/
theorem snapshot_iff (reach : Lib.Reachable (AsyncRun.step conversion platform)
      (AsyncRun.Careful platform) .init before)
    (present : before.store = some made)
    (later : Lib.Reachable (AsyncRun.step conversion platform) (AsyncRun.Careful platform)
      before after)
    (offset_nonneg : 0 ≤ offset) (maxBytes_nonneg : 0 ≤ maxBytes) :
    ∃ state, after.store = some state ∧
      (made.createBlob.Snapshot platform before.content offset maxBytes state ↔
        before.content.length ≤ offset ∨ offset + maxBytes ≤ maxInt64) := by
  obtain ⟨_, same, madeSound⟩ := reachable_sound reach
  obtain rfl : made = _ := Option.some.inj (present.symm.trans same)
  obtain ⟨state, still, sound⟩ := reachable_sound (reach.trans later)
  have length : made.createBlob.length = before.content.length := madeSound.correctIn.shows.length
  refine ⟨state, still, ?_⟩
  constructor
  · intro snapshot
    by_cases past : before.content.length ≤ offset
    · exact .inl past
    · exact .inr (snapshot.counts (by omega))
  · intro within
    by_cases past : before.content.length ≤ offset
    · exact snapshot_past length past
    · have sum_le := within.resolve_left past
      exact sound.correctIn.shows.snapshot (later_content later) length offset_nonneg maxBytes_nonneg
        (Int.not_le.mp past) sum_le

end

def madeOf : AsyncRun :=
  Lib.final (AsyncRun.step ascii .android) (AsyncRun.Careful .android) .init
    [.call (.addData goodDisk (fun _ => 7) 3),
      .call (.addDataDirect (asyncWriter goodDisk [[1, 2]]) 9)] (by decide +kernel)

def movedOn : AsyncRun :=
  Lib.final (AsyncRun.step ascii .android) (AsyncRun.Careful .android) madeOf
    [.write [3, 4], .finish goodDisk 2, .call (.reserve goodDisk 40000),
      .call (.addData goodDisk (fun _ => 8) 2)] (by decide +kernel)

theorem snapshot_moved : ∃ state, movedOn.store = some state ∧
    ((madeOf.store.getD .init).createBlob.Snapshot .android madeOf.content 1 9 state ↔
      madeOf.content.length ≤ (1 : Int) ∨ (1 : Int) + 9 ≤ maxInt64) := by
  have reach : Lib.Reachable (AsyncRun.step ascii .android) (AsyncRun.Careful .android) .init
      madeOf := Lib.reachable_final _ _
  have later : Lib.Reachable (AsyncRun.step ascii .android) (AsyncRun.Careful .android) madeOf
      movedOn := Lib.reachable_final _ _
  have present : madeOf.store = some (madeOf.store.getD .init) := by decide +kernel
  exact snapshot_iff reach present later (by decide) (by decide)

theorem snapshot_overflows :
    Lib.Reachable (AsyncRun.step ascii .android) (AsyncRun.Careful .android) .init madeOf ∧
      ∃ state, madeOf.store = some state ∧ madeOf.content = [7, 7, 7, 1, 2] ∧
        state.createBlob.read 1 maxInt64 state = none ∧
        ¬ state.createBlob.Snapshot .android madeOf.content 1 maxInt64 state := by
  have unknown : (madeOf.store.getD .init).createBlob.read 1 maxInt64 (madeOf.store.getD .init) =
      none := by decide +kernel
  refine ⟨Lib.reachable_final _ _, madeOf.store.getD .init, by decide +kernel, by decide +kernel,
    unknown, ?_⟩
  intro snapshot
  obtain ⟨after, answer⟩ := snapshot.read
  exact nomatch unknown.symm.trans answer

end ThreadIpc.ByteStore
