import Mathlib.Logic.Function.Basic
import Mathlib.Order.Basic

/-!
# Epochs

Epochs are numbered and follow one another: one is open at a time, somebody ends it, and only then
is the next one opened. `ends who epoch time` says who ended an epoch and when.
-/

namespace ThreadIpc.Lib

variable {κ : Type*}

structure Epochs (opened : Nat) (current : Option Nat) (born : Nat → Nat) (ends : κ → Nat → Nat → Prop)
    (now : Nat) : Prop where
  inside : ∀ epoch, current = some epoch → epoch < opened
  running : ∀ epoch, current = some epoch → ∀ who time, ¬ ends who epoch time
  ended : ∀ epoch, epoch < opened → current ≠ some epoch → ∃ who time, ends who epoch time
  span : ∀ who epoch time, ends who epoch time → epoch < opened ∧ born epoch < time ∧ time < now
  past : ∀ epoch, epoch < opened → born epoch < now
  once : ∀ epoch who time other again, ends who epoch time → ends other epoch again → who = other ∧ time = again
  ordered : ∀ epoch later, epoch < later → later < opened →
    ∃ who time, ends who epoch time ∧ time < born later

namespace Epochs

variable {opened now : Nat} {current : Option Nat} {born : Nat → Nat} {ends : κ → Nat → Nat → Prop}

theorem none : Epochs 0 none born (fun (_ : κ) _ _ => False) now := by
  constructor <;> simp

theorem later {after : Nat} (epochs : Epochs opened current born ends now) (passed : now ≤ after) :
    Epochs opened current born ends after where
  inside := epochs.inside
  running := epochs.running
  ended := epochs.ended
  span who epoch time ended := by
    obtain ⟨inside, started, before⟩ := epochs.span who epoch time ended
    exact ⟨inside, started, Nat.lt_of_lt_of_le before passed⟩
  past epoch inside := Nat.lt_of_lt_of_le (epochs.past epoch inside) passed
  once := epochs.once
  ordered := epochs.ordered

theorem congr {ends' : κ → Nat → Nat → Prop} (epochs : Epochs opened current born ends now)
    (same : ∀ who epoch time, ends' who epoch time ↔ ends who epoch time) :
    Epochs opened current born ends' now := by
  have equal : ends' = ends := by
    funext who epoch time
    exact propext (same who epoch time)
  rwa [equal]

theorem start (epochs : Epochs opened Option.none born ends now) :
    Epochs (opened + 1) (some opened) (Function.update born opened now) ends (now + 1) := by
  have old : ∀ epoch, epoch < opened → Function.update born opened now epoch = born epoch := by
    intro epoch inside
    exact Function.update_of_ne (Nat.ne_of_lt inside) _ _
  constructor
  · intro epoch same
    obtain rfl := Option.some.inj same
    exact Nat.lt_succ_self opened
  · intro epoch same who time ended
    obtain rfl := Option.some.inj same
    exact Nat.lt_irrefl opened (epochs.span who opened time ended).1
  · intro epoch inside other
    have before : epoch < opened := by
      apply Nat.lt_of_le_of_ne (Nat.le_of_lt_succ inside)
      rintro rfl
      exact other rfl
    exact epochs.ended epoch before (by simp)
  · intro who epoch time ended
    obtain ⟨inside, started, before⟩ := epochs.span who epoch time ended
    rw [old epoch inside]
    exact ⟨Nat.lt_succ_of_lt inside, started, Nat.lt_succ_of_lt before⟩
  · intro epoch inside
    rcases Nat.lt_succ_iff_lt_or_eq.mp inside with before | rfl
    · rw [old epoch before]
      exact Nat.lt_succ_of_lt (epochs.past epoch before)
    · simp
  · exact epochs.once
  · intro epoch later before inside
    rcases Nat.lt_succ_iff_lt_or_eq.mp inside with earlier | rfl
    · rw [old later earlier]
      exact epochs.ordered epoch later before earlier
    · obtain ⟨who, time, ended⟩ := epochs.ended epoch before (by simp)
      refine ⟨who, time, ended, ?_⟩
      simpa using (epochs.span who epoch time ended).2.2

theorem close {epoch : Nat} {who : κ} (epochs : Epochs opened (some epoch) born ends now) :
    Epochs opened Option.none born
      (fun other ended time => ends other ended time ∨ other = who ∧ ended = epoch ∧ time = now) (now + 1) := by
  have inside := epochs.inside epoch rfl
  constructor
  · simp
  · simp
  · intro other before _
    by_cases same : other = epoch
    · exact ⟨who, now, .inr ⟨rfl, same, rfl⟩⟩
    · obtain ⟨by_, time, ended⟩ := epochs.ended other before (by simpa using Ne.symm same)
      exact ⟨by_, time, .inl ended⟩
  · rintro by_ other time (ended | ⟨rfl, rfl, rfl⟩)
    · obtain ⟨within, started, before⟩ := epochs.span by_ other time ended
      exact ⟨within, started, Nat.lt_succ_of_lt before⟩
    · exact ⟨inside, epochs.past other inside, Nat.lt_succ_self time⟩
  · intro other before
    exact Nat.lt_succ_of_lt (epochs.past other before)
  · intro other by_ time by' time' one two
    rcases one with one | ⟨rfl, rfl, rfl⟩
    · rcases two with two | ⟨rfl, rfl, rfl⟩
      · exact epochs.once other by_ time by' time' one two
      · exact absurd one (epochs.running other rfl by_ time)
    · rcases two with two | ⟨rfl, -, rfl⟩
      · exact absurd two (epochs.running other rfl by' time')
      · exact ⟨rfl, rfl⟩
  · intro other later before within
    obtain ⟨by_, time, ended, earlier⟩ := epochs.ordered other later before within
    exact ⟨by_, time, .inl ended, earlier⟩

theorem ends_iff_first {epoch seen : Nat} (who : κ) (time : Nat) (epochs : Epochs opened current born ends now)
    (inside : epoch < opened) (started : born epoch ≤ seen)
    (running : ∀ other later, ends other epoch later → seen < later) :
    ends who epoch time ↔ (∃ ended, ends who ended time) ∧ seen < time ∧
      ∀ other ended later, ends other ended later → seen < later → time ≤ later := by
  -- an epoch before this one has ended before it was born
  have gone : ∀ {other ended later}, ends other ended later → seen < later → epoch ≤ ended := by
    intro other ended later ends after
    by_contra before
    obtain ⟨by_, end_, same, early⟩ := epochs.ordered ended epoch (Nat.lt_of_not_le before) inside
    obtain ⟨-, rfl⟩ := epochs.once ended by_ end_ other later same ends
    omega
  constructor
  · intro own
    refine ⟨⟨epoch, own⟩, running who time own, ?_⟩
    intro other ended later ends after
    rcases Nat.eq_or_lt_of_le (gone ends after) with rfl | behind
    · exact Nat.le_of_eq (epochs.once epoch who time other later own ends).2
    · obtain ⟨by_, end_, same, early⟩ := epochs.ordered epoch ended behind (epochs.span other ended later ends).1
      obtain ⟨-, rfl⟩ := epochs.once epoch by_ end_ who time same own
      have started := (epochs.span other ended later ends).2.1
      omega
  · rintro ⟨⟨ended, own⟩, after, first⟩
    rcases Nat.eq_or_lt_of_le (gone own after) with rfl | behind
    · exact own
    · obtain ⟨by_, end_, same, early⟩ := epochs.ordered epoch ended behind (epochs.span who ended time own).1
      have sooner := first by_ epoch end_ same (running by_ end_ same)
      have started := (epochs.span who ended time own).2.1
      omega

end Epochs

end ThreadIpc.Lib
