import ThreadIpc.File.Model
import Mathlib.Tactic.Common

/-!
# Parent and base name

The base name is that of the path without the separators at its end. The parent is cut off at a
length in which they count.
-/

namespace ThreadIpc.File

structure Stem where
  dir : String16
  name : String16
  named : name ≠ []
  noSeparator : ∀ c ∈ name, c ≠ kPathSeparator
  separated : ∀ c ∈ dir.getLast?, c = kPathSeparator

def Stem.chars (stem : Stem) : String16 := stem.dir ++ stem.name

def Stem.spelled (stem : Stem) (separators : Nat) : String16 :=
  stem.chars ++ List.replicate separators kPathSeparator

def Splits (path parent base : String16) : Prop :=
  ∃ n, path = parent ++ List.replicate n kPathSeparator ++ base ∧
    (1 ≤ n ∨ parent = [kPathSeparator])

def SplitsRight (stem : Stem) (k : Nat) : Prop :=
  ∀ parent, GetParentDirectory (stem.spelled k) = some parent →
    Splits stem.chars parent (GetBaseName (stem.spelled k))

def SameAnswers (path path' : String16) : Prop :=
  GetParentDirectory path = GetParentDirectory path' ∧ GetBaseName path = GetBaseName path'

def Stem.cut (stem : Stem) (k : Nat) : Int := int32 (stem.dir.length + k - 1)

def Stem.CutsRight (stem : Stem) (k : Nat) : Prop :=
  1 ≤ stem.cut k → stem.cut k ≤ stem.dir.length ∧
    ∀ c ∈ stem.dir.drop (stem.cut k).toNat, c = kPathSeparator

section Spelling

theorem exists_spelling {path : String16} (named : ∃ c ∈ path, c ≠ kPathSeparator) :
    ∃ (stem : Stem) (k : Nat), stem.spelled k = path := by
  induction path using List.reverseRecOn with
  | nil => simp at named
  | append_singleton path last ih =>
      by_cases separator : last = kPathSeparator
      · subst separator
        have named' : ∃ c ∈ path, c ≠ kPathSeparator := by simpa using named
        obtain ⟨stem, k, rfl⟩ := ih named'
        refine ⟨stem, k + 1, ?_⟩
        rw [Stem.spelled, Stem.spelled, List.replicate_succ', List.append_assoc]
      · refine ⟨{
          dir := path.rdropWhile (· != kPathSeparator)
          name := path.rtakeWhile (· != kPathSeparator) ++ [last]
          named := by simp
          noSeparator := ?_
          separated := ?_ }, 0, ?_⟩
        · rw [List.forall_mem_append, List.forall_mem_singleton]
          refine ⟨fun c member => ?_, separator⟩
          simpa using List.mem_rtakeWhile_imp member
        · intro c ends
          obtain ⟨some_, rfl⟩ := List.mem_getLast?_eq_getLast ends
          simpa using List.rdropWhile_last_not (· != kPathSeparator) path some_
        · rw [Stem.spelled, Stem.chars, List.replicate_zero, List.append_nil, ← List.append_assoc,
            List.rdropWhile_append_rtakeWhile]

variable (stem : Stem) (k : Nat)

theorem Stem.getLast?_chars : ∀ c ∈ stem.chars.getLast?, c ≠ kPathSeparator := by
  intro c ends
  rw [Stem.chars, List.getLast?_append_of_ne_nil _ stem.named] at ends
  exact stem.noSeparator c (List.mem_of_mem_getLast? ends)

theorem rfind_none {s : String16} (noSeparator : ∀ c ∈ s, c ≠ kPathSeparator) :
    rfind s kPathSeparator = none := by
  rw [rfind, Option.map_eq_none_iff, List.findIdx?_eq_none_iff]
  intro c member
  simpa using noSeparator c (List.mem_reverse.mp member)

theorem rfind_append {front name : String16} (noSeparator : ∀ c ∈ name, c ≠ kPathSeparator) :
    rfind (front ++ kPathSeparator :: name) kPathSeparator = some front.length := by
  have none_ : name.reverse.findIdx? (· == kPathSeparator) = none := by
    rw [List.findIdx?_eq_none_iff]
    intro c member
    simpa using noSeparator c (List.mem_reverse.mp member)
  rw [rfind, List.reverse_append, List.reverse_cons, List.append_assoc, List.findIdx?_append, none_]
  simp [List.findIdx?_cons]

theorem Stem.dir_cases (stem : Stem) :
    stem.dir = [] ∨ ∃ front, stem.dir = front ++ [kPathSeparator] := by
  rcases List.eq_nil_or_concat stem.dir with empty | ⟨front, last, split_⟩
  · exact .inl empty
  · rw [List.concat_eq_append] at split_
    have separator := stem.separated last (by rw [split_, List.getLast?_concat]; rfl)
    exact .inr ⟨front, separator ▸ split_⟩

theorem Stem.getBaseName : GetBaseName (stem.spelled k) = stem.name := by
  have erased : eraseSeparators 0 (stem.spelled k) = stem.chars := by
    rw [Stem.spelled, eraseSeparators_append (Nat.zero_le _),
      eraseSeparators_eq_self stem.getLast?_chars]
  have positive := List.length_pos_iff.mpr stem.named
  rw [GetBaseName]
  split
  · rename_i short
    have lengths := short
    rw [Stem.spelled, Stem.chars, List.length_append, List.length_append, List.length_replicate]
      at lengths
    have dir : stem.dir = [] := List.length_eq_zero_iff.mp (by omega)
    have none_ : k = 0 := by omega
    rw [Stem.spelled, Stem.chars, dir, none_, List.nil_append, List.replicate_zero,
      List.append_nil]
  · simp only [erased]
    rcases stem.dir_cases with empty | ⟨front, split_⟩
    · have chars : stem.chars = stem.name := by rw [Stem.chars, empty, List.nil_append]
      rw [chars, rfind_none stem.noSeparator]
      exact if_neg fun empty => stem.named empty.1
    · have chars : stem.chars = front ++ kPathSeparator :: stem.name := by
        rw [Stem.chars, split_, List.append_assoc, List.singleton_append]
      have behind : (front ++ kPathSeparator :: stem.name).drop (front.length + 1) = stem.name := by
        simp
      rw [chars, rfind_append stem.noSeparator]
      simp only [behind]
      exact if_neg fun empty => stem.named empty.1

theorem Stem.getParentDirectory :
    GetParentDirectory (stem.spelled k) =
      if stem.cut k < 1 then none
      else some (eraseSeparators 1 ((stem.spelled k).take (stem.cut k).toNat)) := by
  have some_ : stem.spelled k ≠ [] := by simp [Stem.spelled, Stem.chars, stem.named]
  have length : ((stem.spelled k).length : Int) - stem.name.length - 1 =
      stem.dir.length + k - 1 := by
    rw [Stem.spelled, Stem.chars, List.length_append, List.length_append, List.length_replicate]
    omega
  rw [GetParentDirectory, if_neg some_, stem.getBaseName]
  simp only [length]
  rfl

end Spelling

section Cut

variable {stem : Stem} {k : Nat}

theorem Stem.take_spelled (inside : stem.cut k ≤ stem.dir.length) :
    (stem.spelled k).take (stem.cut k).toNat = stem.dir.take (stem.cut k).toNat := by
  rw [Stem.spelled, Stem.chars, List.append_assoc, List.take_append_of_le_length]
  omega

theorem Stem.CutsRight.parent (cuts : stem.CutsRight k) (some_ : 1 ≤ stem.cut k) :
    GetParentDirectory (stem.spelled k) = some (eraseSeparators 1 stem.dir) := by
  obtain ⟨inside, separators⟩ := cuts some_
  have rest := List.eq_replicate_of_mem separators
  have whole := List.take_append_drop (stem.cut k).toNat stem.dir
  rw [stem.getParentDirectory, if_neg (by omega), take_spelled inside]
  conv_rhs => rw [← whole, rest]
  rw [eraseSeparators_append]
  rw [List.length_take]
  omega

theorem erased_some_or_root (stem : Stem) {n : Nat}
    (whole : stem.dir = eraseSeparators 1 stem.dir ++ List.replicate n kPathSeparator)
    (nonempty : stem.dir ≠ []) : 1 ≤ n ∨ eraseSeparators 1 stem.dir = [kPathSeparator] := by
  rcases Nat.eq_zero_or_pos n with rfl | positive
  · rw [List.replicate_zero, List.append_nil] at whole
    obtain empty | ⟨front, split_⟩ := stem.dir_cases
    · exact absurd empty nonempty
    · rcases List.eq_nil_or_concat front with rfl | ⟨front, last, rfl⟩
      · rw [split_]
        exact .inr rfl
      · have lengths := congrArg List.length whole
        rw [split_, eraseSeparators_concat (by simp)] at lengths
        obtain ⟨m, shorter⟩ := exists_erased 1 (front.concat last)
        have lengths' := congrArg List.length shorter
        rw [List.length_append] at lengths lengths'
        rw [List.length_singleton] at lengths
        omega
  · exact .inl positive

theorem Stem.CutsRight.splits (cuts : stem.CutsRight k) : SplitsRight stem k := by
  intro parent found
  by_cases some_ : 1 ≤ stem.cut k
  · rw [cuts.parent some_] at found
    cases found
    have inside := (cuts some_).1
    have nonempty : stem.dir ≠ [] := by
      intro empty
      rw [empty, List.length_nil] at inside
      omega
    obtain ⟨n, whole⟩ := exists_erased 1 stem.dir
    refine ⟨n, ?_, erased_some_or_root stem whole nonempty⟩
    rw [stem.getBaseName, ← whole]
    rfl
  · rw [stem.getParentDirectory, if_pos (by omega)] at found
    cases found

theorem Stem.cutsRight_of_splits (splits : SplitsRight stem k) : stem.CutsRight k := by
  intro some_
  obtain ⟨n, whole, _⟩ := splits _ (by rw [stem.getParentDirectory, if_neg (by omega)])
  rw [stem.getBaseName, Stem.chars, List.append_cancel_right_eq] at whole
  obtain ⟨m, taken⟩ := exists_erased 1 ((stem.spelled k).take (stem.cut k).toNat)
  set parent := eraseSeparators 1 ((stem.spelled k).take (stem.cut k).toNat)
  have inside : stem.cut k ≤ stem.dir.length := by
    by_contra longer
    obtain ⟨c, name, named⟩ := List.exists_cons_of_ne_nil stem.named
    have other := stem.noSeparator c (by rw [named]; exact List.mem_cons_self)
    obtain ⟨excess, cut⟩ : ∃ excess, (stem.cut k).toNat = stem.dir.length + (excess + 1) :=
      ⟨(stem.cut k).toNat - stem.dir.length - 1, by omega⟩
    rw [cut, Stem.spelled, Stem.chars, List.append_assoc, List.take_length_add_append, named,
      List.cons_append, List.take_succ_cons, whole, List.append_assoc,
      List.append_cancel_left_eq] at taken
    have member : c ∈ List.replicate m kPathSeparator := by
      rw [← taken]
      exact List.mem_append_right _ List.mem_cons_self
    exact other (List.eq_of_mem_replicate member)
  refine ⟨inside, fun c member => ?_⟩
  rw [take_spelled inside] at taken
  have lengths := congrArg List.length taken
  rw [List.length_take, List.length_append] at lengths
  obtain ⟨d, cut⟩ : ∃ d, (stem.cut k).toNat = parent.length + d :=
    ⟨(stem.cut k).toNat - parent.length, by omega⟩
  rw [whole, cut, List.drop_length_add_append] at member
  exact List.eq_of_mem_replicate (List.mem_of_mem_drop member)

theorem Stem.cutsRight_iff : SplitsRight stem k ↔ stem.CutsRight k :=
  ⟨cutsRight_of_splits, CutsRight.splits⟩

theorem sameAnswers_iff {k' : Nat} (cuts : stem.CutsRight k) (cuts' : stem.CutsRight k') :
    SameAnswers (stem.spelled k) (stem.spelled k') ↔ (1 ≤ stem.cut k ↔ 1 ≤ stem.cut k') := by
  have succeeds {k : Nat} (cuts : stem.CutsRight k) :
      GetParentDirectory (stem.spelled k) =
        if 1 ≤ stem.cut k then some (eraseSeparators 1 stem.dir) else none := by
    split
    · rename_i some_
      exact cuts.parent some_
    · rename_i none_
      rw [stem.getParentDirectory, if_pos (by omega)]
  rw [SameAnswers, stem.getBaseName, stem.getBaseName, succeeds cuts, succeeds cuts']
  by_cases some_ : 1 ≤ stem.cut k <;> by_cases some' : 1 ≤ stem.cut k' <;> simp [some_, some']

theorem Stem.cut_short (short : stem.dir.length + k ≤ 2 ^ 31) :
    stem.cut k = stem.dir.length + k - 1 := by
  rw [cut, int32, Int.bmod_eq_of_le] <;> omega

theorem Stem.cutsRight_short (short : stem.dir.length + k ≤ 2 ^ 31) :
    stem.CutsRight k ↔ k ≤ 1 := by
  rw [CutsRight, cut_short short]
  constructor
  · intro cuts
    by_contra more
    have inside := (cuts (by omega)).1
    omega
  · intro few some_
    refine ⟨by omega, fun c member => ?_⟩
    rcases stem.dir_cases with empty | ⟨front, split_⟩
    · rw [empty, List.drop_nil] at member
      cases member
    · have length : stem.dir.length = front.length + 1 := by
        rw [split_, List.length_append, List.length_singleton]
      obtain ⟨d, cut⟩ : ∃ d, ((stem.dir.length : Int) + k - 1).toNat = front.length + d :=
        ⟨k, by omega⟩
      rw [cut, split_, List.drop_length_add_append] at member
      exact List.mem_singleton.mp (List.mem_of_mem_drop member)

end Cut

/-- For two spellings of a path: right with one separator at the end or none, as long as it is not
the separator that the parent directory has lost. -/
theorem parent_and_base_agree_iff (path : String16) (stem : Stem) (k k' : Nat) :
    ((∀ c ∈ path, c = kPathSeparator) ∨ ∃ (stem : Stem) (k : Nat), stem.spelled k = path) ∧
    (SplitsRight stem k ∧ SplitsRight stem k' ∧ SameAnswers (stem.spelled k) (stem.spelled k') ↔
      stem.CutsRight k ∧ stem.CutsRight k' ∧ (1 ≤ stem.cut k ↔ 1 ≤ stem.cut k')) ∧
    (stem.dir.length + k ≤ 2 ^ 31 → stem.dir.length + k' ≤ 2 ^ 31 →
      (SplitsRight stem k ∧ SplitsRight stem k' ∧
          SameAnswers (stem.spelled k) (stem.spelled k') ↔
        k ≤ 1 ∧ k' ≤ 1 ∧ (k = k' ∨ stem.dir.length ≠ 1))) := by
  refine ⟨?_, ?_⟩
  · by_cases separators : ∀ c ∈ path, c = kPathSeparator
    · exact .inl separators
    · exact .inr (exists_spelling (by simpa using separators))
  have agree : SplitsRight stem k ∧ SplitsRight stem k' ∧
      SameAnswers (stem.spelled k) (stem.spelled k') ↔
        stem.CutsRight k ∧ stem.CutsRight k' ∧ (1 ≤ stem.cut k ↔ 1 ≤ stem.cut k') := by
    rw [Stem.cutsRight_iff, Stem.cutsRight_iff]
    exact and_congr_right fun cuts => and_congr_right fun cuts' => sameAnswers_iff cuts cuts'
  refine ⟨agree, fun short short' => ?_⟩
  rw [agree, Stem.cutsRight_short short, Stem.cutsRight_short short', Stem.cut_short short,
    Stem.cut_short short']
  omega

def relative : Stem :=
  ⟨[], [97], by decide, List.forall_mem_singleton.mpr (by decide), by simp⟩

def inRoot : Stem :=
  ⟨[47], [98], by decide, List.forall_mem_singleton.mpr (by decide), by simp [kPathSeparator]⟩

theorem trailing_separators_count :
    (GetParentDirectory (relative.spelled 2) = some [97] ∧ GetBaseName (relative.spelled 2) = [97]) ∧
    ¬ SplitsRight relative 2 ∧
    GetParentDirectory (inRoot.spelled 0) = none ∧
    GetParentDirectory (inRoot.spelled 1) = some [47] ∧
    ¬ SameAnswers (inRoot.spelled 0) (inRoot.spelled 1) := by
  have parent : GetParentDirectory (relative.spelled 2) = some [97] := by decide
  have base : GetBaseName (relative.spelled 2) = [97] := by decide
  have fails : GetParentDirectory (inRoot.spelled 0) = none := by decide
  have succeeds : GetParentDirectory (inRoot.spelled 1) = some [47] := by decide
  refine ⟨⟨parent, base⟩, ?_, fails, succeeds, ?_⟩
  · intro splits
    obtain ⟨n, same, _⟩ := splits _ parent
    have lengths := congrArg List.length same
    rw [base, List.length_append, List.length_append] at lengths
    have shorter : relative.chars.length = 1 := rfl
    have name : ([97] : String16).length = 1 := rfl
    omega
  · intro same
    cases (fails.symm.trans same.1).trans succeeds

end ThreadIpc.File
