import ThreadIpc.HttpUtils.Buffer
import ThreadIpc.Lib.Delimited

/-!
# Header lines in place

What `SetHeaderFromLine` does with a line does not depend on where the line is, and the bytes that
are written over are written back.
-/

namespace ThreadIpc.HttpUtils

open Lib

@[simp] theorem inside_some {α : Type} (a : α) : inside (some a) = .ok a := rfl

section CString

variable {memory : List UInt8} {i : Nat} {text rest : List UInt8}

theorem charactersAt_of_drop (position : memory.drop i = text ++ 0 :: rest) (noNul : 0 ∉ text) :
    charactersAt memory i = .ok text := by
  have stop : Memory.scan (· != 0) memory i = some (i + text.length) := by
    rw [Memory.scan_of_drop position rfl, takeWhile_absent noNul]
  have length := Memory.length_of_drop position
  have characters := Memory.slice_of_drop position (by omega)
  rw [charactersAt, stop, inside_some]
  exact congrArg inside characters

theorem strchr_of_drop (position : memory.drop i = text ++ 0 :: rest) (noNul : 0 ∉ text)
    {c : UInt8} (character : c ≠ 0) : strchr memory i c =
      .ok (if c ∈ text then some (i + (text.takeWhile (· != c)).length) else none) := by
  by_cases member : c ∈ text
  · obtain ⟨front, behind, same, first⟩ := List.eq_append_cons_of_mem member
    have nonzero : ∀ d ∈ front, (d != c && d != 0) = true := by
      intro d inFront
      rw [Bool.and_eq_true]
      exact ⟨bne_iff_ne.mpr (ne_of_mem_of_not_mem inFront first),
        bne_iff_ne.mpr fun zero => noNul (zero ▸ same ▸ List.mem_append_left _ inFront)⟩
    have here : memory.drop i = front ++ c :: (behind ++ 0 :: rest) := by
      rw [position, same, List.append_assoc, List.cons_append]
    have stop : Memory.scan (fun d => d != c && d != 0) memory i = some (i + front.length) := by
      rw [Memory.scan_of_drop here (by simp), List.takeWhile_eq_self_iff.mpr nonzero]
    have before : text.takeWhile (· != c) = front := by rw [same, takeWhile_delimiter first]
    rw [strchr, stop, inside_some, if_pos member, before]
    show (inside memory[i + front.length]?).bind _ = _
    rw [Memory.getElem?_of_drop here, inside_some]
    simp [Except.bind]
  · have nonzero : ∀ d ∈ text, (d != c && d != 0) = true := by
      intro d inText
      rw [Bool.and_eq_true]
      exact ⟨bne_iff_ne.mpr (ne_of_mem_of_not_mem inText member),
        bne_iff_ne.mpr (ne_of_mem_of_not_mem inText noNul)⟩
    have stop : Memory.scan (fun d => d != c && d != 0) memory i = some (i + text.length) := by
      rw [Memory.scan_of_drop position (by simp), List.takeWhile_eq_self_iff.mpr nonzero]
    rw [strchr, stop, inside_some, if_neg member]
    show (inside memory[i + text.length]?).bind _ = _
    rw [Memory.getElem?_of_drop position, inside_some]
    simp [Except.bind, character.symm]

end CString

section SetHeaderFromLine

variable {memory : List UInt8} {line : Nat} {text rest : List UInt8}

theorem startOf_length (text : CString) :
    (text.takeWhile isBlank).length + (startOf text).length = text.length := by
  rw [startOf, ← List.length_append, List.takeWhile_append_dropWhile]

theorem key_terminated {before after : List UInt8}
    (position : memory.drop line = before ++ colon :: (after ++ 0 :: rest)) (noNul : 0 ∉ before)
    (noNul' : 0 ∉ after) : ∃ oldval memory' start,
      memory[line + (before.rdropWhile (· == space)).length]? = some oldval ∧
      Memory.write memory (line + (before.rdropWhile (· == space)).length) 0 = some memory' ∧
      Memory.scan (· == space) memory' (line + before.length + 1) = some start ∧
      charactersAt memory' line = .ok (before.rdropWhile (· == space)) ∧
      charactersAt memory' start = .ok (after.dropWhile (· == space)) ∧
      Memory.write memory' (line + (before.rdropWhile (· == space)).length) oldval =
        some memory := by
  obtain ⟨spaces, split_⟩ := List.rdropWhile_prefix (· == space) before
  generalize before.rdropWhile (· == space) = key at split_ ⊢
  subst split_
  rw [List.mem_append, not_or] at noNul
  obtain ⟨oldval, tail, behind⟩ : ∃ oldval tail,
      spaces ++ colon :: (after ++ 0 :: rest) = oldval :: tail :=
    List.exists_cons_of_ne_nil (List.append_ne_nil_of_right_ne_nil _ (List.cons_ne_nil _ _))
  have atKey : memory.drop line = key ++ oldval :: tail := by
    rw [position, List.append_assoc, behind]
  have atValue : (memory.set (line + key.length) 0).drop (line + (key ++ spaces).length + 1) =
      after ++ 0 :: rest := by
    have later : line + key.length < line + (key ++ spaces).length + 1 := by
      rw [List.length_append]
      omega
    rw [List.drop_set, if_pos later]
    exact Memory.drop_succ (Memory.drop_further position)
  have value : 0 ∉ after.dropWhile (· == space) := fun member =>
    noNul' ((List.dropWhile_suffix _).subset member)
  have atText : (memory.set (line + key.length) 0).drop
      (line + (key ++ spaces).length + 1 + (after.takeWhile (· == space)).length) =
        after.dropWhile (· == space) ++ 0 :: rest := by
    apply Memory.drop_further
    rw [atValue, ← List.append_assoc, List.takeWhile_append_dropWhile]
  exact ⟨oldval, _, _, Memory.getElem?_of_drop atKey, Memory.write_of_drop atKey,
    Memory.scan_of_drop atValue rfl,
    charactersAt_of_drop (Memory.drop_set_of_drop atKey) noNul.1,
    charactersAt_of_drop atText value, Memory.write_back atKey⟩

theorem setHeaderFromLineAt_eq (headers : HTTPHeaders)
    (position : memory.drop line = text ++ 0 :: rest) (noNul : 0 ∉ text) (mode : Overwrite) :
    headers.setHeaderFromLineAt memory line mode =
      match headers.setHeaderFromLine text mode with
      | none => .error .nullValue
      | some (result, headers) => .ok (result, headers, memory) := by
  have start : Memory.scan isBlank memory line = some (line + (text.takeWhile isBlank).length) :=
    Memory.scan_of_drop position rfl
  have blanks : line < line + (text.takeWhile isBlank).length ↔
      (startOf text).length < text.length := by
    have lengths := startOf_length text
    omega
  rw [HTTPHeaders.setHeaderFromLineAt, HTTPHeaders.setHeaderFromLine, start, inside_some]
  simp only [bind, Except.bind, blanks]
  by_cases continuation : (startOf text).length < text.length
  · simp only [if_pos continuation]
    have atStart : memory.drop (line + (text.takeWhile isBlank).length) =
        startOf text ++ 0 :: rest := by
      apply Memory.drop_further
      rw [position, startOf, ← List.append_assoc, List.takeWhile_append_dropWhile]
    have noNul' : 0 ∉ startOf text := fun member => noNul ((List.dropWhile_suffix _).subset member)
    cases headers.headers.getLast? with
    | none => rfl
    | some last =>
        obtain ⟨first, second⟩ := last
        cases second with
        | none => rfl
        | some second => simp only [charactersAt_of_drop atStart noNul']
  · simp only [if_neg continuation]
    rw [strchr_of_drop position noNul (by decide)]
    by_cases member : colon ∈ text
    · obtain ⟨before, after, same, first⟩ := List.eq_append_cons_of_mem member
      have name : text.takeWhile (· != colon) = before := by rw [same, takeWhile_delimiter first]
      have value : (text.dropWhile (· != colon)).tail = after := by
        rw [same, dropWhile_delimiter first, List.tail_cons]
      have position' : memory.drop line = before ++ colon :: (after ++ 0 :: rest) := by
        rw [position, same, List.append_assoc, List.cons_append]
      have noNuls : 0 ∉ before ∧ 0 ∉ after := by
        rw [same, List.mem_append, List.mem_cons, not_or, not_or] at noNul
        exact ⟨noNul.1, noNul.2.2⟩
      have sliced : Memory.slice memory line (line + before.length) = some before := by
        have length := Memory.length_of_drop position'
        exact Memory.slice_of_drop position' (by omega)
      obtain ⟨oldval, memory', start', old, written, scanned, key, text_, restored⟩ :=
        key_terminated position' noNuls.1 noNuls.2
      simp only [if_pos member, if_neg (fun absent => absent member : ¬ colon ∉ text), name, sliced,
        inside_some, old, written, scanned, key, text_, restored, headerKey, headerValue, value]
    · simp only [if_neg member, if_pos member]

theorem cString_terminated (text rest : List UInt8) :
    ∃ rest', text ++ 0 :: rest = cString text ++ 0 :: rest' := by
  have parts : cString text ++ text.dropWhile (· != 0) = text := List.takeWhile_append_dropWhile
  cases behind : text.dropWhile (· != 0) with
  | nil =>
      rw [behind, List.append_nil] at parts
      exact ⟨rest, by rw [parts]⟩
  | cons c tail =>
      have nul : (c != 0) = false := by
        have first := List.head?_dropWhile_not (· != (0 : UInt8)) text
        rw [behind] at first
        exact first
      have zero : c = 0 := by simpa using nul
      rw [behind, zero] at parts
      refine ⟨tail ++ 0 :: rest, ?_⟩
      rw [← List.cons_append, ← List.append_assoc, parts]

theorem cString_noNul (text : List UInt8) : 0 ∉ cString text := by
  intro member
  have nonzero := List.mem_takeWhile_imp member
  simp at nonzero

theorem setLine_eq (allowConstCast : Bool) {stop : UInt8} (headers : HTTPHeaders)
    (position : memory.drop line = text ++ stop :: rest) :
    setLine allowConstCast memory line (line + text.length) headers =
      match headers.setHeaderFromLine (cString text) .append with
      | none => .error .nullValue
      | some (_, headers) => .ok (headers, memory) := by
  have noNul := cString_noNul text
  cases allowConstCast with
  | true =>
      obtain ⟨rest', terminated⟩ := cString_terminated text rest
      have inPlace : (memory.set (line + text.length) 0).drop line = cString text ++ 0 :: rest' := by
        rw [Memory.drop_set_of_drop position, terminated]
      simp only [setLine, if_true, Memory.getElem?_of_drop position, Memory.write_of_drop position,
        inside_some, bind, Except.bind, setHeaderFromLineAt_eq headers inPlace noNul]
      cases headers.setHeaderFromLine (cString text) .append with
      | none => rfl
      | some result => simp only [Memory.write_back position, inside_some]
  | false =>
      obtain ⟨rest', terminated⟩ := cString_terminated text []
      have length := Memory.length_of_drop position
      have sliced : Memory.slice memory line (line + text.length) = some text :=
        Memory.slice_of_drop position (by omega)
      have copied : (text ++ [0]).drop 0 = cString text ++ 0 :: rest' := terminated
      simp only [setLine, Bool.false_eq_true, if_false, sliced, inside_some, bind, Except.bind,
        setHeaderFromLineAt_eq headers copied noNul]
      cases headers.setHeaderFromLine (cString text) .append <;> rfl

end SetHeaderFromLine

section LineEnd

variable {platform : Platform} {memory : List UInt8}

theorem findLineEnd_cells {contentend start lineEnd : Nat}
    (found : findLineEnd platform memory contentend start = .ok (some lineEnd)) :
    start ≤ lineEnd ∧ memory[lineEnd]? = some cr ∧ memory[lineEnd + 1]? = some lf := by
  apply findLineEnd_induction _ _ start found
  · intro start next cell
    obtain ⟨above, _, character⟩ := memchr_bounds next
    exact ⟨above, character, cell⟩
  · intro start middle next ⟨later, characters⟩
    obtain ⟨above, _, _⟩ := memchr_bounds next
    exact ⟨by omega, characters⟩

theorem nextLineEnd_position {contentend line lineEnd : Nat}
    (found : nextLineEnd platform memory contentend line = .ok (some lineEnd)) :
    ∃ text, memory.drop line = text ++ cr :: lf :: memory.drop (lineEnd + 2) ∧
      lineEnd = line + text.length := by
  obtain ⟨above, cell, cell'⟩ := findLineEnd_cells (findLineEnd_of_next found).2
  have before : lineEnd < memory.length := (List.getElem?_eq_some_iff.mp cell).1
  have behind : memory.drop lineEnd = (memory.drop line).drop (lineEnd - line) := by
    rw [List.drop_drop, Nat.add_sub_cancel' above]
  have length : ((memory.drop line).take (lineEnd - line)).length = lineEnd - line := by
    rw [List.length_take, List.length_drop]
    omega
  refine ⟨(memory.drop line).take (lineEnd - line), ?_, by omega⟩
  rw [← Memory.drop_of_getElem? cell', ← Memory.drop_of_getElem? cell, behind, List.take_append_drop]

end LineEnd

end ThreadIpc.HttpUtils
