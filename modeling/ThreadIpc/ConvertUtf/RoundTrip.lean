import Mathlib.Data.Nat.Bitwise
import ThreadIpc.ConvertUtf.Utf8

/-!
# From UTF-8 to UTF-16 and back

`isLegalUTF8` overlooks some sequences behind `0xED` and `0xF4`. What `UTF8ToString16` accepts is
exactly UTF-8 with such sequences in it.
-/

namespace ThreadIpc.ConvertUtf

/-- A sequence that is read as a character, with what `isLegalUTF8` lets through of its second byte. -/
inductive Piece
  | encoded (c : Char)
  | behindED (a b : UInt8) (second : a.toNat < 0x80) (third : isTrailing b = true)
  | behindF4 (a b c : UInt8) (second : a.toNat < 0x80) (third : isTrailing b = true)
      (fourth : isTrailing c = true)

namespace Piece

def bytes : Piece → List UInt8
  | encoded c => String.utf8EncodeChar c
  | behindED a b _ _ => [0xED, a, b]
  | behindF4 a b c _ _ _ => [0xF4, a, b, c]

def char : Piece → Char
  | encoded c => c
  | behindED a b _ _ => Char.ofNat (0xB000 + a.toNat * 64 + (b.toNat - 0x80))
  | behindF4 a b c _ _ _ =>
      Char.ofNat (0x80000 + a.toNat * 4096 + (b.toNat - 0x80) * 64 + (c.toNat - 0x80))

end Piece

theorem isTrailing_iff {a : UInt8} : isTrailing a = true ↔ 0x80 ≤ a.toNat ∧ a.toNat ≤ 0xBF := by
  rw [isTrailing, Bool.and_eq_true, decide_eq_true_eq, decide_eq_true_eq]
  exact Iff.and UInt8.le_iff_toNat_le UInt8.le_iff_toNat_le

theorem isFirst_iff {a : UInt8} :
    isFirst a = true ↔ (a.toNat < 0x80 ∨ 0xC2 ≤ a.toNat) ∧ a.toNat ≤ 0xF4 := by
  constructor
  · intro first
    rw [isFirst, Bool.and_eq_true, Bool.not_eq_true', Bool.and_eq_false_iff] at first
    simp only [decide_eq_false_iff_not, decide_eq_true_eq, UInt8.le_iff_toNat_le, UInt8.lt_iff_toNat_lt]
      at first
    have e80 : (0x80 : UInt8).toNat = 0x80 := rfl
    have ec2 : (0xC2 : UInt8).toNat = 0xC2 := rfl
    have ef4 : (0xF4 : UInt8).toNat = 0xF4 := rfl
    omega
  · rintro ⟨low, high⟩
    exact isFirst_of low high

theorem isSecond_iff {first a : UInt8} : isSecond first a = true ↔ a.toNat ≤ 0xBF ∧
    (if first.toNat = 0xE0 then 0xA0 ≤ a.toNat
    else if first.toNat = 0xED then a.toNat ≤ 0x9F
    else if first.toNat = 0xF0 then 0x90 ≤ a.toNat
    else if first.toNat = 0xF4 then a.toNat ≤ 0x8F
    else 0x80 ≤ a.toNat) := by
  have value {n : UInt8} : first = n ↔ first.toNat = n.toNat := UInt8.toNat_inj.symm
  rw [isSecond, Bool.and_eq_true]
  refine Iff.and ?_ ?_
  · exact decide_eq_true_iff.trans UInt8.le_iff_toNat_le
  · simp only [value, apply_ite (· = true), decide_eq_true_eq, UInt8.le_iff_toNat_le]
    rfl

theorem toNat_ofNat {ch : Nat} (character : ch < 0xD800 ∨ (0xDFFF < ch ∧ ch < 0x110000)) :
    (Char.ofNat ch).toNat = ch := by
  have valid : ch.isValidChar := character
  rw [Char.ofNat, dif_pos valid]
  rfl

structure Accepts (sequence : List UInt8) (c : Char) : Prop where
  legal : isLegalUTF8 sequence = true
  value : codePoint sequence = c.toNat

theorem put_ok {Source Target : Type} {written : List Target} {room : Nat} {source : List Source}
    {more : Nat → Conversion Source Target}
    (ok : (put written room source more).result = .conversionOK) :
    (more (room - written.length)).result = .conversionOK ∧
      (put written room source more).target =
        written ++ (more (room - written.length)).target := by
  by_cases enough : written.length ≤ room
  · exact ⟨put_result enough ▸ ok, put_target enough⟩
  · rw [put, if_pos (Nat.not_le.mp enough)] at ok
    cases ok

theorem putSequence_ok {sequence source : List UInt8} {room : Nat}
    {more : Nat → Conversion UInt8 UInt16}
    (ok : (putSequence sequence room source more).result = .conversionOK) :
    ∃ c, Accepts sequence c ∧ (more (room - (utf16Char c).length)).result = .conversionOK ∧
      (putSequence sequence room source more).target =
        utf16Char c ++ (more (room - (utf16Char c).length)).target := by
  rw [putSequence] at ok ⊢
  split at ok
  · rename_i legal
    rw [if_pos legal]
    simp only at ok ⊢
    split at ok
    · cases ok
    rename_i some_
    rw [if_neg some_]
    split at ok
    · rename_i small
      split at ok
      · cases ok
      rename_i character
      have value : (Char.ofNat (codePoint sequence)).toNat = codePoint sequence :=
        toNat_ofNat (by omega)
      have units : utf16Char (Char.ofNat (codePoint sequence)) = [UInt16.ofNat (codePoint sequence)] := by
        rw [utf16Char, value, if_pos (by omega)]
      rw [if_pos small, if_neg character, ← units]
      rw [← units] at ok
      exact ⟨_, ⟨legal, value.symm⟩, put_ok ok⟩
    · rename_i large
      split at ok
      · cases ok
      rename_i inside
      have value : (Char.ofNat (codePoint sequence)).toNat = codePoint sequence :=
        toNat_ofNat (by omega)
      have units : utf16Char (Char.ofNat (codePoint sequence)) =
          [highSurrogate (codePoint sequence), lowSurrogate (codePoint sequence)] := by
        rw [utf16Char, value, if_neg (by omega), surrogates]
      rw [if_neg large, if_neg inside, ← units]
      rw [← units] at ok
      exact ⟨_, ⟨legal, value.symm⟩, put_ok ok⟩
  · cases ok

theorem codePoint_one (a : UInt8) : codePoint [a] = a.toNat := by
  simp [codePoint, offsetsFromUTF8]

theorem codePoint_two (a b : UInt8) : codePoint [a, b] = a.toNat * 64 + b.toNat - 0x3080 := by
  simp [codePoint, offsetsFromUTF8, Nat.shiftLeft_eq]

theorem codePoint_three (a b c : UInt8) :
    codePoint [a, b, c] = a.toNat * 4096 + b.toNat * 64 + c.toNat - 0xE2080 := by
  simp only [codePoint, offsetsFromUTF8, List.foldl_cons, List.foldl_nil, Nat.shiftLeft_eq]
  simp
  omega

theorem codePoint_four (a b c d : UInt8) : codePoint [a, b, c, d] =
    a.toNat * 262144 + b.toNat * 4096 + c.toNat * 64 + d.toNat - 0x3C82080 := by
  simp only [codePoint, offsetsFromUTF8, List.foldl_cons, List.foldl_nil, Nat.shiftLeft_eq]
  simp
  omega

theorem eq_ofNat {a : UInt8} {n : Nat} (same : a.toNat = n) : a = UInt8.ofNat n := by
  subst same
  exact (UInt8.ofNat_toNat).symm

theorem trailingBytes_range (a : UInt8) :
    (trailingBytesForUTF8 a = 0 → a.toNat < 0xC0) ∧
    (trailingBytesForUTF8 a = 1 → 0xC0 ≤ a.toNat ∧ a.toNat < 0xE0) ∧
    (trailingBytesForUTF8 a = 2 → 0xE0 ≤ a.toNat ∧ a.toNat < 0xF0) ∧
    (trailingBytesForUTF8 a = 3 → 0xF0 ≤ a.toNat) := by
  simp only [trailingBytesForUTF8, UInt8.lt_iff_toNat_lt]
  have ec0 : (0xC0 : UInt8).toNat = 0xC0 := rfl
  have ee0 : (0xE0 : UInt8).toNat = 0xE0 := rfl
  have ef0 : (0xF0 : UInt8).toNat = 0xF0 := rfl
  split_ifs <;> simp <;> omega

theorem accepts_one {a : UInt8} {ch : Char} (accepts : Accepts [a] ch)
    (trailing : trailingBytesForUTF8 a = 0) : [a] = String.utf8EncodeChar ch := by
  obtain ⟨legal, value⟩ := accepts
  have range := (trailingBytes_range a).1 trailing
  rw [codePoint_one] at value
  rw [isLegalUTF8, isFirst_iff] at legal
  have same : ch.val.toNat = ch.toNat := rfl
  simp only [String.utf8EncodeChar, same]
  rw [if_pos (by omega), eq_ofNat value]

theorem accepts_two {a b : UInt8} {ch : Char} (accepts : Accepts [a, b] ch)
    (trailing : trailingBytesForUTF8 a = 1) : [a, b] = String.utf8EncodeChar ch := by
  obtain ⟨legal, value⟩ := accepts
  have range := (trailingBytes_range a).2.1 trailing
  rw [codePoint_two] at value
  rw [isLegalUTF8, Bool.and_eq_true, isSecond_iff, isFirst_iff, if_neg (by omega), if_neg (by omega),
    if_neg (by omega), if_neg (by omega)] at legal
  have first : a.toNat = ch.toNat / 64 % 32 + 0xC0 := by omega
  have second : b.toNat = ch.toNat % 64 + 0x80 := by omega
  have same : ch.val.toNat = ch.toNat := rfl
  simp only [String.utf8EncodeChar, same]
  rw [if_neg (by omega), if_pos (by omega), eq_ofNat first, eq_ofNat second]

theorem accepts_three {a b c : UInt8} {ch : Char} (accepts : Accepts [a, b, c] ch)
    (trailing : trailingBytesForUTF8 a = 2) :
    ∃ piece : Piece, [a, b, c] = piece.bytes ∧ ch = piece.char := by
  obtain ⟨legal, value⟩ := accepts
  have range := (trailingBytes_range a).2.2.1 trailing
  rw [codePoint_three] at value
  rw [isLegalUTF8, Bool.and_eq_true, Bool.and_eq_true, isSecond_iff, isFirst_iff, isTrailing_iff] at legal
  by_cases overlooked : a.toNat = 0xED ∧ b.toNat < 0x80
  · have third : isTrailing c = true := isTrailing_iff.mpr legal.1.1
    have value : ch.toNat = 0xB000 + b.toNat * 64 + (c.toNat - 0x80) := by omega
    refine ⟨.behindED b c overlooked.2 third, ?_, ?_⟩
    · exact congrArg (· :: [b, c]) (eq_ofNat overlooked.1)
    · exact (Char.ofNat_toNat ch).symm.trans (congrArg Char.ofNat value)
  · refine ⟨.encoded ch, ?_, rfl⟩
    have second : 0x80 ≤ b.toNat ∧ (a.toNat = 0xE0 → 0xA0 ≤ b.toNat) := by
      obtain ⟨⟨-, -, bound⟩, -⟩ := legal
      split_ifs at bound <;> omega
    have first : a.toNat = ch.toNat / 4096 % 16 + 0xE0 := by omega
    have next : b.toNat = ch.toNat / 64 % 64 + 0x80 := by omega
    have last : c.toNat = ch.toNat % 64 + 0x80 := by omega
    have same : ch.val.toNat = ch.toNat := rfl
    simp only [Piece.bytes, String.utf8EncodeChar, same]
    rw [if_neg (by omega), if_neg (by omega), if_pos (by omega), eq_ofNat first, eq_ofNat next,
      eq_ofNat last]

theorem accepts_four {a b c d : UInt8} {ch : Char} (accepts : Accepts [a, b, c, d] ch)
    (trailing : trailingBytesForUTF8 a = 3) :
    ∃ piece : Piece, [a, b, c, d] = piece.bytes ∧ ch = piece.char := by
  obtain ⟨legal, value⟩ := accepts
  have range := (trailingBytes_range a).2.2.2 trailing
  rw [codePoint_four] at value
  rw [isLegalUTF8, Bool.and_eq_true, Bool.and_eq_true, Bool.and_eq_true, isSecond_iff, isFirst_iff,
    isTrailing_iff, isTrailing_iff] at legal
  by_cases overlooked : a.toNat = 0xF4 ∧ b.toNat < 0x80
  · have third : isTrailing c = true := isTrailing_iff.mpr legal.1.1.2
    have fourth : isTrailing d = true := isTrailing_iff.mpr legal.1.1.1
    have value : ch.toNat =
        0x80000 + b.toNat * 4096 + (c.toNat - 0x80) * 64 + (d.toNat - 0x80) := by omega
    refine ⟨.behindF4 b c d overlooked.2 third fourth, ?_, ?_⟩
    · exact congrArg (· :: [b, c, d]) (eq_ofNat overlooked.1)
    · exact (Char.ofNat_toNat ch).symm.trans (congrArg Char.ofNat value)
  · refine ⟨.encoded ch, ?_, rfl⟩
    have second : 0x80 ≤ b.toNat ∧ (a.toNat = 0xF0 → 0x90 ≤ b.toNat) := by
      obtain ⟨⟨-, -, bound⟩, -⟩ := legal
      split_ifs at bound <;> omega
    have first : a.toNat = ch.toNat / 262144 % 8 + 0xF0 := by omega
    have next : b.toNat = ch.toNat / 4096 % 64 + 0x80 := by omega
    have third : c.toNat = ch.toNat / 64 % 64 + 0x80 := by omega
    have last : d.toNat = ch.toNat % 64 + 0x80 := by omega
    have same : ch.val.toNat = ch.toNat := rfl
    simp only [Piece.bytes, String.utf8EncodeChar, same]
    rw [if_neg (by omega), if_neg (by omega), if_neg (by omega), eq_ofNat first, eq_ofNat next,
      eq_ofNat third, eq_ofNat last]

namespace Piece

theorem encodes (piece : Piece) : Encodes piece.char.toNat piece.bytes := by
  cases piece with
  | encoded c => exact encodes_char c
  | behindED a b second third =>
      have third' := isTrailing_iff.mp third
      have value : (behindED a b second third).char.toNat = 0xB000 + a.toNat * 64 + (b.toNat - 0x80) :=
        toNat_ofNat (by omega)
      refine ⟨fun rest room => convertUTF8toUTF16.eq_4 room 0xED a b rest rfl, ?_, ?_⟩
      · rw [bytes, isLegalUTF8, third, Bool.true_and, Bool.and_eq_true, isSecond_iff]
        exact ⟨⟨by omega, show a.toNat ≤ 0x9F by omega⟩, rfl⟩
      · rw [bytes, codePoint_three, value]
        have first : (0xED : UInt8).toNat = 0xED := rfl
        omega
  | behindF4 a b c second third fourth =>
      have third' := isTrailing_iff.mp third
      have fourth' := isTrailing_iff.mp fourth
      have value : (behindF4 a b c second third fourth).char.toNat =
          0x80000 + a.toNat * 4096 + (b.toNat - 0x80) * 64 + (c.toNat - 0x80) :=
        toNat_ofNat (by omega)
      refine ⟨fun rest room => convertUTF8toUTF16.eq_5 room 0xF4 a b c rest rfl, ?_, ?_⟩
      · rw [bytes, isLegalUTF8, third, fourth, Bool.true_and, Bool.true_and, Bool.and_eq_true,
          isSecond_iff]
        exact ⟨⟨by omega, show a.toNat ≤ 0x8F by omega⟩, rfl⟩
      · rw [bytes, codePoint_four, value]
        have first : (0xF4 : UInt8).toNat = 0xF4 := rfl
        omega

def units (piece : Piece) : List UInt16 := utf16Char piece.char

theorem units_length_le (piece : Piece) : piece.units.length ≤ piece.bytes.length := by
  have few : piece.units.length ≤ 2 := by
    rw [units, utf16Char]
    split
    · exact Nat.le_succ 1
    · exact Nat.le_refl 2
  cases piece with
  | encoded c => exact utf16Char_length_le c
  | behindED a b second third => exact Nat.le_succ_of_le few
  | behindF4 a b c second third fourth => exact Nat.le_trans few (Nat.le_add_left 2 2)

end Piece

theorem flatMap_units_length_le (pieces : List Piece) :
    (pieces.flatMap Piece.units).length ≤ (pieces.flatMap Piece.bytes).length := by
  induction pieces with
  | nil => exact Nat.le_refl 0
  | cons piece pieces ih =>
      rw [List.flatMap_cons, List.flatMap_cons, List.length_append, List.length_append]
      exact Nat.add_le_add piece.units_length_le ih

theorem convertUTF8toUTF16_pieces (pieces : List Piece) {room : Nat}
    (enough : (pieces.flatMap Piece.units).length ≤ room) :
    convertUTF8toUTF16 (pieces.flatMap Piece.bytes) room =
      ⟨.conversionOK, [], pieces.flatMap Piece.units⟩ := by
  induction pieces generalizing room with
  | nil => rfl
  | cons piece pieces ih =>
      rw [List.flatMap_cons, List.length_append] at enough
      rw [List.flatMap_cons, piece.encodes.convertUTF8toUTF16 _ (Nat.le_of_add_right_le enough), put,
        if_neg (by rw [← Piece.units]; omega), ih (by rw [← Piece.units]; omega)]
      rfl

def Reads (bytes : List UInt8) : Prop :=
  ∀ room, (convertUTF8toUTF16 bytes room).result = .conversionOK →
    ∃ pieces : List Piece, bytes = pieces.flatMap Piece.bytes ∧
      (convertUTF8toUTF16 bytes room).target = pieces.flatMap Piece.units

theorem Reads.cons {sequence rest : List UInt8}
    (read : ∀ room, convertUTF8toUTF16 (sequence ++ rest) room =
      putSequence sequence room (sequence ++ rest) (convertUTF8toUTF16 rest))
    (pieceOf : ∀ ch, Accepts sequence ch → ∃ piece : Piece, sequence = piece.bytes ∧ ch = piece.char)
    (reads : Reads rest) : Reads (sequence ++ rest) := by
  intro room ok
  rw [read] at ok ⊢
  obtain ⟨ch, accepts, later, target⟩ := putSequence_ok ok
  obtain ⟨piece, rfl, rfl⟩ := pieceOf ch accepts
  obtain ⟨pieces, same, units⟩ := reads _ later
  refine ⟨piece :: pieces, ?_, ?_⟩
  · rw [List.flatMap_cons, ← same]
  · rw [List.flatMap_cons, ← units, target, Piece.units]

theorem reads_all (bytes : List UInt8) : Reads bytes := by
  induction length : bytes.length using Nat.strongRecOn generalizing bytes with
  | ind n ih =>
      have behind (rest : List UInt8) (short : rest.length < bytes.length) : Reads rest :=
        ih _ (length ▸ short) rest rfl
      clear ih
      intro room
      cases bytes, room using convertUTF8toUTF16.induct with
      | case1 => exact fun _ => ⟨[], rfl, rfl⟩
      | case2 a room rest trailing =>
          exact Reads.cons (fun room => convertUTF8toUTF16.eq_2 room a rest trailing)
            (fun ch accepts => ⟨.encoded ch, accepts_one accepts trailing, rfl⟩)
            (behind rest (by simp only [List.length_cons]; omega)) room
      | case3 a room b rest trailing =>
          exact Reads.cons (fun room => convertUTF8toUTF16.eq_3 room a b rest trailing)
            (fun ch accepts => ⟨.encoded ch, accepts_two accepts trailing, rfl⟩)
            (behind rest (by simp only [List.length_cons]; omega)) room
      | case4 a room b c rest trailing =>
          exact Reads.cons (fun room => convertUTF8toUTF16.eq_4 room a b c rest trailing)
            (fun ch accepts => accepts_three accepts trailing)
            (behind rest (by simp only [List.length_cons]; omega)) room
      | case5 a room b c d rest trailing =>
          exact Reads.cons (fun room => convertUTF8toUTF16.eq_5 room a b c d rest trailing)
            (fun ch accepts => accepts_four accepts trailing)
            (behind rest (by simp only [List.length_cons]; omega)) room
      | case6 a room b c d e rest trailing =>
          intro ok
          rw [convertUTF8toUTF16.eq_6 room a b c d e rest trailing] at ok
          cases ok
      | case7 a room b c d e f rest trailing =>
          intro ok
          rw [convertUTF8toUTF16.eq_7 room a b c d e f rest trailing] at ok
          cases ok
      | case8 a room rest zero one two three four five =>
          intro ok
          rw [convertUTF8toUTF16.eq_8 room a rest zero one two three four five] at ok
          cases ok

theorem utf8ToString16_pieces (pieces : List Piece) :
    utf8ToString16 (pieces.flatMap Piece.bytes) = some (pieces.flatMap Piece.units) := by
  have whole : convertUTF8toUTF16 (pieces.flatMap Piece.bytes) (pieces.flatMap Piece.bytes).length =
      ⟨.conversionOK, [], pieces.flatMap Piece.units⟩ :=
    convertUTF8toUTF16_pieces pieces (flatMap_units_length_le pieces)
  rw [utf8ToString16]
  split
  · rename_i empty
    have none_ := flatMap_units_length_le pieces
    rw [empty, List.length_nil, Nat.le_zero, List.length_eq_zero_iff] at none_
    rw [none_]
  · simp only [whole, if_true]

theorem exists_pieces {bytes : List UInt8} {units : List UInt16} (read : utf8ToString16 bytes = some units) :
    ∃ pieces : List Piece, bytes = pieces.flatMap Piece.bytes ∧ units = pieces.flatMap Piece.units := by
  rw [utf8ToString16] at read
  split at read
  · rename_i empty
    exact ⟨[], empty, (Option.some.inj read).symm⟩
  · simp only at read
    split at read
    · rename_i ok
      obtain ⟨pieces, same, units⟩ := reads_all bytes _ ok
      exact ⟨pieces, same, (Option.some.inj read).symm.trans units⟩
    · cases read

theorem utf8ToString16_eq_some_iff {bytes : List UInt8} {units : List UInt16} :
    utf8ToString16 bytes = some units ↔ ∃ pieces : List Piece,
      bytes = pieces.flatMap Piece.bytes ∧ units = pieces.flatMap Piece.units := by
  constructor
  · exact exists_pieces
  · rintro ⟨pieces, rfl, rfl⟩
    exact utf8ToString16_pieces pieces

theorem or_mark {bits number : Nat} (small : number < 2 ^ bits) (mark : Nat) :
    number ||| 2 ^ bits * mark = number + 2 ^ bits * mark := by
  rw [Nat.add_comm, Nat.two_pow_add_eq_or_of_lt small, Nat.or_comm]

theorem or_and_trailing (ch : Nat) : (ch ||| 0x80) &&& 0xBF = ch % 64 + 0x80 := by
  have low : ch % 2 ^ 6 < 2 ^ 7 := Nat.lt_of_lt_of_le (Nat.mod_lt ch (by decide)) (by decide)
  have bits : ∀ i < 8, ∀ bit : Bool, ((bit || Nat.testBit 0x80 i) && Nat.testBit 0xBF i) =
      (decide (i < 6) && bit || Nat.testBit 0x80 i) := by decide
  have high {n i : Nat} (small : n < 2 ^ 8) (large : 8 ≤ i) : n.testBit i = false :=
    Nat.testBit_lt_two_pow (Nat.lt_of_lt_of_le small (Nat.pow_le_pow_right (by decide) large))
  calc (ch ||| 0x80) &&& 0xBF = ch % 2 ^ 6 ||| 0x80 := by
        apply Nat.eq_of_testBit_eq
        intro i
        rw [Nat.testBit_and, Nat.testBit_or, Nat.testBit_or, Nat.testBit_mod_two_pow]
        rcases Nat.lt_or_ge i 8 with small | large
        · exact bits i small _
        · rw [@high 0xBF i (by decide) large, @high 0x80 i (by decide) large, decide_eq_false (by omega)]
          simp
    _ = ch % 64 + 0x80 := or_mark low 1

theorem utf8Bytes_char (c : Char) : utf8Bytes c.toNat = String.utf8EncodeChar c := by
  have valid : c.toNat < 0xD800 ∨ (0xDFFF < c.toNat ∧ c.toNat < 0x110000) := c.valid
  have same : c.val.toNat = c.toNat := rfl
  simp only [utf8Bytes, String.utf8EncodeChar, same, writeBytes, or_and_trailing, firstByteMark,
    Nat.shiftRight_eq_div_pow, Nat.div_div_eq_div_mul, List.getD_cons_succ, List.getD_cons_zero]
  by_cases one : c.toNat < 0x80
  · rw [if_pos one, if_pos (by omega), Nat.or_zero]
  by_cases two : c.toNat < 0x800
  · have first : c.toNat / 2 ^ 6 ||| 0xC0 = c.toNat / 64 % 32 + 0xC0 :=
      (@or_mark 6 _ (by omega) 3).trans (by omega)
    rw [if_neg one, if_pos two, if_neg (by omega), if_pos (by omega), first]
  by_cases three : c.toNat < 0x10000
  · have first : c.toNat / (2 ^ 6 * 2 ^ 6) ||| 0xE0 = c.toNat / 4096 % 16 + 0xE0 :=
      (@or_mark 5 _ (by omega) 7).trans (by omega)
    rw [if_neg one, if_neg two, if_pos three, if_neg (by omega), if_neg (by omega), if_pos (by omega),
      first]
  · have first : c.toNat / (2 ^ 6 * 2 ^ 6 * 2 ^ 6) ||| 0xF0 = c.toNat / 262144 % 8 + 0xF0 :=
      (@or_mark 4 _ (by omega) 15).trans (by omega)
    rw [if_neg one, if_neg two, if_neg three, if_pos (by omega), if_neg (by omega), if_neg (by omega),
      if_neg (by omega), first]

theorem isHigh_iff {ch : Nat} : isHighSurrogate ch = true ↔ 0xD800 ≤ ch ∧ ch ≤ 0xDBFF := by
  rw [isHighSurrogate, Bool.and_eq_true, decide_eq_true_eq, decide_eq_true_eq]

theorem isLow_iff {ch : Nat} : isLowSurrogate ch = true ↔ 0xDC00 ≤ ch ∧ ch ≤ 0xDFFF := by
  rw [isLowSurrogate, Bool.and_eq_true, decide_eq_true_eq, decide_eq_true_eq]

theorem exists_text_of_isPaired {units : List UInt16} (paired : isPaired units = true) :
    ∃ text, units = utf16 text ∧ encodeUnits units = utf8 text := by
  induction units using isPaired.induct with
  | case1 => exact ⟨[], rfl, rfl⟩
  | case2 ch high => simp [isPaired, high] at paired
  | case3 ch high ch2 rest ih =>
      rw [isPaired.eq_def] at paired
      simp only [high, if_true, Bool.and_eq_true] at paired
      obtain ⟨text, units, bytes⟩ := ih paired.2
      have first := isHigh_iff.mp high
      have second := isLow_iff.mp paired.1
      have pair : fromPair ch.toNat ch2.toNat =
          (ch.toNat - 0xD800) * 1024 + (ch2.toNat - 0xDC00) + 0x10000 := by
        rw [fromPair, Nat.shiftLeft_eq]
      have value : (Char.ofNat (fromPair ch.toNat ch2.toNat)).toNat = fromPair ch.toNat ch2.toNat :=
        toNat_ofNat (by omega)
      refine ⟨Char.ofNat (fromPair ch.toNat ch2.toNat) :: text, ?_, ?_⟩
      · have high' : 0xD800 + (fromPair ch.toNat ch2.toNat - 0x10000) / 1024 = ch.toNat := by omega
        have low' : 0xDC00 + (fromPair ch.toNat ch2.toNat - 0x10000) % 1024 = ch2.toNat := by omega
        rw [utf16, List.flatMap_cons, ← utf16, ← units, utf16Char, value, if_neg (by omega), high',
          low', UInt16.ofNat_toNat, UInt16.ofNat_toNat]
        rfl
      · rw [encodeUnits.eq_def]
        simp only [high, if_true]
        rw [bytes, utf8, utf8, List.flatMap_cons, ← utf8Bytes_char, value]
  | case4 ch rest high ih =>
      rw [isPaired.eq_def] at paired
      simp only [high, Bool.and_eq_true, Bool.not_eq_true', Bool.false_eq_true, if_false] at paired
      obtain ⟨text, units, bytes⟩ := ih paired.2
      have alone : ¬(0xD800 ≤ ch.toNat ∧ ch.toNat ≤ 0xDBFF) := fun both => high (isHigh_iff.mpr both)
      have alone' : ¬(0xDC00 ≤ ch.toNat ∧ ch.toNat ≤ 0xDFFF) := fun both =>
        Bool.false_ne_true (paired.1.symm.trans (isLow_iff.mpr both))
      have small := ch.toNat_lt
      have value : (Char.ofNat ch.toNat).toNat = ch.toNat := toNat_ofNat (by omega)
      refine ⟨Char.ofNat ch.toNat :: text, ?_, ?_⟩
      · rw [utf16, List.flatMap_cons, ← utf16, ← units, utf16Char, value, if_pos (by omega),
          UInt16.ofNat_toNat, List.singleton_append]
      · rw [encodeUnits.eq_def]
        simp only [high, Bool.false_eq_true, if_false]
        rw [bytes, utf8, utf8, List.flatMap_cons, ← utf8Bytes_char, value]

theorem encodeUnits_utf16Char (c : Char) (rest : List UInt16) :
    isPaired (utf16Char c ++ rest) = isPaired rest ∧
      encodeUnits (utf16Char c ++ rest) = String.utf8EncodeChar c ++ encodeUnits rest := by
  have valid : c.toNat < 0xD800 ∨ (0xDFFF < c.toNat ∧ c.toNat < 0x110000) := c.valid
  rw [utf16Char, ← utf8Bytes_char]
  by_cases small : c.toNat < 0x10000
  · have unit : (UInt16.ofNat c.toNat).toNat = c.toNat := by
      rw [UInt16.toNat_ofNat']
      omega
    have high : isHighSurrogate c.toNat = false := by
      rw [Bool.eq_false_iff, ne_eq, isHigh_iff]
      omega
    have low : isLowSurrogate c.toNat = false := by
      rw [Bool.eq_false_iff, ne_eq, isLow_iff]
      omega
    rw [if_pos small, List.singleton_append, isPaired.eq_def, encodeUnits.eq_def]
    simp only [high, low, unit, Bool.false_eq_true, if_false, Bool.not_false, Bool.true_and]
    trivial
  · have first : (UInt16.ofNat (0xD800 + (c.toNat - 0x10000) / 1024)).toNat =
        0xD800 + (c.toNat - 0x10000) / 1024 := by
      rw [UInt16.toNat_ofNat']
      omega
    have second : (UInt16.ofNat (0xDC00 + (c.toNat - 0x10000) % 1024)).toNat =
        0xDC00 + (c.toNat - 0x10000) % 1024 := by
      rw [UInt16.toNat_ofNat']
      omega
    have high := isHigh_iff.mpr (show 0xD800 ≤ 0xD800 + (c.toNat - 0x10000) / 1024 ∧
      0xD800 + (c.toNat - 0x10000) / 1024 ≤ 0xDBFF by omega)
    have low := isLow_iff.mpr (show 0xDC00 ≤ 0xDC00 + (c.toNat - 0x10000) % 1024 ∧
      0xDC00 + (c.toNat - 0x10000) % 1024 ≤ 0xDFFF by omega)
    have pair : fromPair (0xD800 + (c.toNat - 0x10000) / 1024)
        (0xDC00 + (c.toNat - 0x10000) % 1024) = c.toNat := by
      rw [fromPair, Nat.shiftLeft_eq]
      omega
    rw [if_neg small, List.cons_append, List.singleton_append, isPaired.eq_def, encodeUnits.eq_def]
    simp only [first, second, high, low, pair, if_true, Bool.true_and]
    trivial

theorem encodeUnits_utf16 (text : List Char) :
    isPaired (utf16 text) = true ∧ encodeUnits (utf16 text) = utf8 text := by
  induction text with
  | nil => exact ⟨rfl, rfl⟩
  | cons c text ih =>
      obtain ⟨paired, bytes⟩ := encodeUnits_utf16Char c (utf16 text)
      rw [utf16, List.flatMap_cons, ← utf16, paired, bytes, ih.2]
      exact ⟨ih.1, rfl⟩

theorem string16ToUTF8_eq_some_iff {units : List UInt16} {bytes : List UInt8} :
    string16ToUTF8 units = some bytes ↔ units.length ≤ intMax / 4 ∧
      ∃ text, units = utf16 text ∧ bytes = utf8 text := by
  rw [string16ToUTF8_some_iff]
  constructor
  · rintro ⟨paired, short, rfl⟩
    exact ⟨short, exists_text_of_isPaired paired⟩
  · rintro ⟨short, text, rfl, rfl⟩
    exact ⟨(encodeUnits_utf16 text).1, short, (encodeUnits_utf16 text).2⟩

theorem utf8ToString16_utf8 (text : List Char) : utf8ToString16 (utf8 text) = some (utf16 text) := by
  have read := utf8ToString16_pieces (text.map .encoded)
  rw [List.flatMap_map, List.flatMap_map] at read
  exact read

/-- Each conversion undoes the other, as long as the bytes are UTF-8. -/
theorem string16ToUTF8At_iff_utf8ToString16At {units : List UInt16} {bytes : List UInt8}
    (fits : units.length ≤ intMax) (fits' : bytes.length ≤ intMax) :
    string16ToUTF8At units (Int32.ofNat units.length) = some bytes ↔
      units.length ≤ intMax / 4 ∧ (∃ text, bytes = utf8 text) ∧
        utf8ToString16At bytes (Int32.ofNat bytes.length) = some units := by
  rw [string16ToUTF8At_whole fits, utf8ToString16At_whole fits', string16ToUTF8_eq_some_iff]
  constructor
  · rintro ⟨short, text, rfl, rfl⟩
    exact ⟨short, ⟨text, rfl⟩, utf8ToString16_utf8 text⟩
  · rintro ⟨short, ⟨text, rfl⟩, back⟩
    rw [utf8ToString16_utf8, Option.some.injEq] at back
    exact ⟨short, text, back.symm, rfl⟩

theorem string16ToUTF8At_iff_utf8ToString16At_aCharacter :
    string16ToUTF8At [0xE9] 1 = some [0xC3, 0xA9] ↔
      1 ≤ intMax / 4 ∧ (∃ text, [0xC3, 0xA9] = utf8 text) ∧
        utf8ToString16At [0xC3, 0xA9] 2 = some [0xE9] :=
  @string16ToUTF8At_iff_utf8ToString16At [0xE9] [0xC3, 0xA9] (by decide) (by decide)

theorem Piece.length_bytes (piece : Piece) :
    (String.utf8EncodeChar piece.char).length = piece.bytes.length := by
  cases piece with
  | encoded c => rfl
  | behindED a b second third =>
      have third' := isTrailing_iff.mp third
      have value : (behindED a b second third).char.toNat = 0xB000 + a.toNat * 64 + (b.toNat - 0x80) :=
        toNat_ofNat (by omega)
      rw [← utf8Bytes_char, utf8Bytes, if_neg (by omega), if_neg (by omega), if_pos (by omega)]
      rfl
  | behindF4 a b c second third fourth =>
      have third' := isTrailing_iff.mp third
      have fourth' := isTrailing_iff.mp fourth
      have value : (behindF4 a b c second third fourth).char.toNat =
          0x80000 + a.toNat * 4096 + (b.toNat - 0x80) * 64 + (c.toNat - 0x80) :=
        toNat_ofNat (by omega)
      rw [← utf8Bytes_char, utf8Bytes, if_neg (by omega), if_neg (by omega), if_neg (by omega),
        if_pos (by omega)]
      rfl

theorem length_of_back {bytes back : List UInt8} {units : List UInt16}
    (read : utf8ToString16 bytes = some units) (written : string16ToUTF8 units = some back) :
    back.length = bytes.length := by
  obtain ⟨pieces, rfl, rfl⟩ := exists_pieces read
  obtain ⟨-, text, same, rfl⟩ := string16ToUTF8_eq_some_iff.mp written
  have same : utf16 (pieces.map Piece.char) = utf16 text := by
    rw [← same, utf16, List.flatMap_map]
    rfl
  rw [← (encodeUnits_utf16 text).2, ← same, (encodeUnits_utf16 _).2, utf8, List.flatMap_map,
    List.length_flatMap, List.length_flatMap]
  exact congrArg List.sum (List.map_congr_left fun piece _ => piece.length_bytes)

end ThreadIpc.ConvertUtf
