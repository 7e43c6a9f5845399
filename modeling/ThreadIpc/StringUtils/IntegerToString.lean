import ThreadIpc.SecurityModel.Model
import ThreadIpc.StringUtils.StringToInt

/-!
# Printing of integers

The buffer is filled from its end. A cursor has written what is behind it.
-/

namespace ThreadIpc.StringUtils

open CharT Lib

variable {α : Type} [CharT α]

def literal (text : List Char) : List α := text.map fun c => ofInt (code c)

def decimalText (i : Int) : List α := literal (toString i).toList

section Text

theorem decimalText_nonneg (n : Nat) :
    decimalText (α := α) n = literal (Nat.toDigits 10 n) := by
  rw [decimalText, ← Nat.toList_repr]
  rfl

theorem decimalText_neg {n : Nat} (positive : 0 < n) :
    decimalText (α := α) (-n) = ofInt (code '-') :: literal (Nat.toDigits 10 n) := by
  obtain ⟨n, rfl⟩ := Nat.exists_eq_add_of_lt positive
  rw [Nat.zero_add, decimalText, ← Nat.toList_repr]
  rw [show toString (-((n + 1 : Nat) : Int)) = "-" ++ (n + 1).repr from rfl, String.toList_append]
  rfl

theorem digit_bounds {n : Nat} {c : Char} (member : c ∈ Nat.toDigits 10 n) :
    code '0' ≤ code c ∧ code c ≤ code '9' := by
  have digit := Nat.isDigit_of_mem_toDigits (by decide) (by decide) member
  simp only [Char.isDigit, Bool.and_eq_true, decide_eq_true_eq] at digit
  have low : (48 : UInt32).toNat ≤ c.val.toNat := UInt32.le_iff_toNat_le.mp digit.1
  have high : c.val.toNat ≤ (57 : UInt32).toNat := UInt32.le_iff_toNat_le.mp digit.2
  exact ⟨Int.ofNat_le.mpr low, Int.ofNat_le.mpr high⟩

theorem toInt_literal {c : Char} (ascii : code c < 128) : toInt (ofInt (code c) : α) = code c :=
  toInt_ofInt (Int.natCast_nonneg _) ascii

theorem allDigits_toDigits (n : Nat) : AllDigits (literal (Nat.toDigits 10 n) : List α) := by
  intro c member
  obtain ⟨d, digit, rfl⟩ := List.mem_map.mp member
  have bounds := digit_bounds digit
  have nine : code '9' = 57 := rfl
  rw [IsDigit, toInt_literal (by omega)]
  exact bounds

theorem code_digitChar {n : Nat} (digit : n < 10) : code n.digitChar = code '0' + n :=
  congrArg Nat.cast (Nat.toNat_digitChar_of_lt_ten digit)

theorem digitOf_digitChar {n : Nat} (digit : n < 10) :
    digitOf (ofInt (code n.digitChar) : α) = n := by
  have value := code_digitChar digit
  have zero : code '0' = 48 := rfl
  rw [digitOf, toInt_literal (by omega), value, add_sub_cancel_left, Int.toNat_natCast]

theorem numberFrom_toDigits (n : Nat) :
    numberFrom 0 (literal (Nat.toDigits 10 n) : List α) = n := by
  induction n using Nat.strongRecOn with
  | ind n ih =>
      rw [Nat.toDigits_eq_if (by decide)]
      split
      · rename_i small
        have value := digitOf_digitChar (α := α) small
        simpa [numberFrom, literal] using value
      · rename_i large
        have front := ih (n / 10) (Nat.div_lt_self (by omega) (by decide))
        have last := digitOf_digitChar (α := α) (Nat.mod_lt n (show 0 < 10 by decide))
        rw [numberFrom, literal, List.map_append, List.foldl_append]
        rw [numberFrom, literal] at front
        rw [front, List.map_singleton, List.foldl_cons, List.foldl_nil, last]
        exact Nat.div_add_mod n 10

end Text

section Buffer

structure Cursor.Wrote (cursor : Cursor α) (room : Nat) (written : List α) : Prop where
  next : cursor.next = room
  inside : room ≤ cursor.buffer.length
  drop : cursor.buffer.drop room = written

variable {cursor : Cursor α} {room : Nat} {written : List α} {bits : Nat}

theorem Cursor.Wrote.store (wrote : cursor.Wrote (room + 1) written) (c : Int) :
    ∃ cursor', cursor.store c = some cursor' ∧ cursor'.Wrote room (ofInt c :: written) := by
  obtain ⟨next, inside, drop⟩ := wrote
  refine ⟨⟨room, cursor.buffer.set room (ofInt c)⟩, ?_, rfl, ?_, ?_⟩
  · rw [Cursor.store, next]
    simp only [Memory.write]
    rw [if_pos (Nat.lt_of_succ_le inside), Option.map_some]
  · rw [List.length_set]
    exact Nat.le_of_lt inside
  · rw [List.drop_set, if_neg (Nat.lt_irrefl room), Nat.sub_self, List.drop_eq_getElem_cons inside,
      List.set_cons_zero, drop]

theorem signed_small (wide : 8 ≤ bits) {number : Int} (nonneg : 0 ≤ number) (small : number < 128) :
    signed bits number = some number := by
  have power : (2 : Int) ^ 7 ≤ 2 ^ (bits - 1) := by
    exact_mod_cast Nat.pow_le_pow_right (show 0 < 2 by decide) (Nat.le_sub_one_of_lt wide)
  exact signed_eq (by omega) (by omega)

theorem Cursor.Wrote.writeDigits (wide : 8 ≤ bits) (n : Nat)
    (wrote : cursor.Wrote (room + (Nat.toDigits 10 n).length) written) :
    ∃ cursor', cursor.writeDigits bits n = some cursor' ∧
      cursor'.Wrote room (literal (Nat.toDigits 10 n) ++ written) := by
  have zero : code '0' = 48 := rfl
  induction n using Nat.strongRecOn generalizing cursor written with
  | ind n ih =>
      have below := Nat.mod_lt n (show 0 < 10 by decide)
      have rest : (n : Int).tmod 10 = (n % 10 : Nat) := rfl
      have quotient : (n : Int).tdiv 10 = (n / 10 : Nat) := rfl
      have sum : signed bits (code '0' + ((n % 10 : Nat) : Int)) =
          some (code (n % 10).digitChar) := by
        rw [signed_small wide (by omega) (by omega), code_digitChar below]
      rw [Cursor.writeDigits, rest, sum, Option.bind_eq_bind, Option.bind_some]
      rw [Nat.toDigits_eq_if (by decide)] at wrote ⊢
      by_cases small : n < 10
      · rw [if_pos small] at wrote ⊢
        obtain ⟨cursor', stored, wrote⟩ := wrote.store (code (n % 10).digitChar)
        have last : ¬ 0 < (n : Int).tdiv 10 := by omega
        refine ⟨cursor', ?_, ?_⟩
        · rw [stored, Option.bind_eq_bind, Option.bind_some, dif_neg last]
        · rw [Nat.mod_eq_of_lt small] at wrote
          exact wrote
      · rw [if_neg small] at wrote ⊢
        rw [List.length_append, List.length_singleton, ← Nat.add_assoc] at wrote
        obtain ⟨cursor', stored, wrote⟩ := wrote.store (code (n % 10).digitChar)
        obtain ⟨cursor'', result, wrote⟩ := ih (n / 10) (by omega) wrote
        have more : 0 < (n : Int).tdiv 10 := by omega
        refine ⟨cursor'', ?_, ?_⟩
        · rw [stored, Option.bind_eq_bind, Option.bind_some, dif_pos more, quotient, result]
        · rw [literal, List.map_append, List.append_assoc]
          exact wrote

theorem length_toDigits_le {n : Nat} (digits : n < 10 ^ 20) :
    (Nat.toDigits 10 n).length ≤ 20 :=
  (Nat.length_toDigits_le_iff (by decide) (by decide)).mpr digits

theorem Cursor.Wrote.digitChar {n : Nat} (small : n < 10) (wrote : cursor.Wrote (room + 1) written) :
    ∃ cursor', cursor.store (code '0' + n) = some cursor' ∧
      cursor'.Wrote room (ofInt (code n.digitChar) :: written) := by
  rw [← code_digitChar small]
  exact wrote.store _

variable {n : Nat} (buffer : Buffer α)

theorem wrote_end : ∃ p, (⟨kFastIntToBufferOffset + 1, buffer.toList⟩ : Cursor α).store 0 = some p ∧
    p.Wrote 21 [ofInt 0] := by
  have start : (⟨kFastIntToBufferOffset + 1, buffer.toList⟩ : Cursor α).Wrote (21 + 1) [] := by
    refine ⟨rfl, ?_, ?_⟩
    · exact Nat.le_of_eq buffer.toList_length.symm
    · exact List.drop_eq_nil_of_le (Nat.le_of_eq buffer.toList_length)
  exact start.store 0

theorem fastIntToBuffer_nonneg (wide : 8 ≤ bits) (digits : n < 10 ^ 20) :
    ∃ cursor room, FastIntToBuffer bits n buffer.toList = some cursor ∧
      cursor.Wrote room (decimalText n ++ [ofInt 0]) := by
  obtain ⟨p, stored, wrote⟩ := wrote_end buffer
  have length := length_toDigits_le digits
  rw [show 21 = 21 - (Nat.toDigits 10 n).length + (Nat.toDigits 10 n).length by omega] at wrote
  obtain ⟨cursor, result, wrote⟩ := wrote.writeDigits wide
  refine ⟨cursor, 21 - (Nat.toDigits 10 n).length, ?_, ?_⟩
  · rw [FastIntToBuffer, stored, Option.bind_eq_bind, Option.bind_some,
      if_pos (Int.natCast_nonneg n), result]
  · rw [decimalText_nonneg]
    exact wrote

theorem fastIntToBuffer_oneDigit (wide : 8 ≤ bits) (positive : 0 < n) (small : n < 10) :
    ∃ cursor room, FastIntToBuffer bits (-n) buffer.toList = some cursor ∧
      cursor.Wrote room (decimalText (-n) ++ [ofInt 0]) := by
  obtain ⟨p, stored, wrote⟩ := wrote_end buffer
  obtain ⟨p', stored', wrote⟩ := wrote.digitChar small
  obtain ⟨p'', stored'', wrote⟩ := wrote.store (code '-')
  refine ⟨p'', 19, ?_, ?_⟩
  · rw [FastIntToBuffer, stored, Option.bind_eq_bind, Option.bind_some, if_neg (by omega),
      if_pos (by omega), Int.neg_neg, signed_small wide (by omega) (by omega)]
    simp only [Option.bind_eq_bind, Option.bind_some, stored', stored'']
  · rw [decimalText_neg positive, Nat.toDigits_of_lt_base small]
    exact wrote

/-- The number is brought up to where it has an opposite, which takes one from its tens. -/
theorem fastIntToBuffer_negative (wide : 8 ≤ bits) (large : 10 ≤ n)
    (low : (n : Int) ≤ 2 ^ (bits - 1)) (digits : n < 10 ^ 20) :
    ∃ cursor room, FastIntToBuffer bits (-n) buffer.toList = some cursor ∧
      cursor.Wrote room (decimalText (-n) ++ [ofInt 0]) := by
  obtain ⟨p, stored, wrote⟩ := wrote_end buffer
  have length := length_toDigits_le digits
  rw [Nat.toDigits_of_base_le (by decide) large, List.length_append, List.length_singleton]
    at length
  obtain ⟨p', stored', wrote⟩ := wrote.digitChar (Nat.mod_lt n (show 0 < 10 by decide))
  rw [show 20 = 20 - (Nat.toDigits 10 (n / 10)).length - 1 + 1 +
    (Nat.toDigits 10 (n / 10)).length by omega] at wrote
  obtain ⟨p'', result, wrote⟩ := wrote.writeDigits wide
  obtain ⟨cursor, stored'', wrote⟩ := wrote.store (code '-')
  have raised : signed bits ((-n : Int) + 10) = some ((-n : Int) + 10) :=
    signed_eq (by omega) (by omega)
  have opposite : signed bits (-((-n : Int) + 10)) = some ((n - 10 : Nat) : Int) := by
    rw [signed_eq (by omega) (by omega)]
    exact congrArg some (by omega)
  have last : ((n - 10 : Nat) : Int).tmod 10 = (n % 10 : Nat) := by
    rw [show ((n - 10 : Nat) : Int).tmod 10 = ((n - 10) % 10 : Nat) from rfl]
    omega
  have tens : ((n - 10 : Nat) : Int).tdiv 10 + 1 = (n / 10 : Nat) := by
    rw [show ((n - 10 : Nat) : Int).tdiv 10 = ((n - 10) / 10 : Nat) from rfl]
    omega
  have front : signed bits ((n / 10 : Nat) : Int) = some ((n / 10 : Nat) : Int) :=
    signed_eq (by omega) (by omega)
  refine ⟨cursor, 20 - (Nat.toDigits 10 (n / 10)).length - 1, ?_, ?_⟩
  · rw [FastIntToBuffer, stored, Option.bind_eq_bind, Option.bind_some, if_neg (by omega),
      if_neg (by omega), raised]
    simp only [Option.bind_eq_bind, Option.bind_some, opposite, last, stored', tens, front, result, stored'']
  · rw [decimalText_neg (by omega), Nat.toDigits_of_base_le (by decide) large, literal,
      List.map_append, List.cons_append, List.append_assoc]
    exact wrote

theorem fastIntToBuffer_wrote (wide : 8 ≤ bits) {i : Int} (low : -2 ^ (bits - 1) ≤ i)
    (digits : i.natAbs < 10 ^ 20) :
    ∃ cursor room, FastIntToBuffer bits i buffer.toList = some cursor ∧
      cursor.Wrote room (decimalText i ++ [ofInt 0]) := by
  by_cases nonneg : 0 ≤ i
  · obtain ⟨n, rfl⟩ := Int.eq_ofNat_of_zero_le nonneg
    exact fastIntToBuffer_nonneg buffer wide digits
  · obtain ⟨n, rfl⟩ : ∃ n : Nat, i = -n := ⟨i.natAbs, by omega⟩
    by_cases small : n < 10
    · exact fastIntToBuffer_oneDigit buffer wide (by omega) small
    · exact fastIntToBuffer_negative buffer wide (by omega) (by omega) (by omega)

theorem noNul_decimalText (i : Int) : ∀ c ∈ (decimalText i : List α), toInt c ≠ 0 := by
  have digits (n : Nat) : ∀ c ∈ (literal (Nat.toDigits 10 n) : List α), toInt c ≠ 0 := by
    intro c member zero
    have digit := (allDigits_toDigits n c member).1
    rw [zero] at digit
    exact absurd digit (by decide)
  by_cases nonneg : 0 ≤ i
  · obtain ⟨n, rfl⟩ := Int.eq_ofNat_of_zero_le nonneg
    rw [decimalText_nonneg]
    exact digits n
  · obtain ⟨n, rfl⟩ : ∃ n : Nat, i = -n := ⟨i.natAbs, by omega⟩
    rw [decimalText_neg (by omega), List.forall_mem_cons, toInt_literal (by decide)]
    exact ⟨by decide, digits n⟩

theorem integerToStringT_eq (wide : 8 ≤ bits) {i : Int} (low : -2 ^ (bits - 1) ≤ i)
    (digits : i.natAbs < 10 ^ 20) : IntegerToStringT bits i buffer = some (decimalText i) := by
  obtain ⟨cursor, room, result, next, inside, drop⟩ := fastIntToBuffer_wrote buffer wide low digits
  have nul : toInt (ofInt 0 : α) = 0 := toInt_ofInt (by decide) (by decide)
  have text : (decimalText i : List α).takeWhile (toInt · != 0) = decimalText i := by
    rw [List.takeWhile_eq_self_iff]
    intro c member
    exact bne_iff_ne.mpr (noNul_decimalText i c member)
  have stop := Memory.scan_of_drop (p := (toInt · != 0)) drop (by rw [nul]; rfl)
  rw [text] at stop
  rw [IntegerToStringT, result, Option.bind_eq_bind, Option.bind_some, next, stop,
    Option.bind_eq_bind, Option.bind_some]
  exact Memory.slice_of_drop drop inside

end Buffer

section RoundTrip

theorem denotes_decimalText (i : Int) : Denotes (decimalText i : List α) i := by
  have some_ (n : Nat) : (literal (Nat.toDigits 10 n) : List α) ≠ [] := by
    rw [literal, Ne, List.map_eq_nil_iff]
    exact Nat.toDigits_ne_nil
  by_cases nonneg : 0 ≤ i
  · obtain ⟨n, rfl⟩ := Int.eq_ofNat_of_zero_le nonneg
    have value := Denotes.unsigned (some_ n) (allDigits_toDigits n)
    rw [numberFrom_toDigits] at value
    rw [decimalText_nonneg]
    exact value
  · obtain ⟨n, rfl⟩ : ∃ n : Nat, i = -n := ⟨i.natAbs, by omega⟩
    have value := Denotes.minus (toInt_literal (by decide)) (some_ n) (allDigits_toDigits n)
    rw [numberFrom_toDigits] at value
    rw [decimalText_neg (by omega)]
    exact value

theorem Denotes.not_withoutDigits {s : List α} {value : Int} (denotes : Denotes s value) :
    ¬ WithoutDigits s := by
  cases denotes with
  | unsigned some_ digits =>
      intro nothing
      cases s with
      | nil => exact some_ rfl
      | cons c s =>
          cases s with
          | nil => exact IsSign.not_digit nothing (digits c List.mem_cons_self)
          | cons d s => exact nothing
  | plus _ some_ | minus _ some_ =>
      rename_i digits _ _
      cases digits with
      | nil => exact absurd rfl some_
      | cons d digits => exact id

theorem stringTToInt_decimalText (i : Int32) :
    StringTToInt (decimalText i.toInt : List α) = some (some i.toInt) := by
  have denotes := denotes_decimalText (α := α) i.toInt
  obtain ⟨found, result, strict⟩ := (stringTToInt_strict_iff
    ⟨decimalText i.toInt, noNul_decimalText i.toInt⟩).mpr denotes.not_withoutDigits
  rw [result, (strict i.toInt).mpr ⟨denotes, i.le_toInt, i.toInt_lt⟩]

end RoundTrip

/-- The decimal text, whatever the buffer holds before, and back. -/
theorem integerToString_decimal :
    (∀ (i : Int32) buffer, IntegerToString i buffer = some (decimalText i.toInt) ∧
      StringToInt (decimalText i.toInt) = some (some i.toInt)) ∧
    (∀ (i : Int32) buffer, IntegerToString16 i buffer = some (decimalText i.toInt) ∧
      String16ToInt (decimalText i.toInt) = some (some i.toInt)) ∧
    (∀ (i : Int64) buffer, Integer64ToString i buffer = some (decimalText i.toInt)) ∧
    ∀ (i : Int64) buffer, Integer64ToString16 i buffer = some (decimalText i.toInt) := by
  have small {α : Type} [CharT α] (i : Int32) (buffer : Buffer α) :
      IntegerToStringT 32 i.toInt buffer = some (decimalText i.toInt) := by
    have low := i.le_toInt
    have high := i.toInt_lt
    exact integerToStringT_eq buffer (by decide) low (by omega)
  have wide {α : Type} [CharT α] (i : Int64) (buffer : Buffer α) :
      IntegerToStringT 64 i.toInt buffer = some (decimalText i.toInt) := by
    have low := i.le_toInt
    have high := i.toInt_lt
    exact integerToStringT_eq buffer (by decide) low (by omega)
  exact ⟨fun i buffer => ⟨small i buffer, stringTToInt_decimalText i⟩,
    fun i buffer => ⟨small i buffer, stringTToInt_decimalText i⟩, wide, wide⟩

section PortString

open SecurityModel

theorem digit_eq (number : Nat) : digit number = ofInt (code (number % 10).digitChar) := by
  have value : (number % 10).digitChar.toNat = 48 + number % 10 :=
    Nat.toNat_digitChar_of_lt_ten (Nat.mod_lt number (by decide))
  rw [digit, ← value]
  rfl

theorem writeDigits_eq (digits : Nat) {number : Nat} (fits : number < 10 ^ (digits + 1))
    (written : List UInt16) : writeDigits (digits + 1) number written =
      literal (Nat.toDigits 10 number) ++ written := by
  induction digits generalizing number written with
  | zero =>
      have small : number < 10 := fits
      have last : ¬ 0 < number / 10 := by omega
      rw [writeDigits, if_neg last, digit_eq, Nat.mod_eq_of_lt small,
        Nat.toDigits_of_lt_base small]
      rfl
  | succ digits ih =>
      rw [writeDigits, digit_eq, Nat.toDigits_eq_if (by decide)]
      by_cases small : number < 10
      · rw [if_neg (by omega), if_pos small, Nat.mod_eq_of_lt small]
        rfl
      · have shorter : number / 10 < 10 ^ (digits + 1) :=
          Nat.div_lt_of_lt_mul (by rw [← Nat.pow_succ']; exact fits)
        rw [if_pos (by omega), if_neg small, ih shorter, literal, literal, List.map_append,
          List.append_assoc]
        rfl

/-- What the origin of a URL takes for the text of its port. -/
theorem integerToString16_eq (port : Int32) (buffer : Buffer UInt16) :
    IntegerToString16 port buffer = some (integerToString16 port) := by
  have low := port.le_toInt
  have high := port.toInt_lt
  rw [IntegerToString16, integerToStringT_eq buffer (by decide) low (by omega), integerToString16,
    fastIntToBuffer]
  by_cases nonneg : 0 ≤ port.toInt
  · obtain ⟨n, value⟩ := Int.eq_ofNat_of_zero_le nonneg
    rw [if_pos nonneg, value, decimalText_nonneg, Int.toNat_natCast, writeDigits_eq 9 (by omega),
      List.append_nil]
  · obtain ⟨n, value⟩ : ∃ n : Nat, port.toInt = -n := ⟨port.toInt.natAbs, by omega⟩
    rw [if_neg nonneg, value, decimalText_neg (by omega)]
    by_cases small : n < 10
    · rw [if_pos (by omega), Int.neg_neg, Int.toNat_natCast, digit_eq, Nat.mod_eq_of_lt small,
        Nat.toDigits_of_lt_base small]
      rfl
    · have raised : (-(-(n : Int) + 10)).toNat = n - 10 := by omega
      have tens : (n - 10) / 10 + 1 = n / 10 := by omega
      have last : (n - 10) % 10 = n % 10 := by omega
      rw [if_neg (by omega), raised]
      simp only
      rw [tens, writeDigits_eq 9 (by omega), digit_eq, last,
        Nat.toDigits_of_base_le (by decide) (by omega), literal, literal, List.map_append]
      rfl

end PortString

end ThreadIpc.StringUtils
