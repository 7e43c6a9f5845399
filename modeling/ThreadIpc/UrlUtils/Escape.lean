import ThreadIpc.Lib.Delimited
import ThreadIpc.UrlUtils.Model

/-!
# Escaping and unescaping

What `EscapeUrl` returns is, byte by byte, the byte itself or its escape. As long as no percent
sign is copied, `UnescapeURL` takes that back.
-/

namespace ThreadIpc.UrlUtils

/-- A text without a bare percent sign, and the bytes that it stands for. -/
inductive Spells : Bytes → Bytes → Prop
  | nil : Spells [] []
  | plain {c : UInt8} {text bytes : Bytes} : c ≠ percent → Spells text bytes →
      Spells (c :: text) (c :: bytes)
  | escape {mostSigDigit leastSigDigit : UInt8} {text bytes : Bytes} : isHex mostSigDigit = true →
      isHex leastSigDigit = true → Spells text bytes →
      Spells (percent :: mostSigDigit :: leastSigDigit :: text)
        ((hexToInt mostSigDigit * 16 + hexToInt leastSigDigit) :: bytes)

def escapes (flags : UInt32) : Bool → Bytes → Bytes
  | _, [] => []
  | previousIsNonAscii, c :: rest => written flags previousIsNonAscii c ++ escapes flags (0x7f < c) rest

theorem unescapeLoop_plain {c : UInt8} (plain : c ≠ percent) (rest : Bytes) :
    unescapeLoop false (c :: rest) = c :: unescapeLoop false rest := by
  have same : unescaped false c = c := if_neg fun both => Bool.false_ne_true both.1
  match rest with
  | [] => simp only [unescapeLoop, same]
  | [d] => simp only [unescapeLoop, same]
  | m :: l :: rest => rw [unescapeLoop, if_neg plain, same]

theorem Spells.unescapeLoop {text bytes : Bytes} (spells : Spells text bytes) :
    unescapeLoop false text = bytes := by
  induction spells with
  | nil => rw [UrlUtils.unescapeLoop]
  | plain plain _ ih => rw [unescapeLoop_plain plain, ih]
  | escape most least _ ih => rw [UrlUtils.unescapeLoop, if_pos rfl, if_pos ⟨most, least⟩, ih]

theorem Spells.unescapeURL {text bytes : Bytes} (spells : Spells text bytes) :
    unescapeURL text = bytes := by
  rw [UrlUtils.unescapeURL, unescapeURLImpl]
  split
  · rename_i short
    have short : text.length < 3 := short.1
    have copied : ∀ {text bytes : Bytes}, Spells text bytes → text.length < 3 → text = bytes := by
      intro text bytes spells
      induction spells with
      | nil => exact fun _ => rfl
      | plain _ _ ih =>
          intro short
          rw [ih (Nat.lt_of_succ_lt short)]
      | escape _ _ _ _ =>
          intro short
          simp only [List.length_cons] at short
          omega
    exact copied spells short
  · exact spells.unescapeLoop

theorem Spells.append {text bytes text' bytes' : Bytes} (first : Spells text bytes)
    (second : Spells text' bytes') : Spells (text ++ text') (bytes ++ bytes') := by
  induction first with
  | nil => exact second
  | plain plain _ ih => exact .plain plain ih
  | escape most least _ ih => exact .escape most least ih

theorem hexChars_digit {digit : Nat} (small : digit < 16) :
    isHex (hexChars.getD digit 0) = true ∧ hexToInt (hexChars.getD digit 0) = digit.toUInt8 := by
  have all : ∀ digit < 16, isHex (hexChars.getD digit 0) = true ∧
      hexToInt (hexChars.getD digit 0) = digit.toUInt8 := by decide
  exact all digit small

theorem halves (c : UInt8) : (c.toNat >>> 4).toUInt8 * 16 + (c.toNat &&& 15).toUInt8 = c := by
  have high : c.toNat >>> 4 = c.toNat / 16 := Nat.shiftRight_eq_div_pow c.toNat 4
  have low : c.toNat &&& 15 = c.toNat % 16 := Nat.and_two_pow_sub_one_eq_mod c.toNat 4
  have small := c.toNat_lt
  apply UInt8.toNat_inj.mp
  rw [high, low, UInt8.toNat_add, UInt8.toNat_mul]
  simp only [Nat.toUInt8_eq, UInt8.toNat_ofNat', UInt8.toNat_ofNat]
  omega

theorem spells_written {flags : UInt32} {previousIsNonAscii : Bool} {c : UInt8}
    (escaped : copies flags previousIsNonAscii c = true → c ≠ percent) :
    Spells (written flags previousIsNonAscii c) [c] := by
  rw [written]
  split
  · rename_i copied
    exact .plain (escaped copied) .nil
  · have small := c.toNat_lt
    have high : c.toNat >>> 4 < 16 := by
      rw [Nat.shiftRight_eq_div_pow]
      omega
    have low : c.toNat &&& 15 < 16 := Nat.lt_succ_of_le Nat.and_le_right
    obtain ⟨most, value⟩ := hexChars_digit high
    obtain ⟨least, value'⟩ := hexChars_digit low
    have spells := Spells.escape most least .nil
    rw [value, value', halves] at spells
    exact spells

theorem spells_escapes {flags : UInt32} (escaped : ∀ previousIsNonAscii c,
    copies flags previousIsNonAscii c = true → c ≠ percent) (previousIsNonAscii : Bool)
    (source : Bytes) : Spells (escapes flags previousIsNonAscii source) source := by
  induction source generalizing previousIsNonAscii with
  | nil => exact .nil
  | cons c rest ih => exact (spells_written (escaped _ _)).append (ih _)

theorem noNeedEsc_percent (flags : UInt32) : noNeedEsc flags percent = false := by
  have none_ : escapeChars.getD percent.toNat 0 = 0 := by decide
  rw [noNeedEsc, none_, UInt32.zero_and]
  rfl

theorem copies_forced {flags : UInt32} (forced : flags &&& ESCAPE_FORCED ≠ 0)
    (ascii : flags &&& ESCAPE_ONLYNONASCII = 0) {previousIsNonAscii : Bool} {c : UInt8}
    (copied : copies flags previousIsNonAscii c = true) : c ≠ percent := by
  rintro rfl
  rw [copies, noNeedEsc_percent] at copied
  simp [forced, ascii, show ¬ 0x7f < percent by decide] at copied

/-- A NUL is escaped whatever the flags are, so that none ends the buffer early. -/
theorem zero_notMem_written (flags : UInt32) (previousIsNonAscii : Bool) (c : UInt8) :
    0 ∉ written flags previousIsNonAscii c := by
  have small := c.toNat_lt
  have digits : ∀ digit < 16, (0 : UInt8) ≠ hexChars.getD digit 0 := by decide
  have high : c.toNat >>> 4 < 16 := by
    rw [Nat.shiftRight_eq_div_pow]
    omega
  rw [written]
  split
  · rename_i copied
    rw [List.mem_singleton]
    rintro rfl
    have none_ : noNeedEsc flags 0 = false := by
      rw [noNeedEsc, show escapeChars.getD (0 : UInt8).toNat 0 = 0 by decide, UInt32.zero_and]
      rfl
    rw [copies, none_] at copied
    simp [show ¬ (0x7f : UInt8) < 0 by decide, show ¬ (0x1f : UInt8) < 0 by decide,
      show (0 : UInt8) ≠ percent by decide] at copied
  · simp only [List.mem_cons, List.not_mem_nil, or_false, not_or]
    exact ⟨by decide, digits _ high, digits _ (Nat.lt_succ_of_le Nat.and_le_right)⟩

theorem written_length (flags : UInt32) (previousIsNonAscii : Bool) (c : UInt8) :
    (written flags previousIsNonAscii c).length ≤ 3 := by
  rw [written]
  split
  · exact Nat.le_add_left 1 2
  · exact Nat.le_refl 3

theorem store_eq {tempBuffer text : Bytes} (room : tempBuffer.length + text.length ≤ tempBufferSize) :
    store tempBuffer text = some (tempBuffer ++ text) := by
  induction text generalizing tempBuffer with
  | nil => rw [store, List.append_nil]
  | cons c rest ih =>
      rw [List.length_cons] at room
      rw [store, if_pos (by omega), ih]
      · rw [List.append_assoc, List.singleton_append]
      · rw [List.length_append, List.length_singleton]
        omega

theorem flush_eq {tempBuffer : Bytes} (room : tempBuffer.length < tempBufferSize)
    (noZero : 0 ∉ tempBuffer) (result : Bytes) : flush result tempBuffer = some (result ++ tempBuffer) := by
  have copied : (tempBuffer ++ [0]).takeWhile (· != 0) = tempBuffer :=
    Lib.takeWhile_delimiter noZero []
  have fits : tempBuffer.length + [(0 : UInt8)].length ≤ tempBufferSize := room
  rw [flush, store_eq fits, Option.map_some, copied]

/-- The buffer is emptied early enough for what one byte may need and a NUL. -/
theorem escapeLoop_eq {flags : UInt32} {tempBuffer : Bytes}
    (room : tempBuffer.length < tempBufferSize - 4) (noZero : 0 ∉ tempBuffer) (result : Bytes)
    (previousIsNonAscii : Bool) (source : Bytes) :
    escapeLoop flags result tempBuffer previousIsNonAscii source =
      some (result ++ tempBuffer ++ escapes flags previousIsNonAscii source) := by
  have size : tempBufferSize = 100 := rfl
  induction source generalizing result tempBuffer previousIsNonAscii with
  | nil => rw [escapeLoop, flush_eq (by omega) noZero, escapes, List.append_nil]
  | cons c rest ih =>
      have few := written_length flags previousIsNonAscii c
      have noZero : 0 ∉ tempBuffer ++ written flags previousIsNonAscii c := by
        rw [List.mem_append, not_or]
        exact ⟨noZero, zero_notMem_written _ _ _⟩
      rw [escapeLoop, store_eq (by omega)]
      simp only [Option.bind_eq_bind, Option.bind_some]
      split
      · rw [flush_eq (by rw [List.length_append]; omega) noZero, Option.bind_some,
          ih (by decide) List.not_mem_nil, escapes]
        simp only [List.append_assoc, List.nil_append]
      · rename_i small
        rw [ih (Nat.lt_of_not_le small) noZero, escapes]
        simp only [List.append_assoc]

theorem escapeUrl_eq (source : Bytes) (flags : UInt32) :
    escapeUrl source flags = some (escapes flags false source) :=
  escapeLoop_eq (by decide) List.not_mem_nil _ _ _

theorem escapeLoopAt_eq {source : Bytes} (short : source.length < UInt32.size) {flags : UInt32}
    {steps : Nat} {i : UInt32} (inside : i.toNat ≤ source.length)
    (enough : source.length - i.toNat < steps) (result tempBuffer : Bytes)
    (previousIsNonAscii : Bool) :
    escapeLoopAt source flags steps i result tempBuffer previousIsNonAscii =
      escapeLoop flags result tempBuffer previousIsNonAscii (source.drop i.toNat) := by
  induction steps generalizing i result tempBuffer previousIsNonAscii with
  | zero => exact absurd enough (Nat.not_lt_zero _)
  | succ steps ih =>
      rw [escapeLoopAt]
      split
      · rename_i more
        have next : (i + 1).toNat = i.toNat + 1 := by
          rw [UInt32.toNat_add]
          exact Nat.mod_eq_of_lt (Nat.lt_of_le_of_lt more short)
        have rest := fun result tempBuffer previousIsNonAscii =>
          ih (i := i + 1) (by omega) (by omega) result tempBuffer previousIsNonAscii
        simp only [next] at rest
        rw [List.drop_eq_getElem_cons more, escapeLoop, List.getD_eq_getElem?_getD,
          List.getElem?_eq_getElem more, Option.getD_some]
        simp only [rest]
      · rename_i ended
        rw [List.drop_of_length_le (Nat.le_of_not_lt ended), escapeLoop]

/-- A longer string than the index counts never ends the loop. -/
theorem escapeLoopAt_endless {source : Bytes} (long : UInt32.size ≤ source.length) (flags : UInt32)
    (steps : Nat) (i : UInt32) (result tempBuffer : Bytes) (previousIsNonAscii : Bool) :
    escapeLoopAt source flags steps i result tempBuffer previousIsNonAscii = none := by
  induction steps generalizing i result tempBuffer previousIsNonAscii with
  | zero => rfl
  | succ steps ih =>
      rw [escapeLoopAt, if_pos (Nat.lt_of_lt_of_le i.toNat_lt_size long)]
      simp only [ih, ite_self, Option.bind_eq_bind, Option.bind_fun_none]

theorem escapeUrlAt_eq {source : Bytes} {steps : Nat} (enough : source.length < steps)
    (flags : UInt32) : escapeUrlAt steps source flags =
      if source.length < UInt32.size then escapeUrl source flags else none := by
  split
  · rename_i short
    exact escapeLoopAt_eq short (Nat.zero_le _) enough _ _ _
  · rename_i long
    exact escapeLoopAt_endless (Nat.le_of_not_lt long) flags steps 0 _ _ _

end ThreadIpc.UrlUtils
