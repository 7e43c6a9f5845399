import ThreadIpc.ConvertUtf.Model

/-!
# What the conversions make of a text

Into UTF-16, a valid text is converted to its end, given a unit of room for every byte of it. Into
UTF-8, ASCII stays as it is.
-/

namespace ThreadIpc.ConvertUtf

structure Encodes (ch : Nat) (sequence : List UInt8) : Prop where
  read : ∀ rest room, convertUTF8toUTF16 (sequence ++ rest) room =
    putSequence sequence room (sequence ++ rest) (convertUTF8toUTF16 rest)
  legal : isLegalUTF8 sequence = true
  value : codePoint sequence = ch

theorem isTrailing_of {a : UInt8} (low : 0x80 ≤ a.toNat) (high : a.toNat ≤ 0xBF) :
    isTrailing a = true := by
  rw [isTrailing, Bool.and_eq_true]
  exact ⟨decide_eq_true (UInt8.le_iff_toNat_le.mpr low),
    decide_eq_true (UInt8.le_iff_toNat_le.mpr high)⟩

theorem isFirst_of {a : UInt8} (low : a.toNat < 0x80 ∨ 0xC2 ≤ a.toNat) (high : a.toNat ≤ 0xF4) :
    isFirst a = true := by
  have apart : ¬(0x80 ≤ a ∧ a < 0xC2) := by
    rintro ⟨above, below⟩
    have above : 0x80 ≤ a.toNat := UInt8.le_iff_toNat_le.mp above
    have below : a.toNat < 0xC2 := UInt8.lt_iff_toNat_lt.mp below
    omega
  rw [isFirst, ← Bool.decide_and, decide_eq_false apart]
  exact decide_eq_true (UInt8.le_iff_toNat_le.mpr high)

theorem isSecond_of {first a : UInt8} (low : 0x80 ≤ a.toNat) (high : a.toNat ≤ 0xBF)
    (e0 : first.toNat = 0xE0 → 0xA0 ≤ a.toNat) (ed : first.toNat = 0xED → a.toNat ≤ 0x9F)
    (f0 : first.toNat = 0xF0 → 0x90 ≤ a.toNat) (f4 : first.toNat = 0xF4 → a.toNat ≤ 0x8F) :
    isSecond first a = true := by
  rw [isSecond, Bool.and_eq_true]
  refine ⟨decide_eq_true (UInt8.le_iff_toNat_le.mpr high), ?_⟩
  split
  · rename_i same
    exact decide_eq_true (UInt8.le_iff_toNat_le.mpr (e0 (congrArg UInt8.toNat same)))
  split
  · rename_i same
    exact decide_eq_true (UInt8.le_iff_toNat_le.mpr (ed (congrArg UInt8.toNat same)))
  split
  · rename_i same
    exact decide_eq_true (UInt8.le_iff_toNat_le.mpr (f0 (congrArg UInt8.toNat same)))
  split
  · rename_i same
    exact decide_eq_true (UInt8.le_iff_toNat_le.mpr (f4 (congrArg UInt8.toNat same)))
  · exact decide_eq_true (UInt8.le_iff_toNat_le.mpr low)

theorem trailingBytes_zero {a : UInt8} (high : a.toNat < 0xC0) : trailingBytesForUTF8 a = 0 :=
  if_pos (UInt8.lt_iff_toNat_lt.mpr high)

theorem not_below {a : UInt8} (b : UInt8) (low : b.toNat ≤ a.toNat) : ¬ a < b :=
  fun below => Nat.not_lt.mpr low (UInt8.lt_iff_toNat_lt.mp below)

theorem trailingBytes_one {a : UInt8} (low : 0xC0 ≤ a.toNat) (high : a.toNat < 0xE0) :
    trailingBytesForUTF8 a = 1 := by
  rw [trailingBytesForUTF8, if_neg (not_below 0xC0 low), if_pos (UInt8.lt_iff_toNat_lt.mpr high)]

theorem trailingBytes_two {a : UInt8} (low : 0xE0 ≤ a.toNat) (high : a.toNat < 0xF0) :
    trailingBytesForUTF8 a = 2 := by
  rw [trailingBytesForUTF8, if_neg (not_below 0xC0 (Nat.le_trans (by decide) low)),
    if_neg (not_below 0xE0 low), if_pos (UInt8.lt_iff_toNat_lt.mpr high)]

theorem trailingBytes_three {a : UInt8} (low : 0xF0 ≤ a.toNat) (high : a.toNat < 0xF8) :
    trailingBytesForUTF8 a = 3 := by
  rw [trailingBytesForUTF8, if_neg (not_below 0xC0 (Nat.le_trans (by decide) low)),
    if_neg (not_below 0xE0 (Nat.le_trans (by decide) low)), if_neg (not_below 0xF0 low),
    if_pos (UInt8.lt_iff_toNat_lt.mpr high)]

theorem Encodes.one {a : UInt8} {ch : Nat} (small : ch ≤ 0x7F) (first : a.toNat = ch) :
    Encodes ch [a] where
  read rest room :=
    convertUTF8toUTF16.eq_2 room a rest (trailingBytes_zero (by omega))
  legal := isFirst_of (by omega) (by omega)
  value := by
    simp only [codePoint, offsetsFromUTF8, List.foldl_cons, List.foldl_nil, Nat.shiftLeft_eq, first]
    simp

theorem Encodes.two {a b : UInt8} {ch : Nat} (large : 0x7F < ch) (small : ch ≤ 0x7FF)
    (first : a.toNat = ch / 64 + 0xC0) (second : b.toNat = ch % 64 + 0x80) :
    Encodes ch [a, b] where
  read rest room :=
    convertUTF8toUTF16.eq_3 room a b rest (trailingBytes_one (by omega) (by omega))
  legal := by
    rw [isLegalUTF8, isFirst_of (by omega) (by omega), Bool.and_true]
    apply isSecond_of <;> omega
  value := by
    simp only [codePoint, offsetsFromUTF8, List.foldl_cons, List.foldl_nil, Nat.shiftLeft_eq, first,
      second]
    simp
    omega

theorem Encodes.three {a b c : UInt8} {ch : Nat} (large : 0x7FF < ch) (small : ch ≤ 0xFFFF)
    (character : ch < 0xD800 ∨ 0xDFFF < ch) (first : a.toNat = ch / 4096 + 0xE0)
    (second : b.toNat = ch / 64 % 64 + 0x80) (third : c.toNat = ch % 64 + 0x80) :
    Encodes ch [a, b, c] where
  read rest room :=
    convertUTF8toUTF16.eq_4 room a b c rest (trailingBytes_two (by omega) (by omega))
  legal := by
    rw [isLegalUTF8, isFirst_of (by omega) (by omega), isTrailing_of (by omega) (by omega),
      Bool.and_true, Bool.true_and]
    apply isSecond_of <;> omega
  value := by
    simp only [codePoint, offsetsFromUTF8, List.foldl_cons, List.foldl_nil, Nat.shiftLeft_eq, first,
      second, third]
    simp
    omega

theorem Encodes.four {a b c d : UInt8} {ch : Nat} (large : 0xFFFF < ch) (small : ch ≤ 0x10FFFF)
    (first : a.toNat = ch / 262144 + 0xF0) (second : b.toNat = ch / 4096 % 64 + 0x80)
    (third : c.toNat = ch / 64 % 64 + 0x80) (fourth : d.toNat = ch % 64 + 0x80) :
    Encodes ch [a, b, c, d] where
  read rest room :=
    convertUTF8toUTF16.eq_5 room a b c d rest (trailingBytes_three (by omega) (by omega))
  legal := by
    rw [isLegalUTF8, isFirst_of (by omega) (by omega), @isTrailing_of c (by omega) (by omega),
      @isTrailing_of d (by omega) (by omega), Bool.and_true, Bool.true_and, Bool.true_and]
    apply isSecond_of <;> omega
  value := by
    simp only [codePoint, offsetsFromUTF8, List.foldl_cons, List.foldl_nil, Nat.shiftLeft_eq, first,
      second, third, fourth]
    simp
    omega

theorem encodes_char (c : Char) : Encodes c.toNat (String.utf8EncodeChar c) := by
  have valid : c.toNat < 0xD800 ∨ (0xDFFF < c.toNat ∧ c.toNat < 0x110000) := c.valid
  have value : c.val.toNat = c.toNat := rfl
  simp only [String.utf8EncodeChar, value]
  split
  · rename_i small
    exact .one small (by rw [UInt8.toNat_ofNat']; omega)
  split
  · rename_i large small
    exact .two (by omega) small (by rw [UInt8.toNat_ofNat']; omega)
      (by rw [UInt8.toNat_ofNat']; omega)
  split
  · rename_i large small
    exact .three (by omega) small (by omega) (by rw [UInt8.toNat_ofNat']; omega)
      (by rw [UInt8.toNat_ofNat']; omega) (by rw [UInt8.toNat_ofNat']; omega)
  · exact .four (by omega) (by omega) (by rw [UInt8.toNat_ofNat']; omega)
      (by rw [UInt8.toNat_ofNat']; omega) (by rw [UInt8.toNat_ofNat']; omega)
      (by rw [UInt8.toNat_ofNat']; omega)

def utf8 (text : List Char) : List UInt8 := text.flatMap String.utf8EncodeChar

def utf16Char (c : Char) : List UInt16 :=
  if c.toNat < 0x10000 then [UInt16.ofNat c.toNat]
  else [UInt16.ofNat (0xD800 + (c.toNat - 0x10000) / 1024),
    UInt16.ofNat (0xDC00 + (c.toNat - 0x10000) % 1024)]

def utf16 (text : List Char) : List UInt16 := text.flatMap utf16Char

theorem utf16Char_length_pos (c : Char) : 0 < (utf16Char c).length := by
  rw [utf16Char]
  split <;> exact Nat.succ_pos _

theorem utf16Char_length_le (c : Char) :
    (utf16Char c).length ≤ (String.utf8EncodeChar c).length := by
  rw [utf16Char]
  split
  · exact List.length_pos_of_ne_nil String.utf8EncodeChar_ne_nil
  · rename_i large
    have value : c.val.toNat = c.toNat := rfl
    simp only [String.utf8EncodeChar, value]
    rw [if_neg (by omega), if_neg (by omega), if_neg (by omega)]
    exact Nat.le_add_left 2 2

theorem utf16_length_le (text : List Char) : (utf16 text).length ≤ (utf8 text).length := by
  induction text with
  | nil => exact Nat.le_refl 0
  | cons c text ih =>
      have first := utf16Char_length_le c
      simp only [utf16, utf8, List.flatMap_cons, List.length_append] at ih ⊢
      omega

theorem surrogates (ch : Nat) :
    [highSurrogate ch, lowSurrogate ch] = [UInt16.ofNat (0xD800 + (ch - 0x10000) / 1024),
      UInt16.ofNat (0xDC00 + (ch - 0x10000) % 1024)] := by
  have high : (ch - 0x10000) >>> 10 = (ch - 0x10000) / 1024 := Nat.shiftRight_eq_div_pow _ 10
  have low : (ch - 0x10000) &&& 0x3FF = (ch - 0x10000) % 1024 :=
    Nat.and_two_pow_sub_one_eq_mod _ 10
  rw [highSurrogate, lowSurrogate, high, low, Nat.add_comm, Nat.add_comm _ 0xDC00]

theorem Encodes.convertUTF8toUTF16 {c : Char} {sequence : List UInt8}
    (encodes : Encodes c.toNat sequence) (rest : List UInt8) {room : Nat}
    (enough : (utf16Char c).length ≤ room) :
    convertUTF8toUTF16 (sequence ++ rest) room =
      put (utf16Char c) room (sequence ++ rest) (convertUTF8toUTF16 rest) := by
  have valid : c.toNat < 0xD800 ∨ (0xDFFF < c.toNat ∧ c.toNat < 0x110000) := c.valid
  have some_ : room ≠ 0 := Nat.ne_of_gt (Nat.lt_of_lt_of_le (utf16Char_length_pos c) enough)
  rw [encodes.read, putSequence, if_pos encodes.legal]
  simp only [encodes.value, if_neg some_]
  rw [utf16Char]
  by_cases small : c.toNat < 0x10000
  · rw [if_pos small, if_pos (Nat.le_of_lt_succ small), if_neg (by omega)]
  · rw [if_neg small, if_neg (by omega), if_neg (by omega), surrogates]

theorem convertUTF8toUTF16_char (c : Char) (rest : List UInt8) {room : Nat}
    (enough : (utf16Char c).length ≤ room) :
    convertUTF8toUTF16 (String.utf8EncodeChar c ++ rest) room =
      put (utf16Char c) room (String.utf8EncodeChar c ++ rest) (convertUTF8toUTF16 rest) :=
  (encodes_char c).convertUTF8toUTF16 rest enough

theorem convertUTF8toUTF16_utf8 (text : List Char) {room : Nat}
    (enough : (utf16 text).length ≤ room) :
    convertUTF8toUTF16 (utf8 text) room = ⟨.conversionOK, [], utf16 text⟩ := by
  induction text generalizing room with
  | nil => rfl
  | cons c text ih =>
      have parts : (utf16Char c).length + (utf16 text).length ≤ room := by
        simpa only [utf16, List.flatMap_cons, List.length_append] using enough
      rw [utf8, List.flatMap_cons, ← utf8, convertUTF8toUTF16_char c _ (by omega), put,
        if_neg (by omega), ih (by omega)]
      simp only [utf16, List.flatMap_cons]

def narrow (text : List UInt16) : List UInt8 := text.map (·.toUInt8)

theorem utf8Bytes_ascii {unit : UInt16} (small : unit.toNat < 0x80) :
    utf8Bytes unit.toNat = [unit.toUInt8] := by
  have byte : UInt8.ofNat (unit.toNat ||| firstByteMark.getD 1 0) = unit.toUInt8 :=
    congrArg UInt8.ofNat (Nat.or_zero unit.toNat)
  rw [utf8Bytes, if_pos small, writeBytes, byte]

theorem convertUTF16toUTF8_ascii {text : List UInt16} (ascii : ∀ unit ∈ text, unit.toNat < 0x80)
    {room : Nat} (enough : text.length ≤ room) :
    convertUTF16toUTF8 text room = ⟨.conversionOK, [], narrow text⟩ := by
  induction text generalizing room with
  | nil => rfl
  | cons unit rest ih =>
      have small : unit.toNat < 0x80 := ascii unit List.mem_cons_self
      have high : isHighSurrogate unit.toNat = false := by
        rw [isHighSurrogate, decide_eq_false (by omega), Bool.false_and]
      have low : isLowSurrogate unit.toNat = false := by
        rw [isLowSurrogate, decide_eq_false (by omega), Bool.false_and]
      have enough : rest.length + 1 ≤ room := enough
      have behind : convertUTF16toUTF8 rest (room - 1) = ⟨.conversionOK, [], narrow rest⟩ :=
        ih (fun unit inRest => ascii unit (List.mem_cons_of_mem _ inRest))
          (Nat.le_sub_one_of_lt enough)
      rw [convertUTF16toUTF8.eq_def]
      simp only [high, low, utf8Bytes_ascii small, Bool.false_eq_true, if_false, put,
        List.length_singleton]
      rw [if_neg (by omega), behind]
      rfl

theorem string16ToUTF8_ascii {text : List UInt16} (ascii : ∀ unit ∈ text, unit.toNat < 0x80) :
    string16ToUTF8 text = if intMax / 4 < text.length then none else some (narrow text) := by
  rw [string16ToUTF8]
  by_cases empty : text = []
  · subst empty
    rfl
  · rw [if_neg empty, convertUTF16toUTF8_ascii ascii (by omega)]
    rfl

def isPaired : List UInt16 → Bool
  | [] => true
  | ch :: rest =>
      if isHighSurrogate ch.toNat then
        match rest with
        | [] => false
        | ch2 :: rest' => isLowSurrogate ch2.toNat && isPaired rest'
      else !isLowSurrogate ch.toNat && isPaired rest

theorem writeBytes_length (bytesToWrite left ch : Nat) (target : List UInt8) :
    (writeBytes bytesToWrite left ch target).length = left + target.length := by
  induction left, ch, target using writeBytes.induct with
  | case1 ch target => rw [writeBytes, Nat.zero_add]
  | case2 ch target => rw [writeBytes, List.length_cons, Nat.add_comm]
  | case3 left ch target ih =>
      rw [writeBytes, ih, List.length_cons]
      omega

theorem utf8Bytes_length_le (ch : Nat) : (utf8Bytes ch).length ≤ 4 := by
  rw [utf8Bytes]
  split
  · exact Nat.le_trans (Nat.le_of_eq (writeBytes_length 1 1 ch [])) (by decide)
  split
  · exact Nat.le_trans (Nat.le_of_eq (writeBytes_length 2 2 ch [])) (by decide)
  split
  · exact Nat.le_trans (Nat.le_of_eq (writeBytes_length 3 3 ch [])) (by decide)
  split
  · exact Nat.le_of_eq (writeBytes_length 4 4 ch [])
  · exact Nat.le_trans (Nat.le_of_eq (writeBytes_length 3 3 _ [])) (by decide)

theorem put_result {Source Target : Type} {written : List Target} {room : Nat}
    {source : List Source} {more : Nat → Conversion Source Target}
    (enough : written.length ≤ room) :
    (put written room source more).result = (more (room - written.length)).result := by
  rw [put, if_neg (Nat.not_lt.mpr enough)]

theorem convertUTF16toUTF8_ok_iff (text : List UInt16) {room : Nat}
    (enough : text.length * 4 ≤ room) :
    (convertUTF16toUTF8 text room).result = .conversionOK ↔ isPaired text = true := by
  induction text using isPaired.induct generalizing room with
  | case1 => exact ⟨fun _ => rfl, fun _ => rfl⟩
  | case2 ch high =>
      simp only [convertUTF16toUTF8, isPaired, high, if_true, reduceCtorEq]
  | case3 ch high ch2 rest ih =>
      have few := utf8Bytes_length_le (fromPair ch.toNat ch2.toNat)
      simp only [List.length_cons] at enough
      rw [convertUTF16toUTF8.eq_def, isPaired.eq_def]
      simp only [high, if_true]
      by_cases low : isLowSurrogate ch2.toNat = true
      · rw [if_pos low, low, Bool.true_and, put_result (by omega)]
        exact ih (by omega)
      · rw [if_neg low, Bool.eq_false_iff.mpr low, Bool.false_and]
        exact iff_of_false (fun ok => by cases ok) Bool.false_ne_true
  | case4 ch rest high ih =>
      have few := utf8Bytes_length_le ch.toNat
      simp only [List.length_cons] at enough
      rw [convertUTF16toUTF8.eq_def, isPaired.eq_def]
      simp only [if_neg high]
      by_cases low : isLowSurrogate ch.toNat = true
      · rw [if_pos low, low, Bool.not_true, Bool.false_and]
        exact iff_of_false (fun ok => by cases ok) Bool.false_ne_true
      · rw [if_neg low, Bool.eq_false_iff.mpr low, Bool.not_false, Bool.true_and,
          put_result (by omega)]
        exact ih (by omega)

theorem string16ToUTF8_eq (text : List UInt16) : string16ToUTF8 text =
    if isPaired text = true ∧ text.length ≤ intMax / 4 then
      some (convertUTF16toUTF8 text (text.length * 4)).target
    else none := by
  rw [string16ToUTF8]
  by_cases empty : text = []
  · subst empty
    rfl
  · have converts := convertUTF16toUTF8_ok_iff text (Nat.le_refl _)
    rw [if_neg empty]
    by_cases long : intMax / 4 < text.length
    · rw [if_pos long, if_neg fun both => Nat.not_lt.mpr both.2 long]
    · rw [if_neg long]
      by_cases paired : isPaired text = true
      · rw [if_pos (converts.mpr paired), if_pos (And.intro paired (Nat.not_lt.mp long))]
      · rw [if_neg fun ok => paired (converts.mp ok), if_neg fun both => paired both.1]

def encodeUnits : List UInt16 → List UInt8
  | [] => []
  | ch :: rest =>
      if isHighSurrogate ch.toNat then
        match rest with
        | [] => []
        | ch2 :: rest' => utf8Bytes (fromPair ch.toNat ch2.toNat) ++ encodeUnits rest'
      else utf8Bytes ch.toNat ++ encodeUnits rest

theorem put_target {Source Target : Type} {written : List Target} {room : Nat}
    {source : List Source} {more : Nat → Conversion Source Target}
    (enough : written.length ≤ room) :
    (put written room source more).target = written ++ (more (room - written.length)).target := by
  rw [put, if_neg (Nat.not_lt.mpr enough)]

theorem convertUTF16toUTF8_target {text : List UInt16} (paired : isPaired text = true) {room : Nat}
    (enough : text.length * 4 ≤ room) : (convertUTF16toUTF8 text room).target = encodeUnits text := by
  induction text using isPaired.induct generalizing room with
  | case1 => rfl
  | case2 ch high => simp [isPaired, high] at paired
  | case3 ch high ch2 rest ih =>
      have few := utf8Bytes_length_le (fromPair ch.toNat ch2.toNat)
      simp only [List.length_cons] at enough
      rw [isPaired.eq_def] at paired
      simp only [high, if_true, Bool.and_eq_true] at paired
      rw [convertUTF16toUTF8.eq_def, encodeUnits.eq_def]
      simp only [high, paired.1, if_true]
      rw [put_target (by omega), ih paired.2 (by omega)]
  | case4 ch rest high ih =>
      have few := utf8Bytes_length_le ch.toNat
      simp only [List.length_cons] at enough
      rw [isPaired.eq_def] at paired
      simp only [high, Bool.and_eq_true, Bool.not_eq_true', Bool.false_eq_true, if_false] at paired
      rw [convertUTF16toUTF8.eq_def, encodeUnits.eq_def]
      simp only [high, paired.1, Bool.false_eq_true, if_false]
      rw [put_target (by omega), ih paired.2 (by omega)]

theorem string16ToUTF8_some_iff {text : List UInt16} {bytes : List UInt8} :
    string16ToUTF8 text = some bytes ↔
      isPaired text = true ∧ text.length ≤ intMax / 4 ∧ encodeUnits text = bytes := by
  rw [string16ToUTF8_eq]
  split
  · rename_i both
    rw [convertUTF16toUTF8_target both.1 (Nat.le_refl _), Option.some.injEq]
    simp only [both, true_and]
  · rename_i other
    simp only [reduceCtorEq, false_iff]
    exact fun all => other ⟨all.1, all.2.1⟩

theorem encodeUnits_append {front rest : List UInt16} {unit : UInt16} (ascii : unit.toNat < 0x80)
    (paired : isPaired (front ++ unit :: rest) = true) :
    isPaired front = true ∧ isPaired rest = true ∧
      encodeUnits (front ++ unit :: rest) =
        encodeUnits front ++ unit.toUInt8 :: encodeUnits rest := by
  have high : isHighSurrogate unit.toNat = false := by
    rw [isHighSurrogate, decide_eq_false (by omega), Bool.false_and]
  have low : isLowSurrogate unit.toNat = false := by
    rw [isLowSurrogate, decide_eq_false (by omega), Bool.false_and]
  induction front using isPaired.induct with
  | case1 =>
      rw [List.nil_append] at paired ⊢
      rw [isPaired.eq_def] at paired
      simp only [high, low, Bool.false_eq_true, if_false, Bool.not_false, Bool.true_and] at paired
      refine ⟨rfl, paired, ?_⟩
      rw [encodeUnits.eq_def]
      simp only [high, Bool.false_eq_true, if_false, utf8Bytes_ascii ascii]
      rfl
  | case2 ch chHigh =>
      rw [List.singleton_append, isPaired.eq_def] at paired
      simp only [chHigh, if_true, low, Bool.false_and, Bool.false_eq_true] at paired
  | case3 ch chHigh ch2 front ih =>
      rw [List.cons_append, List.cons_append, isPaired.eq_def] at paired
      simp only [chHigh, if_true, Bool.and_eq_true] at paired
      obtain ⟨frontPaired, restPaired, same⟩ := ih paired.2
      refine ⟨?_, restPaired, ?_⟩
      · rw [isPaired.eq_def]
        simp only [chHigh, if_true, paired.1, frontPaired, Bool.and_self]
      · rw [List.cons_append, List.cons_append, encodeUnits.eq_def]
        conv_rhs => rw [encodeUnits.eq_def]
        simp only [chHigh, if_true, same, List.append_assoc]
  | case4 ch front chHigh ih =>
      rw [List.cons_append, isPaired.eq_def] at paired
      simp only [chHigh, if_false, Bool.false_eq_true, Bool.and_eq_true] at paired
      obtain ⟨frontPaired, restPaired, same⟩ := ih paired.2
      refine ⟨?_, restPaired, ?_⟩
      · rw [isPaired.eq_def]
        simp only [chHigh, if_false, Bool.false_eq_true, paired.1, frontPaired, Bool.and_self]
      · rw [List.cons_append, encodeUnits.eq_def]
        conv_rhs => rw [encodeUnits.eq_def]
        simp only [chHigh, if_false, Bool.false_eq_true, same, List.append_assoc]

theorem high_byte {number : Nat} (bit : number.testBit 7 = true) :
    0x80 ≤ (UInt8.ofNat number).toNat := by
  rw [UInt8.toNat_ofNat']
  apply Nat.ge_two_pow_of_testBit (i := 7)
  rw [Nat.testBit_mod_two_pow, bit]
  rfl

theorem writeBytes_high {bytesToWrite : Nat}
    (mark : (firstByteMark.getD bytesToWrite 0).testBit 7 = true) (left ch : Nat)
    {target : List UInt8} (high : ∀ byte ∈ target, 0x80 ≤ byte.toNat) :
    ∀ byte ∈ writeBytes bytesToWrite left ch target, 0x80 ≤ byte.toNat := by
  induction left, ch, target using writeBytes.induct with
  | case1 => exact high
  | case2 ch target =>
      rw [writeBytes, List.forall_mem_cons]
      refine ⟨high_byte ?_, high⟩
      rw [Nat.testBit_or, mark, Bool.or_true]
  | case3 left ch target ih =>
      rw [writeBytes]
      apply ih
      rw [List.forall_mem_cons]
      refine ⟨high_byte ?_, high⟩
      rw [Nat.testBit_and, Nat.testBit_or, show Nat.testBit 0x80 7 = true from rfl,
        show Nat.testBit 0xBF 7 = true from rfl, Bool.or_true, Bool.and_true]

theorem utf8Bytes_high {ch : Nat} (large : 0x80 ≤ ch) :
    ∀ byte ∈ utf8Bytes ch, 0x80 ≤ byte.toNat := by
  have none_ : ∀ byte ∈ ([] : List UInt8), 0x80 ≤ byte.toNat :=
    fun byte member => absurd member List.not_mem_nil
  rw [utf8Bytes, if_neg (by omega)]
  split
  · exact writeBytes_high rfl 2 ch none_
  split
  · exact writeBytes_high rfl 3 ch none_
  split
  · exact writeBytes_high rfl 4 ch none_
  · exact writeBytes_high rfl 3 0xFFFD none_

theorem utf8Bytes_ne_nil (ch : Nat) : utf8Bytes ch ≠ [] := by
  rw [utf8Bytes, ← List.length_pos_iff]
  split
  · rw [writeBytes_length]
    decide
  split
  · rw [writeBytes_length]
    decide
  split
  · rw [writeBytes_length]
    decide
  split <;> rw [writeBytes_length] <;> decide

theorem fromPair_large {ch ch2 : Nat} : 0x80 ≤ fromPair ch ch2 := by
  rw [fromPair]
  omega

theorem not_mem_encodeUnits {text : List UInt16} {unit : UInt16} (ascii : unit.toNat < 0x80)
    (absent : unit ∉ text) : unit.toUInt8 ∉ encodeUnits text := by
  have small : unit.toUInt8.toNat < 0x80 := by
    rw [UInt16.toNat_toUInt8]
    omega
  induction text using encodeUnits.induct with
  | case1 => exact List.not_mem_nil
  | case2 ch high =>
      rw [encodeUnits.eq_def]
      simp [high]
  | case3 ch high ch2 rest ih =>
      rw [encodeUnits.eq_def]
      simp only [high, if_true, List.mem_append, not_or]
      refine ⟨fun member => ?_, ih fun inRest => absent ?_⟩
      · exact absurd (utf8Bytes_high fromPair_large _ member) (Nat.not_le.mpr small)
      · exact List.mem_cons_of_mem _ (List.mem_cons_of_mem _ inRest)
  | case4 ch rest high ih =>
      rw [encodeUnits.eq_def]
      simp only [high, Bool.false_eq_true, if_false, List.mem_append, not_or]
      refine ⟨fun member => ?_, ih fun inRest => absent (List.mem_cons_of_mem _ inRest)⟩
      by_cases small' : ch.toNat < 0x80
      · rw [utf8Bytes_ascii small', List.mem_singleton] at member
        have value := congrArg UInt8.toNat member
        rw [UInt16.toNat_toUInt8, UInt16.toNat_toUInt8] at value
        have same : unit = ch := UInt16.toNat_inj.mp (by omega)
        exact absent (same ▸ List.mem_cons_self)
      · exact absurd (utf8Bytes_high (Nat.not_lt.mp small') _ member) (Nat.not_le.mpr small)

theorem encodeUnits_ne_nil {text : List UInt16} (paired : isPaired text = true)
    (some_ : text ≠ []) : encodeUnits text ≠ [] := by
  cases text with
  | nil => exact absurd rfl some_
  | cons ch rest =>
      rw [isPaired.eq_def] at paired
      rw [encodeUnits.eq_def]
      simp only at paired ⊢
      split
      · rename_i high
        simp only [high, if_true] at paired
        cases rest with
        | nil => cases paired
        | cons ch2 rest => exact List.append_ne_nil_of_left_ne_nil (utf8Bytes_ne_nil _) _
      · exact List.append_ne_nil_of_left_ne_nil (utf8Bytes_ne_nil _) _

theorem encodeUnits_cons {ch : UInt16} {rest : List UInt16} (paired : isPaired (ch :: rest) = true) :
    ∃ byte bytes, encodeUnits (ch :: rest) = byte :: bytes ∧
      (ch.toNat < 0x80 → byte = ch.toUInt8 ∧ bytes = encodeUnits rest ∧ isPaired rest = true) ∧
      (0x80 ≤ ch.toNat → 0x80 ≤ byte.toNat) := by
  have split_ {ch : Nat} (large : 0x80 ≤ ch) (rest : List UInt8) :
      ∃ byte bytes, utf8Bytes ch ++ rest = byte :: bytes ∧ 0x80 ≤ byte.toNat := by
    obtain ⟨byte, bytes, same⟩ := List.exists_cons_of_ne_nil (utf8Bytes_ne_nil ch)
    refine ⟨byte, bytes ++ rest, by rw [same, List.cons_append], ?_⟩
    exact utf8Bytes_high large byte (same ▸ List.mem_cons_self)
  rw [isPaired.eq_def] at paired
  rw [encodeUnits.eq_def]
  simp only at paired ⊢
  split
  · rename_i high
    have large : 0xD800 ≤ ch.toNat := by
      rw [isHighSurrogate, Bool.and_eq_true, decide_eq_true_eq] at high
      exact high.1
    simp only [high, if_true] at paired
    cases rest with
    | nil => cases paired
    | cons ch2 rest =>
        obtain ⟨byte, bytes, same, large'⟩ := split_ fromPair_large (encodeUnits rest)
        exact ⟨byte, bytes, same, fun small => by omega, fun _ => large'⟩
  · rename_i high
    simp only [high, if_false, Bool.false_eq_true, Bool.and_eq_true] at paired
    by_cases small : ch.toNat < 0x80
    · rw [utf8Bytes_ascii small, List.singleton_append]
      exact ⟨_, _, rfl, fun _ => ⟨rfl, rfl, paired.2⟩, fun large => by omega⟩
    · obtain ⟨byte, bytes, same, large⟩ := split_ (Nat.not_lt.mp small) (encodeUnits rest)
      exact ⟨byte, bytes, same, fun small' => absurd small' small, fun _ => large⟩

theorem toUInt8_inj {unit unit' : UInt16} (small : unit.toNat < 0x80) (small' : unit'.toNat < 0x80)
    (same : unit.toUInt8 = unit'.toUInt8) : unit = unit' := by
  have value := congrArg UInt8.toNat same
  rw [UInt16.toNat_toUInt8, UInt16.toNat_toUInt8] at value
  exact UInt16.toNat_inj.mp (by omega)

theorem toNat_toUInt8_small {unit : UInt16} (small : unit.toNat < 0x80) :
    unit.toUInt8.toNat < 0x80 := by
  rw [UInt16.toNat_toUInt8]
  omega

theorem eq_of_encodeUnits_ascii {ascii : List UInt16} (small : ∀ unit ∈ ascii, unit.toNat < 0x80)
    {text : List UInt16} (paired : isPaired text = true) (same : encodeUnits text = narrow ascii) :
    text = ascii := by
  induction ascii generalizing text with
  | nil =>
      by_contra some_
      exact encodeUnits_ne_nil paired some_ same
  | cons unit ascii ih =>
      obtain ⟨small, later⟩ := List.forall_mem_cons.mp small
      cases text with
      | nil => cases same
      | cons ch rest =>
          obtain ⟨byte, bytes, encoded, isAscii, large⟩ := encodeUnits_cons paired
          obtain ⟨rfl, rfl⟩ := List.cons.inj (encoded.symm.trans same)
          by_cases ascii' : ch.toNat < 0x80
          · obtain ⟨first, others, paired'⟩ := isAscii ascii'
            rw [toUInt8_inj ascii' small first.symm, ih later paired' others.symm]
          · exact absurd (large (Nat.not_lt.mp ascii')) (Nat.not_le.mpr (toNat_toUInt8_small small))

end ThreadIpc.ConvertUtf
