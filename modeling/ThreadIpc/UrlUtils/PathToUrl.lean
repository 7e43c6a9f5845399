import ThreadIpc.UrlUtils.Escape

/-!
# `UTF8PathToUrl`

The URL spells the path whatever is in it. Only the first of its semicolons is escaped.
-/

namespace ThreadIpc.UrlUtils

def pathFlags : UInt32 := ESCAPE_DIRECTORY ||| ESCAPE_FORCED

def forwardSlashes (path : Bytes) : Bytes := path.map fun c => if c = backslash then slash else c

def withSlash (directory : Bool) (text : Bytes) : Bytes :=
  if directory ∧ text.getLast? ≠ some slash then text ++ [slash] else text

def EscapesCompletely (path : Bytes) (directory : Bool) : Prop :=
  ∃ url, utf8PathToUrl path directory = some url ∧ semicolon ∉ url ∧ backslash ∉ url ∧
    unescapeURL url = withSlash directory (fileUrl ++ forwardSlashes path)

theorem replaceFound_slash (path : Bytes) :
    replaceFound backslash [slash] path = forwardSlashes path := by
  induction path with
  | nil => rfl
  | cons c rest ih =>
      rw [replaceFound, ih, forwardSlashes, forwardSlashes, List.map_cons]
      split <;> rfl

theorem replaceFound_absent {sought : UInt8} {text : Bytes} (absent : sought ∉ text)
    (replacement : Bytes) : replaceFound sought replacement text = text := by
  induction text with
  | nil => rfl
  | cons c rest ih =>
      rw [List.mem_cons, not_or] at absent
      rw [replaceFound, if_neg (Ne.symm absent.1), ih absent.2]

theorem forwardSlashes_append (first second : Bytes) :
    forwardSlashes (first ++ second) = forwardSlashes first ++ forwardSlashes second :=
  List.map_append

theorem backslash_notMem (path : Bytes) : backslash ∉ forwardSlashes path := by
  intro member
  obtain ⟨c, _, same⟩ := List.mem_map.mp member
  split at same
  · exact absurd same (by decide)
  · rename_i other
    exact other same

theorem count_forwardSlashes (path : Bytes) :
    (fileUrl ++ forwardSlashes path).count semicolon = path.count semicolon := by
  have none_ : fileUrl.count semicolon = 0 := by decide
  rw [List.count_append, none_, Nat.zero_add]
  induction path with
  | nil => rfl
  | cons c rest ih =>
      rw [forwardSlashes] at ih
      rw [forwardSlashes, List.map_cons, List.count_cons, List.count_cons, ih]
      congr 1
      split
      · rename_i same
        subst same
        rfl
      · rfl

section
variable {previousIsNonAscii : Bool} {c : UInt8} {source first second : Bytes}

theorem escapes_append (flags : UInt32) (previousIsNonAscii : Bool) (first second : Bytes) :
    ∃ previous, escapes flags previousIsNonAscii (first ++ second) =
      escapes flags previousIsNonAscii first ++ escapes flags previous second := by
  induction first generalizing previousIsNonAscii with
  | nil => exact ⟨previousIsNonAscii, rfl⟩
  | cons c rest ih =>
      obtain ⟨previous, same⟩ := ih (0x7f < c)
      refine ⟨previous, ?_⟩
      rw [List.cons_append, escapes, same, escapes, List.append_assoc]

theorem mem_written {sought : UInt8} (noDigit : isHex sought = false) (noPercent : sought ≠ percent)
    (flags : UInt32) (member : sought ∈ written flags previousIsNonAscii c) : sought = c := by
  have small := c.toNat_lt
  have high : c.toNat >>> 4 < 16 := by
    rw [Nat.shiftRight_eq_div_pow]
    omega
  have low : c.toNat &&& 15 < 16 := Nat.lt_succ_of_le Nat.and_le_right
  have digit {d : Nat} (small : d < 16) : sought ≠ hexChars.getD d 0 := by
    rintro rfl
    rw [(hexChars_digit small).1] at noDigit
    contradiction
  rw [written] at member
  split at member
  · exact List.mem_singleton.mp member
  · simp only [List.mem_cons, List.not_mem_nil, or_false] at member
    rcases member with same | same | same
    · exact absurd same noPercent
    · exact absurd same (digit high)
    · exact absurd same (digit low)

theorem mem_escapes {sought : UInt8} (noDigit : isHex sought = false) (noPercent : sought ≠ percent)
    (flags : UInt32) (member : sought ∈ escapes flags previousIsNonAscii source) :
    sought ∈ source := by
  induction source generalizing previousIsNonAscii with
  | nil => exact member
  | cons c rest ih =>
      rw [escapes, List.mem_append] at member
      rcases member with here | later
      · rw [mem_written noDigit noPercent flags here]
        exact List.mem_cons_self
      · exact List.mem_cons_of_mem _ (ih later)

theorem written_semicolon (previousIsNonAscii : Bool) :
    written pathFlags previousIsNonAscii semicolon = [semicolon] := by
  cases previousIsNonAscii <;> decide

theorem written_slash (previousIsNonAscii : Bool) :
    written pathFlags previousIsNonAscii slash = [slash] := by
  cases previousIsNonAscii <;> decide

theorem mem_escapes_semicolon :
    semicolon ∈ escapes pathFlags previousIsNonAscii source ↔ semicolon ∈ source := by
  refine ⟨mem_escapes (by decide) (by decide) _, ?_⟩
  intro member
  obtain ⟨first, second, rfl⟩ := List.append_of_mem member
  obtain ⟨previous, same⟩ := escapes_append pathFlags previousIsNonAscii first (semicolon :: second)
  rw [same, escapes, written_semicolon]
  exact List.mem_append_right _ List.mem_cons_self

theorem written_ne_nil (flags : UInt32) : written flags previousIsNonAscii c ≠ [] := by
  rw [written]
  split <;> exact List.cons_ne_nil _ _

theorem getLast?_escapes : (escapes pathFlags previousIsNonAscii source).getLast? = some slash ↔
    source.getLast? = some slash := by
  cases source using List.reverseRecOn with
  | nil => rfl
  | append_singleton front last =>
      obtain ⟨previous, same⟩ := escapes_append pathFlags previousIsNonAscii front [last]
      rw [same, escapes, escapes, List.append_nil, List.getLast?_concat, Option.some.injEq,
        List.getLast?_append_of_ne_nil _ (written_ne_nil _)]
      constructor
      · intro slash_
        exact (mem_written (by decide) (by decide) _ (List.mem_of_getLast? slash_)).symm
      · rintro rfl
        rw [written_slash]
        rfl

theorem spells_path (previousIsNonAscii : Bool) (source : Bytes) :
    Spells (escapes pathFlags previousIsNonAscii source) source := by
  apply spells_escapes
  intro previous c
  exact copies_forced (by decide) (by decide)

theorem escapeSemicolons_none {text : Bytes} (absent : semicolon ∉ text) :
    escapeSemicolons text = text := by
  rw [escapeSemicolons, Lib.dropWhile_absent absent]

theorem escapeSemicolons_first (absent : semicolon ∉ first) (noBackslash : backslash ∉ second) :
    escapeSemicolons (first ++ semicolon :: second) = first ++ ascii ['%', '3', 'B'] ++ second := by
  have noBackslash : backslash ∉ ascii ['3', 'B'] ++ second := by
    rw [List.mem_append, not_or]
    exact ⟨by decide, noBackslash⟩
  rw [escapeSemicolons, Lib.dropWhile_delimiter absent, Lib.takeWhile_delimiter absent]
  simp only
  rw [replaceFound_absent noBackslash, List.append_assoc]
  rfl

theorem escapeSemicolons_cases (noBackslash : backslash ∉ source) :
    (semicolon ∉ source ∧ escapeSemicolons (escapes pathFlags previousIsNonAscii source) =
        escapes pathFlags previousIsNonAscii source) ∨
      ∃ first second previous, source = first ++ semicolon :: second ∧ semicolon ∉ first ∧
        escapeSemicolons (escapes pathFlags previousIsNonAscii source) =
          escapes pathFlags previousIsNonAscii first ++ ascii ['%', '3', 'B'] ++
            escapes pathFlags previous second := by
  by_cases member : semicolon ∈ source
  · right
    obtain ⟨first, second, rfl, absent⟩ := List.eq_append_cons_of_mem member
    obtain ⟨previous, same⟩ :=
      escapes_append pathFlags previousIsNonAscii first (semicolon :: second)
    have later : backslash ∉ second := by
      intro inside
      exact noBackslash (List.mem_append_right _ (List.mem_cons_of_mem _ inside))
    refine ⟨first, second, 0x7f < semicolon, rfl, absent, ?_⟩
    rw [same, escapes, written_semicolon, List.singleton_append, escapeSemicolons_first]
    · exact fun inside => absent (mem_escapes_semicolon.mp inside)
    · exact fun inside => later (mem_escapes (by decide) (by decide) _ inside)
  · left
    refine ⟨member, escapeSemicolons_none ?_⟩
    exact fun inside => member (mem_escapes_semicolon.mp inside)

theorem escapeSemicolons_spells (noBackslash : backslash ∉ source) :
    Spells (escapeSemicolons (escapes pathFlags previousIsNonAscii source)) source := by
  rcases @escapeSemicolons_cases previousIsNonAscii source noBackslash with
    ⟨_, same⟩ | ⟨first, second, previous, rfl, _, same⟩
  · rw [same]
    exact spells_path _ _
  · have spelled : Spells (ascii ['%', '3', 'B']) [semicolon] := .escape (by decide) (by decide) .nil
    rw [same, List.append_cons]
    exact ((spells_path _ _).append spelled).append (spells_path _ _)

theorem mem_escapeSemicolons (noBackslash : backslash ∉ source) :
    backslash ∉ escapeSemicolons (escapes pathFlags previousIsNonAscii source) ∧
      (semicolon ∉ escapeSemicolons (escapes pathFlags previousIsNonAscii source) ↔
        source.count semicolon ≤ 1) := by
  rcases @escapeSemicolons_cases previousIsNonAscii source noBackslash with
    ⟨absent, same⟩ | ⟨first, second, previous, rfl, absent, same⟩
  · rw [same, mem_escapes_semicolon, List.count_eq_zero_of_not_mem absent]
    refine ⟨fun inside => noBackslash (mem_escapes (by decide) (by decide) _ inside), ?_⟩
    exact iff_of_true absent (Nat.zero_le 1)
  · have code : backslash ∉ ascii ['%', '3', 'B'] ∧ semicolon ∉ ascii ['%', '3', 'B'] := by decide
    rw [List.mem_append, List.mem_cons, not_or, not_or] at noBackslash
    rw [same]
    simp only [List.mem_append, not_or]
    constructor
    · refine ⟨⟨?_, code.1⟩, ?_⟩
      · exact fun inside => noBackslash.1 (mem_escapes (by decide) (by decide) _ inside)
      · exact fun inside => noBackslash.2.2 (mem_escapes (by decide) (by decide) _ inside)
    · rw [mem_escapes_semicolon, mem_escapes_semicolon, List.count_append, List.count_cons_self,
        List.count_eq_zero_of_not_mem absent]
      constructor
      · rintro ⟨_, rest⟩
        rw [List.count_eq_zero_of_not_mem rest]
      · intro once
        exact ⟨⟨absent, code.2⟩, List.count_eq_zero.mp (by omega)⟩

theorem getLast?_escapeSemicolons (noBackslash : backslash ∉ source) :
    (escapeSemicolons (escapes pathFlags previousIsNonAscii source)).getLast? = some slash ↔
      source.getLast? = some slash := by
  rcases @escapeSemicolons_cases previousIsNonAscii source noBackslash with
    ⟨_, same⟩ | ⟨first, second, previous, rfl, _, same⟩
  · rw [same, getLast?_escapes]
  · rw [same]
    cases second with
    | nil =>
        rw [escapes, List.append_nil, List.getLast?_append_of_ne_nil _ (by decide),
          List.getLast?_concat]
        decide
    | cons c rest =>
        have some_ : escapes pathFlags previous (c :: rest) ≠ [] :=
          List.append_ne_nil_of_left_ne_nil (written_ne_nil _) _
        rw [List.getLast?_append_of_ne_nil _ some_, getLast?_escapes,
          List.getLast?_append_of_ne_nil _ (List.cons_ne_nil _ _), List.getLast?_cons_cons]

theorem utf8PathToUrl_eq (path : Bytes) (directory : Bool) :
    utf8PathToUrl path directory = some (withSlash directory
      (escapeSemicolons (escapes pathFlags false (fileUrl ++ forwardSlashes path)))) := by
  have kept : forwardSlashes fileUrl = fileUrl := by decide
  rw [utf8PathToUrl]
  simp only
  rw [escapeUrl_eq, replaceFound_slash, forwardSlashes_append, kept]
  simp only [Option.bind_eq_bind, Option.bind_some]
  rw [withSlash, pathFlags]
  split <;> rfl

end

end ThreadIpc.UrlUtils
