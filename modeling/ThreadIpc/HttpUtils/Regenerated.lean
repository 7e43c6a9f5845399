import ThreadIpc.ConvertUtf.RoundTrip
import ThreadIpc.HttpUtils.Folding
import ThreadIpc.HttpUtils.HeaderString

/-!
# Parsing a generated header string

What `ParseHTTPHeaders` makes of a header block is made again of the string that is generated from it.
-/

namespace ThreadIpc.HttpUtils

open ConvertUtf Lib

structure Plain (entry : Entry) : Prop where
  name : IsText entry.1
  noColon : colon ∉ entry.1
  trimmed : entry.1.rdropWhile (· == space) = entry.1
  unindented : ∀ c ∈ entry.1.head?, isBlank c = false
  value : IsText entry.2
  flush : ∀ c ∈ entry.2.head?, c ≠ space

def Separate (name key : CString) : Prop := isMultiLine key = true ∨ strcasecmp name key = false

structure Regular (entries : List Entry) : Prop where
  plain : ∀ entry ∈ entries, Plain entry
  separate : (entries.map Prod.fst).Pairwise Separate

section Parsed
variable {entries : List Entry} {key value text : CString}

theorem dropWhile_of_head {p : UInt8 → Bool} {line : List UInt8} (stops : ∀ c ∈ line.head?, p c = false) :
    line.dropWhile p = line := by
  cases line with
  | nil => rfl
  | cons c rest => exact List.dropWhile_cons_of_neg (Bool.not_eq_true _ ▸ stops c rfl)

theorem head_of_dropWhile (p : UInt8 → Bool) (line : List UInt8) :
    ∀ c ∈ (line.dropWhile p).head?, p c = false := by
  intro c first
  have stops := List.head?_dropWhile_not p line
  rw [first] at stops
  exact Bool.eq_false_iff.mpr (by simpa using stops)

theorem IsText.of_subset {line part : List UInt8} (isText : IsText line) (subset : part ⊆ line) :
    IsText part :=
  ⟨fun zero => isText.1 (subset zero), fun cr => isText.2.1 (subset cr), fun lf => isText.2.2 (subset lf)⟩

theorem Field.key_prefix_before (field : Field) : field.key <+: field.line.takeWhile (· != colon) :=
  List.rdropWhile_prefix _ _

theorem Field.key_prefix_line (field : Field) : field.key <+: field.line :=
  field.key_prefix_before.trans (List.takeWhile_prefix _)

theorem Field.plain (field : Field) : Plain (field.key, field.value) where
  name := (field.isText field.line List.mem_cons_self).of_subset field.key_prefix_line.subset
  noColon within :=
    have before := List.mem_takeWhile_imp (field.key_prefix_before.subset within)
    bne_iff_ne.mp before rfl
  trimmed := List.rdropWhile_idempotent _ _
  unindented c first := by
    have stops := head_of_dropWhile isBlank field.line
    rw [← HttpUtils.startOf, field.unindented] at stops
    obtain ⟨behind, whole⟩ := field.key_prefix_line
    refine stops c ?_
    rw [← whole, List.head?_append, Option.mem_def.mp first]
    rfl
  value := (field.isText field.line List.mem_cons_self).of_subset (headerValue_subset _)
  flush c first := by
    have stops := head_of_dropWhile (· == space) _ c first
    exact fun same => by simp [same] at stops

theorem pairwise_set {α : Type} {related : α → α → Prop} {l : List α} {i : Nat} {old new : α}
    (pairwise : l.Pairwise related) (found : l[i]? = some old)
    (left : ∀ a, related a old → related a new) (right : ∀ b, related old b → related new b) :
    (l.set i new).Pairwise related := by
  induction l generalizing i with
  | nil => exact pairwise
  | cons first rest ih =>
      obtain ⟨before, later⟩ := List.pairwise_cons.mp pairwise
      cases i with
      | zero =>
          cases found
          exact List.pairwise_cons.mpr ⟨fun b inside => right b (before b inside), later⟩
      | succ i =>
          refine List.pairwise_cons.mpr ⟨fun b inside => ?_, ih later found⟩
          rcases List.mem_or_eq_of_mem_set inside with inside | rfl
          · exact before b inside
          · exact left first (before old (List.mem_of_getElem? found))

theorem forall_mem_modify {α : Type} {holds : α → Prop} {l : List α} {i : Nat} {become : α → α}
    (all : ∀ a ∈ l, holds a) (kept : ∀ a ∈ l, holds (become a)) : ∀ a ∈ l.modify i become, holds a := by
  induction l generalizing i with
  | nil => rwa [List.modify_nil]
  | cons first rest ih =>
      rw [List.forall_mem_cons] at all kept
      cases i with
      | zero => exact List.forall_mem_cons.mpr ⟨kept.1, all.2⟩
      | succ i => exact List.forall_mem_cons.mpr ⟨all.1, ih all.2 kept.2⟩

theorem Plain.merge {entry : Entry} (old : Plain entry) (new : Plain (key, value)) :
    Plain (key, entry.2 ++ [comma] ++ value) where
  name := new.name
  noColon := new.noColon
  trimmed := new.trimmed
  unindented := new.unindented
  value := (old.value.append (by decide)).append new.value
  flush c first := by
    cases before : entry.2 with
    | nil =>
        rw [before] at first
        cases first
        decide
    | cons c' rest =>
        rw [before] at first
        cases first
        exact old.flush c (by rw [before]; rfl)

theorem Plain.join {entry : Entry} (old : Plain entry) (isText : IsText text)
    (unindented : ∀ c ∈ text.head?, isBlank c = false) : Plain (entry.1, joined entry.2 text) where
  name := old.name
  noColon := old.noColon
  trimmed := old.trimmed
  unindented := old.unindented
  value := (old.value.append (separatorFor_isText _ _)).append isText
  flush c first := by
    cases before : entry.2 with
    | nil =>
        rw [before] at first
        rintro rfl
        cases unindented space first
    | cons c' rest =>
        rw [before] at first
        cases first
        exact old.flush c (by rw [before]; rfl)

theorem Regular.enter (regular : Regular entries) (new : Plain (key, value)) :
    Regular (enter entries key value) := by
  have names := enter_names entries key value
  cases place : placeOf (entries.map Prod.fst) key with
  | new =>
      rw [namesAfter, place] at names
      refine ⟨?_, ?_⟩
      · rw [HttpUtils.enter, place]
        intro entry inside
        rcases List.mem_append.mp inside with inside | inside
        · exact regular.plain entry inside
        · exact List.mem_singleton.mp inside ▸ new
      · rw [names, List.pairwise_append]
        refine ⟨regular.separate, List.pairwise_singleton _ _, fun name inside key' only => ?_⟩
        obtain rfl := List.mem_singleton.mp only
        exact ((placeOf_new_iff _ _).mp place).imp_right fun none_ => none_ name inside
  | merged i =>
      rw [namesAfter, place] at names
      obtain ⟨single, -, old, found, same⟩ := placeOf_merged place
      rw [strcasecmp_iff] at same
      refine ⟨?_, ?_⟩
      · rw [HttpUtils.enter, place]
        exact forall_mem_modify regular.plain fun entry inside => (regular.plain entry inside).merge new
      · rw [names]
        refine pairwise_set regular.separate found (fun name apart => ?_) fun name apart => ?_
        · rcases apart with multi | other
          · exact .inl (isMultiLine_congr same ▸ multi)
          · right
            rw [strcasecmp, beq_eq_false_iff_ne] at other ⊢
            exact fun equal => other (equal.trans same.symm)
        · refine apart.imp_right fun other => ?_
          rw [strcasecmp, beq_eq_false_iff_ne] at other ⊢
          exact fun equal => other (same.trans equal)
  | ignored =>
      rw [HttpUtils.enter, place]
      exact regular

theorem Regular.appendLast (regular : Regular entries) (isText : IsText text)
    (unindented : ∀ c ∈ text.head?, isBlank c = false) : Regular (appendLast entries text) where
  plain := forall_mem_modify regular.plain fun entry inside =>
    (regular.plain entry inside).join isText unindented
  separate := (appendLast_names entries text).symm ▸ regular.separate

theorem Regular.appendTexts {texts : List CString} (regular : Regular entries)
    (plain : ∀ text ∈ texts, IsText text ∧ ∀ c ∈ text.head?, isBlank c = false) :
    Regular (texts.foldl HttpUtils.appendLast entries) := by
  induction texts generalizing entries with
  | nil => exact regular
  | cons text rest ih =>
      obtain ⟨isText, unindented⟩ := plain text List.mem_cons_self
      exact ih (regular.appendLast isText unindented) fun other inside =>
        plain other (List.mem_cons_of_mem _ inside)

theorem Regular.enterField (regular : Regular entries) (field : Field) :
    Regular (enterField entries field) := by
  have entered := regular.enter field.plain
  have texts (text : CString) (inside : text ∈ field.texts) :
      IsText text ∧ ∀ c ∈ text.head?, isBlank c = false := by
    refine ⟨field.texts_isText text inside, ?_⟩
    obtain ⟨continuation, -, rfl⟩ := List.mem_map.mp inside
    exact head_of_dropWhile isBlank continuation
  exact entered.appendTexts texts

/-- Whatever lines a header block has, its headers could have been written as lines of their own. -/
theorem Regular.foldl (fields : List Field) (regular : Regular entries) :
    Regular (fields.foldl HttpUtils.enterField entries) := by
  induction fields generalizing entries with
  | nil => exact regular
  | cons field rest ih => exact ih (regular.enterField field)

end Parsed

section Lines
variable {entries : List Entry}

def lineOf (entry : Entry) : List UInt8 := entry.1 ++ colon :: space :: entry.2

def fieldOf (entry : Entry) (plain : Plain entry) : Field where
  line := lineOf entry
  continuations := []
  isText line only := by
    obtain rfl := List.mem_singleton.mp only
    exact plain.name.append (IsText.append (show IsText [colon, space] by decide) plain.value)
  hasColon := List.mem_append_right _ List.mem_cons_self
  unindented := by
    refine dropWhile_of_head fun c first => ?_
    rw [lineOf, List.head?_append] at first
    cases name : entry.1.head? with
    | none =>
        rw [name] at first
        cases first
        decide
    | some c' =>
        rw [name] at first
        cases first
        exact plain.unindented c name
  indented := not_indented_nil

theorem fieldOf_key {entry : Entry} (plain : Plain entry) : (fieldOf entry plain).key = entry.1 := by
  show headerKey (entry.1 ++ colon :: space :: entry.2) = entry.1
  rw [headerKey, takeWhile_delimiter plain.noColon, plain.trimmed]

theorem fieldOf_value {entry : Entry} (plain : Plain entry) : (fieldOf entry plain).value = entry.2 := by
  show headerValue (entry.1 ++ colon :: space :: entry.2) = entry.2
  rw [headerValue, dropWhile_delimiter plain.noColon, List.tail_cons,
    @List.dropWhile_cons_of_pos _ (· == space) _ _ (beq_self_eq_true space)]
  exact dropWhile_of_head fun c first => beq_eq_false_iff_ne.mpr (plain.flush c first)

theorem foldl_enterField_fieldOf (regular : Regular entries) :
    (entries.pmap fieldOf regular.plain).foldl enterField [] = entries := by
  induction entries using List.reverseRecOn with
  | nil => rfl
  | append_singleton front last ih =>
      have separate := regular.separate
      rw [List.map_append, List.pairwise_append] at separate
      have earlier : Regular front :=
        ⟨fun entry inside => regular.plain entry (List.mem_append_left _ inside), separate.1⟩
      have plain := regular.plain last (List.mem_append_right _ List.mem_cons_self)
      have place : placeOf (front.map Prod.fst) last.1 = .new := by
        refine (placeOf_new_iff _ _).mpr (or_iff_not_imp_left.mpr fun single name inside => ?_)
        exact (separate.2.2 name inside last.1 List.mem_cons_self).resolve_left single
      rw [List.pmap_append, List.foldl_append, ih earlier]
      show enterField front (fieldOf last plain) = front ++ [last]
      rw [enterField, fieldOf_key, fieldOf_value, enter, place]
      rfl

theorem fieldLines_fieldOf (plain : ∀ entry ∈ entries, Plain entry) :
    (fieldLines (entries.pmap fieldOf plain)).flatMap crlf =
      entries.flatMap fun entry => crlf (lineOf entry) := by
  induction entries with
  | nil => rfl
  | cons entry rest ih =>
      have later := ih fun other inside => plain other (List.mem_cons_of_mem _ inside)
      rw [List.flatMap_cons, ← later]
      rfl

end Lines

section Generated

variable {platform : Platform}

def headerText (stored : Stored) : List Char :=
  stored.flatMap fun header =>
    header.1.characters ++ [':', ' '] ++ header.2.characters ++ ['\r', '\n']

theorem utf16_headerText (stored : Stored) : utf16 (headerText stored) = Stored.lines stored := by
  rw [utf16, headerText, List.flatMap_assoc, Stored.lines]
  refine List.flatMap_congr fun header _ => ?_
  rw [List.flatMap_append, List.flatMap_append, List.flatMap_append]
  rfl

def Stored.entries (stored : Stored) : List Entry :=
  stored.map fun header => (header.1.bytes, header.2.bytes)

theorem ofEntries_entries (stored : Stored) : ofEntries stored.entries = stored.list := by
  rw [Stored.entries, ofEntries, List.map_map]
  rfl

theorem utf8_headerText (stored : Stored) :
    utf8 (headerText stored) = stored.entries.flatMap fun entry => crlf (lineOf entry) := by
  rw [utf8, headerText, List.flatMap_assoc, Stored.entries, List.flatMap_map]
  refine List.flatMap_congr fun header _ => ?_
  rw [List.flatMap_append, List.flatMap_append, List.flatMap_append, crlf, lineOf]
  simp only [Text.bytes, utf8, List.append_assoc]
  rfl

theorem utf16_nuls (k : Nat) : utf16 (List.replicate k '\x00') = List.replicate k 0 := by
  induction k with
  | zero => rfl
  | succ k ih => exact congrArg (List.cons 0) ih

theorem utf8_nuls (k : Nat) : utf8 (List.replicate k '\x00') = List.replicate k 0 := by
  induction k with
  | zero => rfl
  | succ k ih => exact congrArg (List.cons 0) ih

theorem regular_of_parsed {block : HeaderBlock} {body : List UInt8} {parsed : Parsed}
    (ran : parseHTTPHeaders platform (some (block.document body)) (some .new) = some parsed) :
    ∃ entries, parsed.headerList = some (ofEntries entries) ∧ Regular entries := by
  have nothing : Regular [] := ⟨List.forall_mem_nil _, List.Pairwise.nil⟩
  by_cases accepted : block.Accepted body
  · obtain ⟨parsed', ran', list⟩ := parseHTTPHeaders_headerList block body accepted
    cases ran.symm.trans ran'
    exact ⟨_, list, .foldl block.fields nothing⟩
  · cases ran.symm.trans (parseHTTPHeaders_rejected .new accepted)
    exact ⟨[], rfl, nothing⟩

/-- What a header block says is what it says after it was parsed, generated and parsed again. -/
theorem parseHTTPHeaders_generateHeaderString {block : HeaderBlock} {body : List UInt8} {parsed : Parsed}
    {headers : HTTPHeaders} {stored : Stored}
    (ran : parseHTTPHeaders platform (some (block.document body)) (some .new) = some parsed)
    (into : parsed.headers = some headers) (texts : headers.headers = stored.list)
    (short : stored.byteCount + 2 ≤ intMax / 4) :
    ∃ generated bytes again, headers.generateHeaderString = some generated ∧ generated.success = true ∧
      string16ToUTF8 generated.headers = some bytes ∧
      parseHTTPHeaders platform (some bytes) (some .new) = some again ∧ again.blankLineSeen = true ∧
      again.headerList = some headers.headers := by
  have regular : Regular stored.entries := by
    obtain ⟨entries, list, regular⟩ := regular_of_parsed ran
    rw [Parsed.headerList, into, Option.map_some, texts, ← ofEntries_entries] at list
    exact ofEntries_injective (Option.some.inj list) ▸ regular
  let nuls := stored.byteCount - stored.lines.length
  let text := headerText stored ++ ['\r', '\n'] ++ List.replicate nuls '\x00'
  have units : stored.lines ++ HTTPHeaders.crlfUnits ++ List.replicate nuls 0 = utf16 text := by
    have parts : utf16 text = utf16 (headerText stored) ++ utf16 ['\r', '\n'] ++
        utf16 (List.replicate nuls '\x00') := by
      simp only [utf16, text, List.flatMap_append]
    rw [parts, utf16_headerText, utf16_nuls]
    rfl
  have bytes : utf8 text =
      HeaderBlock.document ⟨none, stored.entries.pmap fieldOf regular.plain⟩ (List.replicate nuls 0) := by
    have parts : utf8 text = utf8 (headerText stored) ++ utf8 ['\r', '\n'] ++
        utf8 (List.replicate nuls '\x00') := by
      simp only [utf8, text, List.flatMap_append]
    rw [parts, utf8_headerText, utf8_nuls, ← fieldLines_fieldOf regular.plain]
    rfl
  have size : (stored.lines ++ HTTPHeaders.crlfUnits ++ List.replicate nuls 0).length ≤ intMax / 4 := by
    have shorter := lines_length_le stored
    have two : HTTPHeaders.crlfUnits.length = 2 := rfl
    simp only [List.length_append, List.length_replicate, nuls]
    omega
  have accepted : HeaderBlock.Accepted ⟨none, stored.entries.pmap fieldOf regular.plain⟩
      (List.replicate nuls 0) := by
    rintro _ ⟨⟩
  obtain ⟨started, empty, parsedAgain⟩ := parseHTTPHeaders_accepted .new accepted
  have start : started.headers = ofEntries [] := empty
  obtain ⟨again, lines, list⟩ := setHeaderLines_fields (stored.entries.pmap fieldOf regular.plain) start
  refine ⟨_, utf8 text, ⟨true, some (List.replicate nuls 0), some again⟩,
    generateHeaderString_list texts, rfl,
    string16ToUTF8_eq_some_iff.mpr ⟨size, text, units, rfl⟩, ?_, rfl, ?_⟩
  · rw [bytes, parsedAgain, lines]
    rfl
  · show some again.headers = some headers.headers
    rw [list, foldl_enterField_fieldOf regular, texts, ofEntries_entries]

/-- Two cookies, and a header that is continued and merged. -/
def cookieBlock : HeaderBlock where
  statusLine := none
  fields := [fieldOf (ascii "Set-Cookie", ascii "a")
      ⟨by decide +kernel, by decide +kernel, rfl, by decide +kernel, by decide +kernel, by decide +kernel⟩,
    fieldOf (ascii "set-cookie", ascii "b")
      ⟨by decide +kernel, by decide +kernel, rfl, by decide +kernel, by decide +kernel, by decide +kernel⟩,
    fieldB, { fieldB with
      continuations := [ascii "\t\tx"]
      isText := by decide +kernel
      indented := by decide +kernel }]

def cookies : Stored :=
  [(⟨"Set-Cookie".toList, by decide +kernel⟩, ⟨"a".toList, by decide⟩),
    (⟨"set-cookie".toList, by decide +kernel⟩, ⟨"b".toList, by decide⟩),
    (⟨"B".toList, by decide⟩, ⟨"2,2 x".toList, by decide +kernel⟩)]

theorem parseHTTPHeaders_generateHeaderString_cookies :
    cookieBlock.document [] =
      ascii "Set-Cookie: a\r\nset-cookie: b\r\nB: 2\r\nB: 2\r\n\t\tx\r\n\r\n" ∧
    ∃ parsed headers generated bytes again,
      parseHTTPHeaders .lp64 (some (cookieBlock.document [])) (some .new) = some parsed ∧
      parsed.headers = some headers ∧ headers.headers = cookies.list ∧
      headers.generateHeaderString = some generated ∧ generated.success = true ∧
      string16ToUTF8 generated.headers = some bytes ∧
      parseHTTPHeaders .lp64 (some bytes) (some .new) = some again ∧ again.blankLineSeen = true ∧
      again.headerList = some headers.headers := by
  obtain ⟨parsed, ran, list⟩ := parseHTTPHeaders_headerList cookieBlock [] fun _ status => nomatch status
  obtain ⟨headers, into, texts⟩ := Option.map_eq_some_iff.mp list
  have same : headers.headers = cookies.list := texts.trans (by decide +kernel)
  obtain ⟨generated, bytes, again, whole⟩ :=
    parseHTTPHeaders_generateHeaderString ran into same (by decide +kernel)
  exact ⟨by decide +kernel, parsed, headers, generated, bytes, again, ran, into, same, whole⟩

end Generated

end ThreadIpc.HttpUtils
