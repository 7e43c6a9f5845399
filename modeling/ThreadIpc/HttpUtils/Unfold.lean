import ThreadIpc.HttpUtils.Entries

/-!
# The unfolded block

Each continuation's text is appended to the header line that it follows, with a space between when
neither the value of the line nor the text is empty.
-/

namespace ThreadIpc.HttpUtils

open Lib

def unfoldLine (line : List UInt8) (texts : List CString) : List UInt8 :=
  texts.foldl (fun line text => line ++ separatorFor (headerValue line) text ++ text) line

section UnfoldLine

theorem separatorFor_isText (value text : CString) : IsText (separatorFor value text) := by
  unfold separatorFor
  split
  · exact ⟨by decide, by decide, by decide⟩
  · exact ⟨List.not_mem_nil, List.not_mem_nil, List.not_mem_nil⟩

theorem IsText.append {line line' : List UInt8} (left : IsText line) (right : IsText line') :
    IsText (line ++ line') := by
  refine ⟨?_, ?_, ?_⟩ <;> rw [List.mem_append, not_or]
  · exact ⟨left.1, right.1⟩
  · exact ⟨left.2.1, right.2.1⟩
  · exact ⟨left.2.2, right.2.2⟩

theorem IsText.startOf {line : List UInt8} (isText : IsText line) :
    IsText (HttpUtils.startOf line) := by
  have subset : HttpUtils.startOf line ⊆ line := (List.dropWhile_suffix _).subset
  exact ⟨fun zero => isText.1 (subset zero), fun cr => isText.2.1 (subset cr),
    fun lf => isText.2.2 (subset lf)⟩

theorem unfoldLine_eq_append (line : List UInt8) {texts : List CString}
    (isText : ∀ text ∈ texts, IsText text) :
    ∃ extra, unfoldLine line texts = line ++ extra ∧ IsText extra := by
  induction texts generalizing line with
  | nil =>
      exact ⟨[], (List.append_nil line).symm, List.not_mem_nil, List.not_mem_nil,
        List.not_mem_nil⟩
  | cons text rest ih =>
      obtain ⟨extra, same, extraText⟩ :=
        ih (line ++ separatorFor (headerValue line) text ++ text) fun other member =>
          isText other (List.mem_cons_of_mem _ member)
      refine ⟨separatorFor (headerValue line) text ++ text ++ extra, ?_, ?_⟩
      · rw [unfoldLine] at same ⊢
        rw [List.foldl_cons, same]
        simp only [List.append_assoc]
      · exact ((separatorFor_isText _ _).append (isText text List.mem_cons_self)).append extraText

theorem startOf_append {line : List UInt8} (nonempty : line ≠ []) (unindented : startOf line = line)
    (extra : List UInt8) : startOf (line ++ extra) = line ++ extra := by
  cases line with
  | nil => exact absurd rfl nonempty
  | cons c rest =>
      have notBlank : ¬ isBlank c = true := by
        intro blank
        rw [startOf, List.dropWhile_cons_of_pos blank] at unindented
        have shorter := List.length_dropWhile_le isBlank rest
        rw [unindented, List.length_cons] at shorter
        omega
      exact List.dropWhile_cons_of_neg notBlank

theorem headerKey_append {line : List UInt8} (hasColon : colon ∈ line) (extra : List UInt8) :
    headerKey (line ++ extra) = headerKey line := by
  obtain ⟨front, back, rfl⟩ := List.append_of_mem hasColon
  have before (rest : List UInt8) : (front ++ colon :: rest).takeWhile (· != colon) =
      front.takeWhile (· != colon) := takeWhile_stop front rfl rest
  rw [headerKey, headerKey, List.append_assoc, List.cons_append, before, before]

def afterColon (line : List UInt8) : List UInt8 := (line.dropWhile (· != colon)).tail

theorem afterColon_append {line : List UInt8} (hasColon : colon ∈ line) (extra : List UInt8) :
    afterColon (line ++ extra) = afterColon line ++ extra := by
  obtain ⟨front, back, rfl⟩ := List.append_of_mem hasColon
  have fromColon (rest : List UInt8) : (front ++ colon :: rest).dropWhile (· != colon) =
      front.dropWhile (· != colon) ++ colon :: rest := dropWhile_stop front rfl rest
  rw [afterColon, afterColon, List.append_assoc, List.cons_append, fromColon, fromColon]
  cases front.dropWhile (· != colon) with
  | nil => rfl
  | cons c rest => exact (List.append_assoc rest (colon :: back) extra).symm

theorem headerValue_append {line text : List UInt8} (hasColon : colon ∈ line)
    (start : startOf text = text) :
    headerValue (line ++ separatorFor (headerValue line) text ++ text) =
      joined (headerValue line) text := by
  have value (line : List UInt8) : headerValue line = (afterColon line).dropWhile (· == space) := rfl
  rw [List.append_assoc, value, afterColon_append hasColon, List.dropWhile_append, ← value, joined]
  cases empty : headerValue line with
  | nil =>
      have noSeparator : separatorFor [] text = [] := if_neg fun both => both.1 rfl
      rw [noSeparator]
      simp only [List.isEmpty_nil, if_true, List.nil_append]
      cases text with
      | nil => rfl
      | cons c rest =>
          have notBlank : ¬ isBlank c = true := by
            intro blank
            rw [startOf, List.dropWhile_cons_of_pos blank] at start
            have shorter := List.length_dropWhile_le isBlank rest
            rw [start, List.length_cons] at shorter
            omega
          refine List.dropWhile_cons_of_neg ?_
          intro isSpace
          exact notBlank (by rw [isBlank, isSpace]; rfl)
  | cons c rest =>
      simp only [List.isEmpty_cons, Bool.false_eq_true, if_false, List.append_assoc]

theorem headerValue_unfoldLine {line : List UInt8} (hasColon : colon ∈ line)
    {texts : List CString} (starts : ∀ text ∈ texts, startOf text = text) :
    headerValue (unfoldLine line texts) = texts.foldl joined (headerValue line) := by
  induction texts generalizing line with
  | nil => rfl
  | cons text rest ih =>
      have longer : colon ∈ line ++ separatorFor (headerValue line) text ++ text :=
        List.mem_append_left _ (List.mem_append_left _ hasColon)
      have later := ih longer fun other member => starts other (List.mem_cons_of_mem _ member)
      rw [headerValue_append hasColon (starts text List.mem_cons_self)] at later
      exact later

end UnfoldLine

theorem startOf_startOf (line : List UInt8) : startOf (startOf line) = startOf line :=
  List.dropWhile_idempotent _ _

namespace Field

theorem texts_isText (field : Field) : ∀ text ∈ field.texts, IsText text := by
  intro text member
  obtain ⟨continuation, inField, rfl⟩ := List.mem_map.mp member
  exact (field.isText continuation (List.mem_cons_of_mem _ inField)).startOf

def unfold (field : Field) : Field where
  line := unfoldLine field.line field.texts
  continuations := []
  isText := by
    intro text member
    obtain ⟨extra, same, isText⟩ := unfoldLine_eq_append field.line field.texts_isText
    rw [List.mem_singleton.mp member, same]
    exact (field.isText field.line List.mem_cons_self).append isText
  hasColon := by
    obtain ⟨extra, same, -⟩ := unfoldLine_eq_append field.line field.texts_isText
    rw [same]
    exact List.mem_append_left _ field.hasColon
  unindented := by
    obtain ⟨extra, same, -⟩ := unfoldLine_eq_append field.line field.texts_isText
    rw [same]
    exact startOf_append (List.ne_nil_of_mem field.hasColon) field.unindented extra
  indented := not_indented_nil

theorem unfold_key (field : Field) : field.unfold.key = field.key := by
  obtain ⟨extra, same, -⟩ := unfoldLine_eq_append field.line field.texts_isText
  show headerKey (unfoldLine field.line field.texts) = headerKey field.line
  rw [same]
  exact headerKey_append field.hasColon extra

theorem unfold_value (field : Field) :
    field.unfold.value = field.texts.foldl joined field.value := by
  refine headerValue_unfoldLine field.hasColon ?_
  intro text member
  obtain ⟨continuation, -, rfl⟩ := List.mem_map.mp member
  exact startOf_startOf continuation

end Field

theorem enterField_unfold (entries : List Entry) (field : Field) :
    enterField entries field.unfold =
      enter entries field.key (field.texts.foldl joined field.value) := by
  rw [← field.unfold_key, ← field.unfold_value]
  rfl

theorem fieldBytes_cons (field : Field) (rest : List Field) (body : List UInt8) :
    ∃ tail, fieldBytes (field :: rest) body = field.line ++ tail := by
  refine ⟨[cr, lf] ++ field.continuations.flatMap crlf ++ fieldBytes rest body, ?_⟩
  simp only [fieldBytes, fieldLines, List.flatMap_cons, List.flatMap_append, Field.lines, crlf,
    List.append_assoc]

namespace HeaderBlock

def unfold (block : HeaderBlock) : HeaderBlock where
  statusLine := block.statusLine
  fields := block.fields.map Field.unfold

theorem accepted_unfold (block : HeaderBlock) (body : List UInt8) :
    block.unfold.Accepted body ↔ block.Accepted body := by
  obtain ⟨statusLine, fields⟩ := block
  cases fields with
  | nil => exact Iff.rfl
  | cons field rest =>
      obtain ⟨extra, same, -⟩ := unfoldLine_eq_append field.line field.texts_isText
      obtain ⟨front, back, line⟩ := List.append_of_mem field.hasColon
      obtain ⟨tail, folded⟩ := fieldBytes_cons field rest body
      obtain ⟨tail', unfolded⟩ := fieldBytes_cons field.unfold (rest.map Field.unfold) body
      have longer : field.unfold.line = field.line ++ extra := same
      rw [longer] at unfolded
      rw [line, List.append_assoc, List.cons_append] at folded
      rw [line, List.append_assoc, List.append_assoc, List.cons_append] at unfolded
      refine forall_congr' fun status => imp_congr_right fun _ => ?_
      show goodFirstLine status.line (fieldBytes ((field :: rest).map Field.unfold) body) = true ↔
        goodFirstLine status.line (fieldBytes (field :: rest) body) = true
      rw [folded, List.map_cons, unfolded, goodFirstLine_colon]

end HeaderBlock

end ThreadIpc.HttpUtils
