import ThreadIpc.HttpUtils.Model
import ThreadIpc.Lib.Delimited

/-!
# Header blocks

The document that the lines of a block make, and `ParseHTTPHeaders` on it as one
`SetHeaderFromLine` for each line.
-/

namespace ThreadIpc.HttpUtils

open Lib

def IsText (line : List UInt8) : Prop := 0 ∉ line ∧ cr ∉ line ∧ lf ∉ line

instance (line : List UInt8) : Decidable (IsText line) := inferInstanceAs (Decidable (_ ∧ _))

/-- A header line and the continuation lines that follow it. -/
structure Field where
  line : List UInt8
  continuations : List (List UInt8)
  isText : ∀ text ∈ line :: continuations, IsText text
  hasColon : colon ∈ line
  unindented : startOf line = line
  indented : ∀ continuation ∈ continuations, startOf continuation ≠ continuation

theorem not_indented_nil : ∀ continuation ∈ ([] : List (List UInt8)),
    startOf continuation ≠ continuation :=
  List.forall_mem_nil _

/-- A status line has no colon, with one it is a header line. -/
structure StatusLine where
  line : List UInt8
  isText : IsText line
  nonempty : line ≠ []
  noColon : colon ∉ line

structure HeaderBlock where
  statusLine : Option StatusLine
  fields : List Field

def crlf (line : List UInt8) : List UInt8 := line ++ [cr, lf]

namespace Field

def lines (field : Field) : List (List UInt8) := field.line :: field.continuations

def key (field : Field) : CString := headerKey field.line

def value (field : Field) : CString := headerValue field.line

def texts (field : Field) : List CString := field.continuations.map startOf

end Field

def fieldLines (fields : List Field) : List (List UInt8) := fields.flatMap Field.lines

def fieldBytes (fields : List Field) (body : List UInt8) : List UInt8 :=
  (fieldLines fields).flatMap crlf ++ crlf [] ++ body

namespace HeaderBlock

def document (block : HeaderBlock) (body : List UInt8) : List UInt8 :=
  match block.statusLine with
  | none => fieldBytes block.fields body
  | some status => crlf status.line ++ fieldBytes block.fields body

def Accepted (block : HeaderBlock) (body : List UInt8) : Prop :=
  ∀ status ∈ block.statusLine, goodFirstLine status.line (fieldBytes block.fields body) = true

end HeaderBlock

section Lines

variable {platform : Platform}

theorem splitLine_crlf {line : List UInt8} (noCr : cr ∉ line) (rest : List UInt8) :
    splitLine (crlf line ++ rest) = some (line, rest) := by
  induction line with
  | nil => rfl
  | cons c tail ih =>
      rw [List.mem_cons, not_or] at noCr
      have later := ih noCr.2
      cases tail with
      | nil =>
          show splitLine (c :: cr :: lf :: rest) = _
          rw [splitLine, if_neg fun both => noCr.1 both.1.symm]
          exact congrArg _ later
      | cons d tail =>
          show splitLine (c :: d :: (tail ++ [cr, lf] ++ rest)) = _
          rw [splitLine, if_neg fun both => noCr.1 both.1.symm]
          exact congrArg _ later

theorem cString_eq {line : List UInt8} (isText : IsText line) : cString line = line := by
  rw [cString, List.takeWhile_eq_self_iff]
  intro c member
  exact bne_iff_ne.mpr fun zero => isText.1 (zero ▸ member)

theorem parseLines_blank (content body : List UInt8) (numHeaders : Nat)
    (headers : Option HTTPHeaders) :
    parseLines platform content (crlf [] ++ body) numHeaders headers =
      some ⟨true, some body, headers⟩ := by
  rw [parseLines, splitLine_crlf List.not_mem_nil]
  simp

theorem parseLines_line (content rest : List UInt8) {line : List UInt8} {numHeaders : Nat}
    (headers : HTTPHeaders) (isText : IsText line) (nonempty : line ≠ [])
    (header : numHeaders ≠ 0 ∨ colon ∈ line) :
    parseLines platform content (crlf line ++ rest) numHeaders (some headers) =
      (headers.setHeaderFromLine line .append).bind fun result =>
        parseLines platform content rest (numHeaders + 1) (some result.2) := by
  have notStatus : ¬ (numHeaders = 0 ∧ colon ∉ line) := by
    rintro ⟨first, noColon⟩
    exact header.elim (fun later => later first) noColon
  rw [parseLines, splitLine_crlf isText.2.1]
  simp only [cString_eq isText]
  rw [if_neg fun newline => isText.2.2 newline.2, if_neg nonempty, if_neg notStatus]
  cases headers.setHeaderFromLine line .append <;> rfl

def HTTPHeaders.setHeaderLines (headers : HTTPHeaders) (lines : List (List UInt8)) :
    Option HTTPHeaders :=
  lines.foldlM (fun headers line => (headers.setHeaderFromLine line .append).map Prod.snd) headers

theorem parseLines_lines (content body : List UInt8) {lines : List (List UInt8)} {numHeaders : Nat}
    (headers : HTTPHeaders) (isText : ∀ line ∈ lines, IsText line)
    (nonempty : ∀ line ∈ lines, line ≠ [])
    (header : numHeaders ≠ 0 ∨ ∀ line ∈ lines.head?, colon ∈ line) :
    parseLines platform content (lines.flatMap crlf ++ crlf [] ++ body) numHeaders (some headers) =
      (headers.setHeaderLines lines).map fun headers => ⟨true, some body, some headers⟩ := by
  induction lines generalizing numHeaders headers with
  | nil => exact parseLines_blank content body numHeaders (some headers)
  | cons line rest ih =>
      have first := header.imp_right fun colons => colons line rfl
      rw [List.flatMap_cons, List.append_assoc, List.append_assoc,
        parseLines_line content _ headers (isText line List.mem_cons_self)
          (nonempty line List.mem_cons_self) first,
        HTTPHeaders.setHeaderLines, List.foldlM_cons]
      cases headers.setHeaderFromLine line .append with
      | none => rfl
      | some result =>
          have later := ih result.2 (fun other member => isText other (List.mem_cons_of_mem _ member))
            (fun other member => nonempty other (List.mem_cons_of_mem _ member))
            (.inl (Nat.succ_ne_zero numHeaders))
          rw [List.append_assoc] at later
          exact later

end Lines

section FirstLine

theorem strtolNumber_colon (negative : Bool) (front rest : List UInt8) :
    strtolNumber negative (front ++ colon :: rest) =
      (strtolNumber negative front).map fun number => (number.1, number.2 ++ colon :: rest) := by
  have stop : isdigit colon = false := rfl
  simp only [strtolNumber, takeWhile_stop front stop, dropWhile_stop front stop]
  split <;> rfl

theorem strtolSign_colon (front rest : List UInt8) : strtolSign (front ++ colon :: rest) =
    ((strtolSign front).1, (strtolSign front).2 ++ colon :: rest) := by
  cases front with
  | nil => rfl
  | cons c tail =>
      show strtolSign (c :: (tail ++ colon :: rest)) = _
      simp only [strtolSign]
      split
      · rfl
      · split <;> rfl

theorem strtol_colon (front rest : List UInt8) :
    strtol (front ++ colon :: rest) = ((strtol front).1, (strtol front).2 ++ colon :: rest) := by
  simp only [strtol, dropWhile_stop front (show isspace colon = false from rfl), strtolSign_colon,
    strtolNumber_colon]
  cases strtolNumber (strtolSign (front.dropWhile isspace)).1
    (strtolSign (front.dropWhile isspace)).2 <;> rfl

theorem goodFirstLine_colon (line front rest rest' : List UInt8) :
    goodFirstLine line (front ++ colon :: rest) = goodFirstLine line (front ++ colon :: rest') := by
  unfold goodFirstLine
  cases line.dropWhile (· != space) with
  | nil => rfl
  | cons _ afterSpace =>
      have same : ∀ tail : List UInt8, afterSpace ++ cr :: lf :: (front ++ colon :: tail) =
          (afterSpace ++ cr :: lf :: front) ++ colon :: tail := by
        intro tail
        simp
      simp only [same, strtol_colon]
      congr 1
      · cases (strtol (afterSpace ++ cr :: lf :: front)).2 <;> rfl
      · simp only [List.length_append, List.length_cons, Nat.add_lt_add_iff_right]

end FirstLine

section Block

variable {platform : Platform}

theorem Field.nonempty (field : Field) : ∀ line ∈ field.lines, line ≠ [] := by
  intro line member
  rcases List.mem_cons.mp member with rfl | continuation
  · exact List.ne_nil_of_mem field.hasColon
  · rintro rfl
    exact field.indented [] continuation rfl

theorem addResponseFirstline_headers (headers : HTTPHeaders) (line : List UInt8) :
    (headers.addResponseFirstline platform line).2.headers = headers.headers := by
  simp only [HTTPHeaders.addResponseFirstline, HTTPHeaders.checkResponseProtocol]
  grind

theorem parseLines_fields (content body : List UInt8) (fields : List Field) (numHeaders : Nat)
    (headers : HTTPHeaders) :
    parseLines platform content (fieldBytes fields body) numHeaders (some headers) =
      (headers.setHeaderLines (fieldLines fields)).map fun headers =>
        ⟨true, some body, some headers⟩ := by
  apply parseLines_lines
  · intro line member
    obtain ⟨field, -, inField⟩ := List.mem_flatMap.mp member
    exact field.isText line inField
  · intro line member
    obtain ⟨field, -, inField⟩ := List.mem_flatMap.mp member
    exact field.nonempty line inField
  · right
    cases fields with
    | nil =>
        intro line head
        cases head
    | cons field _ =>
        intro line head
        cases head
        exact field.hasColon

theorem document_ne_nil (block : HeaderBlock) (body : List UInt8) : block.document body ≠ [] := by
  unfold HeaderBlock.document fieldBytes crlf
  split <;> simp

theorem parseHTTPHeaders_document (block : HeaderBlock) (body : List UInt8)
    (headers : HTTPHeaders) :
    parseHTTPHeaders platform (some (block.document body)) (some headers) =
      parseLines platform (block.document body) (block.document body) 0 (some headers) := by
  unfold parseHTTPHeaders
  split
  · contradiction
  · rename_i empty
    exact absurd (Option.some.inj empty) (document_ne_nil block body)
  · rename_i same
    cases same
    rfl

theorem parseLines_status (content : List UInt8) (status : StatusLine) (rest : List UInt8)
    (headers : HTTPHeaders) :
    parseLines platform content (crlf status.line ++ rest) 0 (some headers) =
      if goodFirstLine status.line rest then
        parseLines platform content rest
          (if (headers.addResponseFirstline platform status.line).1 then 1 else 0)
          (some (headers.addResponseFirstline platform status.line).2)
      else some ⟨false, some content, some headers⟩ := by
  rw [parseLines, splitLine_crlf status.isText.2.1]
  simp only [true_and]
  rw [if_neg status.isText.2.2, if_neg status.nonempty, if_pos status.noColon]

theorem parseHTTPHeaders_accepted {block : HeaderBlock} {body : List UInt8} (headers : HTTPHeaders)
    (accepted : block.Accepted body) :
    ∃ started : HTTPHeaders, started.headers = headers.headers ∧
      parseHTTPHeaders platform (some (block.document body)) (some headers) =
        (started.setHeaderLines (fieldLines block.fields)).map fun headers =>
          ⟨true, some body, some headers⟩ := by
  rw [parseHTTPHeaders_document]
  obtain ⟨statusLine, fields⟩ := block
  cases statusLine with
  | none => exact ⟨headers, rfl, parseLines_fields ..⟩
  | some status =>
      refine ⟨_, @addResponseFirstline_headers platform headers status.line, ?_⟩
      rw [HeaderBlock.document, parseLines_status, if_pos (accepted status rfl)]
      exact parseLines_fields ..

theorem parseHTTPHeaders_rejected {block : HeaderBlock} {body : List UInt8} (headers : HTTPHeaders)
    (rejected : ¬ block.Accepted body) :
    parseHTTPHeaders platform (some (block.document body)) (some headers) =
      some ⟨false, some (block.document body), some headers⟩ := by
  rw [parseHTTPHeaders_document]
  obtain ⟨statusLine, fields⟩ := block
  cases statusLine with
  | none =>
      refine absurd ?_ rejected
      intro status member
      cases member
  | some status =>
      rw [HeaderBlock.document, parseLines_status, if_neg]
      intro good
      refine rejected ?_
      intro status' member
      cases member
      exact good

end Block

end ThreadIpc.HttpUtils
