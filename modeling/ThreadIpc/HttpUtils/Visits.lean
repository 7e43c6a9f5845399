import ThreadIpc.HttpUtils.HeaderLines
import ThreadIpc.HttpUtils.LineSteps

/-!
# The lines of a document

The lines that the loop comes to, without a buffer. Which ones they are depends on the document, on
what follows it in memory and on whether headers are recorded at all.
-/

namespace ThreadIpc.HttpUtils

open Lib

variable {platform : Platform}

section SplitLine

theorem splitLine_append {document text rest : List UInt8}
    (split_ : splitLine document = some (text, rest)) : document = text ++ cr :: lf :: rest := by
  induction document using splitLine.induct generalizing text with
  | case1 => cases split_
  | case2 _ => cases split_
  | case3 c d tail crlf =>
      rw [splitLine, if_pos crlf] at split_
      cases split_
      rw [crlf.1, crlf.2]
      rfl
  | case4 c d tail other ih =>
      rw [splitLine, if_neg other] at split_
      obtain ⟨⟨text', rest'⟩, within, same⟩ := Option.map_eq_some_iff.mp split_
      cases same
      rw [ih within, List.cons_append]

theorem find_succ {c d : UInt8} {memory : List UInt8} {i : Nat} (cell : memory[i]? = some d)
    (count : Nat) : Memory.find c memory (count + 1) i =
      if d = c then some (some i) else Memory.find c memory count (i + 1) := by
  rw [Memory.find, cell]

theorem memchr_count {memory : List UInt8} {contentend start count : Nat} (c : UInt8)
    (room : contentend < 4294967296) (last : contentend = start + count + 1) :
    memchr platform memory start c (contentend - start - 1) =
      inside (Memory.find c memory count start) := by
  have same : (contentend : Int) - start - 1 = count := by omega
  rw [memchr, same, toSize_natCast (by omega)]

theorem findLineEnd_cons {content tail : List UInt8} (behind : List UInt8) {start : Nat} {c d : UInt8}
    (room : content.length < 4294967296) (atStart : content.drop start = c :: d :: tail) :
    findLineEnd platform (content ++ behind) content.length start =
      if c = cr ∧ d = lf then .ok (some start)
      else findLineEnd platform (content ++ behind) content.length (start + 1) := by
  have lengths := congrArg List.length atStart
  rw [List.length_drop, List.length_cons, List.length_cons] at lengths
  have position : (content ++ behind).drop start = c :: d :: (tail ++ behind) := by
    rw [List.drop_append_of_le_length (by omega), atStart]
    rfl
  have cell : (content ++ behind)[start]? = some c := by
    rw [← List.head?_drop, position, List.head?_cons]
  have next : (content ++ behind)[start + 1]? = some d := by
    rw [← List.head?_drop, Memory.drop_succ position, List.head?_cons]
  have last : content.length = start + (tail.length + 1) + 1 := by omega
  rw [findLineEnd, memchr_count cr room last, find_succ cell]
  by_cases isCr : c = cr
  · rw [if_pos isCr, inside_some]
    simp only [next]
    by_cases isLf : d = lf
    · rw [if_pos isLf, if_pos (And.intro isCr isLf)]
    · rw [if_neg isLf, if_neg fun both => isLf both.2]
  · rw [if_neg isCr, if_neg fun both => isCr both.1]
    have shorter : content.length = start + 1 + tail.length + 1 := by omega
    rw [findLineEnd, memchr_count cr room shorter]

theorem findLineEnd_last {memory : List UInt8} {contentend start : Nat}
    (room : contentend < 4294967296) (last : contentend = start + 1) :
    findLineEnd platform memory contentend start = .ok none := by
  rw [findLineEnd, @memchr_count platform memory contentend start 0 cr room last, Memory.find, inside_some]

theorem findLineEnd_splitLine {content behind suffix : List UInt8} {start : Nat}
    (room : content.length < 4294967296) (atStart : content.drop start = suffix)
    (nonempty : suffix ≠ []) : findLineEnd platform (content ++ behind) content.length start =
      .ok ((splitLine suffix).map fun split_ => start + split_.1.length) := by
  induction suffix using splitLine.induct generalizing start with
  | case1 => exact absurd rfl nonempty
  | case2 c =>
      have lengths := congrArg List.length atStart
      rw [List.length_drop, List.length_singleton] at lengths
      exact findLineEnd_last room (by omega)
  | case3 c d tail crlf =>
      rw [findLineEnd_cons behind room atStart, if_pos crlf, splitLine, if_pos crlf]
      rfl
  | case4 c d tail other ih =>
      rw [findLineEnd_cons behind room atStart, if_neg other, splitLine, if_neg other,
        ih (Memory.drop_succ atStart) (List.cons_ne_nil _ _), Option.map_map]
      congr 2
      funext split_
      exact Nat.add_right_comm _ 1 _

theorem nextLineEnd_splitLine {content : List UInt8} (behind : List UInt8) {line : Nat}
    (room : content.length < 4294967296) :
    nextLineEnd platform (content ++ behind) content.length line =
      .ok ((splitLine (content.drop line)).map fun split_ => line + split_.1.length) := by
  have length : (content.drop line).length = content.length - line := List.length_drop
  rw [nextLineEnd]
  cases suffix : content.drop line with
  | nil =>
      rw [suffix, List.length_nil] at length
      exact if_pos (by omega)
  | cons c tail =>
      rw [suffix, List.length_cons] at length
      by_cases ends : content.length ≤ line + 1
      · have alone : tail = [] := List.length_eq_zero_iff.mp (by omega)
        rw [if_pos ends, alone]
        rfl
      · rw [if_neg ends, findLineEnd_splitLine room suffix (List.cons_ne_nil c tail)]

end SplitLine

theorem parseLoop_split {content : List UInt8} (behind : List UInt8)
    (room : content.length < 4294967296) (asserts allowConstCast : Bool) (line numHeaders : Nat)
    (headers : Option HTTPHeaders) :
    parseLoop platform asserts allowConstCast content.length (content ++ behind) line numHeaders
        headers =
      match splitLine (content.drop line) with
      | none => .ok (if numHeaders = 0 then unchanged content.length headers (content ++ behind)
          else ⟨false, some content.length, 0, headers, content ++ behind⟩)
      | some (text, rest) =>
          match lineStep platform text (rest ++ behind) numHeaders headers with
          | .error fault => .error fault
          | .ok (.goOn numHeaders headers) => parseLoop platform asserts allowConstCast content.length
              (content ++ behind) (line + text.length + 2) numHeaders headers
          | .ok .blank =>
              atBlank asserts content.length (line + text.length + 2) headers (content ++ behind)
          | .ok .refuse => .ok (unchanged content.length headers (content ++ behind)) := by
  have next := @nextLineEnd_splitLine platform content behind line room
  cases split_ : splitLine (content.drop line) with
  | none =>
      rw [split_, Option.map_none] at next
      exact parseLoop_end asserts allowConstCast numHeaders headers next
  | some parts =>
      obtain ⟨text, rest⟩ := parts
      have suffix := splitLine_append split_
      have within := congrArg List.length suffix
      rw [List.length_drop, List.length_append, List.length_cons] at within
      have position : (content ++ behind).drop line = text ++ cr :: lf :: (rest ++ behind) := by
        rw [List.drop_append_of_le_length (by omega), suffix]
        simp only [List.append_assoc, List.cons_append]
      rw [split_, Option.map_some] at next
      exact parseLoop_line asserts allowConstCast numHeaders headers room next position

theorem drop_splitLine {content text rest : List UInt8} {line : Nat}
    (split_ : splitLine (content.drop line) = some (text, rest)) :
    content.drop (line + text.length + 2) = rest :=
  Memory.drop_succ (Memory.drop_succ (Memory.drop_further (splitLine_append split_)))

structure Buffer where
  bytes : List UInt8
  size : bytes.length < 4294967296

def Buffer.bodylen (buffer : Buffer) : UInt32 := UInt32.ofNat buffer.bytes.length

theorem Buffer.bodylen_toNat (buffer : Buffer) : buffer.bodylen.toNat = buffer.bytes.length := by
  rw [Buffer.bodylen, UInt32.toNat_ofNat']
  exact Nat.mod_eq_of_lt buffer.size

inductive Visit
  | status (text after : List UInt8)
  | header (text : List UInt8)
  | blank (body : List UInt8)

def isResponse (platform : Platform) (text : List UInt8) : Bool :=
  (HTTPHeaders.new.addResponseFirstline platform text).1

example : isResponse .lp64 (ascii "HTTP/1.1 4294967496 OK") = true ∧
    isResponse .llp64 (ascii "HTTP/1.1 4294967496 OK") = false := by decide +kernel

/-- The lines from `line` on. `first` says that no header has been seen. -/
def visits (platform : Platform) (recording : Bool) (behind line : List UInt8) (first : Bool) :
    List Visit :=
  match _split : splitLine line with
  | none => []
  | some (text, rest) =>
      if first = true ∧ lf ∈ text then []
      else if text = [] then [.blank rest]
      else if first = true ∧ colon ∉ text then
        .status text (rest ++ behind) ::
          if goodFirstLine text (rest ++ behind) then
            visits platform recording behind rest (recording && !isResponse platform text)
          else []
      else .header text :: visits platform recording behind rest false
termination_by line.length
decreasing_by all_goals exact splitLine_length _split

theorem addResponseFirstline_good (headers : HTTPHeaders) (text : List UInt8) :
    (headers.addResponseFirstline platform text).1 = isResponse platform text := by
  simp only [isResponse, HTTPHeaders.addResponseFirstline, HTTPHeaders.checkResponseProtocol]
  grind

def setLineIn (list : KeyValueList) (line : CString) : Option KeyValueList :=
  ((HTTPHeaders.mk [] .httpError 0 [] list).setHeaderFromLine line .append).map fun result =>
    result.2.headers

def setLinesIn (list : KeyValueList) (lines : List CString) : Option KeyValueList :=
  lines.foldlM setLineIn list

theorem setLinesIn_cons (list : KeyValueList) (line : CString) (lines : List CString) :
    setLinesIn list (line :: lines) = (setLineIn list line).bind (setLinesIn · lines) :=
  List.foldlM_cons

theorem setMatching_same (headers other : HTTPHeaders) (key : CString) (value : Option CString)
    (mode : Overwrite) (list : KeyValueList) :
    headers.setMatching key value mode list = other.setMatching key value mode list := by
  induction list with
  | nil => rfl
  | cons it rest ih =>
      rw [HTTPHeaders.setMatching, HTTPHeaders.setMatching, ih]
      rfl

theorem setHeader_list {headers other : HTTPHeaders} (same : headers.headers = other.headers)
    (key : CString) (value : Option CString) (mode : Overwrite) :
    (headers.setHeader key value mode).2.headers = (other.setHeader key value mode).2.headers := by
  simp only [HTTPHeaders.setHeader, HTTPHeaders.addNewHeader, HTTPHeaders.clearHeader,
    HTTPHeaders.isUsingTooMuchMemory_eq, same, setMatching_same headers other, Bool.false_eq_true,
    if_false]
  grind

theorem setHeaderFromLine_list (headers : HTTPHeaders) (line : CString) :
    (headers.setHeaderFromLine line .append).map (fun result => result.2.headers) =
      setLineIn headers.headers line := by
  have assigned := @setHeader_list headers ⟨[], .httpError, 0, [], headers.headers⟩ rfl
  simp only [setLineIn, HTTPHeaders.setHeaderFromLine]
  split
  · cases headers.headers.getLast? with
    | none => rfl
    | some last => rcases last with ⟨first, _ | second⟩ <;> rfl
  split
  · rfl
  · simp only [Option.map_some, assigned]

def headerTexts : List Visit → List CString
  | [] => []
  | .header text :: rest => cString text :: headerTexts rest
  | .status _ _ :: rest => headerTexts rest
  | .blank _ :: rest => headerTexts rest

section Visits

variable {recording first : Bool} {behind line text rest : List UInt8}

theorem visits_end (split_ : splitLine line = none) :
    visits platform recording behind line first = [] := by
  rw [visits, split_]

theorem visits_refused (split_ : splitLine line = some (text, rest))
    (newline : first = true ∧ lf ∈ text) :
    visits platform recording behind line first = [] := by
  rw [visits, split_]
  exact if_pos newline

theorem visits_blank (split_ : splitLine line = some (text, rest))
    (noNewline : ¬(first = true ∧ lf ∈ text)) (empty : text = []) :
    visits platform recording behind line first = [.blank rest] := by
  rw [visits, split_]
  simp only [if_neg noNewline, if_pos empty]

theorem visits_status (split_ : splitLine line = some (text, rest))
    (noNewline : ¬(first = true ∧ lf ∈ text)) (nonempty : text ≠ [])
    (status : first = true ∧ colon ∉ text) : visits platform recording behind line first =
      .status text (rest ++ behind) ::
        if goodFirstLine text (rest ++ behind) then
          visits platform recording behind rest (recording && !isResponse platform text)
        else [] := by
  rw [visits, split_]
  simp only [if_neg noNewline, if_neg nonempty, if_pos status]

theorem visits_header (split_ : splitLine line = some (text, rest))
    (noNewline : ¬(first = true ∧ lf ∈ text)) (nonempty : text ≠ [])
    (header : ¬(first = true ∧ colon ∉ text)) : visits platform recording behind line first =
      .header text :: visits platform recording behind rest false := by
  rw [visits, split_]
  simp only [if_neg noNewline, if_neg nonempty, if_neg header]

end Visits

def Returned.IsSuffix (contentlen : Nat) (returned : Returned) : Prop :=
  match returned.body with
  | none => returned.bodylen = 0
  | some body => body + returned.bodylen = contentlen

theorem unchanged_isSuffix (contentlen : Nat) (headers : Option HTTPHeaders)
    (memory : List UInt8) : (unchanged contentlen headers memory).IsSuffix contentlen :=
  Nat.zero_add contentlen

def listOf (headers : Option HTTPHeaders) : Option KeyValueList := headers.map HTTPHeaders.headers

inductive Turn (platform : Platform) (asserts : Bool) (content behind : List UInt8)
    (loop : Nat → Nat → Option HTTPHeaders → Except Fault Returned) (line : Nat)
    (headers : Option HTTPHeaders) : Except Fault Returned → List Visit → Prop
  | done {returned : Returned} {statusLines : List Visit} : returned.headers = headers →
      returned.IsSuffix content.length →
      (∀ visit ∈ statusLines, ∃ text after, visit = .status text after ∧
        runsOff text after = false ∧ goodFirstLine text after = false) →
      Turn platform asserts content behind loop line headers (.ok returned) statusLines
  | blank {body : Nat} : body ≤ content.length →
      Turn platform asserts content behind loop line headers
        (atBlank asserts content.length body headers (content ++ behind))
        [.blank (content.drop body)]
  | runsOff {text after : List UInt8} {later : List Visit} : runsOff text after = true →
      Turn platform asserts content behind loop line headers (.error .outside) (.status text after :: later)
  | tooLong {text after : List UInt8} {later : List Visit} : goodFirstLine text after = true →
      headers ≠ none → 2147483648 ≤ text.length →
      Turn platform asserts content behind loop line headers (.error .lengthError)
        (.status text after :: later)
  | status {text after : List UInt8} {line' numHeaders' : Nat} {headers' : Option HTTPHeaders} :
      runsOff text after = false → (headers ≠ none → text.length < 2147483648) →
      listOf headers' = listOf headers → content.length - line' < content.length - line →
      Turn platform asserts content behind loop line headers (loop line' numHeaders' headers')
        (.status text after ::
          visits platform headers'.isSome behind (content.drop line') (numHeaders' = 0))
  | nullValue {stored : HTTPHeaders} {text : List UInt8} {later : List Visit} :
      headers = some stored → setLineIn stored.headers (cString text) = none →
      Turn platform asserts content behind loop line headers (.error .nullValue) (.header text :: later)
  | header {text : List UInt8} {line' numHeaders' : Nat} {headers' : Option HTTPHeaders} :
      ((listOf headers).map fun list => setLineIn list (cString text)) =
        (listOf headers').map some →
      content.length - line' < content.length - line →
      Turn platform asserts content behind loop line headers (loop line' numHeaders' headers')
        (.header text :: visits platform headers'.isSome behind (content.drop line') (numHeaders' = 0))

theorem parseLoop_turn {content : List UInt8} (behind : List UInt8)
    (room : content.length < 4294967296) (asserts allowConstCast : Bool) (line numHeaders : Nat)
    (headers : Option HTTPHeaders) : Turn platform asserts content behind
      (parseLoop platform asserts allowConstCast content.length (content ++ behind)) line headers
      (parseLoop platform asserts allowConstCast content.length (content ++ behind) line numHeaders
        headers)
      (visits platform headers.isSome behind (content.drop line) (numHeaders = 0)) := by
  have refused := unchanged_isSuffix content.length headers (content ++ behind)
  rw [parseLoop_split behind room]
  cases split_ : splitLine (content.drop line) with
  | none =>
      rw [visits_end split_]
      refine .done ?_ ?_ fun _ member => absurd member List.not_mem_nil
      · split <;> rfl
      · split
        · exact refused
        · exact Nat.add_zero _
  | some parts =>
      obtain ⟨text, rest⟩ := parts
      have length := congrArg List.length (splitLine_append split_)
      have suffix := drop_splitLine split_
      rw [List.length_drop, List.length_append, List.length_cons, List.length_cons] at length
      have shorter : content.length - (line + text.length + 2) < content.length - line := by omega
      subst suffix
      simp only [lineStep]
      by_cases newline : numHeaders = 0 ∧ lf ∈ text
      · rw [visits_refused split_ (by simpa using newline)]
        simp only [if_pos newline]
        exact .done rfl refused fun _ member => absurd member List.not_mem_nil
      have noNewline : ¬(decide (numHeaders = 0) = true ∧ lf ∈ text) := by simpa using newline
      simp only [if_neg newline]
      by_cases empty : text = []
      · rw [visits_blank split_ noNewline empty]
        simp only [if_pos empty]
        exact .blank (by omega)
      simp only [if_neg empty]
      by_cases status : numHeaders = 0 ∧ colon ∉ text
      · rw [visits_status split_ noNewline empty (by simpa using status)]
        simp only [if_pos status]
        by_cases runs : runsOff text (content.drop (line + text.length + 2) ++ behind) = true
        · simp only [if_pos runs]
          exact .runsOff runs
        have stays : runsOff text (content.drop (line + text.length + 2) ++ behind) = false :=
          Bool.eq_false_iff.mpr runs
        simp only [if_neg runs]
        by_cases good : goodFirstLine text (content.drop (line + text.length + 2) ++ behind) = true
        · simp only [if_pos good]
          cases headers with
          | none => exact .status stays (fun some_ => absurd rfl some_) rfl shorter
          | some stored =>
              by_cases long : toInt text.length < 0
              · simp only [if_pos long]
                exact .tooLong good (fun none_ => by cases none_)
                  ((toInt_neg_iff (by omega)).mp long)
              · have first : (true && !isResponse platform text) = decide
                    ((if (stored.addResponseFirstline platform text).1 = true then 1 else 0) = 0) := by
                  rw [addResponseFirstline_good]
                  cases isResponse platform text <;> rfl
                have short : text.length < 2147483648 := by
                  rw [toInt_neg_iff (by omega)] at long
                  exact Nat.not_le.mp long
                simp only [if_neg long, Option.isSome_some, first]
                exact .status stays (fun _ => short)
                  (congrArg some (addResponseFirstline_headers stored text)) shorter
        · simp only [if_neg good]
          refine .done rfl refused fun visit member => ?_
          exact ⟨text, content.drop (line + text.length + 2) ++ behind,
            List.mem_singleton.mp member, stays, Bool.eq_false_iff.mpr good⟩
      · rw [visits_header split_ noNewline empty (by simpa using status)]
        simp only [if_neg status]
        cases headers with
        | none => exact .header rfl shorter
        | some stored =>
            have list := setHeaderFromLine_list stored (cString text)
            cases result : stored.setHeaderFromLine (cString text) .append with
            | none =>
                rw [result] at list
                simp only [result]
                exact .nullValue rfl list.symm
            | some outcome =>
                rw [result] at list
                simp only [result]
                exact .header (congrArg some list.symm) shorter

theorem atBlank_headers {asserts : Bool} {contentlen body : Nat} {headers : Option HTTPHeaders}
    {memory : List UInt8} {returned : Returned}
    (result : atBlank asserts contentlen body headers memory = .ok returned) :
    returned.headers = headers := by
  rw [atBlank] at result
  cases check : CHECK asserts (toInt body ≤ toInt contentlen) with
  | error fault =>
      rw [check] at result
      cases result
  | ok _ =>
      rw [check] at result
      cases result
      rfl

theorem headerTexts_statusLines {lines : List Visit} (refused : ∀ visit ∈ lines, ∃ text after,
    visit = .status text after ∧ runsOff text after = false ∧ goodFirstLine text after = false) :
    headerTexts lines = [] := by
  induction lines with
  | nil => rfl
  | cons visit lines ih =>
      obtain ⟨text, after, same, _⟩ := refused visit List.mem_cons_self
      subst same
      exact ih fun visit member => refused visit (List.mem_cons_of_mem _ member)

theorem parseLoop_headers {content : List UInt8} (behind : List UInt8)
    (room : content.length < 4294967296) (asserts allowConstCast : Bool) {line numHeaders : Nat}
    {headers : Option HTTPHeaders} {returned : Returned}
    (result : parseLoop platform asserts allowConstCast content.length (content ++ behind) line
      numHeaders headers = .ok returned) : listOf returned.headers = (listOf headers).bind fun list =>
        setLinesIn list
          (headerTexts (visits platform headers.isSome behind (content.drop line) (numHeaders = 0))) := by
  induction left : content.length - line using Nat.strong_induction_on
    generalizing line numHeaders headers with
  | _ left_ ih =>
      have turn := @parseLoop_turn platform content behind room asserts allowConstCast line numHeaders
        headers
      generalize parseLoop platform asserts allowConstCast content.length (content ++ behind) line
        numHeaders headers = outcome at turn result
      generalize visits platform headers.isSome behind (content.drop line) (numHeaders = 0) = lines
        at turn ⊢
      cases turn with
      | done same _ refused =>
          cases result
          rw [same, headerTexts_statusLines refused]
          cases listOf headers <;> rfl
      | blank _ =>
          rw [atBlank_headers result]
          cases listOf headers <;> rfl
      | runsOff _ => cases result
      | tooLong _ _ _ => cases result
      | status _ _ same shorter => rw [ih _ (by omega) result rfl, same, headerTexts]
      | nullValue _ _ => cases result
      | header after shorter =>
          rw [ih _ (by omega) result rfl]
          cases list : listOf headers with
          | none =>
              rw [list, Option.map_none] at after
              rw [Option.map_eq_none_iff.mp after.symm]
              rfl
          | some stored =>
              rw [list, Option.map_some] at after
              obtain ⟨stored', same, line_⟩ := Option.map_eq_some_iff.mp after.symm
              rw [same, Option.bind_some, Option.bind_some, headerTexts, setLinesIn_cons, ← line_,
                Option.bind_some]

theorem parseHTTPHeadersAt_headers (asserts allowConstCast : Bool) (buffer : Buffer)
    (behind : List UInt8) {headers : HTTPHeaders} {returned : Returned}
    (result : parseHTTPHeadersAt platform asserts allowConstCast (some (buffer.bytes ++ behind))
      buffer.bodylen (some headers) = .ok returned) : listOf returned.headers =
        setLinesIn headers.headers (headerTexts (visits platform true behind buffer.bytes true)) := by
  rw [parseHTTPHeadersAt] at result
  by_cases zero : buffer.bodylen = 0
  · have empty : buffer.bytes = [] := by
      have length := buffer.bodylen_toNat
      rw [zero] at length
      exact List.length_eq_zero_iff.mp length.symm
    rw [if_pos zero] at result
    cases result
    rw [empty, visits_end rfl]
    rfl
  · rw [if_neg zero, buffer.bodylen_toNat] at result
    exact parseLoop_headers behind buffer.size asserts allowConstCast result

end ThreadIpc.HttpUtils
