import ThreadIpc.HttpUtils.InPlace

/-!
# One line after the other

What the loop does with a line, as a function of the line and of what follows it in memory. Whether
the line is copied makes no difference to it.
-/

namespace ThreadIpc.HttpUtils

open Lib

variable {platform : Platform}

section Strtol

def strtolRest (text : CString) : CString :=
  (strtolSign (text.dropWhile isspace)).2.dropWhile isdigit

theorem strtol_end (text : CString) : (strtol text).2 =
    if (strtolSign (text.dropWhile isspace)).2.takeWhile isdigit = [] then text
    else strtolRest text := by
  rw [strtol, strtolRest]
  rcases strtolSign (text.dropWhile isspace) with ⟨negative, number⟩
  simp only [strtolNumber]
  split <;> rfl

variable {memory : List UInt8} {i : Nat} {text : List UInt8}

theorem drop_sign {c : UInt8} {rest : List UInt8} (position : memory.drop i = c :: rest) :
    memory.drop (if c = minus ∨ c = plus then i + 1 else i) = (strtolSign (c :: rest)).2 := by
  rw [strtolSign]
  by_cases isMinus : c = minus
  · rw [if_pos (Or.inl isMinus), if_pos isMinus, Memory.drop_succ position]
  rw [if_neg isMinus]
  by_cases isPlus : c = plus
  · rw [if_pos (Or.inr isPlus), if_pos isPlus, Memory.drop_succ position]
  · rw [if_neg (not_or.mpr ⟨isMinus, isPlus⟩), if_neg isPlus, position]

theorem strtolEnd_eq (position : memory.drop i = text) : strtolEnd memory i =
    if strtolRest text = [] then .error .outside
    else .ok (i + (text.length - (strtol text).2.length)) := by
  subst position
  simp only [strtolEnd, Memory.scan_eq isspace, bind, Except.bind]
  cases behind : (memory.drop i).dropWhile isspace with
  | nil =>
      have nothing : strtolRest (memory.drop i) = [] := by
        rw [strtolRest, behind]
        rfl
      rw [if_pos rfl, if_pos nothing]
      rfl
  | cons c rest =>
      let sign := i + ((memory.drop i).takeWhile isspace).length
      have atSign : memory.drop sign = c :: rest := by
        rw [Memory.drop_scanned, behind]
      have cell : memory[sign]? = some c := by
        rw [← List.head?_drop, atSign, List.head?_cons]
      let digits := if c = minus ∨ c = plus then sign + 1 else sign
      have atDigits : memory.drop digits = (strtolSign (c :: rest)).2 := drop_sign atSign
      have after : i ≤ digits := by
        simp only [digits, sign]
        split <;> omega
      have unread : strtolRest (memory.drop i) = (memory.drop digits).dropWhile isdigit := by
        rw [strtolRest, behind, atDigits]
      have stop := Memory.drop_scanned isdigit memory digits
      rw [strtol_end, unread, behind, ← atDigits, if_neg (List.cons_ne_nil _ _)]
      show (inside memory[sign]?).bind _ = _
      rw [cell]
      show (inside (Memory.scan isdigit memory digits)).bind _ = _
      rw [Memory.scan_eq]
      by_cases ends : (memory.drop digits).dropWhile isdigit = []
      · rw [if_pos ends, if_pos ends]
        rfl
      · have lengths := congrArg List.length stop
        have left := List.length_pos_iff.mpr ends
        rw [List.length_drop] at lengths
        rw [if_neg ends, if_neg ends]
        by_cases none_ : (memory.drop digits).takeWhile isdigit = []
        · rw [none_, if_pos rfl, Nat.sub_self]
          exact congrArg Except.ok (if_pos rfl)
        · have number := List.length_pos_iff.mpr none_
          have further : digits + ((memory.drop digits).takeWhile isdigit).length ≠ digits := by
            omega
          have place : digits + ((memory.drop digits).takeWhile isdigit).length =
              i + ((memory.drop i).length - ((memory.drop digits).dropWhile isdigit).length) := by
            rw [List.length_drop]
            omega
          rw [if_neg none_, ← place]
          exact congrArg Except.ok (if_neg further)

theorem strtolSign_suffix (text : CString) : (strtolSign text).2 <:+ text := by
  cases text with
  | nil => exact List.suffix_refl []
  | cons c rest =>
      rw [strtolSign]
      split
      · exact List.suffix_cons c rest
      split
      · exact List.suffix_cons c rest
      · exact List.suffix_refl _

theorem strtol_suffix (text : CString) : (strtol text).2 <:+ text := by
  rw [strtol_end]
  split
  · exact List.suffix_refl text
  · exact ((List.dropWhile_suffix _).trans (strtolSign_suffix _)).trans (List.dropWhile_suffix _)

end Strtol

section FirstLine

variable {memory : List UInt8} {line : Nat} {text after : List UInt8}

theorem toSize_natCast {number : Nat} (small : number < 4294967296) :
    platform.toSize number = number := by
  cases platform <;> simp only [Platform.toSize, Platform.sizeBits] <;> omega

theorem memchr_of_drop {rest : List UInt8} (position : memory.drop line = text ++ rest)
    (small : text.length < 4294967296) (c : UInt8) :
    memchr platform memory line c ((line + text.length : Nat) - line) =
      .ok (if c ∈ text then some (line + (text.takeWhile (· != c)).length) else none) := by
  have count : ((line + text.length : Nat) : Int) - line = text.length := by omega
  rw [memchr, count, toSize_natCast small, Memory.find_of_drop position]
  rfl

/-- `strtol` is still looking for the end of the number when it gets to the end of the memory. -/
def runsOff (text after : List UInt8) : Bool :=
  match text.dropWhile (· != space) with
  | [] => false
  | _ :: afterSpace => (strtolRest (afterSpace ++ cr :: lf :: after)).isEmpty

theorem isGoodFirstLine_eq (position : memory.drop line = text ++ cr :: lf :: after)
    (small : text.length < 4294967296) :
    isGoodFirstLine platform memory line (line + text.length) =
      if runsOff text after then .error .outside else .ok (goodFirstLine text after) := by
  have found := @memchr_of_drop platform _ _ _ _ position small space
  rw [isGoodFirstLine, found, runsOff, goodFirstLine]
  by_cases member : space ∈ text
  · obtain ⟨before, afterSpace, same, first⟩ := List.eq_append_cons_of_mem member
    have name : text.takeWhile (· != space) = before := by rw [same, takeWhile_delimiter first]
    have behind : text.dropWhile (· != space) = space :: afterSpace := by
      rw [same, dropWhile_delimiter first]
    have atNumber : memory.drop (line + before.length + 1) = afterSpace ++ cr :: lf :: after := by
      apply Memory.drop_succ
      apply Memory.drop_further
      rw [position, same, List.append_assoc, List.cons_append]
    simp only [if_pos member, name, behind, bind, Except.bind, strtolEnd_eq atNumber,
      List.isEmpty_iff]
    have something : afterSpace ++ cr :: lf :: after ≠ [] := by simp
    generalize afterSpace ++ cr :: lf :: after = number at atNumber something ⊢
    by_cases unread : strtolRest number = []
    · rw [if_pos unread, if_pos unread]
    · have suffix := strtol_suffix number
      have nonempty : (strtol number).2 ≠ [] := by
        rw [strtol_end]
        split
        · exact something
        · exact unread
      obtain ⟨c, rest, errpos⟩ := List.exists_cons_of_ne_nil nonempty
      have cell : memory[line + before.length + 1 +
          (number.length - (strtol number).2.length)]? = some c := by
        rw [← List.head?_drop, ← List.drop_drop, atNumber, ← List.suffix_iff_eq_drop.mp suffix,
          errpos, List.head?_cons]
      have shorter : (strtol number).2.length ≤ number.length := suffix.length_le
      have further : line + before.length + 1 <
          line + before.length + 1 + (number.length - (strtol number).2.length) ↔
            (strtol number).2.length < number.length := by omega
      rw [if_neg unread, if_neg unread]
      simp only [cell, inside_some, further]
      rw [errpos, List.head?_cons, Option.any_some]
  · simp only [if_neg member, dropWhile_absent member, bind, Except.bind]
    rfl

end FirstLine

inductive Step
  | goOn (numHeaders : Nat) (headers : Option HTTPHeaders)
  | blank
  | refuse

def lineStep (platform : Platform) (text after : List UInt8) (numHeaders : Nat)
    (headers : Option HTTPHeaders) : Except Fault Step :=
  if numHeaders = 0 ∧ lf ∈ text then .ok .refuse
  else if text = [] then .ok .blank
  else if numHeaders = 0 ∧ colon ∉ text then
    if runsOff text after then .error .outside
    else if goodFirstLine text after then
      match headers with
      | none => .ok (.goOn 1 none)
      | some headers =>
          if toInt text.length < 0 then .error .lengthError
          else
            let (good, headers) := headers.addResponseFirstline platform text
            .ok (.goOn (if good then 1 else 0) (some headers))
    else .ok .refuse
  else
    match headers with
    | none => .ok (.goOn (numHeaders + 1) none)
    | some headers =>
        match headers.setHeaderFromLine (cString text) .append with
        | none => .error .nullValue
        | some (_, headers) => .ok (.goOn (numHeaders + 1) (some headers))

def atBlank (asserts : Bool) (contentlen body : Nat) (headers : Option HTTPHeaders)
    (memory : List UInt8) : Except Fault Returned := do
  let headerlen := toInt body
  CHECK asserts (headerlen ≤ toInt contentlen)
  .ok ⟨true, some body, toUint32 (contentlen - headerlen), headers, memory⟩

def Step.action (asserts : Bool) (contentlen body : Nat) (headers : Option HTTPHeaders)
    (memory : List UInt8) : Step → Except Fault Action
  | .goOn numHeaders headers => .ok (.goOn numHeaders headers memory)
  | .blank => (atBlank asserts contentlen body headers memory).map .finish
  | .refuse => .ok (.finish (unchanged contentlen headers memory))

theorem toInt_eq (number : Nat) : toInt number =
    if number % 4294967296 < 2147483648 then ((number % 4294967296 : Nat) : Int)
    else (number % 4294967296 : Nat) - 4294967296 := by
  have size : (Int32.size : Int) = 4294967296 := rfl
  rw [toInt, Int32.toInt_ofInt, Int.bmod_def, size]
  split <;> split <;> omega

theorem toInt_neg_iff {number : Nat} (small : number < 4294967296) :
    toInt number < 0 ↔ 2147483648 ≤ number := by
  rw [toInt_eq]
  split <;> omega

theorem toInt_of_small {number : Nat} (small : number < 2147483648) : toInt number = number := by
  rw [toInt_eq]
  split <;> omega

theorem addResponseFirstlineAt_eq {memory text rest : List UInt8} {line : Nat}
    (headers : HTTPHeaders) (position : memory.drop line = text ++ rest)
    (inside_ : line ≤ memory.length) (small : text.length < 4294967296) :
    headers.addResponseFirstlineAt platform memory line (line + text.length) =
      if toInt text.length < 0 then .error .lengthError
      else .ok (headers.addResponseFirstline platform text) := by
  have count : ((line + text.length : Nat) : Int) - line = text.length := by omega
  rw [HTTPHeaders.addResponseFirstlineAt]
  simp only [count]
  by_cases negative : toInt text.length < 0
  · rw [if_pos negative, if_pos negative]
  · have length : (toInt text.length).toNat = text.length := by
      rw [toInt_neg_iff small, Nat.not_le] at negative
      rw [toInt_of_small negative, Int.toNat_natCast]
    rw [if_neg negative, if_neg negative, length]
    simp only [Memory.slice_of_drop position inside_, inside_some, bind, Except.bind]

theorem takeLine_eq {memory text after : List UInt8} {contentlen line : Nat}
    (asserts allowConstCast : Bool)
    (position : memory.drop line = text ++ cr :: lf :: after) (room : contentlen < 4294967296)
    (inside_ : line + text.length + 1 < contentlen) (numHeaders : Nat)
    (headers : Option HTTPHeaders) :
    takeLine platform asserts allowConstCast memory contentlen line (line + text.length) numHeaders
        headers =
      (lineStep platform text after numHeaders headers).bind
        (Step.action asserts contentlen (line + text.length + 2) headers memory) := by
  have small : text.length < 4294967296 := by omega
  have length := Memory.length_of_drop position
  have check : CHECK asserts (decide (line + text.length + 1 < contentlen)) = .ok () := by
    rw [decide_eq_true inside_, CHECK, Bool.not_true, Bool.and_false]
    rfl
  have newline : ifFirst numHeaders
      ((memchr platform memory line lf ((line + text.length : Nat) - line)).map Option.isSome) =
        .ok (decide (numHeaders = 0 ∧ lf ∈ text)) := by
    rw [memchr_of_drop position small, ifFirst]
    by_cases first : numHeaders = 0 <;> by_cases member : lf ∈ text <;>
      simp [first, member, Except.map]
  have status : ifFirst numHeaders
      ((memchr platform memory line colon ((line + text.length : Nat) - line)).map Option.isNone) =
        .ok (decide (numHeaders = 0 ∧ colon ∉ text)) := by
    rw [memchr_of_drop position small, ifFirst]
    by_cases first : numHeaders = 0 <;> by_cases member : colon ∈ text <;>
      simp [first, member, Except.map]
  have blank : line + text.length = line ↔ text = [] := by
    rw [Nat.add_eq_left, List.length_eq_zero_iff]
  rw [takeLine.eq_def, lineStep.eq_def, check]
  simp only [newline, status, bind, Except.bind, decide_eq_true_eq, blank]
  by_cases refused : numHeaders = 0 ∧ lf ∈ text
  · simp only [if_pos refused, Step.action]
  simp only [if_neg refused]
  by_cases empty : text = []
  · simp only [if_pos empty, Step.action, atBlank, bind, Except.bind]
    cases CHECK asserts (toInt (line + text.length + 2 : Nat) ≤ toInt contentlen) <;> rfl
  simp only [if_neg empty]
  by_cases statusLine : numHeaders = 0 ∧ colon ∉ text
  · simp only [if_pos statusLine, isGoodFirstLine_eq position small]
    by_cases runs : runsOff text after = true
    · simp only [if_pos runs]
    by_cases good : goodFirstLine text after = true
    · simp only [if_neg runs, if_pos good]
      cases headers with
      | none => rfl
      | some headers =>
          simp only [addResponseFirstlineAt_eq headers position (by omega) small]
          by_cases negative : toInt text.length < 0
          · simp only [if_pos negative]
          · simp only [if_neg negative, Step.action]
    · simp only [if_neg runs, if_neg good, Step.action]
  · simp only [if_neg statusLine, setLine_eq allowConstCast _ position]
    cases headers with
    | none => rfl
    | some headers =>
        simp only
        cases headers.setHeaderFromLine (cString text) .append <;> rfl

section Loop

variable {memory : List UInt8} {contentlen line : Nat}

theorem parseLoop_end (asserts allowConstCast : Bool) (numHeaders : Nat)
    (headers : Option HTTPHeaders) (ends : nextLineEnd platform memory contentlen line = .ok none) :
    parseLoop platform asserts allowConstCast contentlen memory line numHeaders headers =
      .ok (if numHeaders = 0 then unchanged contentlen headers memory
        else ⟨false, some contentlen, 0, headers, memory⟩) := by
  rw [parseLoop, ends]

theorem parseLoop_line {text after : List UInt8} (asserts allowConstCast : Bool) (numHeaders : Nat)
    (headers : Option HTTPHeaders) (room : contentlen < 4294967296)
    (found : nextLineEnd platform memory contentlen line = .ok (some (line + text.length)))
    (position : memory.drop line = text ++ cr :: lf :: after) :
    parseLoop platform asserts allowConstCast contentlen memory line numHeaders headers =
      match lineStep platform text after numHeaders headers with
      | .error fault => .error fault
      | .ok (.goOn numHeaders headers) => parseLoop platform asserts allowConstCast contentlen memory
          (line + text.length + 2) numHeaders headers
      | .ok .blank => atBlank asserts contentlen (line + text.length + 2) headers memory
      | .ok .refuse => .ok (unchanged contentlen headers memory) := by
  have inside_ := (nextLineEnd_bounds found).2
  rw [parseLoop, found]
  simp only [takeLine_eq asserts allowConstCast position room inside_]
  cases lineStep platform text after numHeaders headers with
  | error fault => rfl
  | ok step =>
      cases step with
      | goOn numHeaders headers => rfl
      | blank =>
          simp only [Except.bind, Step.action]
          cases atBlank asserts contentlen (line + text.length + 2) headers memory <;> rfl
      | refuse => rfl

theorem atBlank_memory (asserts : Bool) (contentlen body : Nat) (headers : Option HTTPHeaders)
    (memory : List UInt8) : (atBlank asserts contentlen body headers memory).map Returned.memory =
      (atBlank asserts contentlen body headers memory).map fun _ => memory := by
  rw [atBlank]
  cases CHECK asserts (toInt body ≤ toInt contentlen) <;> rfl

theorem parseLoop_modes (asserts : Bool) (room : contentlen < 4294967296) (numHeaders : Nat)
    (headers : Option HTTPHeaders) :
    parseLoop platform asserts true contentlen memory line numHeaders headers =
        parseLoop platform asserts false contentlen memory line numHeaders headers ∧
      (parseLoop platform asserts true contentlen memory line numHeaders headers).map Returned.memory =
        (parseLoop platform asserts true contentlen memory line numHeaders headers).map
          fun _ => memory := by
  induction left : contentlen - line using Nat.strong_induction_on
    generalizing line numHeaders headers with
  | _ left_ ih =>
      cases found : nextLineEnd platform memory contentlen line with
      | error fault =>
          rw [parseLoop, parseLoop, found]
          exact ⟨rfl, rfl⟩
      | ok lineEnd =>
          cases lineEnd with
          | none =>
              rw [parseLoop_end asserts true numHeaders headers found,
                parseLoop_end asserts false numHeaders headers found]
              refine ⟨rfl, congrArg Except.ok ?_⟩
              split <;> rfl
          | some lineEnd =>
              obtain ⟨text, position, rfl⟩ := nextLineEnd_position found
              obtain ⟨_, inside_⟩ := nextLineEnd_bounds found
              rw [parseLoop_line asserts true numHeaders headers room found position,
                parseLoop_line asserts false numHeaders headers room found position]
              cases lineStep platform text (memory.drop (line + text.length + 2)) numHeaders headers with
              | error fault => exact ⟨rfl, rfl⟩
              | ok step =>
                  cases step with
                  | goOn numHeaders headers => exact ih _ (by omega) numHeaders headers rfl
                  | blank => exact ⟨rfl, atBlank_memory _ _ _ _ _⟩
                  | refuse => exact ⟨rfl, rfl⟩

end Loop

/-- Both modes come to the same, also where they fail, and leave the buffer as it was. -/
theorem parseHTTPHeadersAt_modes (asserts : Bool) (body : Option (List UInt8)) (bodylen : UInt32)
    (headers : Option HTTPHeaders) :
    parseHTTPHeadersAt platform asserts true body bodylen headers =
        parseHTTPHeadersAt platform asserts false body bodylen headers ∧
      ∀ allowConstCast,
        (parseHTTPHeadersAt platform asserts allowConstCast body bodylen headers).map
            Returned.memory =
          (parseHTTPHeadersAt platform asserts allowConstCast body bodylen headers).map
            fun _ => body.getD [] := by
  have same : parseHTTPHeadersAt platform asserts true body bodylen headers =
        parseHTTPHeadersAt platform asserts false body bodylen headers ∧
      (parseHTTPHeadersAt platform asserts true body bodylen headers).map Returned.memory =
        (parseHTTPHeadersAt platform asserts true body bodylen headers).map fun _ => body.getD [] := by
    cases body with
    | none => exact ⟨rfl, rfl⟩
    | some memory =>
        rw [parseHTTPHeadersAt, parseHTTPHeadersAt]
        by_cases empty : bodylen = 0
        · rw [if_pos empty, if_pos empty]
          exact ⟨rfl, rfl⟩
        · rw [if_neg empty, if_neg empty]
          exact parseLoop_modes asserts bodylen.toNat_lt 0 headers
  refine ⟨same.1, fun allowConstCast => ?_⟩
  cases allowConstCast with
  | true => exact same.2
  | false =>
      rw [← same.1]
      exact same.2

end ThreadIpc.HttpUtils
