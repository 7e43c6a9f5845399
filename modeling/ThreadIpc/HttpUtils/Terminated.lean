import ThreadIpc.HttpUtils.HeaderLines
import ThreadIpc.HttpUtils.StaysInside

/-!
# A buffer with a NUL behind it

There `strtol` stops, and the call comes to what `parseHTTPHeaders` says of the document alone.
-/

namespace ThreadIpc.HttpUtils

open Lib

variable {platform : Platform}

section Strtol

variable (text rest : List UInt8)

theorem strtolSign_nul : strtolSign (text ++ 0 :: rest) =
    ((strtolSign text).1, (strtolSign text).2 ++ 0 :: rest) := by
  cases text with
  | nil => rfl
  | cons c text =>
      rw [List.cons_append, strtolSign, strtolSign]
      split
      · rfl
      split
      · rfl
      · rfl

theorem strtolRest_nul : strtolRest (text ++ 0 :: rest) = strtolRest text ++ 0 :: rest := by
  rw [strtolRest, dropWhile_stop text rfl, strtolSign_nul, dropWhile_stop _ rfl, strtolRest]

theorem strtol_end_nul : (strtol (text ++ 0 :: rest)).2 = (strtol text).2 ++ 0 :: rest := by
  rw [strtol_end, strtol_end, strtolRest_nul, dropWhile_stop text rfl, strtolSign_nul,
    takeWhile_stop _ rfl]
  split <;> rfl

theorem lineEnd_nul (front : List UInt8) :
    front ++ cr :: lf :: (text ++ 0 :: rest) = (front ++ cr :: lf :: text) ++ 0 :: rest := by
  simp only [List.append_assoc, List.cons_append]

theorem goodFirstLine_nul (line : List UInt8) :
    goodFirstLine line (text ++ 0 :: rest) = goodFirstLine line text := by
  rw [goodFirstLine, goodFirstLine]
  cases line.dropWhile (· != space) with
  | nil => rfl
  | cons _ afterSpace =>
      simp only [lineEnd_nul, strtol_end_nul, List.length_append, Nat.add_lt_add_iff_right]
      cases (strtol (afterSpace ++ cr :: lf :: text)).2 with
      | nil => rfl
      | cons c _ => rfl

theorem runsOff_nul (line : List UInt8) : runsOff line (text ++ 0 :: rest) = false := by
  rw [runsOff]
  cases line.dropWhile (· != space) with
  | nil => rfl
  | cons _ afterSpace =>
      simp only [lineEnd_nul, strtolRest_nul]
      rw [List.isEmpty_eq_false_iff]
      exact List.append_ne_nil_of_right_ne_nil _ (List.cons_ne_nil _ _)

end Strtol

def Parsed.returned (contentlen : Nat) (memory : List UInt8) (parsed : Parsed) : Returned where
  blankLineSeen := parsed.blankLineSeen
  body := parsed.body.map fun body => contentlen - body.length
  bodylen := (parsed.body.map List.length).getD 0
  headers := parsed.headers
  memory := memory

def outcomeOf (contentlen : Nat) (memory : List UInt8) : Option Parsed → Except Fault Returned
  | none => .error .nullValue
  | some parsed => .ok (parsed.returned contentlen memory)

theorem unchanged_eq {content memory : List UInt8} (headers : Option HTTPHeaders) :
    unchanged content.length headers memory =
      Parsed.returned content.length memory ⟨false, some content, headers⟩ := by
  rw [unchanged, Parsed.returned, Option.map_some, Nat.sub_self]
  rfl

theorem parseLoop_terminated {content : List UInt8} (behind : List UInt8)
    (room : content.length < 2147483648) (allowConstCast : Bool) (line numHeaders : Nat)
    (headers : Option HTTPHeaders) :
    parseLoop platform false allowConstCast content.length (content ++ 0 :: behind) line numHeaders
        headers =
      outcomeOf content.length (content ++ 0 :: behind)
        (parseLines platform content (content.drop line) numHeaders headers) := by
  induction left : content.length - line using Nat.strong_induction_on
    generalizing line numHeaders headers with
  | _ left_ ih =>
      rw [parseLoop_split (0 :: behind) (by omega), parseLines]
      cases split_ : splitLine (content.drop line) with
      | none =>
          simp only
          split
          · exact congrArg Except.ok (unchanged_eq headers)
          · rfl
      | some parts =>
          obtain ⟨text, rest⟩ := parts
          have length := congrArg List.length (splitLine_append split_)
          have suffix := drop_splitLine split_
          rw [List.length_drop, List.length_append, List.length_cons, List.length_cons] at length
          subst suffix
          have short : ¬ toInt text.length < 0 := by
            rw [toInt_neg_iff (by omega)]
            omega
          have next (numHeaders : Nat) (headers : Option HTTPHeaders) :=
            ih _ (by omega) (line + text.length + 2) numHeaders headers rfl
          simp only [lineStep, runsOff_nul, goodFirstLine_nul, Bool.false_eq_true, if_false]
          by_cases newline : numHeaders = 0 ∧ lf ∈ text
          · simp only [if_pos newline]
            exact congrArg Except.ok (unchanged_eq headers)
          simp only [if_neg newline]
          by_cases empty : text = []
          · simp only [if_pos empty, atBlank, CHECK, Bool.false_and, Bool.false_eq_true, if_false]
            have body : (content.drop (line + text.length + 2)).length =
                content.length - (line + text.length + 2) := List.length_drop
            have returned : (⟨true, some (line + text.length + 2), toUint32 (content.length -
                toInt (line + text.length + 2 : Nat)), headers, content ++ 0 :: behind⟩ : Returned) =
                  Parsed.returned content.length (content ++ 0 :: behind)
                    ⟨true, some (content.drop (line + text.length + 2)), headers⟩ := by
              rw [Parsed.returned, toUint32_difference (by omega) (by omega), Option.map_some, body,
                Nat.sub_sub_self (by omega), Option.map_some, Option.getD_some, body]
            exact congrArg Except.ok returned
          simp only [if_neg empty]
          by_cases status : numHeaders = 0 ∧ colon ∉ text
          · simp only [if_pos status]
            by_cases good : goodFirstLine text (content.drop (line + text.length + 2)) = true
            · simp only [if_pos good]
              cases headers with
              | none => exact next 1 none
              | some stored =>
                  simp only [if_neg short]
                  exact next _ _
            · simp only [if_neg good]
              exact congrArg Except.ok (unchanged_eq headers)
          · simp only [if_neg status]
            cases headers with
            | none => exact next _ none
            | some stored =>
                cases result : stored.setHeaderFromLine (cString text) .append with
                | none => simp only [result, outcomeOf]
                | some outcome =>
                    simp only [result]
                    exact next _ _

/-- Without assertions, and with the lengths that fit an `int`. -/
theorem parseHTTPHeadersAt_terminated (allowConstCast : Bool) (buffer : Buffer)
    (short : buffer.bytes.length < 2147483648) (behind : List UInt8)
    (headers : Option HTTPHeaders) :
    parseHTTPHeadersAt platform false allowConstCast (some (buffer.bytes ++ 0 :: behind))
      buffer.bodylen headers = outcomeOf buffer.bytes.length (buffer.bytes ++ 0 :: behind)
        (parseHTTPHeaders platform (some buffer.bytes) headers) := by
  have bodylen := buffer.bodylen_toNat
  rw [parseHTTPHeadersAt]
  cases bytes : buffer.bytes with
  | nil =>
      rw [bytes] at bodylen
      rw [if_pos (UInt32.toNat_inj.mp bodylen)]
      rfl
  | cons c tail =>
      have nonzero : buffer.bodylen ≠ 0 := by
        intro zero
        rw [zero, bytes] at bodylen
        cases bodylen
      rw [if_neg nonzero, bodylen, ← bytes]
      have loop := @parseLoop_terminated platform _ behind short allowConstCast 0 0 headers
      rw [List.drop_zero] at loop
      rw [loop, bytes]
      rfl

end ThreadIpc.HttpUtils
