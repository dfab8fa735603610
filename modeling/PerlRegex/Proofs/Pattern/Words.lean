import Mathlib.Algebra.Group.Nat.Defs
import Mathlib.Tactic.SplitIfs
import PerlRegex.Code
import PerlRegex.Pattern.Escape
import PerlRegex.Pattern.Quantifier
import PerlRegex.Proofs.Pattern.Reading
namespace PerlRegex.Pattern

/-! Patterns write numbers with as many digits as they like, and machines hold them in words of 32
and 64 bits. Here the numbers are put together digit by digit in such words, each in the way that
keeps it from overflowing: by giving up early, by stopping at the greatest number of a word, or by
taking few digits. What comes out is what the readers go by. -/

/-! ## Words -/

/-- A result that has to fit a word of so many bits. -/
def inWord (bits value : Nat) : Reading Nat :=
  if value < 2 ^ bits then .ok value else .error .overflow

def saturated (bits value : Nat) : Nat := min value (2 ^ bits - 1)

theorem inWord_of_lt {bits value : Nat} (fits : value < 2 ^ bits) :
    inWord bits value = .ok value :=
  if_pos fits

/-! ## Digits -/

/-- The value of one digit. Bytes that are no digits count as zeros. -/
def digitOf (radix : Nat) (digit : UInt8) : Nat := (Ascii.digitValue? radix digit.toNat).getD 0

theorem digitOf_lt {radix : Nat} (positive : 0 < radix) (digit : UInt8) :
    digitOf radix digit < radix := by
  unfold digitOf Ascii.digitValue?
  extract_lets value
  split
  · assumption
  · exact positive

theorem isSome_digitValue_ten (codePoint : Nat) :
    (Ascii.digitValue? 10 codePoint).isSome = Ascii.isDigit codePoint := by
  unfold Ascii.digitValue?
  extract_lets value
  by_cases digit : Ascii.isDigit codePoint = true
  · have small : value < 10 := by
      simp only [value, digit, if_true]
      simp only [Ascii.isDigit, Bool.and_eq_true, decide_eq_true_eq] at digit
      omega
    rw [if_pos small, digit]
    rfl
  · have great : ¬ value < 10 := by
      simp only [value, digit, Bool.false_eq_true, if_false]
      split <;> omega
    rw [if_neg great, Bool.eq_false_iff.mpr digit]
    rfl

/-- The number that digits write behind the digits of another number. -/
def valueFrom (radix value : Nat) (digits : List UInt8) : Nat :=
  digits.foldl (fun value digit => value * radix + digitOf radix digit) value

theorem valueFrom_zero (radix : Nat) (digits : List UInt8) :
    valueFrom radix 0 digits = Ascii.digitsValue radix digits := rfl

theorem valueFrom_cons (radix value : Nat) (digit : UInt8) (digits : List UInt8) :
    valueFrom radix value (digit :: digits) =
      valueFrom radix (value * radix + digitOf radix digit) digits := rfl

theorem le_valueFrom {radix : Nat} (positive : 0 < radix) (digits : List UInt8) (value : Nat) :
    value ≤ valueFrom radix value digits := by
  induction digits generalizing value with
  | nil => exact Nat.le_refl _
  | cons digit digits induction =>
      rw [valueFrom_cons]
      have longer := induction (value * radix + digitOf radix digit)
      have scaled : value ≤ value * radix := Nat.le_mul_of_pos_right value positive
      omega

/-- A digit uses up the room that it takes. -/
theorem room_of_digit {radix : Nat} (positive : 0 < radix) (digit : UInt8) (value more : Nat) :
    (value * radix + digitOf radix digit + 1) * radix ^ more ≤
      (value + 1) * radix ^ (more + 1) := by
  have small := digitOf_lt positive digit
  calc (value * radix + digitOf radix digit + 1) * radix ^ more
      ≤ (value + 1) * radix * radix ^ more := by
        apply Nat.mul_le_mul_right
        rw [Nat.succ_mul]
        omega
    _ = (value + 1) * radix ^ (more + 1) := by
        rw [Nat.pow_succ, Nat.mul_assoc, Nat.mul_comm radix]

theorem valueFrom_lt {radix : Nat} (positive : 0 < radix) (digits : List UInt8) (value : Nat) :
    valueFrom radix value digits < (value + 1) * radix ^ digits.length := by
  induction digits generalizing value with
  | nil => simp [valueFrom]
  | cons digit digits induction =>
      rw [valueFrom_cons]
      exact Nat.lt_of_lt_of_le (induction _) (room_of_digit positive digit value digits.length)

theorem length_leadingDigits_take (radix most : Nat) (text : List UInt8) :
    (leadingDigits radix (text.take most)).length ≤ most :=
  Nat.le_trans (List.takeWhile_sublist _).length_le (List.length_take_le _ _)

theorem readDigits_lt {radix : Nat} (positive : 0 < radix) (most : Nat) (text : List UInt8) :
    (readDigits radix most text).1 < radix ^ most := by
  have short := length_leadingDigits_take radix most text
  have fits := valueFrom_lt positive (leadingDigits radix (text.take most)) 0
  rw [Nat.zero_add, Nat.one_mul] at fits
  exact Nat.lt_of_lt_of_le fits (Nat.pow_le_pow_right positive short)

/-- Put a digit behind a number. The product and the sum have to fit a word. -/
def appendDigit (bits radix value : Nat) (digit : UInt8) : Reading Nat := do
  let scaled ← inWord bits (value * radix)
  inWord bits (scaled + digitOf radix digit)

theorem appendDigit_of_lt {bits radix value : Nat} {digit : UInt8}
    (fits : value * radix + digitOf radix digit < 2 ^ bits) :
    appendDigit bits radix value digit = .ok (value * radix + digitOf radix digit) := by
  have scaled : value * radix < 2 ^ bits := Nat.lt_of_le_of_lt (Nat.le_add_right _ _) fits
  rw [appendDigit, inWord_of_lt scaled]
  exact inWord_of_lt fits

/-! ## Few digits -/

/-- The number that digits write, put together in a word. -/
def wordValue (bits radix : Nat) (digits : List UInt8) : Reading Nat :=
  digits.foldlM (appendDigit bits radix) 0

theorem foldlM_appendDigit {bits radix : Nat} (positive : 0 < radix) {digits : List UInt8}
    {value : Nat} (few : (value + 1) * radix ^ digits.length ≤ 2 ^ bits) :
    digits.foldlM (appendDigit bits radix) value = .ok (valueFrom radix value digits) := by
  induction digits generalizing value with
  | nil => rfl
  | cons digit digits induction =>
      have next := Nat.le_trans (room_of_digit positive digit value digits.length) few
      have fits : value * radix + digitOf radix digit < 2 ^ bits := by
        have positivePower := Nat.pow_pos (n := digits.length) positive
        have := Nat.le_mul_of_pos_right (value * radix + digitOf radix digit + 1) positivePower
        omega
      rw [List.foldlM_cons, appendDigit_of_lt fits]
      exact induction next

theorem wordValue_eq {bits radix : Nat} (positive : 0 < radix) {digits : List UInt8}
    (few : radix ^ digits.length ≤ 2 ^ bits) :
    wordValue bits radix digits = .ok (Ascii.digitsValue radix digits) :=
  foldlM_appendDigit positive (by rwa [Nat.zero_add, Nat.one_mul])

theorem wordValue_readDigits {bits radix most : Nat} (positive : 0 < radix)
    (few : radix ^ most ≤ 2 ^ bits) (text : List UInt8) :
    wordValue bits radix (leadingDigits radix (text.take most)) =
      .ok (readDigits radix most text).1 := by
  apply wordValue_eq positive
  have short := length_leadingDigits_take radix most text
  exact Nat.le_trans (Nat.pow_le_pow_right positive short) few

/-! ## Giving up early -/

/-- The number in braces, given up at the first digit that makes it too big. -/
def wordRepeat (digits : List UInt8) (endOffset : Nat) : Reading Nat :=
  digits.foldlM (fun value digit => do
    let next ← appendDigit 32 10 value digit
    if greatestRepeat < next then refuse .quantifierTooBig endOffset else return next) 0

theorem wordRepeat_eq (digits : List UInt8) (endOffset : Nat) :
    wordRepeat digits endOffset = Braces.number digits endOffset := by
  suffices from_ : ∀ value ≤ greatestRepeat,
      digits.foldlM (fun value digit => do
          let next ← appendDigit 32 10 value digit
          if greatestRepeat < next then refuse .quantifierTooBig endOffset else return next) value =
        if greatestRepeat < valueFrom 10 value digits then refuse .quantifierTooBig endOffset
        else .ok (valueFrom 10 value digits) from
    from_ 0 (Nat.zero_le _)
  induction digits with
  | nil =>
      intro value small
      exact (if_neg (Nat.not_lt_of_le small)).symm
  | cons digit digits induction =>
      intro value small
      have smallDigit := digitOf_lt (show 0 < 10 by decide) digit
      have fits : value * 10 + digitOf 10 digit < 2 ^ 32 := by
        unfold greatestRepeat at small
        omega
      rw [List.foldlM_cons, appendDigit_of_lt fits, valueFrom_cons]
      have longer := le_valueFrom (show 0 < 10 by decide) digits (value * 10 + digitOf 10 digit)
      by_cases big : greatestRepeat < value * 10 + digitOf 10 digit
      · rw [if_pos (Nat.lt_of_lt_of_le big longer)]
        change (if greatestRepeat < value * 10 + digitOf 10 digit then _ else _) >>= _ = _
        rw [if_pos big]
        rfl
      · rw [← induction _ (Nat.le_of_not_lt big)]
        change (if greatestRepeat < value * 10 + digitOf 10 digit then _ else _) >>= _ = _
        rw [if_neg big]
        rfl

/-! ## Stopping at the greatest number -/

/-- The number that digits write, where products and sums stop at the greatest number of a word. -/
def saturatedValue (bits radix : Nat) (digits : List UInt8) : Nat :=
  digits.foldl
    (fun value digit => saturated bits (saturated bits (value * radix) + digitOf radix digit)) 0

theorem saturated_mul {bits factor : Nat} (positive : 0 < factor) (value : Nat) :
    saturated bits (saturated bits value * factor) = saturated bits (value * factor) := by
  unfold saturated
  rcases Nat.le_total value (2 ^ bits - 1) with inside | beyond
  · rw [Nat.min_eq_left inside]
  · have greatest := Nat.le_mul_of_pos_right (2 ^ bits - 1) positive
    have scaled := Nat.le_mul_of_pos_right value positive
    rw [Nat.min_eq_right beyond, Nat.min_eq_right greatest,
      Nat.min_eq_right (Nat.le_trans beyond scaled)]

theorem saturated_add (bits value summand : Nat) :
    saturated bits (saturated bits value + summand) = saturated bits (value + summand) := by
  unfold saturated
  omega

theorem saturatedValue_eq {bits radix : Nat} (positive : 0 < radix) (digits : List UInt8) :
    saturatedValue bits radix digits = saturated bits (Ascii.digitsValue radix digits) := by
  suffices from_ : ∀ value,
      digits.foldl
          (fun value digit => saturated bits (saturated bits (value * radix) + digitOf radix digit))
          (saturated bits value) =
        saturated bits (valueFrom radix value digits) by
    have start : saturated bits 0 = 0 := Nat.zero_min _
    rw [← valueFrom_zero, ← from_ 0, start]
    rfl
  induction digits with
  | nil => exact fun value => rfl
  | cons digit digits induction =>
      intro value
      rw [List.foldl_cons, saturated_mul positive, saturated_add, induction, valueFrom_cons]

theorem groupNumber_eq (digits : List UInt8) :
    groupNumber digits = saturatedValue 64 10 digits := by
  rw [saturatedValue_eq (by decide)]
  rfl

/-- A character value that stops at the greatest number of a word is refused as the value itself
would be. -/
theorem checkCharacter_saturatedValue (settings : Settings) {radix : Nat} (positive : 0 < radix)
    (digits : List UInt8) (offset : Nat) :
    checkCharacter settings (saturatedValue 32 radix digits) offset =
      checkCharacter settings (Ascii.digitsValue radix digits) offset := by
  rw [saturatedValue_eq positive, saturated]
  rcases Nat.le_total (Ascii.digitsValue radix digits) (2 ^ 32 - 1) with inside | beyond
  · rw [Nat.min_eq_left inside]
  · rw [Nat.min_eq_right beyond]
    have greatestLt : (if settings.utf8 then 0x10FFFF else 0xFF) < 2 ^ 32 - 1 := by
      split <;> decide
    unfold checkCharacter
    dsimp only
    rw [if_pos greatestLt, if_pos (Nat.lt_of_lt_of_le greatestLt beyond)]

end PerlRegex.Pattern

/-! ## Measures of a tree -/

namespace PerlRegex.Node

open Pattern (saturated)

theorem lt_of_boundedWidth {width bounded : Nat} (measured : boundedWidth width = some bounded) :
    bounded < 2 ^ 64 := by
  unfold boundedWidth at measured
  split at measured
  · injection measured with same
    omega
  · cases measured

theorem lt_of_fixedWidth {node : Node Reference} {width : Nat}
    (measured : node.fixedWidth? = some width) : width < 2 ^ 64 := by
  induction node generalizing width with
  | group body induction => exact induction measured
  | capture number body induction => exact induction measured
  | atomic body induction => exact induction measured
  | sequence first second firstInduction secondInduction =>
      rcases Option.bind_eq_some_iff.mp measured with ⟨_, _, measured⟩
      rcases Option.bind_eq_some_iff.mp measured with ⟨_, _, measured⟩
      exact lt_of_boundedWidth measured
  | alternation first second firstInduction secondInduction =>
      rcases Option.bind_eq_some_iff.mp measured with ⟨same, firstMeasured, measured⟩
      rcases Option.bind_eq_some_iff.mp measured with ⟨_, _, measured⟩
      rw [Option.ite_none_right_eq_some] at measured
      injection measured.2 with sameWidth
      exact sameWidth ▸ firstInduction firstMeasured
  | repetition body least greatest greedy induction =>
      rw [fixedWidth?, Option.ite_none_right_eq_some] at measured
      rcases Option.bind_eq_some_iff.mp measured.2 with ⟨_, _, bounded⟩
      exact lt_of_boundedWidth bounded
  | literal | anyCharacter | notNewline | charSet | empty | assertion | look =>
      injection measured with same
      rw [← same]
      decide
  | lineBreak | backreference => cases measured

/-- A lower bound on the number of bytes that a match takes, where products and sums stop at the
greatest number of 64 bits. -/
def saturatedMinBytes (utf8 : Bool) : Node Reference → Nat
  | .group body | .capture _ body | .atomic body => body.saturatedMinBytes utf8
  | .sequence first second =>
      saturated 64 (first.saturatedMinBytes utf8 + second.saturatedMinBytes utf8)
  | .alternation first second =>
      min (first.saturatedMinBytes utf8) (second.saturatedMinBytes utf8)
  | .repetition body least _ _ => saturated 64 (body.saturatedMinBytes utf8 * least)
  | node => node.minBytes utf8

theorem saturatedMinBytes_eq (utf8 : Bool) (node : Node Reference) :
    node.saturatedMinBytes utf8 = saturated 64 (node.minBytes utf8) := by
  induction node with
  | group body induction => exact induction
  | capture number body induction => exact induction
  | atomic body induction => exact induction
  | sequence first second firstInduction secondInduction =>
      simp only [saturatedMinBytes, minBytes, firstInduction, secondInduction, saturated]
      omega
  | alternation first second firstInduction secondInduction =>
      simp only [saturatedMinBytes, minBytes, firstInduction, secondInduction, saturated]
      omega
  | repetition body least greatest greedy induction =>
      rcases Nat.eq_zero_or_pos least with rfl | positive
      · rfl
      · rw [saturatedMinBytes, minBytes, induction, Pattern.saturated_mul positive]
  | literal character caseless =>
      have short : minBytes utf8 (.literal character caseless : Node Reference) ≤ 4 := by
        rw [minBytes]
        unfold Utf8.encodedLength
        split_ifs <;> decide
      exact (Nat.min_eq_left (Nat.le_trans short (by decide))).symm
  | _ => rfl

/-- Whether a loop has to watch for iterations that match nothing shows in the bound that stops. -/
theorem needsCheck_eq_saturated (utf8 : Bool) (body : Node Reference) :
    body.needsCheck utf8 = (body.saturatedMinBytes utf8 == 0) := by
  rw [needsCheck, saturatedMinBytes_eq, saturated, Bool.eq_iff_iff, beq_iff_eq, beq_iff_eq]
  omega

end PerlRegex.Node
