import PerlRegex.Proofs.Machine.Instructions
namespace PerlRegex

/-! What lies ahead of a position does not depend on the text in front of it. With a text put in
front of its subject an attempt finds the same, that much further on, unless it looks back. -/

/-! ## Texts -/

section Texts

variable (front text : Array UInt8) (position : Nat)

theorem getElem?_behind : (front ++ text)[front.size + position]? = text[position]? := by
  rw [Array.getElem?_append_right (Nat.le_add_right _ _), Nat.add_sub_cancel_left]

theorem getElem?_behind_succ :
    (front ++ text)[front.size + position + 1]? = text[position + 1]? :=
  getElem?_behind front text (position + 1)

theorem Utf8.decodeAt_behind :
    decodeAt (front ++ text) (front.size + position) = decodeAt text position := by
  have window : (front ++ text).extract (front.size + position) (front.size + position + 4) =
      text.extract position (position + 4) := by
    rw [Array.extract_append, Array.extract_empty_of_size_le_start (Nat.le_add_right _ _),
      Nat.add_assoc, Nat.add_sub_cancel_left, Nat.add_sub_cancel_left, Array.empty_append]
  rw [decodeAt, decodeAt, getElem?_behind, window]

theorem Utf8.nextBoundary_behind :
    nextBoundary (front ++ text) (front.size + position) =
      front.size + nextBoundary text position := by
  fun_induction nextBoundary text position with
  | case1 position continues induction =>
      rw [nextBoundary, getElem?_behind, if_pos continues, Nat.add_assoc, induction]
  | case2 position ends => rw [nextBoundary, getElem?_behind, if_neg ends]

namespace LineRules

variable (rules : LineRules)

theorem unicodeBreakAt_behind :
    rules.unicodeBreakAt? (front ++ text) (front.size + position) =
      rules.unicodeBreakAt? text position := by
  rw [unicodeBreakAt?, unicodeBreakAt?, Utf8.decodeAt_behind, getElem?_behind]

theorem newlineAt_behind :
    rules.newlineAt? (front ++ text) (front.size + position) = rules.newlineAt? text position := by
  rw [newlineAt?, newlineAt?, getElem?_behind, getElem?_behind_succ, unicodeBreakAt_behind]

theorem lineBreakAt_behind :
    rules.lineBreakAt? (front ++ text) (front.size + position) =
      rules.lineBreakAt? text position := by
  rw [lineBreakAt?, lineBreakAt?, getElem?_behind, getElem?_behind_succ, unicodeBreakAt_behind]

end LineRules

end Texts

theorem beq_behind (distance left right : Nat) :
    (distance + left == distance + right) = (left == right) := by
  rw [Bool.eq_iff_iff, beq_iff_eq, beq_iff_eq, Nat.add_left_cancel_iff]

def Span.shift (distance : Nat) (span : Span) : Span :=
  ⟨distance + span.start, distance + span.stop⟩

/-! ## Trees that look ahead only -/

/-- Whether a condition depends on what is in front of a position, or on whether anything is. -/
def Assertion.looksBack : Assertion → Bool
  | .startOfText | .lineStart _ | .wordBoundary _ => true
  | .endOfText | .endOfTextOrFinalNewline | .lineEnd _ _ | .startOffset => false

/-- Whether some part of a tree looks at what is in front of its position. -/
def Node.looksBack : Node Reference → Bool
  | .assertion condition => condition.looksBack
  | .look (.behind _) _ _ => true
  | .group body | .capture _ body | .repetition body _ _ _ | .look .ahead _ body | .atomic body =>
      body.looksBack
  | .sequence first second | .alternation first second => first.looksBack || second.looksBack
  | .empty | .literal _ _ | .anyCharacter | .notNewline | .lineBreak | .charSet _
  | .backreference _ _ => false

/-! ## Attempts -/

namespace Machine.Attempt

/-- The same attempt with a text put in front of its subject. -/
def behind (attempt : Attempt) (front : Array UInt8) : Attempt :=
  { attempt with
    subject := front ++ attempt.subject
    startOffset := front.size + attempt.startOffset
    start := front.size + attempt.start }

def Repeated.shift (distance : Nat) : Repeated → Repeated
  | .matched stop => .matched (distance + stop)
  | .differs => .differs
  | .ranOut => .ranOut

variable (attempt : Attempt) (front : Array UInt8) (position : Nat)

theorem size_behind : (attempt.behind front).subject.size = front.size + attempt.subject.size :=
  Array.size_append

theorem characterAt_behind :
    (attempt.behind front).characterAt (front.size + position) = attempt.characterAt position := by
  have decoded := Utf8.decodeAt_behind front attempt.subject position
  have byte := getElem?_behind front attempt.subject position
  rw [characterAt, characterAt, ← decoded, ← byte]
  rfl

theorem newlineAt_behind :
    (attempt.behind front).program.pattern.lineRules.newlineAt? (attempt.behind front).subject
        (front.size + position) =
      attempt.program.pattern.lineRules.newlineAt? attempt.subject position :=
  LineRules.newlineAt_behind front attempt.subject position _

theorem atFinalNewline_behind :
    (attempt.behind front).atFinalNewline (front.size + position) =
      attempt.atFinalNewline position := by
  rw [atFinalNewline, atFinalNewline, newlineAt_behind, size_behind]
  simp only [Nat.add_assoc, beq_behind]

theorem atEnd_behind :
    (front.size + position == (attempt.behind front).subject.size) =
      (position == attempt.subject.size) := by
  rw [size_behind, beq_behind]

theorem holds_behind {condition : Assertion} (forward : condition.looksBack = false) :
    (attempt.behind front).holds (front.size + position) condition =
      attempt.holds position condition := by
  have final := attempt.atFinalNewline_behind front position
  have atEnd := attempt.atEnd_behind front position
  cases condition with
  | startOfText | lineStart | wordBoundary => cases forward
  | endOfText => exact atEnd
  | endOfTextOrFinalNewline => rw [holds, holds, final, atEnd]
  | startOffset => exact beq_behind _ _ _
  | lineEnd multiline endOnly =>
      cases multiline with
      | true =>
          rw [holds, holds, newlineAt_behind, size_behind]
          simp only [Nat.add_left_cancel_iff]
          rfl
      | false =>
          rw [holds, holds, final, atEnd]
          rfl

theorem asksForMore_behind {state far : State}
    (further : far.position = front.size + state.position) (condition : Assertion) :
    (attempt.behind front).asksForMore far condition = attempt.asksForMore state condition := by
  have sameEnd : (attempt.behind front).looksPastEnd condition =
      attempt.looksPastEnd condition := by
    cases condition <;> rfl
  rw [asksForMore, asksForMore, further, size_behind, sameEnd]
  simp only [Nat.add_left_cancel_iff]

theorem endEffect_behind :
    (attempt.behind front).endEffect (front.size + position) = attempt.endEffect position := by
  have start : (attempt.behind front).start = front.size + attempt.start := rfl
  rw [endEffect, endEffect, start]
  simp only [Nat.add_le_add_iff_left]
  rfl

theorem refusesEmpty_behind :
    (attempt.behind front).refusesEmpty (front.size + position) =
      attempt.refusesEmpty position := by
  have start : (attempt.behind front).start = front.size + attempt.start := rfl
  have offset : (attempt.behind front).startOffset = front.size + attempt.startOffset := rfl
  rw [refusesEmpty, refusesEmpty, start, offset, beq_behind, beq_behind]
  rfl

/-! ## References -/

theorem repeatBytes_behind (subject : Array UInt8) (count captured : Nat) :
    repeatBytes (front ++ subject) count (front.size + captured) (front.size + position) =
      (repeatBytes subject count captured position).shift front.size := by
  induction count generalizing captured position with
  | zero => rfl
  | succ count induction =>
      rw [repeatBytes, repeatBytes, getElem?_behind, getElem?_behind]
      cases subject[position]? with
      | none => rfl
      | some byte =>
          dsimp only
          split
          · exact induction (position + 1) (captured + 1)
          · rfl

theorem repeatFolded_behind (stop budget captured : Nat) :
    (attempt.behind front).repeatFolded (front.size + stop) budget (front.size + captured)
        (front.size + position) =
      (attempt.repeatFolded stop budget captured position).shift front.size := by
  induction budget generalizing captured position with
  | zero => rfl
  | succ budget induction =>
      have sameMode : (attempt.behind front).program = attempt.program := rfl
      rw [repeatFolded, repeatFolded, characterAt_behind, characterAt_behind, sameMode]
      simp only [Nat.add_le_add_iff_left]
      split
      · rfl
      · cases attempt.characterAt captured with
        | none => rfl
        | some expected =>
            cases attempt.characterAt position with
            | none => rfl
            | some found =>
                dsimp only
                split
                · rw [Nat.add_assoc, Nat.add_assoc, induction]
                · rfl

theorem repeats_behind (span : Span) (caseless : Bool) :
    (attempt.behind front).repeats (span.shift front.size) caseless (front.size + position) =
      (attempt.repeats span caseless position).shift front.size := by
  have length : front.size + span.stop - (front.size + span.start) = span.stop - span.start :=
    Nat.add_sub_add_left ..
  rw [repeats, repeats, size_behind]
  simp only [Span.shift, length, Nat.add_lt_add_iff_left, repeatFolded_behind]
  split
  · rfl
  · split
    · rfl
    · exact repeatBytes_behind front position attempt.subject _ _

end Machine.Attempt

end PerlRegex
