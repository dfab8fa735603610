import PerlRegex.Proofs.Interpretation
import PerlRegex.Study
namespace PerlRegex

/-! Where a match cannot start, by the kind of its first condition, the search for the tree is over
at once: it finds no path and does not meet the end of the subject. -/

/-- Whether a match may start at a position, by the kind of start alone. -/
def StartKind.admits (kind : StartKind) (rules : LineRules) (subject : Array UInt8)
    (startOffset position : Nat) : Bool :=
  match kind with
  | .anywhere => true
  | .startOffset => position == startOffset
  | .lineStart => position == startOffset || rules.newlineEndsAt subject position

theorem StartKind.admits_join {first second : StartKind} {rules : LineRules}
    {subject : Array UInt8} {startOffset position : Nat}
    (refused : (first.join second).admits rules subject startOffset position = false) :
    first.admits rules subject startOffset position = false
      ∧ second.admits rules subject startOffset position = false := by
  cases first <;> cases second <;> simp_all [StartKind.join, StartKind.admits]

namespace Node

variable {attempt : Machine.Attempt}

/-- A condition that admits only some starts fails at all others, and without looking at the end of
the subject. -/
theorem searchCondition_eq_nil {condition : Assertion} {path : Path}
    (later : attempt.startOffset < path.position)
    (refused : (startKind (.assertion condition : Node (List Nat))).admits
      attempt.program.pattern.lineRules attempt.subject attempt.startOffset path.position
        = false) :
    attempt.searchCondition condition path = [] := by
  have notOffset : path.position ≠ attempt.startOffset := by omega
  have notStart : path.position ≠ 0 := by omega
  rw [Machine.Attempt.searchCondition]
  cases condition with
  | startOfText => simp [Machine.Attempt.looksPastEnd, Machine.Attempt.holds, notStart]
  | startOffset => simp [Machine.Attempt.looksPastEnd, Machine.Attempt.holds, notOffset]
  | lineStart multiline =>
      cases multiline with
      | false => simp [Machine.Attempt.looksPastEnd, Machine.Attempt.holds, notStart]
      | true =>
          simp [startKind, StartKind.admits, notOffset] at refused
          simp [Machine.Attempt.looksPastEnd, Machine.Attempt.holds, notStart, refused]
  | _ => simp [startKind, StartKind.admits] at refused

theorem interpret_eq_nil_of_startKind {node : Node (List Nat)} {path : Path}
    (later : attempt.startOffset < path.position)
    (refused : node.startKind.admits attempt.program.pattern.lineRules attempt.subject
      attempt.startOffset path.position = false) :
    node.interpret attempt path = [] := by
  induction node generalizing path with
  | assertion condition => exact searchCondition_eq_nil later refused
  | group body induction => exact induction later refused
  | capture number body induction =>
      rw [interpret, induction later refused]
      rfl
  | sequence first second induction _ =>
      rw [interpret, induction later refused]
      rfl
  | alternation first second firstInduction secondInduction =>
      have both := StartKind.admits_join refused
      rw [interpret, firstInduction later both.1, secondInduction later both.2]
      rfl
  | atomic body induction =>
      rw [interpret, induction later refused]
      rfl
  | _ => cases refused

end Node

end PerlRegex
