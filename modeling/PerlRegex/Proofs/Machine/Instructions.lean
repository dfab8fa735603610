import PerlRegex.Machine.Step
namespace PerlRegex.Machine.Attempt

/-! What the instructions that compare text come to, case by case. -/

variable {attempt : Attempt} {state : State}

/-! ## Characters and line breaks -/

theorem consume_of_none (found : attempt.characterAt state.position = none)
    (accepts : Nat → Bool) :
    attempt.consume state accepts = attempt.failAtEnd state state.position := by
  simp only [consume, found]

theorem consume_of_some {character length : Nat}
    (found : attempt.characterAt state.position = some (character, length))
    (accepts : Nat → Bool) :
    attempt.consume state accepts =
      if accepts character then state.advance (state.position + length) else state.fail := by
  simp only [consume, found]

theorem takeLineBreak_of_some {length : Nat}
    (found : attempt.program.pattern.lineRules.lineBreakAt? attempt.subject state.position =
      some length) :
    attempt.takeLineBreak state = state.advance (state.position + length) := by
  simp only [takeLineBreak, found]

theorem takeLineBreak_of_none
    (found : attempt.program.pattern.lineRules.lineBreakAt? attempt.subject state.position =
      none) :
    attempt.takeLineBreak state =
      if attempt.subject.size ≤ state.position then attempt.failAtEnd state state.position
      else state.fail := by
  simp only [takeLineBreak, found]

/-! ## Conditions -/

/-- Whether a condition is tested at the end of the subject and might come out otherwise there if
the subject went on. -/
def asksForMore (attempt : Attempt) (state : State) (condition : Assertion) : Bool :=
  state.position = attempt.subject.size && attempt.looksPastEnd condition

/-- Go on where a condition holds, whatever the subject might go on with. -/
def goOnIf (attempt : Attempt) (state : State) (condition : Assertion) : Step :=
  if attempt.holds state.position condition then state.advance state.position else state.fail

section Conditions

variable {condition : Assertion}

theorem test_of_not_asks (settled : attempt.asksForMore state condition = false) :
    attempt.test state condition = attempt.goOnIf state condition := by
  rw [asksForMore] at settled
  simp only [test, settled, Bool.false_eq_true, if_false, goOnIf]

variable (asks : attempt.asksForMore state condition = true)
include asks

theorem test_of_ignored (effect : attempt.endEffect state.position = .ignored) :
    attempt.test state condition = attempt.goOnIf state condition := by
  rw [asksForMore] at asks
  simp only [test, asks, if_true, effect, goOnIf]

theorem test_of_noted (effect : attempt.endEffect state.position = .noted) :
    attempt.test state condition =
      attempt.goOnIf { state with touchedEnd := true } condition := by
  rw [asksForMore] at asks
  simp only [test, asks, if_true, effect, goOnIf]

theorem test_of_final (effect : attempt.endEffect state.position = .final) :
    attempt.test state condition = .halt .cutShort state := by
  rw [asksForMore] at asks
  simp only [test, asks, if_true, effect]

end Conditions

/-! ## References -/

def lacksSlot (state : State) (groups : List Nat) : Bool :=
  groups.any fun group => state.slots.size ≤ 2 * group + 1

section References

variable {groups : List Nat} {caseless : Bool}

theorem matchReference_of_lacking (lacking : lacksSlot state groups = true) :
    attempt.matchReference state groups caseless = .halt .fault state := by
  rw [lacksSlot] at lacking
  simp only [matchReference, lacking, if_true]

variable (existing : lacksSlot state groups = false)
include existing

theorem matchReference_of_unset (unset : groups.findSome? (groupSpan? state.slots) = none) :
    attempt.matchReference state groups caseless =
      if attempt.program.pattern.options.javascriptCompat then state.advance state.position
      else state.fail := by
  rw [lacksSlot] at existing
  simp only [matchReference, existing, Bool.false_eq_true, if_false, unset]

variable {span : Span} (set : groups.findSome? (groupSpan? state.slots) = some span)
include set

theorem matchReference_of_matched {stop : Nat}
    (repeated : attempt.repeats span caseless state.position = .matched stop) :
    attempt.matchReference state groups caseless = state.advance stop := by
  rw [lacksSlot] at existing
  simp only [matchReference, existing, Bool.false_eq_true, if_false, set, repeated]

theorem matchReference_of_differs
    (repeated : attempt.repeats span caseless state.position = .differs) :
    attempt.matchReference state groups caseless = state.fail := by
  rw [lacksSlot] at existing
  simp only [matchReference, existing, Bool.false_eq_true, if_false, set, repeated]

theorem matchReference_of_ranOut
    (repeated : attempt.repeats span caseless state.position = .ranOut) :
    attempt.matchReference state groups caseless =
      attempt.failAtEnd state attempt.subject.size := by
  rw [lacksSlot] at existing
  simp only [matchReference, existing, Bool.false_eq_true, if_false, set, repeated]

end References

/-! ## Fetching -/

theorem step_of_none (missing : attempt.program.instructions[state.address]? = none) :
    attempt.step state = .halt .fault state := by
  simp only [step, missing]

theorem step_of_some {instruction : Instruction}
    (fetched : attempt.program.instructions[state.address]? = some instruction) :
    attempt.step state = attempt.execute state instruction := by
  simp only [step, fetched]

end PerlRegex.Machine.Attempt
