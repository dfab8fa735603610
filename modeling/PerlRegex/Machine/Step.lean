import PerlRegex.Machine.Probe
namespace PerlRegex.Machine

/-! What each instruction does, and how a machine runs from step to step. A step is defined in every
state: a machine that cannot go on halts, and its verdict says why. -/

/-! ## Spans of groups -/

def groupSpan? (slots : Array (Option Nat)) (group : Nat) : Option Span := do
  let start ← slots[2 * group]?
  let stop ← slots[2 * group + 1]?
  return ⟨← start, ← stop⟩

def capturesOf (slots : Array (Option Nat)) (whole : Span) : Captures :=
  some whole :: (List.range (slots.size / 2 - 1)).map fun index => groupSpan? slots (index + 1)

/-! ## The end of the subject -/

namespace Attempt

/-- What it means for a match to need more text than there is. Nothing without partial matching, and
nothing before the attempt has taken any text. -/
inductive EndEffect where
  | ignored
  | noted
  | final
  deriving DecidableEq, Repr

def endEffect (attempt : Attempt) (position : Nat) : EndEffect :=
  if position ≤ attempt.start then .ignored
  else match attempt.options.partialMode with
    | .none => .ignored
    | .soft => .noted
    | .hard => .final

def failAtEnd (attempt : Attempt) (state : State) (position : Nat) : Step :=
  match attempt.endEffect position with
  | .ignored => state.fail
  | .noted => { state with touchedEnd := true }.fail
  | .final => .halt .cutShort state

/-! ## Instructions -/

@[inline] def consume (attempt : Attempt) (state : State) (accepts : Nat → Bool) : Step :=
  match attempt.characterAt state.position with
  | some (character, length) =>
      if accepts character then state.advance (state.position + length) else state.fail
  | none => attempt.failAtEnd state state.position

def takeLineBreak (attempt : Attempt) (state : State) : Step :=
  match attempt.program.pattern.lineRules.lineBreakAt? attempt.subject state.position with
  | some length => state.advance (state.position + length)
  | none =>
      if attempt.subject.size ≤ state.position then attempt.failAtEnd state state.position
      else state.fail

def test (attempt : Attempt) (state : State) (condition : Assertion) : Step :=
  let effect :=
    if state.position = attempt.subject.size && attempt.looksPastEnd condition then
      attempt.endEffect state.position
    else .ignored
  let decide (state : State) : Step :=
    if attempt.holds state.position condition then state.advance state.position
    else state.fail
  match effect with
  | .ignored => decide state
  | .noted => decide { state with touchedEnd := true }
  | .final => .halt .cutShort state

@[inline] def push (attempt : Attempt) (state : State) (frame : Frame) (next : State → Step) :
    Step :=
  if attempt.frameLimit ≤ state.frameCount then .halt .tooManyFrames state
  else next { state with
    frames := frame :: state.frames
    frameCount := state.frameCount + 1 }

@[inline] def mark (attempt : Attempt) (state : State) (register address : Nat) : Step :=
  match state.registers[register]? with
  | none => .halt .fault state
  | some former =>
      attempt.push state (.register register former) fun state =>
        .next { state with
          address := address
          registers := state.registers.setIfInBounds register state.position }

@[inline] def save (attempt : Attempt) (state : State) (slot position : Nat)
    (next : State → Step) : Step :=
  match state.slots[slot]? with
  | none => .halt .fault state
  | some former =>
      attempt.push state (.slot slot former) fun state =>
        next { state with slots := state.slots.setIfInBounds slot (some position) }

/-- Set the span of a group. The span from an earlier iteration stays in force until here. -/
def closeGroup (attempt : Attempt) (state : State) (group register : Nat) : Step :=
  match state.registers[register]? with
  | none => .halt .fault state
  | some start =>
      attempt.save state (2 * group) start fun state =>
        attempt.save state (2 * group + 1) state.position fun state =>
          state.advance state.position

/-- Match what a group matched, the first one of the list that has a span. A reference to groups
without a span fails, or matches nothing where that is the convention. -/
def matchReference (attempt : Attempt) (state : State) (groups : List Nat)
    (caseless : Bool) : Step :=
  if groups.any fun group => state.slots.size ≤ 2 * group + 1 then .halt .fault state
  else match groups.findSome? (groupSpan? state.slots) with
    | none =>
        if attempt.program.pattern.options.javascriptCompat then
          state.advance state.position
        else state.fail
    | some span =>
        match attempt.repeats span caseless state.position with
        | .matched stop => state.advance stop
        | .differs => state.fail
        | .ranOut => attempt.failAtEnd state attempt.subject.size

/-- Begin a lookaround. Where the subject has no room for a lookbehind, its body does not match. -/
def look (attempt : Attempt) (state : State) (direction : LookDirection) (negated : Bool)
    (next : Nat) : Step :=
  let start := match direction with
    | .ahead => some state.position
    | .behind width => attempt.back state.position width
  match start with
  | some start => state.enterBody (.look negated) next start
  | none => if negated then state.jump next else state.fail

def execute (attempt : Attempt) (state : State) : Instruction → Step
  | .accept =>
      if attempt.refusesEmpty state.position then state.fail else .halt .matched state
  | .endBody => state.leaveBody
  | .character expected => attempt.consume state (· == expected)
  | .oneOf characters => attempt.consume state characters.contains
  | .anyCharacter => attempt.consume state fun _ => true
  | .notNewline =>
      if (attempt.program.pattern.lineRules.newlineAt? attempt.subject state.position).isSome then
        state.fail
      else attempt.consume state fun _ => true
  | .lineBreak => attempt.takeLineBreak state
  | .charSet set => attempt.consume state (set.contains attempt.program.ucp)
  | .assertion condition => attempt.test state condition
  | .split first second =>
      attempt.push state (.choice second state.position) (·.jump first)
  | .jump target => state.jump target
  | .openGroup register => attempt.mark state register (state.address + 1)
  | .closeGroup group register => attempt.closeGroup state group register
  | .backreference groups caseless => attempt.matchReference state groups caseless
  | .look direction negated next => attempt.look state direction negated next
  | .atomic next => state.enterBody .atomic next state.position
  | .loopStart register => attempt.mark state register (state.address + 1)
  | .loopCheck register exit head =>
      match state.registers[register]? with
      | none => .halt .fault state
      | some start =>
          if start = state.position then state.jump exit
          else attempt.mark state register head

def step (attempt : Attempt) (state : State) : Step :=
  match attempt.program.instructions[state.address]? with
  | none => .halt .fault state
  | some instruction => attempt.execute state instruction

end Attempt

/-! ## Runs -/

structure Halt where
  verdict : Verdict
  state : State
  budget : Nat
  deriving Repr

def run (attempt : Attempt) (state : State) : (budget : Nat) → Halt
  | 0 => ⟨.tooManyInstructions, state, 0⟩
  | budget + 1 =>
      match attempt.step state with
      | .next next => run attempt next budget
      | .halt verdict final => ⟨verdict, final, budget⟩

end PerlRegex.Machine
