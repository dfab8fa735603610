import PerlRegex.Proofs.Forward.States
import PerlRegex.Proofs.Forward.Text
import PerlRegex.Proofs.Machine.Registers
namespace PerlRegex

/-! An attempt at a program that does not look back runs behind a text in front of its subject as it
runs without: step by step it does the same, that much further on. So it halts alike, with the same
of its budget left. -/

/-! ## Instructions that do not look back -/

/-- Whether an instruction depends on what is in front of the position of the machine. -/
def Instruction.looksBack : Instruction → Bool
  | .assertion condition => condition.looksBack
  | .look (.behind _) _ _ => true
  | .accept | .endBody | .character _ | .oneOf _ | .anyCharacter | .notNewline | .lineBreak
  | .charSet _ | .split _ _ | .jump _ | .openGroup _ | .closeGroup _ _ | .backreference _ _
  | .look .ahead _ _ | .atomic _ | .loopStart _ | .loopCheck _ _ _ => false

namespace Node

theorem looksBack_literalInstruction (utf8 : Bool) (character : Nat) (caseless : Bool) :
    (literalInstruction utf8 character caseless).looksBack = false := by
  rw [literalInstruction]
  split
  · rfl
  · dsimp only
    split <;> rfl

theorem looksBack_choice (greedy : Bool) (body skip : Nat) :
    (choice greedy body skip).looksBack = false := by
  cases greedy <;> rfl

theorem looksBack_of_mem_code {utf8 : Bool} {node : Node (List Nat)}
    (forward : node.looksBack = false) {address base : Nat} {instruction : Instruction}
    (member : instruction ∈ node.code utf8 address base) : instruction.looksBack = false := by
  induction node generalizing address base with
  | empty => cases member
  | literal character caseless =>
      rw [List.mem_singleton.mp member]
      exact looksBack_literalInstruction utf8 character caseless
  | assertion condition =>
      rw [List.mem_singleton.mp member]
      exact forward
  | anyCharacter | notNewline | lineBreak | charSet | backreference =>
      rw [List.mem_singleton.mp member]
      rfl
  | group body induction => exact induction forward member
  | capture number body induction =>
      rw [code, List.cons_append, List.mem_cons, List.mem_append, List.mem_singleton] at member
      rcases member with rfl | member | rfl
      · rfl
      · exact induction forward member
      · rfl
  | sequence first second firstInduction secondInduction =>
      rw [looksBack, Bool.or_eq_false_iff] at forward
      rcases List.mem_append.mp member with member | member
      · exact firstInduction forward.1 member
      · exact secondInduction forward.2 member
  | alternation first second firstInduction secondInduction =>
      rw [looksBack, Bool.or_eq_false_iff] at forward
      rw [code] at member
      simp only [List.cons_append, List.mem_cons, List.mem_append] at member
      rcases member with rfl | member | rfl | member
      · rfl
      · exact firstInduction forward.1 member
      · rfl
      · exact secondInduction forward.2 member
  | repetition body least greatest greedy induction =>
      simp only [code, List.mem_append] at member
      rcases member with member | member
      · rcases List.mem_flatMap.mp member with ⟨copy, _, member⟩
        exact induction forward member
      · cases greatest with
        | some greatest =>
            rcases List.mem_flatMap.mp member with ⟨copy, _, member⟩
            rcases List.mem_cons.mp member with rfl | member
            · exact looksBack_choice ..
            · exact induction forward member
        | none =>
            by_cases needed : body.needsCheck utf8 = true
            · simp only [if_pos needed, List.cons_append, List.mem_cons, List.mem_append,
                List.not_mem_nil, or_false] at member
              rcases member with rfl | rfl | member | rfl
              · rfl
              · exact looksBack_choice ..
              · exact induction forward member
              · rfl
            · simp only [if_neg needed, List.cons_append, List.mem_cons, List.mem_append,
                List.not_mem_nil, or_false] at member
              rcases member with rfl | member | rfl
              · exact looksBack_choice ..
              · exact induction forward member
              · rfl
  | look direction negated body induction =>
      cases direction with
      | behind width => cases forward
      | ahead =>
          rw [code, List.cons_append, List.mem_cons, List.mem_append, List.mem_singleton] at member
          rcases member with rfl | member | rfl
          · rfl
          · exact induction forward member
          · rfl
  | atomic body induction =>
      rw [code, List.cons_append, List.mem_cons, List.mem_append, List.mem_singleton] at member
      rcases member with rfl | member | rfl
      · rfl
      · exact induction forward member
      · rfl

end Node

/-- Where a program has set a register for sure. -/
def Program.setAt (program : Program) : (place register : Nat) → Prop :=
  program.pattern.tree.SetAt program.utf8 0 0

theorem Machine.Compiled.looksBack_of_mem {program : Program}
    (compiled : Machine.Compiled program) (forward : program.pattern.tree.looksBack = false)
    {instruction : Instruction} (member : instruction ∈ program.instructions) :
    instruction.looksBack = false := by
  rw [compiled.instructions, List.mem_toArray, List.mem_append, List.mem_singleton] at member
  rcases member with member | rfl
  · exact Node.looksBack_of_mem_code forward member
  · rfl

/-- Where no register is set, no more is known behind an instruction than in front of it. -/
theorem Instruction.Flows.handed_of_none {known : Nat → Nat → Prop} {start stop address next : Nat}
    {instruction : Instruction} (flows : instruction.Flows known start stop address)
    (setsNone : instruction.sets? = none) (member : next ∈ instruction.successors address)
    (register : Nat) (holds : known next register) : known address register := by
  rcases flows.handed next member register holds with before | sets
  · exact before
  · rw [setsNone] at sets
    cases sets

namespace Machine

/-! ## Slots -/

theorem groupSpan_moved (distance : Nat) (slots : Array (Option Nat)) (group : Nat) :
    groupSpan? (slots.map (Option.map (distance + ·))) group =
      (groupSpan? slots group).map (Span.shift distance) := by
  rw [groupSpan?, groupSpan?, Array.getElem?_map, Array.getElem?_map]
  rcases slots[2 * group]? with _ | _ | start
  · rfl
  · rcases slots[2 * group + 1]? with _ | _ | stop <;> rfl
  · rcases slots[2 * group + 1]? with _ | _ | stop <;> rfl

theorem findSome_groupSpan_moved (distance : Nat) (slots : Array (Option Nat))
    (groups : List Nat) :
    groups.findSome? (groupSpan? (slots.map (Option.map (distance + ·)))) =
      (groups.findSome? (groupSpan? slots)).map (Span.shift distance) := by
  induction groups with
  | nil => rfl
  | cons group groups induction =>
      rw [List.findSome?_cons, List.findSome?_cons, groupSpan_moved, induction]
      cases groupSpan? slots group <;> rfl

theorem capturesOf_moved (distance : Nat) (slots : Array (Option Nat)) (whole : Span) :
    capturesOf (slots.map (Option.map (distance + ·))) (whole.shift distance) =
      (capturesOf slots whole).map (Option.map (Span.shift distance)) := by
  simp only [capturesOf, List.map_cons, List.map_map, Array.size_map, Option.map_some,
    Function.comp_def, groupSpan_moved]

namespace Attempt

variable {attempt : Attempt} {front : Array UInt8} {known : Nat → Nat → Prop} {state far : State}

/-! ## Steps -/

theorem push_moved (further : state.Further front.size far) {frame farFrame : Frame}
    {next farNext : State → Step}
    (onward : Step.Moved front.size known
      (next { state with
        frames := frame :: state.frames
        frameCount := state.frameCount + 1 })
      (farNext { far with
        frames := farFrame :: far.frames
        frameCount := far.frameCount + 1 })) :
    Step.Moved front.size known (attempt.push state frame next)
      ((attempt.behind front).push far farFrame farNext) := by
  have sameLimit : (attempt.behind front).frameLimit = attempt.frameLimit := rfl
  rw [push, push, sameLimit, further.frameCount]
  split
  · exact .halt .tooManyFrames further
  · rw [further.frameCount] at onward
    exact onward

variable (moved : state.Moved front.size known far)
include moved

theorem failAtEnd_moved (position : Nat) :
    Step.Moved front.size known (attempt.failAtEnd state position)
      ((attempt.behind front).failAtEnd far (front.size + position)) := by
  rw [failAtEnd, failAtEnd, endEffect_behind]
  cases attempt.endEffect position with
  | ignored => exact moved.fail
  | noted => exact State.fail_moved { moved.toFurther with touchedEnd := rfl } moved.stack
  | final => exact .halt .cutShort moved.toFurther

theorem jump_moved {address : Nat}
    (handed : ∀ register, known address register → known state.address register) :
    Step.Moved front.size known (state.jump address) (far.jump address) := by
  have goesOn : State.Moved front.size known
      { state with address := address, position := state.position } _ := moved.goOn handed
  rw [← moved.position] at goesOn
  exact .next goesOn

section Onward

variable (handed : ∀ register, known (state.address + 1) register → known state.address register)
include handed

theorem advance_moved {position farPosition : Nat} (further : farPosition = front.size + position) :
    Step.Moved front.size known (state.advance position) (far.advance farPosition) := by
  rw [State.advance, State.advance, moved.address, further]
  exact .next (moved.goOn handed)

theorem consume_moved (accepts : Nat → Bool) :
    Step.Moved front.size known (attempt.consume state accepts)
      ((attempt.behind front).consume far accepts) := by
  have found := attempt.characterAt_behind front state.position
  rw [consume, consume, moved.position, found]
  cases attempt.characterAt state.position with
  | none => exact failAtEnd_moved moved state.position
  | some pair =>
      dsimp only
      split
      · exact advance_moved moved handed (Nat.add_assoc ..)
      · exact moved.fail

theorem takeLineBreak_moved :
    Step.Moved front.size known (attempt.takeLineBreak state)
      ((attempt.behind front).takeLineBreak far) := by
  have found : (attempt.behind front).program.pattern.lineRules.lineBreakAt?
      (attempt.behind front).subject (front.size + state.position) =
        attempt.program.pattern.lineRules.lineBreakAt? attempt.subject state.position :=
    LineRules.lineBreakAt_behind front attempt.subject state.position _
  rw [takeLineBreak, takeLineBreak, moved.position, found, size_behind]
  cases attempt.program.pattern.lineRules.lineBreakAt? attempt.subject state.position with
  | some length => exact advance_moved moved handed (Nat.add_assoc ..)
  | none =>
      simp only [Nat.add_le_add_iff_left]
      split
      · exact failAtEnd_moved moved state.position
      · exact moved.fail

theorem goOnIf_moved {condition : Assertion} (forward : condition.looksBack = false) :
    Step.Moved front.size known (attempt.goOnIf state condition)
      ((attempt.behind front).goOnIf far condition) := by
  rw [goOnIf, goOnIf, moved.position, attempt.holds_behind front state.position forward]
  split
  · exact advance_moved moved handed rfl
  · exact moved.fail

theorem test_moved {condition : Assertion} (forward : condition.looksBack = false) :
    Step.Moved front.size known (attempt.test state condition)
      ((attempt.behind front).test far condition) := by
  have farAsks := attempt.asksForMore_behind front moved.position condition
  have farEffect : (attempt.behind front).endEffect far.position =
      attempt.endEffect state.position := by
    rw [moved.position, endEffect_behind]
  cases asks : attempt.asksForMore state condition with
  | false =>
      rw [test_of_not_asks asks, test_of_not_asks (farAsks.trans asks)]
      exact goOnIf_moved moved handed forward
  | true =>
      have farAsks := farAsks.trans asks
      cases effect : attempt.endEffect state.position with
      | ignored =>
          rw [test_of_ignored asks effect, test_of_ignored farAsks (farEffect.trans effect)]
          exact goOnIf_moved moved handed forward
      | noted =>
          rw [test_of_noted asks effect, test_of_noted farAsks (farEffect.trans effect)]
          have noted : State.Moved front.size known { state with touchedEnd := true }
              { far with touchedEnd := true } := { moved with touchedEnd := rfl }
          exact goOnIf_moved noted handed forward
      | final =>
          rw [test_of_final asks effect, test_of_final farAsks (farEffect.trans effect)]
          exact .halt .cutShort moved.toFurther

theorem matchReference_moved (groups : List Nat) (caseless : Bool) :
    Step.Moved front.size known (attempt.matchReference state groups caseless)
      ((attempt.behind front).matchReference far groups caseless) := by
  have spans := findSome_groupSpan_moved front.size state.slots groups
  have sameSlots : far.slots.size = state.slots.size := by rw [moved.slots, Array.size_map]
  rw [matchReference, matchReference, sameSlots, moved.slots, spans]
  split
  · exact .halt .fault moved.toFurther
  · cases groups.findSome? (groupSpan? state.slots) with
    | none =>
        dsimp only [Option.map_none]
        change Step.Moved front.size known _
          (if attempt.program.pattern.options.javascriptCompat then _ else _)
        split
        · exact advance_moved moved handed moved.position
        · exact moved.fail
    | some span =>
        dsimp only [Option.map_some]
        rw [moved.position, repeats_behind]
        cases attempt.repeats span caseless state.position with
        | matched stop => exact advance_moved moved handed rfl
        | differs => exact moved.fail
        | ranOut =>
            have atEnd : Step.Moved front.size known (attempt.failAtEnd state attempt.subject.size)
                ((attempt.behind front).failAtEnd far (front.size + attempt.subject.size)) :=
              failAtEnd_moved moved attempt.subject.size
            rw [← size_behind] at atEnd
            exact atEnd

end Onward

theorem enterBody_moved {purpose : Purpose} {next position farPosition : Nat}
    (further : farPosition = front.size + position)
    (bodyHanded : ∀ register, known (state.address + 1) register → known state.address register)
    (nextHanded : ∀ register, known next register → known state.address register) :
    Step.Moved front.size known (state.enterBody purpose next position)
      (far.enterBody purpose next farPosition) := by
  rw [State.enterBody, State.enterBody, moved.address, moved.position, further]
  have waits := fun register holds => moved.registers register (nextHanded register holds)
  exact .next { moved with
    position := rfl
    address := rfl
    registers := fun register holds => moved.registers register (bodyHanded register holds)
    stack := .run waits moved.stack }

theorem split_moved {first second : Nat}
    (firstHanded : ∀ register, known first register → known state.address register)
    (secondHanded : ∀ register, known second register → known state.address register) :
    Step.Moved front.size known (attempt.execute state (.split first second))
      ((attempt.behind front).execute far (.split first second)) := by
  have chosen := fun register holds => moved.registers register (secondHanded register holds)
  rw [execute, execute]
  apply push_moved moved.toFurther
  rw [moved.position]
  exact .next { moved with
    position := rfl
    frameCount := congrArg (· + 1) moved.frameCount
    address := rfl
    registers := fun register holds => moved.registers register (firstHanded register holds)
    stack := .choice chosen moved.stack }

/-! ## Registers and slots -/

theorem mark_moved {register address : Nat}
    (handed : ∀ other, known address other → known state.address other ∨ register = other) :
    Step.Moved front.size known (attempt.mark state register address)
      ((attempt.behind front).mark far register address) := by
  have sizes := moved.registerCount
  rw [mark, mark]
  rcases Nat.lt_or_ge register state.registers.size with existing | missing
  · have farExisting : register < far.registers.size := sizes ▸ existing
    rw [Array.getElem?_eq_getElem existing, Array.getElem?_eq_getElem farExisting]
    apply push_moved moved.toFurther
    -- Behind the new frame lie the registers of before, for which the stacks have been built.
    have restored : ∀ (registers : Array Nat) (position : Nat) (inside : register < registers.size),
        (registers.setIfInBounds register position).setIfInBounds register registers[register] =
          registers := by
      intro registers position inside
      rw [Array.setIfInBounds_setIfInBounds]
      simp [Array.setIfInBounds, inside]
    have set : RegisterMoved front.size (state.registers.setIfInBounds register state.position)
        (far.registers.setIfInBounds register far.position) register := by
      rw [moved.position]
      exact .set_self sizes register state.position
    have stack := moved.stack
    rw [← restored state.registers state.position existing,
      ← restored far.registers far.position farExisting] at stack
    exact .next { moved with
      frameCount := congrArg (· + 1) moved.frameCount
      registerCount := by rw [Array.size_setIfInBounds, Array.size_setIfInBounds, sizes]
      address := rfl
      registers := fun other holds => by
        by_cases same : register = other
        · exact same ▸ set
        · exact (RegisterMoved.set_ne same).mpr
            (moved.registers other ((handed other holds).resolve_right same))
      stack := .register set stack }
  · rw [Array.getElem?_eq_none missing, Array.getElem?_eq_none (sizes ▸ missing)]
    exact .halt .fault moved.toFurther

theorem save_moved {slot position : Nat} {next farNext : State → Step}
    (onward : ∀ later farLater : State, later.Moved front.size known farLater →
      later.address = state.address → Step.Moved front.size known (next later) (farNext farLater)) :
    Step.Moved front.size known (attempt.save state slot position next)
      ((attempt.behind front).save far slot (front.size + position) farNext) := by
  rw [save, save, moved.slots, Array.getElem?_map]
  cases state.slots[slot]? with
  | none => exact .halt .fault moved.toFurther
  | some former =>
      apply push_moved moved.toFurther
      apply onward
      · exact { moved with
          frameCount := congrArg (· + 1) moved.frameCount
          slots := by rw [moved.slots, Array.map_setIfInBounds]; rfl
          stack := .slot moved.stack }
      · rfl

theorem closeGroup_moved {group register : Nat} (isKnown : known state.address register)
    (handed : ∀ register, known (state.address + 1) register → known state.address register) :
    Step.Moved front.size known (attempt.closeGroup state group register)
      ((attempt.behind front).closeGroup far group register) := by
  have start := moved.registers register isKnown
  rw [RegisterMoved] at start
  rw [closeGroup, closeGroup, start]
  cases state.registers[register]? with
  | none => exact .halt .fault moved.toFurther
  | some start =>
      apply save_moved moved
      intro middle farMiddle middleMoved middleAddress
      rw [middleMoved.position]
      apply save_moved middleMoved
      intro later farLater laterMoved laterAddress
      rw [laterMoved.position]
      apply advance_moved laterMoved _ rfl
      rw [laterAddress, middleAddress]
      exact handed

theorem loopCheck_moved {register exit head : Nat} (isKnown : known state.address register)
    (exitHanded : ∀ register, known exit register → known state.address register)
    (headHanded : ∀ register, known head register → known state.address register) :
    Step.Moved front.size known (attempt.execute state (.loopCheck register exit head))
      ((attempt.behind front).execute far (.loopCheck register exit head)) := by
  have start := moved.registers register isKnown
  rw [RegisterMoved] at start
  rw [execute, execute, start]
  cases state.registers[register]? with
  | none => exact .halt .fault moved.toFurther
  | some start =>
      simp only [Option.map_some, moved.position, Nat.add_left_cancel_iff]
      split
      · exact jump_moved moved exitHanded
      · exact mark_moved moved fun other holds => .inl (headHanded other holds)

theorem look_moved {direction : LookDirection} {negated : Bool} {next : Nat}
    (forward : (Instruction.look direction negated next).looksBack = false)
    (bodyHanded : ∀ register, known (state.address + 1) register → known state.address register)
    (nextHanded : ∀ register, known next register → known state.address register) :
    Step.Moved front.size known (attempt.look state direction negated next)
      ((attempt.behind front).look far direction negated next) := by
  cases direction with
  | behind width => cases forward
  | ahead => exact enterBody_moved moved moved.position bodyHanded nextHanded

theorem execute_moved {start stop : Nat} {instruction : Instruction}
    (flows : instruction.Flows known start stop state.address)
    (forward : instruction.looksBack = false) :
    Step.Moved front.size known (attempt.execute state instruction)
      ((attempt.behind front).execute far instruction) := by
  cases instruction with
  | accept =>
      rw [execute, execute, moved.position, refusesEmpty_behind]
      split
      · exact moved.fail
      · exact .halt .matched moved.toFurther
  | endBody => exact moved.leaveBody
  | character | oneOf | anyCharacter | charSet =>
      exact consume_moved moved (flows.handed_of_none rfl List.mem_cons_self) _
  | notNewline =>
      have handed := flows.handed_of_none rfl List.mem_cons_self
      rw [execute, execute, moved.position, newlineAt_behind]
      split
      · exact moved.fail
      · exact consume_moved moved handed _
  | lineBreak => exact takeLineBreak_moved moved (flows.handed_of_none rfl List.mem_cons_self)
  | assertion condition =>
      exact test_moved moved (flows.handed_of_none rfl List.mem_cons_self) forward
  | split first second =>
      exact split_moved moved (flows.handed_of_none rfl List.mem_cons_self)
        (flows.handed_of_none rfl (List.mem_cons_of_mem _ List.mem_cons_self))
  | jump target => exact jump_moved moved (flows.handed_of_none rfl List.mem_cons_self)
  | openGroup register | loopStart register =>
      rw [execute, execute, moved.address]
      apply mark_moved moved
      intro other holds
      exact (flows.handed _ List.mem_cons_self other holds).imp_right fun sets =>
        Option.some.inj sets
  | closeGroup group register =>
      exact closeGroup_moved moved (flows.reads register rfl)
        (flows.handed_of_none rfl List.mem_cons_self)
  | backreference groups caseless =>
      exact matchReference_moved moved (flows.handed_of_none rfl List.mem_cons_self) groups caseless
  | look direction negated next =>
      exact look_moved moved forward (flows.handed_of_none rfl List.mem_cons_self)
        (flows.handed_of_none rfl (List.mem_cons_of_mem _ List.mem_cons_self))
  | atomic next =>
      exact enterBody_moved moved moved.position (flows.handed_of_none rfl List.mem_cons_self)
        (flows.handed_of_none rfl (List.mem_cons_of_mem _ List.mem_cons_self))
  | loopCheck register exit head =>
      exact loopCheck_moved moved (flows.reads register rfl)
        (flows.handed_of_none rfl List.mem_cons_self)
        (flows.handed_of_none rfl (List.mem_cons_of_mem _ List.mem_cons_self))

end Attempt

/-! ## Runs -/

/-- Halts of machines that differ by the distance. -/
structure Halt.Moved (distance : Nat) (halt far : Halt) : Prop where
  verdict : far.verdict = halt.verdict
  state : halt.state.Further distance far.state
  budget : far.budget = halt.budget

theorem initial_moved (program : Program) (distance start : Nat) :
    (State.initial program start).Moved distance program.setAt
      (.initial program (distance + start)) where
  position := rfl
  frameCount := rfl
  slots := by rw [State.initial, State.initial, Array.map_replicate]; rfl
  registerCount := rfl
  touchedEnd := rfl
  address := rfl
  registers := fun register known => absurd known.between.1 (Nat.lt_irrefl 0)
  stack := .bottom

section Runs

variable {attempt : Attempt} (front : Array UInt8) (compiled : Compiled attempt.program)
  (forward : attempt.program.pattern.tree.looksBack = false)
include compiled forward

theorem step_moved {state far : State}
    (moved : state.Moved front.size attempt.program.setAt far) :
    Step.Moved front.size attempt.program.setAt (attempt.step state)
      ((attempt.behind front).step far) := by
  have sameProgram : (attempt.behind front).program = attempt.program := rfl
  rw [Attempt.step, Attempt.step, sameProgram, moved.address]
  cases fetched : attempt.program.instructions[state.address]? with
  | none => exact .halt .fault moved.toFurther
  | some instruction =>
      have onward := compiled.looksBack_of_mem forward (Array.mem_of_getElem? fetched)
      exact Attempt.execute_moved moved (compiled.flows fetched) onward

theorem run_moved {state far : State} (moved : state.Moved front.size attempt.program.setAt far)
    (budget : Nat) :
    Halt.Moved front.size (run attempt state budget) (run (attempt.behind front) far budget) := by
  induction budget generalizing state far with
  | zero => exact ⟨rfl, moved.toFurther, rfl⟩
  | succ budget induction =>
      have stepped := step_moved front compiled forward moved
      rw [run, run]
      generalize attempt.step state = step at stepped ⊢
      generalize (attempt.behind front).step far = farStep at stepped ⊢
      cases stepped with
      | next moved => exact induction moved
      | halt verdict further => exact ⟨rfl, further, rfl⟩

end Runs

end Machine

end PerlRegex
