import PerlRegex.Proofs.Machine.Undoing
namespace PerlRegex.Machine

/-! Two machines at the same address whose positions differ by a fixed distance. Registers that
have not been set hold 0 in both, so they do not differ by the distance: of the registers nothing is
asked but at the addresses where they are known to be set. The same goes for the states that the
frames lead back to. -/

/-! ## Registers and stacks -/

/-- The register holds a position in both machines, the same but for the distance. -/
def RegisterMoved (distance : Nat) (registers far : Array Nat) (register : Nat) : Prop :=
  far[register]? = registers[register]?.map (distance + ·)

namespace RegisterMoved

variable {distance register former farFormer : Nat} {registers far : Array Nat}

theorem set_ne {other : Nat} (apart : register ≠ other) :
    RegisterMoved distance (registers.setIfInBounds register former)
        (far.setIfInBounds register farFormer) other ↔
      RegisterMoved distance registers far other := by
  rw [RegisterMoved, RegisterMoved, Array.getElem?_setIfInBounds_ne apart,
    Array.getElem?_setIfInBounds_ne apart]

theorem set_self (sizes : far.size = registers.size) (register position : Nat) :
    RegisterMoved distance (registers.setIfInBounds register position)
      (far.setIfInBounds register (distance + position)) register := by
  rw [RegisterMoved, Array.getElem?_setIfInBounds_self, Array.getElem?_setIfInBounds_self, sizes]
  split <;> rfl

end RegisterMoved

/-- Stacks that differ by the distance, over registers with the given contents. Where going back
over the frames comes to a choice, or to the end of a run, the registers known at the address where
the machine goes on have moved with everything else. -/
inductive StacksMoved (distance : Nat) (known : Nat → Nat → Prop) :
    (registers far : Array Nat) → (frames farFrames : List Frame) →
    (waiting farWaiting : List Waiting) → Prop
  | bottom {registers far : Array Nat} : StacksMoved distance known registers far [] [] [] []
  | run {registers far : Array Nat} {purpose : Purpose} {next position : Nat}
      {frames farFrames : List Frame} {waiting farWaiting : List Waiting} :
      (∀ register, known next register → RegisterMoved distance registers far register) →
      StacksMoved distance known registers far frames farFrames waiting farWaiting →
      StacksMoved distance known registers far [] []
        (⟨purpose, next, position, frames⟩ :: waiting)
        (⟨purpose, next, distance + position, farFrames⟩ :: farWaiting)
  | choice {registers far : Array Nat} {address position : Nat} {frames farFrames : List Frame}
      {waiting farWaiting : List Waiting} :
      (∀ register, known address register → RegisterMoved distance registers far register) →
      StacksMoved distance known registers far frames farFrames waiting farWaiting →
      StacksMoved distance known registers far (.choice address position :: frames)
        (.choice address (distance + position) :: farFrames) waiting farWaiting
  | slot {registers far : Array Nat} {slot : Nat} {former : Option Nat}
      {frames farFrames : List Frame} {waiting farWaiting : List Waiting} :
      StacksMoved distance known registers far frames farFrames waiting farWaiting →
      StacksMoved distance known registers far (.slot slot former :: frames)
        (.slot slot (former.map (distance + ·)) :: farFrames) waiting farWaiting
  | register {registers far : Array Nat} {register former farFormer : Nat}
      {frames farFrames : List Frame} {waiting farWaiting : List Waiting} :
      RegisterMoved distance registers far register →
      StacksMoved distance known (registers.setIfInBounds register former)
        (far.setIfInBounds register farFormer) frames farFrames waiting farWaiting →
      StacksMoved distance known registers far (.register register former :: frames)
        (.register register farFormer :: farFrames) waiting farWaiting

/-- The frames of a run that are no choices. -/
def keptFrames (frames : List Frame) : List Frame := frames.filter fun frame => !frame.isChoice

namespace StacksMoved

variable {distance : Nat} {known : Nat → Nat → Prop} {registers far : Array Nat}
  {frames farFrames : List Frame} {waiting farWaiting : List Waiting}

theorem length_eq
    (stack : StacksMoved distance known registers far frames farFrames waiting farWaiting) :
    farFrames.length = frames.length := by
  induction stack with
  | bottom | run => rfl
  | choice _ _ induction | slot _ induction | register _ _ induction =>
      exact congrArg (· + 1) induction

theorem length_keptFrames
    (stack : StacksMoved distance known registers far frames farFrames waiting farWaiting) :
    (keptFrames farFrames).length = (keptFrames frames).length := by
  induction stack with
  | bottom | run => rfl
  | choice _ _ induction => exact induction
  | slot _ induction | register _ _ induction => exact congrArg (· + 1) induction

theorem slotsBefore_moved
    (stack : StacksMoved distance known registers far frames farFrames waiting farWaiting)
    (slots : Array (Option Nat)) :
    slotsBefore farFrames (slots.map (Option.map (distance + ·))) =
      (slotsBefore frames slots).map (Option.map (distance + ·)) := by
  induction stack generalizing slots with
  | bottom | run => rfl
  | choice _ _ induction | register _ _ induction => exact induction slots
  | @slot _ _ slot former _ _ _ _ _ induction =>
      have given : (slots.map (Option.map (distance + ·))).setIfInBounds slot
          (former.map (distance + ·)) =
            (slots.setIfInBounds slot former).map (Option.map (distance + ·)) :=
        Array.map_setIfInBounds.symm
      exact (congrArg (slotsBefore _) given).trans (induction _)

/-- A body ends in both machines for the same purpose, and what is known where the run goes on that
has waited is still known. Its frames follow those of the body, of which the choices may be dropped
or all be gone back over. -/
structure LeavesMoved (distance : Nat) (known : Nat → Nat → Prop) (registers far : Array Nat)
    (frames farFrames : List Frame) (outer farOuter : Waiting) (waiting farWaiting : List Waiting) :
    Prop where
  purpose : farOuter.purpose = outer.purpose
  next : farOuter.next = outer.next
  position : farOuter.position = distance + outer.position
  keeps : ∀ register, known outer.next register → RegisterMoved distance registers far register
  ahead : StacksMoved distance known registers far (keptFrames frames ++ outer.frames)
    (keptFrames farFrames ++ farOuter.frames) waiting farWaiting
  before : StacksMoved distance known (registersBefore frames registers)
    (registersBefore farFrames far) outer.frames farOuter.frames waiting farWaiting

theorem leaves {outer : Waiting}
    (stack : StacksMoved distance known registers far frames farFrames (outer :: waiting)
      farWaiting) :
    ∃ farOuter rest, farWaiting = farOuter :: rest
      ∧ LeavesMoved distance known registers far frames farFrames outer farOuter waiting rest := by
  generalize listed : outer :: waiting = runs at stack
  induction stack with
  | bottom => cases listed
  | run moved stack =>
      injection listed with same rest
      subst same rest
      exact ⟨_, _, rfl, rfl, rfl, rfl, moved, stack, stack⟩
  | choice _ _ induction =>
      rcases induction listed with ⟨farOuter, rest, same, leaves⟩
      exact ⟨farOuter, rest, same, { leaves with }⟩
  | slot _ induction =>
      rcases induction listed with ⟨farOuter, rest, same, leaves⟩
      exact ⟨farOuter, rest, same, { leaves with ahead := .slot leaves.ahead }⟩
  | @register _ _ register former farFormer _ _ _ _ moved _ induction =>
      rcases induction listed with ⟨farOuter, rest, same, leaves⟩
      have ahead := StacksMoved.register moved leaves.ahead
      refine ⟨farOuter, rest, same, { leaves with keeps := ?_, ahead := ahead }⟩
      -- The register has been set since the run began to wait, and so it has moved.
      intro other holds
      by_cases apart : register = other
      · exact apart ▸ moved
      · exact (RegisterMoved.set_ne apart).mp (leaves.keeps other holds)

theorem farWaiting_eq_nil
    (stack : StacksMoved distance known registers far frames farFrames [] farWaiting) :
    farWaiting = [] := by
  generalize listed : ([] : List Waiting) = runs at stack
  induction stack with
  | bottom => rfl
  | run => cases listed
  | choice _ _ induction | slot _ induction | register _ _ induction => exact induction listed

end StacksMoved

/-! ## States and steps -/

/-- States whose positions and slots differ by the distance. -/
structure State.Further (distance : Nat) (state far : State) : Prop where
  position : far.position = distance + state.position
  frameCount : far.frameCount = state.frameCount
  slots : far.slots = state.slots.map (Option.map (distance + ·))
  registerCount : far.registers.size = state.registers.size
  touchedEnd : far.touchedEnd = state.touchedEnd

/-- States at one address that differ by the distance in all that the machine goes on to use. -/
structure State.Moved (distance : Nat) (known : Nat → Nat → Prop) (state far : State) : Prop
    extends State.Further distance state far where
  address : far.address = state.address
  registers : ∀ register, known state.address register →
    RegisterMoved distance state.registers far.registers register
  stack : StacksMoved distance known state.registers far.registers state.frames far.frames
    state.waiting far.waiting

/-- Steps that go on in states that differ by the distance, or halt alike. -/
inductive Step.Moved (distance : Nat) (known : Nat → Nat → Prop) : Step → Step → Prop
  | next {state far : State} :
      state.Moved distance known far → Step.Moved distance known (.next state) (.next far)
  | halt (verdict : Verdict) {state far : State} :
      state.Further distance far →
      Step.Moved distance known (.halt verdict state) (.halt verdict far)

namespace State

variable {distance : Nat} {known : Nat → Nat → Prop} {state far : State}

/-! ## Going back -/

theorem failIn_choice (state : State) (address position : Nat) (frames : List Frame)
    (waiting : List Waiting) :
    state.failIn (.choice address position :: frames) waiting =
      .next { state with
        address := address
        position := position
        frames := frames
        frameCount := state.frameCount - 1 } := by
  cases waiting <;> rfl

theorem failIn_slot (state : State) (slot : Nat) (former : Option Nat) (frames : List Frame)
    (waiting : List Waiting) :
    state.failIn (.slot slot former :: frames) waiting =
      { state with
        slots := state.slots.setIfInBounds slot former
        frameCount := state.frameCount - 1 }.failIn frames waiting := by
  cases waiting <;> rfl

theorem failIn_register (state : State) (register former : Nat) (frames : List Frame)
    (waiting : List Waiting) :
    state.failIn (.register register former :: frames) waiting =
      { state with
        registers := state.registers.setIfInBounds register former
        frameCount := state.frameCount - 1 }.failIn frames waiting := by
  cases waiting <;> rfl

theorem failIn_run (state : State) (outer : Waiting) (waiting : List Waiting) :
    state.failIn [] (outer :: waiting) =
      if outer.purpose = .look true then
        .next { state with
          address := outer.next
          position := outer.position
          frames := outer.frames
          waiting := waiting }
      else { state with frames := [], waiting := waiting }.failIn outer.frames waiting :=
  rfl

theorem failIn_moved {frames farFrames : List Frame} {waiting farWaiting : List Waiting}
    (further : state.Further distance far)
    (stack : StacksMoved distance known state.registers far.registers frames farFrames waiting
      farWaiting)
    (waits : state.waiting = waiting) (farWaits : far.waiting = farWaiting) :
    Step.Moved distance known (state.failIn frames waiting) (far.failIn farFrames farWaiting) := by
  generalize given : state.registers = registers at stack
  generalize farGiven : far.registers = farRegisters at stack
  -- Going back takes one frame or one waiting run at a time, as the stacks are built.
  induction stack generalizing state far with
  | bottom => exact .halt .failed { further with }
  | @run _ _ purpose next position frames farFrames waiting farWaiting moved stack induction =>
      subst given farGiven
      rw [failIn_run, failIn_run]
      split
      · exact .next { further with
          position := rfl
          address := rfl
          registers := moved
          stack := stack }
      · exact @induction { state with frames := [], waiting := waiting }
          { far with frames := [], waiting := farWaiting } { further with } rfl rfl rfl rfl
  | @choice _ _ address position frames farFrames _ _ moved stack =>
      subst given farGiven waits farWaits
      rw [failIn_choice, failIn_choice]
      exact .next { further with
        position := rfl
        frameCount := congrArg (· - 1) further.frameCount
        address := rfl
        registers := moved
        stack := stack }
  | @slot _ _ slot former _ _ _ _ _ induction =>
      rw [failIn_slot, failIn_slot]
      refine induction ?_ waits farWaits given farGiven
      exact { further with
        frameCount := congrArg (· - 1) further.frameCount
        slots := by rw [further.slots, Array.map_setIfInBounds] }
  | @register _ _ register former farFormer _ _ _ _ _ _ induction =>
      subst given farGiven
      rw [failIn_register, failIn_register]
      refine induction ?_ waits farWaits rfl rfl
      exact { further with
        frameCount := congrArg (· - 1) further.frameCount
        registerCount := by
          rw [Array.size_setIfInBounds, Array.size_setIfInBounds, further.registerCount] }

theorem fail_moved (further : state.Further distance far)
    (stack : StacksMoved distance known state.registers far.registers state.frames far.frames
      state.waiting far.waiting) :
    Step.Moved distance known state.fail far.fail :=
  failIn_moved further stack rfl rfl

namespace Moved

variable (moved : state.Moved distance known far)
include moved

theorem fail : Step.Moved distance known state.fail far.fail :=
  fail_moved moved.toFurther moved.stack

/-! ## Going on -/

theorem goOn {address position : Nat}
    (handed : ∀ register, known address register → known state.address register) :
    State.Moved distance known { state with address := address, position := position }
      { far with address := address, position := distance + position } :=
  { moved with
    position := rfl
    address := rfl
    registers := fun register holds => moved.registers register (handed register holds) }

theorem leaveBody : Step.Moved distance known state.leaveBody far.leaveBody := by
  have stack := moved.stack
  rw [State.leaveBody, State.leaveBody]
  cases waits : state.waiting with
  | nil =>
      rw [waits] at stack
      rw [stack.farWaiting_eq_nil]
      exact .halt .fault moved.toFurther
  | cons outer waiting =>
      rw [waits] at stack
      rcases stack.leaves with ⟨farOuter, rest, farWaits, leaves⟩
      have committed : far.frameCount - (far.frames.length - (keptFrames far.frames).length) =
          state.frameCount - (state.frames.length - (keptFrames state.frames).length) := by
        rw [moved.frameCount, stack.length_eq, stack.length_keptFrames]
      rw [farWaits]
      dsimp only
      rw [leaves.purpose]
      cases outer.purpose with
      | atomic =>
          exact .next { moved with
            frameCount := committed
            address := leaves.next
            registers := leaves.keeps
            stack := leaves.ahead }
      | look negated =>
          cases negated with
          | false =>
              exact .next { moved with
                position := leaves.position
                frameCount := committed
                address := leaves.next
                registers := leaves.keeps
                stack := leaves.ahead }
          | true =>
              -- What a negated body has done is undone before the run that waited for it fails.
              dsimp only
              rw [undoAll_eq, undoAll_eq]
              apply fail_moved
              · exact {
                  position := moved.position
                  frameCount := by rw [moved.frameCount, stack.length_eq]
                  slots := by rw [moved.slots, stack.slotsBefore_moved]
                  registerCount := by
                    rw [size_registersBefore, size_registersBefore, moved.registerCount]
                  touchedEnd := moved.touchedEnd }
              · exact leaves.before

end Moved

end State

end PerlRegex.Machine
