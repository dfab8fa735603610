import PerlRegex.Proofs.Machine.Unlimited
namespace PerlRegex.Machine

/-! Frames give back what the slots and the registers held before. Going back over frames that hold
no choice puts all of it back and changes nothing else, so what a run leaves behind on its stack
undoes the run exactly. -/

/-! ## Putting back -/

def Frame.restoreSlots (slots : Array (Option Nat)) : Frame → Array (Option Nat)
  | .slot index former => slots.setIfInBounds index former
  | _ => slots

def Frame.restoreRegisters (registers : Array Nat) : Frame → Array Nat
  | .register index former => registers.setIfInBounds index former
  | _ => registers

/-- The slots as they were before all of the frames were pushed, the first of them last. -/
def slotsBefore (frames : List Frame) (slots : Array (Option Nat)) : Array (Option Nat) :=
  frames.foldl Frame.restoreSlots slots

def registersBefore (frames : List Frame) (registers : Array Nat) : Array Nat :=
  frames.foldl Frame.restoreRegisters registers

theorem size_slotsBefore (frames : List Frame) (slots : Array (Option Nat)) :
    (slotsBefore frames slots).size = slots.size := by
  induction frames generalizing slots with
  | nil => rfl
  | cons frame frames induction =>
      rw [slotsBefore, List.foldl_cons, ← slotsBefore, induction]
      cases frame <;> simp [Frame.restoreSlots]

theorem size_registersBefore (frames : List Frame) (registers : Array Nat) :
    (registersBefore frames registers).size = registers.size := by
  induction frames generalizing registers with
  | nil => rfl
  | cons frame frames induction =>
      rw [registersBefore, List.foldl_cons, ← registersBefore, induction]
      cases frame <;> simp [Frame.restoreRegisters]

theorem slotsBefore_append (later earlier : List Frame) (slots : Array (Option Nat)) :
    slotsBefore (later ++ earlier) slots = slotsBefore earlier (slotsBefore later slots) :=
  List.foldl_append

theorem registersBefore_append (later earlier : List Frame) (registers : Array Nat) :
    registersBefore (later ++ earlier) registers =
      registersBefore earlier (registersBefore later registers) :=
  List.foldl_append

theorem slotsBefore_filter (frames : List Frame) (slots : Array (Option Nat)) :
    slotsBefore (frames.filter fun frame => !frame.isChoice) slots = slotsBefore frames slots := by
  induction frames generalizing slots with
  | nil => rfl
  | cons frame frames induction =>
      cases frame <;>
        simp [slotsBefore, Frame.isChoice, Frame.restoreSlots] at induction ⊢ <;>
        exact induction _

theorem registersBefore_filter (frames : List Frame) (registers : Array Nat) :
    registersBefore (frames.filter fun frame => !frame.isChoice) registers =
      registersBefore frames registers := by
  induction frames generalizing registers with
  | nil => rfl
  | cons frame frames induction =>
      cases frame <;>
        simp [registersBefore, Frame.isChoice, Frame.restoreRegisters] at induction ⊢ <;>
        exact induction _

namespace State

theorem undoAll_eq (state : State) (frames : List Frame) :
    state.undoAll frames = { state with
      slots := slotsBefore frames state.slots
      registers := registersBefore frames state.registers } := by
  induction frames generalizing state with
  | nil => rfl
  | cons frame frames induction =>
      rw [undoAll, List.foldl_cons, ← undoAll, induction]
      cases frame <;> rfl

/-! ## Going back -/

/-- What going back depends on: everything but the address, the position and the note about the end
of the subject. -/
structure Agrees (left right : State) : Prop where
  frames : left.frames = right.frames
  frameCount : left.frameCount = right.frameCount
  waiting : left.waiting = right.waiting
  slots : left.slots = right.slots
  registers : left.registers = right.registers

namespace Agrees

theorem refl (state : State) : Agrees state state := ⟨rfl, rfl, rfl, rfl, rfl⟩

theorem trans {first second third : State} (left : Agrees first second)
    (right : Agrees second third) : Agrees first third :=
  ⟨left.frames.trans right.frames, left.frameCount.trans right.frameCount,
    left.waiting.trans right.waiting, left.slots.trans right.slots,
    left.registers.trans right.registers⟩

end Agrees

/-- Going back over frames looks neither at the frames that the state itself lists nor at the note
about the end of the subject, and leaves the note as it is. -/
theorem backtrack_apart (state : State) (listed frames : List Frame) (touched : Bool) :
    { state with frames := listed, touchedEnd := touched }.backtrack frames =
      ((state.backtrack frames).1,
        { (state.backtrack frames).2 with touchedEnd := touched }) := by
  induction frames generalizing state with
  | nil => rfl
  | cons frame frames induction =>
      cases frame with
      | choice => rfl
      | slot slot former =>
          exact induction { state with
            slots := state.slots.setIfInBounds slot former
            frameCount := state.frameCount - 1 }
      | register register former =>
          exact induction { state with
            registers := state.registers.setIfInBounds register former
            frameCount := state.frameCount - 1 }

theorem backtrack_withFrames (state : State) (listed frames : List Frame) :
    { state with frames := listed }.backtrack frames = state.backtrack frames :=
  (state.backtrack_apart listed frames state.touchedEnd).trans
    (state.backtrack_apart state.frames frames state.touchedEnd).symm

theorem failIn_withFrames (state : State) (listed frames : List Frame) (waiting : List Waiting) :
    { state with frames := listed }.failIn frames waiting = state.failIn frames waiting := by
  cases waiting <;> simp only [failIn, backtrack_withFrames]

/-- Going back over frames without a choice puts back what they hold and goes on behind them. -/
theorem backtrack_append (state : State) {added : List Frame}
    (noChoice : ∀ frame ∈ added, frame.isChoice = false) (frames : List Frame) :
    state.backtrack (added ++ frames) =
      { state with
        slots := slotsBefore added state.slots
        registers := registersBefore added state.registers
        frameCount := state.frameCount - added.length }.backtrack frames := by
  induction added generalizing state with
  | nil => rfl
  | cons frame added induction =>
      have rest : ∀ frame ∈ added, frame.isChoice = false :=
        fun other member => noChoice other (List.mem_cons_of_mem frame member)
      have counted : ∀ count : Nat, count - 1 - added.length = count - (added.length + 1) := by
        omega
      cases frame with
      | choice => exact absurd (noChoice _ List.mem_cons_self) (by simp [Frame.isChoice])
      | slot slot former =>
          rw [List.cons_append, backtrack, induction _ rest]
          simp only [counted, List.length_cons]
          rfl
      | register register former =>
          rw [List.cons_append, backtrack, induction _ rest]
          simp only [counted, List.length_cons]
          rfl

theorem failIn_append (state : State) {added : List Frame}
    (noChoice : ∀ frame ∈ added, frame.isChoice = false) (frames : List Frame)
    (waiting : List Waiting) :
    state.failIn (added ++ frames) waiting =
      { state with
        slots := slotsBefore added state.slots
        registers := registersBefore added state.registers
        frameCount := state.frameCount - added.length }.failIn frames waiting := by
  cases waiting <;> simp only [failIn, backtrack_append _ noChoice]

theorem fail_of_choice {state : State} {address position : Nat} {frames : List Frame}
    (listed : state.frames = .choice address position :: frames) :
    state.fail = .next { state with
      address := address
      position := position
      frames := frames
      frameCount := state.frameCount - 1 } := by
  rw [fail]
  rw [listed]
  cases waits : state.waiting <;> simp [failIn, backtrack, waits]

theorem fail_of_body {state : State} {waiting : Waiting} {rest : List Waiting}
    (noFrames : state.frames = []) (waits : state.waiting = waiting :: rest)
    (notNegated : waiting.purpose ≠ .look true) :
    state.fail = { state with frames := waiting.frames, waiting := rest }.fail := by
  rw [fail]
  rw [noFrames, waits]
  simp only [failIn, backtrack, notNegated, if_false]
  exact (failIn_withFrames { state with waiting := rest } [] waiting.frames rest).trans
    (failIn_withFrames { state with waiting := rest } waiting.frames waiting.frames rest).symm

theorem fail_of_negated {state : State} {waiting : Waiting} {rest : List Waiting}
    (noFrames : state.frames = []) (waits : state.waiting = waiting :: rest)
    (negated : waiting.purpose = .look true) :
    state.fail = .next { state with
      address := waiting.next
      position := waiting.position
      frames := waiting.frames
      waiting := rest } := by
  rw [fail]
  rw [noFrames, waits]
  simp only [failIn, backtrack, negated, if_true]

theorem fail_of_nothing {state : State} (noFrames : state.frames = [])
    (noWaiting : state.waiting = []) :
    state.fail = .halt .failed { state with frames := [] } := by
  have unfolded : state.fail = state.failIn [] [] := by rw [fail, noFrames, noWaiting]
  rw [unfolded]
  rfl

end State

end PerlRegex.Machine
