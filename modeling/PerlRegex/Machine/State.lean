import PerlRegex.Program
import PerlRegex.Span
namespace PerlRegex.Machine

/-! The machine tries one start position of a subject. It keeps a stack of frames: choices to come
back to, and the former contents of slots and registers. The body of a lookaround or of an atomic
group runs with a stack of its own, while the run around it waits. -/

/-- What stays the same during an attempt at one start position. -/
structure Attempt where
  program : Program
  subject : Array UInt8
  options : MatchOptions
  /-- Where the execution began, of which this attempt is a part. -/
  startOffset : Nat
  start : Nat
  /-- How many frames may be held at once. -/
  frameLimit : Nat

inductive Frame where
  | choice (address position : Nat)
  | slot (slot : Nat) (former : Option Nat)
  | register (register former : Nat)
  deriving DecidableEq, Repr

def Frame.isChoice : Frame → Bool
  | choice _ _ => true
  | _ => false

inductive Purpose where
  | look (negated : Bool)
  | atomic
  deriving DecidableEq, Repr

structure Waiting where
  purpose : Purpose
  next : Nat
  position : Nat
  frames : List Frame
  deriving DecidableEq, Repr

structure State where
  address : Nat
  position : Nat
  /-- The frames of the current run, latest first. -/
  frames : List Frame
  /-- The number of frames of all runs. -/
  frameCount : Nat
  /-- The runs that wait, innermost first. -/
  waiting : List Waiting
  /-- The start and the end of each group, as far as they are set. -/
  slots : Array (Option Nat)
  registers : Array Nat
  /-- Whether the end of the subject has stood in the way of a match that may be reported as
  partial. -/
  touchedEnd : Bool
  deriving Repr

def State.initial (program : Program) (start : Nat) : State where
  address := 0
  position := start
  frames := []
  frameCount := 0
  waiting := []
  slots := .replicate program.slotCount none
  registers := .replicate program.registers 0
  touchedEnd := false

inductive Verdict where
  | matched
  | failed
  /-- The subject ended before the match did, and that is all that was asked for. -/
  | cutShort
  | tooManyInstructions
  | tooManyFrames
  /-- The program used an address, a slot or a register that does not exist. -/
  | fault
  deriving DecidableEq, Repr

inductive Step where
  | next (state : State)
  | halt (verdict : Verdict) (state : State)

/-! ## Going back -/

namespace State

def undo (state : State) : Frame → State
  | .choice _ _ => state
  | .slot slot former => { state with slots := state.slots.setIfInBounds slot former }
  | .register register former =>
      { state with registers := state.registers.setIfInBounds register former }

def undoAll (state : State) (frames : List Frame) : State :=
  frames.foldl undo state

/-- Go back to the latest choice of the run whose frames are given. If there is none, the run has
failed, and the state is as it was when the run began. -/
def backtrack (state : State) : List Frame → Bool × State
  | [] => (false, { state with frames := [] })
  | .choice address position :: rest =>
      (true, { state with
        address := address
        position := position
        frames := rest
        frameCount := state.frameCount - 1 })
  | .slot slot former :: rest =>
      backtrack
        { state with
          slots := state.slots.setIfInBounds slot former
          frameCount := state.frameCount - 1 }
        rest
  | .register register former :: rest =>
      backtrack
        { state with
          registers := state.registers.setIfInBounds register former
          frameCount := state.frameCount - 1 }
        rest

/-- Fail in a run with the given frames, while other runs wait for it. A run that fails makes a
negative lookaround hold, and makes anything else fail in its turn. -/
def failIn (state : State) (frames : List Frame) : List Waiting → Step
  | [] =>
      match state.backtrack frames with
      | (true, resumed) => .next resumed
      | (false, exhausted) => .halt .failed exhausted
  | waiting :: rest =>
      match state.backtrack frames with
      | (true, resumed) => .next resumed
      | (false, exhausted) =>
          let outer := { exhausted with waiting := rest }
          if waiting.purpose = .look true then
            .next { outer with
              address := waiting.next
              position := waiting.position
              frames := waiting.frames }
          else failIn outer waiting.frames rest

def fail (state : State) : Step := state.failIn state.frames state.waiting

/-! ## Going on -/

def advance (state : State) (position : Nat) : Step :=
  .next { state with address := state.address + 1, position := position }

def jump (state : State) (address : Nat) : Step := .next { state with address := address }

def enterBody (state : State) (purpose : Purpose) (next position : Nat) : Step :=
  .next { state with
    address := state.address + 1
    position := position
    frames := []
    waiting := ⟨purpose, next, state.position, state.frames⟩ :: state.waiting }

/-- Make the frames of the current run part of the run around it, choices left out: the body will
not be tried in another way. -/
def commit (state : State) (outerFrames : List Frame) : State :=
  let kept := state.frames.filter fun frame => !frame.isChoice
  { state with
    frames := kept ++ outerFrames
    frameCount := state.frameCount - (state.frames.length - kept.length) }

def leaveBody (state : State) : Step :=
  match state.waiting with
  | [] => .halt .fault state
  | waiting :: rest =>
      match waiting.purpose with
      | .look false =>
          .next { state.commit waiting.frames with
            address := waiting.next
            position := waiting.position
            waiting := rest }
      | .look true =>
          fail { state.undoAll state.frames with
            frames := waiting.frames
            frameCount := state.frameCount - state.frames.length
            waiting := rest }
      | .atomic =>
          .next { state.commit waiting.frames with
            address := waiting.next
            waiting := rest }

end State

end PerlRegex.Machine
