import PerlRegex.Machine.Step
namespace PerlRegex.Machine

/-! The storage that machines work in can serve one execution after another, whatever their
programs. It keeps what the last machine held when it halted, until it is made ready again. -/

def State.held (state : State) : List Frame :=
  state.frames ++ state.waiting.flatMap (·.frames)

structure Storage where
  frames : List Frame
  slots : Array (Option Nat)
  registers : Array Nat
  deriving Repr

namespace Storage

def empty : Storage where
  frames := []
  slots := #[]
  registers := #[]

def prepare (_ : Storage) (program : Program) : Storage where
  frames := []
  slots := .replicate program.slotCount none
  registers := .replicate program.registers 0

/-- Drop what an earlier attempt has left in the slots and on the stack. The registers stay as they
are. -/
def resetAttempt (storage : Storage) : Storage :=
  { storage with frames := [], slots := storage.slots.map fun _ => none }

def state (storage : Storage) (start : Nat) : State where
  address := 0
  position := start
  frames := storage.frames
  frameCount := storage.frames.length
  waiting := []
  slots := storage.slots
  registers := storage.registers
  touchedEnd := false

def leftBy (state : State) : Storage where
  frames := state.held
  slots := state.slots
  registers := state.registers

def setWhole (storage : Storage) (whole : Span) : Storage :=
  { storage with
    slots := (storage.slots.setIfInBounds 0 whole.start).setIfInBounds 1 whole.stop }

def captures (storage : Storage) : Captures :=
  (List.range ((storage.slots.size + 1) / 2)).map (groupSpan? storage.slots)

end Storage

end PerlRegex.Machine
