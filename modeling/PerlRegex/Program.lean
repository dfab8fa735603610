import PerlRegex.Code
import PerlRegex.Pattern
namespace PerlRegex

/-! A program is a pattern with the code for it. The code ends in an instruction of its own. -/

/-! ## Programs -/

structure Program where
  /-- The text of the pattern. -/
  source : String
  pattern : Pattern
  instructions : Array Instruction
  registers : Nat

namespace Program

/-- Longest program. Counted repetitions are written out, so short patterns can exceed it. -/
def longest : Nat := 0x100000

def utf8 (program : Program) : Bool := program.pattern.options.utf8

def ucp (program : Program) : Bool := program.pattern.options.ucp

/-- Each group has one slot for its start and one for its end, group 0 first. -/
def slotCount (program : Program) : Nat := 2 * (program.pattern.captures + 1)

end Program

/-! ## Compilation -/

inductive CompileFailure where
  | invalid (error : CompileError)
  /-- A reference counts on beyond the group numbers that 64 bits can hold. -/
  | overflow
  deriving DecidableEq, Repr

def CompileFailure.ofReading (text : List UInt8) : Pattern.ReadFailure → CompileFailure
  | .fault fault offset => .invalid ⟨fault, offset, Utf8.lossyText text⟩
  | .overflow => .overflow

def Pattern.program (pattern : Pattern) (source : String) : Except CompileFailure Program :=
  let utf8 := pattern.options.utf8
  if Program.longest < pattern.tree.codeSize utf8 + 1 then
    .error (.invalid ⟨.usual .patternTooLarge, 0, source⟩)
  else
    .ok {
      source := source
      pattern := pattern
      instructions := (pattern.tree.code utf8 0 0 ++ [Instruction.accept]).toArray
      registers := pattern.tree.registerCount utf8 }

def Program.compile (text : List UInt8) (options : CompileOptions) :
    Except CompileFailure Program :=
  match Pattern.parse text options with
  | .error failure => .error (.ofReading text failure)
  | .ok pattern => pattern.program (Utf8.lossyText text)

end PerlRegex
