import PerlRegex.Pattern.Node
namespace PerlRegex

/-! The instructions of the matching machine. Every instruction either lets the machine go on, as a
rule at the next instruction, or fails and sends it back to the latest choice. Addresses are
absolute. Registers hold the position where a group or an iteration of a loop began. -/

inductive Instruction where
  /-- The end of the program. -/
  | accept
  /-- The end of the body of a lookaround or of an atomic group. -/
  | endBody
  | character (character : Nat)
  | oneOf (characters : List Nat)
  | anyCharacter
  | notNewline
  | lineBreak
  | charSet (set : CharSet)
  | assertion (assertion : Assertion)
  /-- Go on at `first`, and come back to `second` if that fails. -/
  | split (first second : Nat)
  | jump (target : Nat)
  | openGroup (register : Nat)
  /-- Set the span of a group, which began where the register says. -/
  | closeGroup (group register : Nat)
  | backreference (groups : List Nat) (caseless : Bool)
  /-- Run the body that follows, from `width` characters back if it looks behind. The instruction at
  `next` comes after the body. -/
  | look (direction : LookDirection) (negated : Bool) (next : Nat)
  | atomic (next : Nat)
  /-- Remember where the first iteration of a loop began. -/
  | loopStart (register : Nat)
  /-- Leave the loop for `exit` after an iteration that matched nothing, and otherwise go back to
  its `head`. -/
  | loopCheck (register exit head : Nat)
  deriving DecidableEq, Repr

end PerlRegex
