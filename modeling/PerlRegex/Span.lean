namespace PerlRegex

/-! A span is a stretch of a text, from the byte at `start` up to but not including the one at
`stop`. -/

structure Span where
  start : Nat
  stop : Nat
  deriving DecidableEq, Repr

namespace Span

def isEmpty (span : Span) : Bool := span.start == span.stop

def bytes (span : Span) (text : Array UInt8) : List UInt8 :=
  (text.extract span.start span.stop).toList

end Span

/-- The spans of the groups of a match, group 0 first. A group that took no part has none. -/
abbrev Captures := List (Option Span)

end PerlRegex
