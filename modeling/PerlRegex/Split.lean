import PerlRegex.Scan
namespace PerlRegex

/-! Splitting a subject around its matches. An empty match right behind the match before it does not
split, and neither does any match that ends where the subject begins. -/

/-- A subject that has been split up to some point: the pieces so far, where the current piece
begins, where the piece before it ended, and where the latest match ended. -/
structure Splitting where
  pieces : Array Span
  pieceStart : Nat
  pieceStop : Nat
  matchStop : Option Nat

namespace Splitting

def start : Splitting where
  pieces := #[]
  pieceStart := 0
  pieceStop := 0
  matchStop := none

/-- Split at a match, unless the number of pieces is limited and the rest of the subject has to be
the last one. -/
def splitAt (most : Option Nat) (splitting : Splitting) (span : Span) : ForInStep Splitting :=
  if span.isEmpty && splitting.matchStop == some span.start then .yield splitting
  else if most == some (splitting.pieces.size + 1) then .done splitting
  else .yield {
    pieces :=
      if span.stop = 0 then splitting.pieces
      else splitting.pieces.push ⟨splitting.pieceStart, span.start⟩
    pieceStart := span.stop
    pieceStop := span.start
    matchStop := some span.stop }

/-- All pieces. The rest of the subject is the last one, unless the piece before it ended with the
subject. -/
def finish (splitting : Splitting) (subject : Array UInt8) : List Span :=
  (if splitting.pieceStop = subject.size then splitting.pieces
    else splitting.pieces.push ⟨splitting.pieceStart, subject.size⟩).toList

end Splitting

namespace Regex

def split (regex : Regex) (subject : Array UInt8) (limit : Int) (options : MatchOptions) :
    Except ExecError (List Span) :=
  if limit = 0 then .ok []
  else if regex.source ≠ "" && subject.isEmpty then .ok [⟨0, 0⟩]
  else do
    let most := if limit < 0 then none else some limit.toNat
    let splitting ← regex.foldMatches subject options
      (fun (splitting : Splitting) span _ => splitting.splitAt most span) Splitting.start
    return splitting.finish subject

def splitText (regex : Regex) (subject : Array UInt8) (limit : Int) (options : MatchOptions) :
    Except ExecError (List String) := do
  return (← regex.split subject limit options).map fun piece =>
    Utf8.lossyText (piece.bytes subject)

end Regex

end PerlRegex
