import PerlRegex.Machine.State
namespace PerlRegex.Machine.Attempt

/-! What an attempt can find out about its subject without moving. -/

/-! ## Characters -/

def characterAt (attempt : Attempt) (position : Nat) : Option (Nat × Nat) :=
  if attempt.program.utf8 then Utf8.decodeAt attempt.subject position
  else attempt.subject[position]?.map fun byte => (byte.toNat, 1)

def characterBefore (attempt : Attempt) (position : Nat) : Option (Nat × Nat) :=
  if attempt.program.utf8 then Utf8.decodeBefore attempt.subject position
  else if position = 0 then none
  else attempt.subject[position - 1]?.map fun byte => (byte.toNat, 1)

def back (attempt : Attempt) (position : Nat) : (count : Nat) → Option Nat
  | 0 => some position
  | count + 1 =>
      match attempt.characterBefore position with
      | none => none
      | some (_, length) => attempt.back (position - length) count

/-! ## Conditions on positions -/

def atFinalNewline (attempt : Attempt) (position : Nat) : Bool :=
  (attempt.program.pattern.lineRules.newlineAt? attempt.subject position).any fun length =>
    position + length == attempt.subject.size

def isWordAt (attempt : Attempt) (character : Option (Nat × Nat)) : Bool :=
  character.any fun (codePoint, _) => isWordCharacter attempt.program.ucp codePoint

def holds (attempt : Attempt) (position : Nat) : Assertion → Bool
  | .startOfText => position == 0
  | .endOfText => position == attempt.subject.size
  | .endOfTextOrFinalNewline =>
      position == attempt.subject.size || attempt.atFinalNewline position
  | .startOffset => position == attempt.startOffset
  | .lineStart multiline =>
      if position = 0 then !attempt.options.notBol
      else multiline && position < attempt.subject.size
        && attempt.program.pattern.lineRules.newlineEndsAt attempt.subject position
  | .lineEnd true _ =>
      if position = attempt.subject.size then !attempt.options.notEol
      else (attempt.program.pattern.lineRules.newlineAt? attempt.subject position).isSome
  | .lineEnd false endOnly =>
      !attempt.options.notEol
        && (position == attempt.subject.size || (!endOnly && attempt.atFinalNewline position))
  | .wordBoundary negated =>
      (attempt.isWordAt (attempt.characterBefore position)
        != attempt.isWordAt (attempt.characterAt position)) != negated

/-- Whether a condition, tested at the end of the subject, might come out otherwise if the subject
went on. -/
def looksPastEnd (attempt : Attempt) : Assertion → Bool
  | .endOfText | .endOfTextOrFinalNewline | .wordBoundary _ => true
  | .lineEnd _ _ => !attempt.options.notEol
  | _ => false

def refusesEmpty (attempt : Attempt) (position : Nat) : Bool :=
  position == attempt.start
    && (attempt.options.notEmpty
      || (attempt.options.notEmptyAtStart && position == attempt.startOffset))

/-! ## References to groups -/

inductive Repeated where
  | matched (stop : Nat)
  | differs
  /-- The subject ended while the text still agreed. -/
  | ranOut
  deriving DecidableEq, Repr

def repeatBytes (subject : Array UInt8) : (count captured position : Nat) → Repeated
  | 0, _, position => .matched position
  | count + 1, captured, position =>
      match subject[position]? with
      | none => .ranOut
      | some byte =>
          if subject[captured]? == some byte then
            repeatBytes subject count (captured + 1) (position + 1)
          else .differs

/-- Compare without regard to case, character by character, the text from `captured` up to `stop`
with the text from `position` on. Every character takes a byte at least, so `budget` need not exceed
the distance to `stop`. -/
def repeatFolded (attempt : Attempt) (stop : Nat) :
    (budget captured position : Nat) → Repeated
  | 0, _, position => .matched position
  | budget + 1, captured, position =>
      if stop ≤ captured then .matched position
      else match attempt.characterAt captured, attempt.characterAt position with
        | none, _ => .differs
        | some _, none => .ranOut
        | some (expected, expectedLength), some (found, foundLength) =>
            if CaseFolding.fold attempt.program.utf8 expected
                = CaseFolding.fold attempt.program.utf8 found then
              attempt.repeatFolded stop budget (captured + expectedLength)
                (position + foundLength)
            else .differs

def repeats (attempt : Attempt) (span : Span) (caseless : Bool) (position : Nat) : Repeated :=
  if span.stop < span.start || attempt.subject.size < span.stop then .differs
  else if caseless then
    attempt.repeatFolded span.stop (span.stop - span.start) span.start position
  else repeatBytes attempt.subject (span.stop - span.start) span.start position

end PerlRegex.Machine.Attempt
