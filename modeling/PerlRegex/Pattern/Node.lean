import PerlRegex.CharSet
namespace PerlRegex

/-! The tree of a pattern. Inline flags have been resolved into the nodes they apply to. The type
of references is a parameter: while a pattern is being read a back reference holds what the pattern
says, a number or a name, and afterwards it holds the numbers of the groups it may stand for. -/

inductive Assertion where
  | startOfText
  | endOfText
  | endOfTextOrFinalNewline
  | lineStart (multiline : Bool)
  | lineEnd (multiline endOnly : Bool)
  | startOffset
  | wordBoundary (negated : Bool)
  deriving DecidableEq, Repr

/-- Where the body of a lookaround is tried: at the position itself, or `width` characters before
it. -/
inductive LookDirection where
  | ahead
  | behind (width : Nat)
  deriving DecidableEq, Repr

inductive Node (Reference : Type) where
  | empty
  | literal (character : Nat) (caseless : Bool)
  | anyCharacter
  /-- Any character that does not begin a newline. -/
  | notNewline
  | lineBreak
  | charSet (set : CharSet)
  | assertion (assertion : Assertion)
  /-- Parentheses that capture nothing. -/
  | group (body : Node Reference)
  | capture (number : Nat) (body : Node Reference)
  | sequence (first second : Node Reference)
  | alternation (first second : Node Reference)
  /-- From `least` to `greatest` copies of the body, without bound if there is no `greatest`. -/
  | repetition (body : Node Reference) (least : Nat) (greatest : Option Nat) (greedy : Bool)
  | backreference (reference : Reference) (caseless : Bool)
  | look (direction : LookDirection) (negated : Bool) (body : Node Reference)
  | atomic (body : Node Reference)
  deriving Repr

namespace Node

/-! ## Putting trees together -/

def ofSequence : List (Node Reference) → Node Reference
  | [] => .empty
  | [node] => node
  | node :: rest => .sequence node (ofSequence rest)

def ofAlternatives : List (Node Reference) → Node Reference
  | [] => .empty
  | [node] => node
  | node :: rest => .alternation node (ofAlternatives rest)

/-- The alternatives joined by a chain of `alternation` nodes. A group ends the chain. -/
def alternatives : Node Reference → List (Node Reference)
  | .alternation first second => first :: second.alternatives
  | node => [node]

def topAlternatives : Node Reference → List (Node Reference)
  | .group body => body.topAlternatives
  | node => node.alternatives

/-! ## References -/

def references : Node Reference → List Reference
  | .group body | .capture _ body | .repetition body _ _ _ | .look _ _ body | .atomic body =>
      body.references
  | .sequence first second | .alternation first second => first.references ++ second.references
  | .backreference reference _ => [reference]
  | _ => []

def mapReferences (transform : Reference → Other) : Node Reference → Node Other
  | .empty => .empty
  | .literal character caseless => .literal character caseless
  | .anyCharacter => .anyCharacter
  | .notNewline => .notNewline
  | .lineBreak => .lineBreak
  | .charSet set => .charSet set
  | .assertion condition => .assertion condition
  | .group body => .group (body.mapReferences transform)
  | .capture number body => .capture number (body.mapReferences transform)
  | .sequence first second =>
      .sequence (first.mapReferences transform) (second.mapReferences transform)
  | .alternation first second =>
      .alternation (first.mapReferences transform) (second.mapReferences transform)
  | .repetition body least greatest greedy =>
      .repetition (body.mapReferences transform) least greatest greedy
  | .backreference reference caseless => .backreference (transform reference) caseless
  | .look direction negated body => .look direction negated (body.mapReferences transform)
  | .atomic body => .atomic (body.mapReferences transform)

/-! ## Measures of a tree -/

/-- Widths beyond 64 bits are not measured. -/
def boundedWidth (width : Nat) : Option Nat :=
  if width ≤ 0xFFFFFFFFFFFFFFFF then some width else none

def fixedWidth? : Node Reference → Option Nat
  | .empty | .assertion _ | .look _ _ _ => some 0
  | .literal _ _ | .anyCharacter | .notNewline | .charSet _ => some 1
  | .lineBreak | .backreference _ _ => none
  | .group body | .capture _ body | .atomic body => body.fixedWidth?
  | .sequence first second => do
      boundedWidth ((← first.fixedWidth?) + (← second.fixedWidth?))
  | .alternation first second => do
      let width ← first.fixedWidth?
      if (← second.fixedWidth?) = width then some width else none
  | .repetition body least greatest _ => do
      if greatest = some least then boundedWidth ((← body.fixedWidth?) * least) else none

def minBytes (utf8 : Bool) : Node Reference → Nat
  | .empty | .assertion _ | .look _ _ _ | .backreference _ _ => 0
  | .literal character caseless =>
      if utf8 && !caseless && Utf8.isScalar character then Utf8.encodedLength character else 1
  | .anyCharacter | .notNewline | .lineBreak | .charSet _ => 1
  | .group body | .capture _ body | .atomic body => body.minBytes utf8
  | .sequence first second => first.minBytes utf8 + second.minBytes utf8
  | .alternation first second => min (first.minBytes utf8) (second.minBytes utf8)
  | .repetition body least _ _ => body.minBytes utf8 * least

/-- Literal characters that every match begins with, and whether they make up the whole tree. -/
def leadingText : Node Reference → List Nat × Bool
  | .literal character false => ([character], true)
  | .empty => ([], true)
  | .group body | .capture _ body => body.leadingText
  | .sequence first second =>
      match first.leadingText with
      | (text, true) =>
          let (following, complete) := second.leadingText
          (text ++ following, complete)
      | (text, false) => (text, false)
  | _ => ([], false)

end Node

end PerlRegex
