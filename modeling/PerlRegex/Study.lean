import PerlRegex.Lines
import PerlRegex.Pattern.Node
namespace PerlRegex

/-! Studying a pattern finds out what all its matches have in common: where they may start, which
byte they may start with, and how long they are at least. A plan made from this lets an execution
pass over start positions at which no match can begin. -/

/-! ## Where matches start -/

inductive StartKind where
  | anywhere
  /-- Only where the execution starts. -/
  | startOffset
  /-- Where the execution starts, and behind any newline. -/
  | lineStart
  deriving DecidableEq, Repr

def StartKind.join : StartKind → StartKind → StartKind
  | .startOffset, .startOffset => .startOffset
  | .anywhere, _ | _, .anywhere => .anywhere
  | _, _ => .lineStart

namespace Node

def startKind : Node Reference → StartKind
  | .assertion .startOfText | .assertion .startOffset | .assertion (.lineStart false) =>
      .startOffset
  | .assertion (.lineStart true) => .lineStart
  | .group body | .capture _ body | .atomic body => body.startKind
  | .sequence first _ => first.startKind
  | .alternation first second => first.startKind.join second.startKind
  | _ => .anywhere

/-! ## What matches start with -/

/-- Whether a match can be empty, on the face of the tree. Nothing is said of a tree whose first
byte can be anything. -/
def nullable? : Node Reference → Option Bool
  | .empty | .assertion _ | .look _ _ _ => some true
  | .literal _ _ | .lineBreak | .charSet _ => some false
  | .anyCharacter | .notNewline | .backreference _ _ => none
  | .group body | .capture _ body | .atomic body => body.nullable?
  | .sequence first second => do if ← first.nullable? then second.nullable? else some false
  | .alternation first second => do return (← first.nullable?) || (← second.nullable?)
  | .repetition body least _ _ => do return (← body.nullable?) || least == 0

/-- Whether a character can begin with a byte. A stray byte of malformed text counts as the
character it stands for. -/
def characterMayBeginWith (utf8 : Bool) (byte : UInt8) (character : Nat) : Bool :=
  if utf8 then
    (Utf8.encode character).head? == some byte
      || (0x80 ≤ character && character ≤ 0xFF && byte.toNat == character)
  else byte.toNat == character

/-- Whether a member of a set can begin with a byte, under either reading of the escapes. -/
def charSetMayBeginWith (utf8 : Bool) (byte : UInt8) (set : CharSet) : Bool :=
  if utf8 && 0x80 ≤ byte then !set.isAsciiOnly
  else set.contains true byte.toNat || set.contains false byte.toNat

def mayBeginWith (utf8 : Bool) (byte : UInt8) : Node Reference → Bool
  | .literal character caseless =>
      (if caseless then CaseFolding.variants character else [character]).any
        (characterMayBeginWith utf8 byte)
  | .lineBreak =>
      (0x0A ≤ byte && byte ≤ 0x0D)
        || if utf8 then byte == 0xC2 || byte == 0xE2 else byte == 0x85
  | .charSet set => charSetMayBeginWith utf8 byte set
  | .group body | .capture _ body | .atomic body | .repetition body _ _ _ =>
      body.mayBeginWith utf8 byte
  | .sequence first second =>
      first.mayBeginWith utf8 byte
        || (first.nullable? != some false && second.mayBeginWith utf8 byte)
  | .alternation first second => first.mayBeginWith utf8 byte || second.mayBeginWith utf8 byte
  | _ => false

end Node

/-! ## Sets of bytes -/

structure ByteSet where
  table : Vector Bool 256

namespace ByteSet

def ofTest (test : UInt8 → Bool) : ByteSet where
  table := .ofFn fun index => test (UInt8.ofNat index)

def contains (set : ByteSet) (byte : UInt8) : Bool := set.table[byte.toFin]

@[simp] theorem contains_ofTest (test : UInt8 → Bool) (byte : UInt8) :
    (ofTest test).contains byte = test byte := by
  simp [ofTest, contains]

end ByteSet

/-! ## Plans -/

/-- A plan serves executions of one partial mode. -/
structure Plan where
  mode : PartialMode
  start : StartKind
  /-- The bytes a match can begin with, if that is known and no match is empty. -/
  firstBytes : Option ByteSet
  minLength : Nat

namespace Plan

def firstBytesOf (utf8 : Bool) (tree : Node Reference) : Option ByteSet :=
  if tree.nullable? = some false then some (.ofTest fun byte => tree.mayBeginWith utf8 byte)
  else none

/-- The plan for a tree. A partial match may come from a text that is too short for a match, or from
a lookaround in front of the first byte, so a plan for partial matching goes by start positions
alone. -/
def build (options : CompileOptions) (tree : Node Reference) (mode : PartialMode) : Plan where
  mode := mode
  start := if options.anchored then .startOffset else tree.startKind
  firstBytes := if mode = .none then firstBytesOf options.utf8 tree else none
  minLength := if mode = .none then tree.minBytes options.utf8 else 0

def accelerates (plan : Plan) : Bool :=
  plan.start != .anywhere || plan.firstBytes.isSome || 0 < plan.minLength

def mayStart (plan : Plan) (rules : LineRules) (subject : Array UInt8)
    (startOffset position : Nat) : Bool :=
  (match plan.start with
    | .anywhere => true
    | .startOffset => position == startOffset
    | .lineStart => position == startOffset || rules.newlineEndsAt subject position)
  && match plan.firstBytes with
    | none => true
    | some bytes => (subject[position]?).any bytes.contains

end Plan

end PerlRegex
