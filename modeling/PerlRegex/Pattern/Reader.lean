import PerlRegex.Pattern.Brackets
import PerlRegex.Pattern.Group
import PerlRegex.Pattern.Quantifier
namespace PerlRegex.Pattern

/-! The tree of a pattern grows while its pieces are read from left to right. What has been read is
kept level by level: the alternatives and the items of the innermost open group, and below them,
with every open group, those of the level around it. -/

abbrev Tree := Node Reference

def deepestNesting : Nat := 250

inductive GroupForm where
  | plain
  | capture (number : Nat)
  | atomic
  | lookahead (negated : Bool)
  | lookbehind (negated : Bool)
  deriving DecidableEq, Repr

/-- A group that has been opened: what it will be, the offset of its parenthesis, and what to go
back to when it is closed, the flags and the level around it. -/
structure OpenGroup where
  form : GroupForm
  start : Nat
  outerFlags : Flags
  outerBranches : List Tree
  outerItems : List Tree

structure State where
  flags : Flags
  captures : Nat
  /-- The names of groups with their numbers, in the order of the pattern. -/
  names : List (String × Nat)
  /-- Open groups, innermost first. -/
  groups : List OpenGroup
  /-- Finished alternatives of the innermost level, latest first. -/
  branches : List Tree
  /-- Items of the alternative being read, latest first. -/
  items : List Tree
  /-- Whether a quantifier may follow, which then belongs to the latest item. -/
  quantifiable : Bool

namespace State

def start (flags : Flags) : State where
  flags := flags
  captures := 0
  names := []
  groups := []
  branches := []
  items := []
  quantifiable := false

/-! ## Items -/

def addItem (state : State) (item : Tree) : State :=
  { state with items := item :: state.items, quantifiable := true }

def literal (state : State) (character : Nat) : Tree :=
  .literal character state.flags.caseless

/-- Add characters as items of their own. A quantifier behind them belongs to the last one. -/
def addCharacters (state : State) (characters : List Nat) : State :=
  { state with
    items := (characters.map state.literal).reverse ++ state.items
    quantifiable := !characters.isEmpty }

def addEscape (state : State) : Escape → State
  | .characters characters => state.addCharacters characters
  | .set item => state.addItem (.charSet (.single item))
  | .notNewline => state.addItem .notNewline
  | .lineBreak => state.addItem .lineBreak
  | .assertion condition => state.addItem (.assertion condition)
  | .reference reference => state.addItem (.backreference reference state.flags.caseless)

def repeatLatest (state : State) (bounds : RepeatBounds) (manner : RepeatManner) : State :=
  match state.items with
  | [] => state
  | item :: items =>
      let repetition := Node.repetition item bounds.least bounds.greatest manner.greedy
      { state with
        items := (if manner.possessive then .atomic repetition else repetition) :: items
        quantifiable := false }

/-! ## Alternatives and groups -/

def currentBranch (state : State) : Tree := .ofSequence state.items.reverse

def currentLevel (state : State) : Tree :=
  .ofAlternatives (state.currentBranch :: state.branches).reverse

def nextBranch (state : State) : State :=
  { state with
    branches := state.currentBranch :: state.branches
    items := []
    quantifiable := false }

def openGroup (state : State) (form : GroupForm) (flags : Flags) (start : Nat) :
    Reading State :=
  if deepestNesting ≤ state.groups.length then refuse .nestingTooDeep start
  else
    .ok { state with
      flags := flags
      groups := ⟨form, start, state.flags, state.branches, state.items⟩ :: state.groups
      branches := []
      items := []
      quantifiable := false }

/-- A lookbehind is a lookbehind for each of its alternatives, over the width of that alternative.
One of them has to hold, or none if it is negated. -/
def lookbehind (negated : Bool) (body : Tree) (start : Nat) : Reading Tree := do
  let looks ← body.topAlternatives.mapM fun branch =>
    match branch.fixedWidth? with
    | some width => .ok (Node.look (.behind width) negated branch)
    | none => refuse .lookbehindNotFixedLength start
  match looks with
  | [look] => return look
  | looks =>
      return if negated then .ofSequence looks else .atomic (.ofAlternatives looks)

def closedForm (form : GroupForm) (body : Tree) (start : Nat) : Reading Tree :=
  match form with
  | .plain => .ok (.group body)
  | .capture number => .ok (.capture number body)
  | .atomic => .ok (.atomic body)
  | .lookahead negated => .ok (.look .ahead negated body)
  | .lookbehind negated => lookbehind negated body start

def closeGroup (state : State) (offset : Nat) : Reading State :=
  match state.groups with
  | [] => refuse .unmatchedParenthesis offset
  | group :: groups => do
      let item ← closedForm group.form state.currentLevel group.start
      return { state with
        flags := group.outerFlags
        groups := groups
        branches := group.outerBranches
        items := item :: group.outerItems
        quantifiable := true }

def applyOpening (state : State) (opening : Opening) (start stop : Nat) : Reading State :=
  match opening with
  | .comment => .ok { state with quantifiable := false }
  | .setFlags flags => .ok { state with flags := flags, quantifiable := false }
  | .reference name =>
      .ok (state.addItem (.backreference (.name name start) state.flags.caseless))
  | .plain flags => state.openGroup .plain flags start
  | .atomic => state.openGroup .atomic state.flags start
  | .lookahead negated => state.openGroup (.lookahead negated) state.flags start
  | .lookbehind negated => state.openGroup (.lookbehind negated) state.flags start
  | .capture =>
      let number := state.captures + 1
      { state with captures := number }.openGroup (.capture number) state.flags start
  | .named name =>
      let number := state.captures + 1
      if !state.flags.duplicateNames && state.names.any fun (taken, _) => taken == name then
        refuse .duplicateGroupName stop
      else
        { state with captures := number, names := state.names ++ [(name, number)] }.openGroup
          (.capture number) state.flags start

def finish (state : State) : Reading Tree :=
  match state.groups with
  | [] => .ok state.currentLevel
  | group :: _ => refuse .unterminatedGroup (group.start + 1)

end State

/-! ## Pieces -/

/-- Read a quantifier whose bounds are known: it must have something to repeat, and the sign for its
manner may follow. The lengths do not count the first character of the quantifier. -/
def readRepeat (state : State) (bounds : Reading RepeatBounds) (boundsLength : Nat)
    (rest : List UInt8) (offset : Nat) : Reading (State × Nat) :=
  if !state.quantifiable then refuse .nothingToRepeat offset
  else do
    let bounds ← bounds
    let (manner, mannerLength) := readManner state.flags.ungreedy (rest.drop boundsLength)
    return (state.repeatLatest bounds manner, boundsLength + mannerLength)

def commentLength (text : List UInt8) : Nat :=
  let comment := text.takeWhile (· != 0x0A)
  if (text.drop comment.length).isEmpty then comment.length else comment.length + 1

/-- Blank characters and comments between pieces, where the flags allow them. The length does not
count the first character. -/
def blankLength? (state : State) (byte : UInt8) (rest : List UInt8) : Option Nat :=
  if !state.flags.extended then none
  else if Ascii.isSpace byte.toNat then some 0
  else if Char.ofUInt8 byte == '#' then some (commentLength rest)
  else none

/-- Read the piece whose first byte is `byte`, at `offset`. The length does not count that byte. -/
def readPiece (settings : Settings) (state : State) (byte : UInt8) (rest : List UInt8)
    (offset : Nat) : Reading (State × Nat) :=
  match blankLength? state byte rest with
  | some length => .ok (state, length)
  | none =>
      let plainCharacter : Reading (State × Nat) :=
        let (character, following) := readCharacter settings byte rest
        .ok (state.addCharacters [character], following)
      match Char.ofUInt8 byte with
      | '|' => .ok (state.nextBranch, 0)
      | ')' => do return (← state.closeGroup offset, 0)
      | '*' => readRepeat state (.ok ⟨0, none⟩) 0 rest offset
      | '+' => readRepeat state (.ok ⟨1, none⟩) 0 rest offset
      | '?' => readRepeat state (.ok ⟨0, some 1⟩) 0 rest offset
      | '\x7b' =>
          match Braces.scan? rest with
          | some braces =>
              readRepeat state (braces.bounds offset) (braces.length + 1) rest offset
          | none => plainCharacter
      | '(' => do
          let (opening, used) ← readOpening settings state.flags rest offset
          return (← state.applyOpening opening offset (offset + 1 + used), used)
      | '[' => do
          let (set, used) ← readBrackets settings state.flags.caseless rest (offset + 1)
          return (state.addItem (.charSet set), used)
      | '\\' => do
          let (escape, used) ← readEscape settings state.captures rest offset
          return (state.addEscape escape, used)
      | '.' =>
          .ok (state.addItem (if state.flags.dotAll then .anyCharacter else .notNewline), 0)
      | '^' => .ok (state.addItem (.assertion (.lineStart state.flags.multiline)), 0)
      | '$' =>
          .ok (state.addItem
            (.assertion (.lineEnd state.flags.multiline settings.dollarEndOnly)), 0)
      | _ => plainCharacter

def readPieces (settings : Settings) (state : State) (text : List UInt8) (offset : Nat) :
    Reading State :=
  match text with
  | [] => .ok state
  | byte :: rest =>
      match readPiece settings state byte rest offset with
      | .error failure => .error failure
      | .ok (next, following) =>
          readPieces settings next (rest.drop following) (offset + 1 + following)
termination_by text.length
decreasing_by simp only [List.length_drop, List.length_cons]; omega

end PerlRegex.Pattern
