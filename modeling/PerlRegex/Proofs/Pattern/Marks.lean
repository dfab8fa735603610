import PerlRegex.Pattern
import PerlRegex.Proofs.Pattern.Pieces

/-! What a pattern says about its groups: which ones it opens, under which names, and where it
refers to them. The marks are what a reading comes across, piece by piece, without a tree. While the
tree grows, and is taken apart and put together again, it keeps them in their order. -/

/-! ## Trees -/

namespace PerlRegex.Node

/-- What the characters, the groups and the references of a tree give, in the order of the
pattern. -/
def gather (literal number : Nat → List α) (reference : Reference → List α) :
    Node Reference → List α
  | .group body | .repetition body _ _ _ | .look _ _ body | .atomic body =>
      body.gather literal number reference
  | .capture index body => number index ++ body.gather literal number reference
  | .sequence first second | .alternation first second =>
      first.gather literal number reference ++ second.gather literal number reference
  | .backreference target _ => reference target
  | .literal character _ => literal character
  | .empty | .anyCharacter | .notNewline | .lineBreak | .charSet _ | .assertion _ => []

/-- The numbers of the groups of a tree, in the order of their opening parentheses. -/
def captureNumbers (node : Node Reference) : List Nat :=
  node.gather (fun _ => []) ([·]) fun _ => []

def literals (node : Node Reference) : List Nat := node.gather ([·]) (fun _ => []) fun _ => []

theorem references_eq_gather (node : Node Reference) :
    node.references = node.gather (fun _ => []) (fun _ => []) ([·]) := by
  induction node with
  | group body induction => exact induction
  | repetition body least greatest greedy induction => exact induction
  | look direction negated body induction => exact induction
  | atomic body induction => exact induction
  | capture index body induction => exact induction
  | sequence first second firstInduction secondInduction =>
      rw [references, gather, firstInduction, secondInduction]
  | alternation first second firstInduction secondInduction =>
      rw [references, gather, firstInduction, secondInduction]
  | _ => rfl

theorem gather_mapReferences (literal number : Nat → List α) (reference : Other → List α)
    (transform : Reference → Other) (node : Node Reference) :
    (node.mapReferences transform).gather literal number reference =
      node.gather literal number fun target => reference (transform target) := by
  induction node with
  | group body induction => exact induction
  | repetition body least greatest greedy induction => exact induction
  | look direction negated body induction => exact induction
  | atomic body induction => exact induction
  | capture index body induction => rw [mapReferences, gather, gather, induction]
  | sequence first second firstInduction secondInduction =>
      rw [mapReferences, gather, gather, firstInduction, secondInduction]
  | alternation first second firstInduction secondInduction =>
      rw [mapReferences, gather, gather, firstInduction, secondInduction]
  | _ => rfl

theorem captureNumbers_mapReferences (transform : Reference → Other) (node : Node Reference) :
    (node.mapReferences transform).captureNumbers = node.captureNumbers :=
  gather_mapReferences _ _ _ transform node

theorem literals_mapReferences (transform : Reference → Other) (node : Node Reference) :
    (node.mapReferences transform).literals = node.literals :=
  gather_mapReferences _ _ _ transform node

theorem references_mapReferences (transform : Reference → Other) (node : Node Reference) :
    (node.mapReferences transform).references = node.references.map transform := by
  induction node with
  | group body induction => exact induction
  | repetition body least greatest greedy induction => exact induction
  | look direction negated body induction => exact induction
  | atomic body induction => exact induction
  | capture index body induction => exact induction
  | sequence first second firstInduction secondInduction =>
      rw [mapReferences, references, references, List.map_append, firstInduction, secondInduction]
  | alternation first second firstInduction secondInduction =>
      rw [mapReferences, references, references, List.map_append, firstInduction, secondInduction]
  | _ => rfl

section Gathering

variable (literal number : Nat → List α) (reference : Reference → List α)

/-! Putting trees together and taking their alternatives apart changes nothing. -/

theorem gather_ofSequence (nodes : List (Node Reference)) :
    (ofSequence nodes).gather literal number reference =
      nodes.flatMap (·.gather literal number reference) := by
  induction nodes with
  | nil => rfl
  | cons node nodes induction =>
      cases nodes with
      | nil => simp [ofSequence]
      | cons second nodes => rw [ofSequence, gather, induction, List.flatMap_cons] <;> simp

theorem gather_ofAlternatives (nodes : List (Node Reference)) :
    (ofAlternatives nodes).gather literal number reference =
      nodes.flatMap (·.gather literal number reference) := by
  induction nodes with
  | nil => rfl
  | cons node nodes induction =>
      cases nodes with
      | nil => simp [ofAlternatives]
      | cons second nodes => rw [ofAlternatives, gather, induction, List.flatMap_cons] <;> simp

theorem gather_alternatives (node : Node Reference) :
    node.alternatives.flatMap (·.gather literal number reference) =
      node.gather literal number reference := by
  induction node with
  | alternation first second _ induction =>
      rw [alternatives, List.flatMap_cons, induction, gather]
  | _ => exact List.flatMap_singleton ..

theorem gather_topAlternatives (node : Node Reference) :
    node.topAlternatives.flatMap (·.gather literal number reference) =
      node.gather literal number reference := by
  induction node with
  | group body induction => exact induction
  | _ => exact gather_alternatives literal number reference _

end Gathering

end PerlRegex.Node

namespace PerlRegex.Pattern

/-! ## States -/

def GroupForm.gather (number : Nat → List α) : GroupForm → List α
  | .capture index => number index
  | _ => []

section Gathering

variable (literal number : Nat → List α) (reference : Reference → List α)

/-- What a level gives: finished alternatives and the items behind them, each latest first. -/
def gatherLevel (branches items : List Tree) : List α :=
  branches.reverse.flatMap (·.gather literal number reference)
    ++ items.reverse.flatMap (·.gather literal number reference)

/-- What the levels around an open group give, and its own number. -/
def OpenGroup.gather (group : OpenGroup) : List α :=
  gatherLevel literal number reference group.outerBranches group.outerItems
    ++ group.form.gather number

/-- What all that has been read so far gives, from the outermost level to the innermost. -/
def State.gather (state : State) : List α :=
  state.groups.reverse.flatMap (·.gather literal number reference)
    ++ gatherLevel literal number reference state.branches state.items

theorem gatherLevel_cons (branches items : List Tree) (item : Tree) :
    gatherLevel literal number reference branches (item :: items) =
      gatherLevel literal number reference branches items
        ++ item.gather literal number reference := by
  simp [gatherLevel]

namespace State

theorem gather_currentLevel (state : State) :
    state.currentLevel.gather literal number reference =
      gatherLevel literal number reference state.branches state.items := by
  simp [currentLevel, currentBranch, Node.gather_ofAlternatives, Node.gather_ofSequence,
    gatherLevel]

theorem gather_addItem (state : State) (item : Tree) :
    (state.addItem item).gather literal number reference =
      state.gather literal number reference ++ item.gather literal number reference := by
  simp [gather, addItem, gatherLevel_cons]

theorem gather_addCharacters (state : State) (characters : List Nat) :
    (state.addCharacters characters).gather literal number reference =
      state.gather literal number reference ++ characters.flatMap literal := by
  simp [gather, addCharacters, gatherLevel, List.flatMap_map, State.literal, Node.gather]

theorem gather_repeatLatest (state : State) (bounds : RepeatBounds) (manner : RepeatManner) :
    (state.repeatLatest bounds manner).gather literal number reference =
      state.gather literal number reference := by
  unfold repeatLatest
  split
  · rfl
  · rename_i item items listed
    simp only [gather, listed, gatherLevel_cons]
    split <;> rfl

theorem gather_nextBranch (state : State) :
    state.nextBranch.gather literal number reference = state.gather literal number reference := by
  simp [gather, nextBranch, gatherLevel, currentBranch, Node.gather_ofSequence]

theorem gather_openGroup {state next : State} {form : GroupForm} {flags : Flags} {start : Nat}
    (opened : state.openGroup form flags start = .ok next) :
    next.gather literal number reference =
      state.gather literal number reference ++ form.gather number := by
  unfold openGroup at opened
  split at opened
  · exact absurd opened refuse_ne_ok
  · injection opened with same
    rw [← same]
    simp [gather, OpenGroup.gather, gatherLevel]

theorem counts_of_openGroup {state next : State} {form : GroupForm} {flags : Flags} {start : Nat}
    (opened : state.openGroup form flags start = .ok next) :
    next.names = state.names ∧ next.captures = state.captures := by
  unfold openGroup at opened
  split at opened
  · exact absurd opened refuse_ne_ok
  · injection opened with same
    exact same ▸ ⟨rfl, rfl⟩

theorem gather_lookbehind {negated : Bool} {body tree : Tree} {start : Nat}
    (closed : lookbehind negated body start = .ok tree) :
    tree.gather literal number reference = body.gather literal number reference := by
  unfold lookbehind at closed
  rcases Reading.bind_eq_ok.mp closed with ⟨looks, read, closed⟩
  have kept : looks.flatMap (·.gather literal number reference) =
      body.gather literal number reference := by
    rw [← Node.gather_topAlternatives]
    refine Reading.flatMap_of_mapM (fun branch look looked => ?_) read
    split at looked
    · injection looked with same
      exact same ▸ rfl
    · exact absurd looked refuse_ne_ok
  split at closed
  · rw [← Reading.pure_eq_ok.mp closed, ← kept]
    exact (List.flatMap_singleton ..).symm
  · rw [← Reading.pure_eq_ok.mp closed, ← kept]
    split
    · exact Node.gather_ofSequence literal number reference looks
    · exact Node.gather_ofAlternatives literal number reference looks

theorem gather_closedForm {form : GroupForm} {body tree : Tree} {start : Nat}
    (closed : closedForm form body start = .ok tree) :
    tree.gather literal number reference =
      form.gather number ++ body.gather literal number reference := by
  cases form with
  | lookbehind negated => exact gather_lookbehind literal number reference closed
  | _ =>
      injection closed with same
      rw [← same]
      rfl

theorem counts_of_closeGroup {state next : State} {offset : Nat}
    (closed : state.closeGroup offset = .ok next) :
    next.names = state.names ∧ next.captures = state.captures := by
  unfold closeGroup at closed
  split at closed
  · exact absurd closed refuse_ne_ok
  · rcases Reading.bind_eq_ok.mp closed with ⟨item, _, closed⟩
    rw [← Reading.pure_eq_ok.mp closed]
    exact ⟨rfl, rfl⟩

theorem gather_closeGroup {state next : State} {offset : Nat}
    (closed : state.closeGroup offset = .ok next) :
    next.gather literal number reference = state.gather literal number reference := by
  unfold closeGroup at closed
  split at closed
  · exact absurd closed refuse_ne_ok
  · rename_i group groups listed
    rcases Reading.bind_eq_ok.mp closed with ⟨item, closedItem, closed⟩
    rw [← Reading.pure_eq_ok.mp closed]
    have itemGives := gather_closedForm literal number reference closedItem
    rw [gather_currentLevel] at itemGives
    simp [gather, listed, OpenGroup.gather, gatherLevel_cons, itemGives]

theorem gather_of_finish {state : State} {tree : Tree} (finished : state.finish = .ok tree) :
    tree.gather literal number reference = state.gather literal number reference := by
  unfold finish at finished
  split at finished
  · rename_i closed
    injection finished with same
    rw [← same, gather_currentLevel, gather, closed]
    rfl
  · exact absurd finished refuse_ne_ok

end State

end Gathering

/-! ## Marks -/

/-- A mark that a pattern makes: a group that it opens, with the name that it gives it, or a
reference. -/
inductive Mark where
  | group (number : Nat) (name : Option String)
  | reference (reference : Reference)
  deriving DecidableEq, Repr

namespace Mark

def number? : Mark → Option Nat
  | .group number _ => some number
  | .reference _ => none

def reference? : Mark → Option Reference
  | .group _ _ => none
  | .reference target => some target

/-- What the mark adds to the table of names. -/
def entry? : Mark → Option (String × Nat)
  | .group number name => name.map fun name => (name, number)
  | .reference _ => none

def gather (number : Nat → List α) (reference : Reference → List α) : Mark → List α
  | .group index _ => number index
  | .reference target => reference target

end Mark

/-- The marks of an opening whose parenthesis is at `start`. -/
def openingMarks (captures : Nat) (opening : Opening) (start : Nat) : List Mark :=
  match opening with
  | .capture => [.group (captures + 1) none]
  | .named name => [.group (captures + 1) (some name)]
  | .reference name => [.reference (.name name start)]
  | _ => []

def escapeMarks : Escape → List Mark
  | .reference reference => [.reference reference]
  | _ => []

/-- The marks of the piece whose first byte is `byte`, at `offset`. -/
def pieceMarks (settings : Settings) (state : State) (byte : UInt8) (rest : List UInt8)
    (offset : Nat) : List Mark :=
  match blankLength? state byte rest with
  | some _ => []
  | none =>
      match Char.ofUInt8 byte with
      | '(' =>
          match readOpening settings state.flags rest offset with
          | .ok (opening, _) => openingMarks state.captures opening offset
          | .error _ => []
      | '\\' =>
          match readEscape settings state.captures rest offset with
          | .ok (escape, _) => escapeMarks escape
          | .error _ => []
      | _ => []

/-- The marks of all pieces to the end of the pattern. -/
def marksFrom (settings : Settings) (state : State) (text : List UInt8) (offset : Nat) :
    List Mark :=
  match text with
  | [] => []
  | byte :: rest =>
      match readPiece settings state byte rest offset with
      | .error _ => []
      | .ok (next, following) =>
          pieceMarks settings state byte rest offset
            ++ marksFrom settings next (rest.drop following) (offset + 1 + following)
termination_by text.length
decreasing_by simp only [List.length_drop, List.length_cons]; omega

/-! ## Reading -/

/-- What a state holds of groups and references goes over into the next one, and these marks are
added. -/
structure Writes (marks : List Mark) (state next : State) : Prop where
  gathers : ∀ (α : Type) (number : Nat → List α) (reference : Reference → List α),
    next.gather (fun _ => []) number reference =
      state.gather (fun _ => []) number reference ++ marks.flatMap (·.gather number reference)
  names : next.names = state.names ++ marks.filterMap Mark.entry?
  captures : next.captures = state.captures + (marks.filterMap Mark.number?).length
  numbers : marks.filterMap Mark.number? =
    List.range' (state.captures + 1) (marks.filterMap Mark.number?).length

namespace Writes

variable {marks later : List Mark} {state middle next : State}

theorem nothing
    (gathers : ∀ (α : Type) (number : Nat → List α) (reference : Reference → List α),
      next.gather (fun _ => []) number reference = state.gather (fun _ => []) number reference)
    (names : next.names = state.names) (captures : next.captures = state.captures) :
    Writes [] state next where
  gathers := fun α number reference => by
    rw [gathers]
    exact (List.append_nil _).symm
  names := names.trans (List.append_nil _).symm
  captures := captures
  numbers := rfl

theorem append (first : Writes marks state middle) (second : Writes later middle next) :
    Writes (marks ++ later) state next where
  gathers := fun α number reference => by
    rw [second.gathers, first.gathers, List.flatMap_append, List.append_assoc]
  names := by rw [second.names, first.names, List.filterMap_append, List.append_assoc]
  captures := by
    rw [second.captures, first.captures, List.filterMap_append, List.length_append, Nat.add_assoc]
  numbers := by
    rw [List.filterMap_append, List.length_append, ← List.range'_append_1, ← first.numbers]
    have numbers := second.numbers
    rw [first.captures, Nat.add_right_comm] at numbers
    rw [← numbers]

theorem reference (target : Reference) (caseless : Bool) :
    Writes [.reference target] state (state.addItem (.backreference target caseless)) where
  gathers := fun α number reference => by
    rw [State.gather_addItem]
    simp [Mark.gather, Node.gather]
  names := (List.append_nil _).symm
  captures := rfl
  numbers := rfl

theorem item {item : Tree}
    (quiet : ∀ (α : Type) (number : Nat → List α) (reference : Reference → List α),
      item.gather (fun _ => []) number reference = []) : Writes [] state (state.addItem item) :=
  nothing (fun α number reference => by rw [State.gather_addItem, quiet, List.append_nil]) rfl rfl

theorem characters (characters : List Nat) : Writes [] state (state.addCharacters characters) :=
  nothing (fun _ _ _ => by simp [State.gather_addCharacters]) rfl rfl

theorem escape (escape : Escape) : Writes (escapeMarks escape) state (state.addEscape escape) := by
  cases escape with
  | characters characters => exact .characters characters
  | reference target => exact .reference target _
  | _ => exact .item fun _ _ _ => rfl

theorem opening {opening : Opening} {start stop : Nat}
    (applied : state.applyOpening opening start stop = .ok next) :
    Writes (openingMarks state.captures opening start) state next := by
  have unnumbered : ∀ {form : GroupForm} {flags : Flags},
      (∀ (α : Type) (number : Nat → List α), form.gather number = []) →
      state.openGroup form flags start = .ok next → Writes [] state next := by
    intro form flags quiet opened
    have counts := State.counts_of_openGroup opened
    refine .nothing (fun α number reference => ?_) counts.1 counts.2
    rw [State.gather_openGroup _ number reference opened, quiet, List.append_nil]
  have numbered : ∀ (name : Option String) (names : List (String × Nat)),
      names = state.names ++ [Mark.group (state.captures + 1) name].filterMap Mark.entry? →
      ({ state with captures := state.captures + 1, names := names } : State).openGroup
        (.capture (state.captures + 1)) state.flags start = .ok next →
      Writes [.group (state.captures + 1) name] state next := by
    intro name names names_eq opened
    have counts := State.counts_of_openGroup opened
    constructor
    case gathers =>
      intro α number reference
      rw [State.gather_openGroup _ number reference opened]
      simp [Mark.gather, GroupForm.gather, State.gather]
    case names => exact counts.1.trans names_eq
    case captures => exact counts.2
    case numbers => rfl
  cases opening with
  | comment | setFlags =>
      injection applied with same
      exact .nothing (fun _ _ _ => same ▸ rfl) (same ▸ rfl) (same ▸ rfl)
  | reference name =>
      injection applied with same
      exact same ▸ .reference _ _
  | plain | atomic | lookahead | lookbehind => exact unnumbered (fun _ _ => rfl) applied
  | capture => exact numbered none state.names (List.append_nil _).symm applied
  | named name =>
      unfold State.applyOpening at applied
      dsimp only at applied
      split at applied
      · exact absurd applied refuse_ne_ok
      · exact numbered (some name) _ rfl applied

end Writes

section Reading

variable {settings : Settings} {state next : State} {byte : UInt8} {rest text : List UInt8}
  {offset used : Nat}

theorem writes_of_plainly (plainly : state.Plainly offset next) : Writes [] state next := by
  cases plainly with
  | branch => exact .nothing (fun _ _ _ => State.gather_nextBranch _ _ _ state) rfl rfl
  | close closing =>
      have counts := State.counts_of_closeGroup closing
      exact .nothing (fun _ _ _ => State.gather_closeGroup _ _ _ closing) counts.1 counts.2
  | repetition bounds manner =>
      refine .nothing (fun _ _ _ => State.gather_repeatLatest _ _ _ state _ _) ?_ ?_
      all_goals
        unfold State.repeatLatest
        split <;> rfl
  | set set => exact .item fun _ _ _ => rfl
  | dot => exact .item fun _ _ _ => by split <;> rfl
  | assertion condition => exact .item fun _ _ _ => rfl
  | character character => exact .characters [character]

theorem writes_of_readPiece (read : readPiece settings state byte rest offset = .ok (next, used)) :
    Writes (pieceMarks settings state byte rest offset) state next := by
  unfold pieceMarks
  cases piece_of_readPiece read with
  | blank blank =>
      rw [blank]
      exact .nothing (fun _ _ _ => rfl) rfl rfl
  | opening visible sign opened applied =>
      rw [visible, sign, opened]
      exact .opening applied
  | escape visible sign escaped =>
      rw [visible, sign, escaped]
      exact .escape _
  | plain visible notOpening notEscape plainly =>
      rw [visible]
      dsimp only
      split
      · contradiction
      · contradiction
      · exact writes_of_plainly plainly

/-- Reading to the end adds all marks, one piece after the other. -/
theorem writes_of_readPieces (read : readPieces settings state text offset = .ok next) :
    Writes (marksFrom settings state text offset) state next := by
  fun_induction readPieces settings state text offset with
  | case1 state offset =>
      injection read with same
      rw [marksFrom, same]
      exact .nothing (fun _ _ _ => rfl) rfl rfl
  | case2 => cases read
  | case3 state offset byte rest following used piece induction =>
      rw [marksFrom, piece]
      exact (writes_of_readPiece piece).append (induction read)

end Reading

end PerlRegex.Pattern
