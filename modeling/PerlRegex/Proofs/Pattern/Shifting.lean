import PerlRegex.Proofs.Pattern.Marks
import PerlRegex.Proofs.Pattern.Relabelling
namespace PerlRegex.Pattern

/-! What a text is read as does not depend on where it stands in a pattern. Further on in a pattern
it is read as the same, and the offsets in what is read, or in why reading stops, are greater by the
distance. -/

/-! ## Offsets further on -/

def ReadFailure.shift (distance : Nat) : ReadFailure → ReadFailure
  | .fault cause offset => .fault cause (distance + offset)
  | .overflow => .overflow

def Reference.shift (distance : Nat) : Reference → Reference
  | .number group offset => .number group (distance + offset)
  | .name target offset => .name target (distance + offset)

def Escape.shift (distance : Nat) : Escape → Escape
  | .reference target => .reference (target.shift distance)
  | escape => escape

namespace Reading

/-- What a reading comes to further on, where `change` says what that means for what is read. -/
def shift (distance : Nat) (change : α → β) : Reading α → Reading β
  | .ok value => .ok (change value)
  | .error failure => .error (failure.shift distance)

variable {distance : Nat}

theorem shift_ok (change : α → β) (value : α) :
    shift distance change (.ok value) = .ok (change value) := rfl

theorem shift_error (change : α → β) (failure : ReadFailure) :
    shift distance change (.error failure) = .error (failure.shift distance) := rfl

/-- The second step goes on from what the first step reads further on. -/
theorem shift_bind {reading : Reading α} {next : α → Reading β} {change : α → γ}
    {changeNext : β → δ} {shiftedNext : γ → Reading δ}
    (each : ∀ value, shiftedNext (change value) = (next value).shift distance changeNext) :
    (reading.shift distance change >>= shiftedNext) =
      (reading >>= next).shift distance changeNext := by
  cases reading with
  | error failure => rfl
  | ok value => exact each value

theorem shift_mapM {read : α → Reading β} {shiftedRead : γ → Reading δ} {change : α → γ}
    (changeRead : β → δ)
    (each : ∀ element, shiftedRead (change element) = (read element).shift distance changeRead)
    (list : List α) :
    (list.map change).mapM shiftedRead = (list.mapM read).shift distance (·.map changeRead) := by
  induction list with
  | nil => rfl
  | cons element list induction =>
      rw [List.map_cons, List.mapM_cons, List.mapM_cons, each, induction]
      refine shift_bind fun first => ?_
      exact shift_bind fun rest => rfl

end Reading

section Readers

variable (distance : Nat) (settings : Settings)

/-! ## References -/

theorem readName_shift (terminator : Char) (text : List UInt8) (offset : Nat) :
    readName terminator text (distance + offset) =
      (readName terminator text offset).shift distance id := by
  simp only [readName, Nat.add_assoc]
  repeat' split
  all_goals rfl

theorem referredGroup_shift (sign : Option Char) (number captures start : Nat) :
    referredGroup sign number captures (distance + start) =
      (referredGroup sign number captures start).shift distance id := by
  unfold referredGroup
  repeat' split
  all_goals rfl

theorem interpretReference_shift (content : List UInt8) (braced : Bool)
    (captures start stop : Nat) :
    interpretReference content braced captures (distance + start) (distance + stop) =
      (interpretReference content braced captures start stop).shift distance
        (Reference.shift distance) := by
  unfold interpretReference
  extract_lets sign body
  rw [referredGroup_shift]
  split
  · exact Reading.shift_bind fun group => rfl
  · split <;> rfl

theorem readRelativeReference_shift (text : List UInt8) (captures start offset : Nat) :
    readRelativeReference text captures (distance + start) (distance + offset) =
      (readRelativeReference text captures start offset).shift distance
        (Prod.map (Reference.shift distance) id) := by
  simp only [readRelativeReference, Nat.add_assoc, interpretReference_shift]
  split
  · split
    · rfl
    · exact Reading.shift_bind fun reference => rfl
  · split
    · rfl
    · exact Reading.shift_bind fun reference => rfl

theorem readNamedReference_shift (text : List UInt8) (start offset : Nat) :
    readNamedReference text (distance + start) (distance + offset) =
      (readNamedReference text start offset).shift distance
        (Prod.map (Reference.shift distance) id) := by
  simp only [readNamedReference, Nat.add_assoc, readName_shift]
  repeat' split
  iterate 3 exact Reading.shift_bind fun name => rfl
  rfl

/-! ## Escapes -/

theorem checkCharacter_shift (value offset : Nat) :
    checkCharacter settings value (distance + offset) =
      (checkCharacter settings value offset).shift distance id := by
  unfold checkCharacter
  extract_lets greatest
  split
  · rfl
  · split <;> rfl

theorem readBracedNumber_shift (radix : Nat) (text : List UInt8) (offset : Nat) :
    readBracedNumber radix text (distance + offset) =
      (readBracedNumber radix text offset).shift distance id := by
  simp only [readBracedNumber, Nat.add_assoc]
  repeat' split
  all_goals rfl

theorem readCharacterEscape_shift (byte : UInt8) (rest : List UInt8) (offset : Nat) :
    readCharacterEscape settings byte rest (distance + offset) =
      (readCharacterEscape settings byte rest offset).shift distance id := by
  have braced : ∀ radix,
      (do
        let number ← readBracedNumber radix rest (distance + offset + 1)
        return (← checkCharacter settings number.1 (distance + offset), number.2) :
          Reading (Nat × Nat)) =
      (do
        let number ← readBracedNumber radix rest (offset + 1)
        return (← checkCharacter settings number.1 offset, number.2)).shift distance id := by
    intro radix
    rw [Nat.add_assoc, readBracedNumber_shift]
    refine Reading.shift_bind fun number => ?_
    rw [checkCharacter_shift]
    exact Reading.shift_bind fun value => rfl
  unfold readCharacterEscape
  split
  iterate 7 rfl
  · exact braced 8
  · split
    · exact braced 16
    · rfl
  · split
    · rfl
    · split <;> rfl
  · split
    · split <;> rfl
    · rfl

theorem readProperty_shift (negated : Bool) (text : List UInt8) (offset : Nat) :
    readProperty negated text (distance + offset) =
      (readProperty negated text offset).shift distance id := by
  simp only [readProperty, Nat.add_assoc]
  repeat' split
  all_goals rfl

theorem readNumericEscape_shift (captures : Nat) (text : List UInt8) (start : Nat) :
    readNumericEscape settings captures text (distance + start) =
      (readNumericEscape settings captures text start).shift distance
        (Prod.map (Escape.shift distance) id) := by
  unfold readNumericEscape
  dsimp only
  split
  · rw [checkCharacter_shift]
    exact Reading.shift_bind fun character => rfl
  · rfl

theorem readEscape_shift (captures : Nat) (text : List UInt8) (start : Nat) :
    readEscape settings captures text (distance + start) =
      (readEscape settings captures text start).shift distance
        (Prod.map (Escape.shift distance) id) := by
  unfold readEscape
  split
  · rfl
  · simp only [Nat.add_assoc]
    split
    iterate 9 rfl
    · split <;> rfl
    · rw [readRelativeReference_shift]
      exact Reading.shift_bind fun reference => rfl
    · rw [readNamedReference_shift]
      exact Reading.shift_bind fun reference => rfl
    iterate 2
      · rw [readProperty_shift]
        exact Reading.shift_bind fun item => rfl
    iterate 7 rfl
    · split
      · rfl
      · split
        · exact readNumericEscape_shift distance settings captures _ start
        · rw [readCharacterEscape_shift]
          exact Reading.shift_bind fun character => rfl

/-! ## Brackets -/

theorem readPosixClass_shift (rest : List UInt8) (offset : Nat) :
    readPosixClass rest (distance + offset) = (readPosixClass rest offset).shift distance id := by
  unfold readPosixClass
  split
  · rfl
  · dsimp only
    repeat' split
    all_goals rfl

theorem readBracketEscape_shift (text : List UInt8) (offset : Nat) :
    readBracketEscape settings text (distance + offset) =
      (readBracketEscape settings text offset).shift distance id := by
  unfold readBracketEscape
  split
  · rfl
  · simp only [Nat.add_assoc, readProperty_shift, readCharacterEscape_shift, checkCharacter_shift]
    split
    iterate 3 rfl
    iterate 2 exact Reading.shift_bind fun item => rfl
    iterate 12 rfl
    · split
      · rfl
      · split
        · exact Reading.shift_bind fun character => rfl
        · exact Reading.shift_bind fun character => rfl

theorem readMember_shift (quoted : Bool) (byte : UInt8) (rest : List UInt8) (offset : Nat) :
    readMember settings quoted byte rest (distance + offset) =
      (readMember settings quoted byte rest offset).shift distance id := by
  simp only [readMember, Nat.add_assoc, readPosixClass_shift, readBracketEscape_shift]
  repeat' split
  all_goals rfl

theorem addRange_shift (state : BracketState) (low : Nat) (upper : BracketMember) (stop : Nat) :
    state.addRange low upper (distance + stop) =
      (state.addRange low upper stop).shift distance id := by
  unfold BracketState.addRange
  dsimp only
  repeat' split
  all_goals rfl

theorem readMembers_shift (state : BracketState) (text : List UInt8) (offset : Nat) :
    readMembers settings state text (distance + offset) =
      (readMembers settings state text offset).shift distance
        (Prod.map id (distance + ·)) := by
  have member := readMember_shift distance settings
  -- Every case of the reading comes to the same case further on.
  fun_induction readMembers settings state text offset with
  | case1 =>
      rw [readMembers]
      rfl
  | case2 state offset byte rest closes =>
      rw [readMembers, if_pos closes]
      rfl
  | case3 state offset byte rest more failure stopped =>
      rw [readMembers, if_neg more, member, stopped]
      rfl
  | case4 state offset byte rest more item following read induction =>
      rw [readMembers, if_neg more, member, read]
      simp only [Nat.add_assoc] at induction ⊢
      exact induction
  | case5 state offset byte rest more on following read induction =>
      rw [readMembers, if_neg more, member, read]
      simp only [Nat.add_assoc] at induction ⊢
      exact induction
  | case6 state offset byte rest more low following read ranges left =>
      rw [readMembers, if_neg more, member, read]
      simp only [Reading.shift_ok, id, if_pos ranges, left, Nat.add_assoc]
      rfl
  | case7 state offset byte rest more low following read ranges upperByte upperRest left
      upperOffset failure stopped =>
      rw [readMembers, if_neg more, member, read]
      simp only [Reading.shift_ok, id, if_pos ranges, left, Nat.add_assoc, member]
      simp only [upperOffset, Nat.add_assoc] at stopped
      rw [stopped]
      rfl
  | case8 state offset byte rest more low following read ranges upperByte upperRest left
      upperOffset upper upperFollowing upperRead stop failure stopped =>
      rw [readMembers, if_neg more, member, read]
      simp only [Reading.shift_ok, id, if_pos ranges, left, Nat.add_assoc, member]
      simp only [upperOffset, stop, Nat.add_assoc] at upperRead stopped
      rw [upperRead]
      simp only [Reading.shift_ok, id, addRange_shift, stopped, Reading.shift_error]
  | case9 state offset byte rest more low following read ranges upperByte upperRest left
      upperOffset upper upperFollowing upperRead stop next added induction =>
      rw [readMembers, if_neg more, member, read]
      simp only [Reading.shift_ok, id, if_pos ranges, left, Nat.add_assoc, member]
      simp only [upperOffset, stop, Nat.add_assoc] at upperRead added induction
      rw [upperRead]
      simp only [Reading.shift_ok, id, addRange_shift, added, stop, upperOffset, Nat.add_assoc]
      exact induction
  | case10 state offset byte rest more low following read single induction =>
      rw [readMembers, if_neg more, member, read]
      simp only [Nat.add_assoc] at induction ⊢
      dsimp only [Reading.shift_ok, id]
      rw [if_neg single]
      exact induction

theorem readBrackets_shift (caseless : Bool) (text : List UInt8) (offset : Nat) :
    readBrackets settings caseless text (distance + offset) =
      (readBrackets settings caseless text offset).shift distance id := by
  unfold readBrackets
  extract_lets negated signLength
  rw [Nat.add_assoc, readMembers_shift]
  refine Reading.shift_bind fun read => ?_
  simp only [Prod.map, Nat.add_sub_add_left]
  rfl

/-! ## Quantifiers -/

theorem bounds_shift (braces : Braces) (offset : Nat) :
    braces.bounds (distance + offset) = (braces.bounds offset).shift distance id := by
  have number : ∀ digits offset, Braces.number digits (distance + offset) =
      (Braces.number digits offset).shift distance id := by
    intro digits offset
    unfold Braces.number
    dsimp only
    split <;> rfl
  simp only [Braces.bounds, Nat.add_assoc, number]
  refine Reading.shift_bind fun least => ?_
  split
  · rfl
  · rfl
  · refine Reading.shift_bind fun greatest => ?_
    dsimp only [id]
    split <;> rfl

/-! ## Openings -/

theorem readFlags_shift (flags : Flags) (on : Bool) (text : List UInt8) (start offset : Nat) :
    readFlags flags on text (distance + start) (distance + offset) =
      (readFlags flags on text start offset).shift distance id := by
  induction text generalizing flags on offset with
  | nil => rfl
  | cons byte rest induction =>
      unfold readFlags
      simp only [Nat.add_assoc, Nat.add_sub_add_left, induction]
      split
      · rfl
      · rfl
      · split
        · rfl
        · split <;> rfl

theorem readSpecialOpening_shift (flags : Flags) (text : List UInt8) (start : Nat) :
    readSpecialOpening flags text (distance + start) =
      (readSpecialOpening flags text start).shift distance id := by
  have named : ∀ terminator (text : List UInt8) signs,
      (do
        let name ← readName terminator text (distance + start + 1 + signs)
        return (Opening.named name.1, signs + name.2) : Reading (Opening × Nat)) =
      (do
        let name ← readName terminator text (start + 1 + signs)
        return (Opening.named name.1, signs + name.2) : Reading (Opening × Nat)).shift
          distance id := by
    intro terminator text signs
    simp only [Nat.add_assoc, readName_shift]
    exact Reading.shift_bind fun name => rfl
  unfold readSpecialOpening
  split
  · rfl
  · dsimp only
    split
    · simp only [Nat.add_assoc]
      split <;> rfl
    iterate 4 rfl
    · split
      · rfl
      · split
        · rfl
        · exact named _ _ _
    · exact named _ _ _
    · split
      · exact named _ _ _
      · split
        · rw [Nat.add_assoc, readName_shift]
          exact Reading.shift_bind fun name => rfl
        · split <;> rfl
    iterate 6 rfl
    · split
      · rfl
      · exact readFlags_shift distance flags true _ start (start + 2)

theorem readOpening_shift (flags : Flags) (text : List UInt8) (start : Nat) :
    readOpening settings flags text (distance + start) =
      (readOpening settings flags text start).shift distance id := by
  simp only [readOpening, readSpecialOpening_shift]
  repeat' split
  all_goals rfl

/-! ## States -/

def shiftTree (tree : Tree) : Tree := tree.mapReferences (Reference.shift distance)

def OpenGroup.shift (group : OpenGroup) : OpenGroup :=
  { group with
    start := distance + group.start
    outerBranches := group.outerBranches.map (shiftTree distance)
    outerItems := group.outerItems.map (shiftTree distance) }

namespace State

def shift (state : State) : State :=
  { state with
    groups := state.groups.map (OpenGroup.shift distance)
    branches := state.branches.map (shiftTree distance)
    items := state.items.map (shiftTree distance) }

variable (state : State)

theorem addItem_shift (item : Tree) :
    (state.shift distance).addItem (shiftTree distance item) =
      (state.addItem item).shift distance := rfl

theorem addCharacters_shift (characters : List Nat) :
    (state.shift distance).addCharacters characters =
      (state.addCharacters characters).shift distance := by
  simp only [addCharacters, shift, List.map_append, List.map_reverse, List.map_map]
  rfl

theorem addEscape_shift (escape : Escape) :
    (state.shift distance).addEscape (escape.shift distance) =
      (state.addEscape escape).shift distance := by
  cases escape with
  | characters characters => exact addCharacters_shift distance state characters
  | _ => rfl

theorem repeatLatest_shift (bounds : RepeatBounds) (manner : RepeatManner) :
    (state.shift distance).repeatLatest bounds manner =
      (state.repeatLatest bounds manner).shift distance := by
  obtain ⟨flags, captures, names, groups, branches, items, quantifiable⟩ := state
  cases items with
  | nil => rfl
  | cons item items =>
      simp only [repeatLatest, shift, List.map_cons]
      split <;> rfl

theorem currentBranch_shift :
    (state.shift distance).currentBranch = shiftTree distance state.currentBranch := by
  rw [currentBranch, currentBranch, shiftTree, Node.mapReferences_ofSequence, List.map_reverse]
  rfl

theorem currentLevel_shift :
    (state.shift distance).currentLevel = shiftTree distance state.currentLevel := by
  rw [currentLevel, currentLevel, shiftTree, Node.mapReferences_ofAlternatives, List.map_reverse,
    List.map_cons, currentBranch_shift]
  rfl

theorem nextBranch_shift :
    (state.shift distance).nextBranch = state.nextBranch.shift distance := by
  rw [nextBranch, currentBranch_shift]
  rfl

theorem openGroup_shift (form : GroupForm) (flags : Flags) (start : Nat) :
    (state.shift distance).openGroup form flags (distance + start) =
      (state.openGroup form flags start).shift distance (shift distance) := by
  have depth : (state.shift distance).groups.length = state.groups.length := List.length_map _
  rw [openGroup, openGroup, depth]
  split <;> rfl

theorem lookbehind_shift (negated : Bool) (body : Tree) (start : Nat) :
    lookbehind negated (shiftTree distance body) (distance + start) =
      (lookbehind negated body start).shift distance (shiftTree distance) := by
  unfold lookbehind
  rw [shiftTree, Node.topAlternatives_mapReferences, Reading.shift_mapM (shiftTree distance)]
  · refine Reading.shift_bind fun looks => ?_
    match looks with
    | [] => cases negated <;> rfl
    | [look] => rfl
    | first :: second :: rest =>
        have sequence := Node.mapReferences_ofSequence (Reference.shift distance)
          (first :: second :: rest)
        have alternatives := Node.mapReferences_ofAlternatives (Reference.shift distance)
          (first :: second :: rest)
        cases negated with
        | true => exact congrArg Except.ok sequence.symm
        | false => exact congrArg (fun tree => Except.ok (Node.atomic tree)) alternatives.symm
  · intro branch
    rw [Node.fixedWidth_mapReferences]
    split <;> rfl

theorem closedForm_shift (form : GroupForm) (body : Tree) (start : Nat) :
    closedForm form (shiftTree distance body) (distance + start) =
      (closedForm form body start).shift distance (shiftTree distance) := by
  cases form with
  | lookbehind negated => exact lookbehind_shift distance negated body start
  | _ => rfl

theorem closeGroup_shift (offset : Nat) :
    (state.shift distance).closeGroup (distance + offset) =
      (state.closeGroup offset).shift distance (shift distance) := by
  obtain ⟨flags, captures, names, groups, branches, items, quantifiable⟩ := state
  cases groups with
  | nil => rfl
  | cons group groups =>
      let state : State :=
        ⟨flags, captures, names, group :: groups, branches, items, quantifiable⟩
      have item := closedForm_shift distance group.form state.currentLevel group.start
      rw [← currentLevel_shift] at item
      exact (congrArg (· >>= _) item).trans (Reading.shift_bind fun item => rfl)

theorem applyOpening_shift (opening : Opening) (start stop : Nat) :
    (state.shift distance).applyOpening opening (distance + start) (distance + stop) =
      (state.applyOpening opening start stop).shift distance (shift distance) := by
  cases opening with
  | comment | setFlags | reference => rfl
  | plain | atomic | lookahead | lookbehind => exact openGroup_shift distance state _ _ _
  | capture =>
      exact openGroup_shift distance { state with captures := state.captures + 1 } _ _ _
  | named name =>
      unfold applyOpening
      dsimp only
      rw [show (state.shift distance).flags = state.flags from rfl,
        show (state.shift distance).names = state.names from rfl]
      split
      · rfl
      · exact openGroup_shift distance
          { state with
            captures := state.captures + 1
            names := state.names ++ [(name, state.captures + 1)] } _ _ _

theorem finish_shift :
    (state.shift distance).finish = state.finish.shift distance (shiftTree distance) := by
  have level := currentLevel_shift distance state
  obtain ⟨flags, captures, names, groups, branches, items, quantifiable⟩ := state
  cases groups with
  | nil => exact congrArg Except.ok level
  | cons group groups => rfl

end State

/-! ## Pieces -/

theorem readRepeat_shift (state : State) (bounds : Reading RepeatBounds) (boundsLength : Nat)
    (rest : List UInt8) (offset : Nat) :
    readRepeat (state.shift distance) (bounds.shift distance id) boundsLength rest
        (distance + offset) =
      (readRepeat state bounds boundsLength rest offset).shift distance
        (Prod.map (State.shift distance) id) := by
  unfold readRepeat
  have same : (state.shift distance).quantifiable = state.quantifiable := rfl
  rw [same]
  split
  · rfl
  · refine Reading.shift_bind fun bounds => ?_
    simp only [State.repeatLatest_shift]
    rfl

theorem readPiece_shift (state : State) (byte : UInt8) (rest : List UInt8) (offset : Nat) :
    readPiece settings (state.shift distance) byte rest (distance + offset) =
      (readPiece settings state byte rest offset).shift distance
        (Prod.map (State.shift distance) id) := by
  have item : ∀ (item : Tree) (used : Nat), shiftTree distance item = item →
      (.ok ((state.shift distance).addItem item, used) : Reading (State × Nat)) =
        Reading.shift distance (Prod.map (State.shift distance) id)
          (.ok (state.addItem item, used)) := by
    intro item used same
    rw [Reading.shift_ok, Prod.map, ← State.addItem_shift, same]
    rfl
  have character : ∀ character used,
      (.ok ((state.shift distance).addCharacters [character], used) : Reading (State × Nat)) =
        Reading.shift distance (Prod.map (State.shift distance) id)
          (.ok (state.addCharacters [character], used)) := by
    intro character used
    rw [State.addCharacters_shift]
    rfl
  have repeated : ∀ bounds boundsLength,
      readRepeat (state.shift distance) (.ok bounds) boundsLength rest (distance + offset) =
        (readRepeat state (.ok bounds) boundsLength rest offset).shift distance
          (Prod.map (State.shift distance) id) :=
    fun bounds boundsLength => readRepeat_shift distance state (.ok bounds) boundsLength rest offset
  have blank : blankLength? (state.shift distance) byte rest = blankLength? state byte rest := rfl
  unfold readPiece
  rw [blank]
  split
  · rfl
  · dsimp only
    split
    · rw [State.nextBranch_shift]
      rfl
    · rw [State.closeGroup_shift]
      exact Reading.shift_bind fun next => rfl
    iterate 3 exact repeated _ _
    · split
      · rw [bounds_shift, readRepeat_shift]
      · exact character _ _
    · have opened := readOpening_shift distance settings state.flags rest offset
      have same : (state.shift distance).flags = state.flags := rfl
      rw [same, opened]
      refine Reading.shift_bind fun opening => ?_
      simp only [id, Nat.add_assoc, State.applyOpening_shift]
      exact Reading.shift_bind fun next => rfl
    · rw [Nat.add_assoc, readBrackets_shift]
      exact Reading.shift_bind fun set => item _ _ rfl
    · have escaped := readEscape_shift distance settings state.captures rest offset
      have same : (state.shift distance).captures = state.captures := rfl
      rw [same, escaped]
      refine Reading.shift_bind fun escape => ?_
      dsimp only [Prod.map]
      rw [State.addEscape_shift]
      rfl
    · exact item _ _ (by split <;> rfl)
    · exact item _ _ rfl
    · exact item _ _ rfl
    · exact character _ _

theorem readPieces_shift (state : State) (text : List UInt8) (offset : Nat) :
    readPieces settings (state.shift distance) text (distance + offset) =
      (readPieces settings state text offset).shift distance (State.shift distance) := by
  fun_induction readPieces settings state text offset with
  | case1 state offset =>
      rw [readPieces]
      rfl
  | case2 state offset byte rest failure stopped =>
      rw [readPieces, readPiece_shift, stopped]
      rfl
  | case3 state offset byte rest next following read induction =>
      rw [readPieces, readPiece_shift, read]
      simp only [Nat.add_assoc] at induction ⊢
      exact induction

/-! ## Resolving references -/

theorem resolve_shift (state : State) (tree : Tree) :
    resolve (state.shift distance) (shiftTree distance tree) =
      (resolve state tree).shift distance id := by
  have number : ∀ reference, missingNumber? state.captures (reference.shift distance) =
      (missingNumber? state.captures reference).map (distance + ·) := by
    rintro (⟨group, offset⟩ | ⟨name, offset⟩)
    · rw [Reference.shift, missingNumber?, missingNumber?]
      split <;> rfl
    · rfl
  have name : ∀ reference, missingName? state.names (reference.shift distance) =
      (missingName? state.names reference).map (distance + ·) := by
    rintro (⟨group, offset⟩ | ⟨name, offset⟩)
    · rfl
    · rw [Reference.shift, missingName?, missingName?]
      split <;> rfl
  have groups : ∀ reference, groupsOf state.names (reference.shift distance) =
      groupsOf state.names reference := by
    rintro (⟨group, offset⟩ | ⟨name, offset⟩) <;> rfl
  have missing : ∀ missing? : Reference → Option Nat,
      (∀ reference, missing? (reference.shift distance) =
        (missing? reference).map (distance + ·)) →
      (shiftTree distance tree).references.findSome? missing? =
        (tree.references.findSome? missing?).map (distance + ·) := by
    intro missing? each
    rw [shiftTree, Node.references_mapReferences, List.findSome?_map, List.map_findSome?]
    exact congrArg (List.findSome? · tree.references) (funext each)
  have captures : (state.shift distance).captures = state.captures := rfl
  have names : (state.shift distance).names = state.names := rfl
  unfold resolve
  dsimp only
  rw [captures, names, missing _ number, missing _ name, shiftTree,
    Node.mapReferences_mapReferences]
  simp only [groups]
  cases tree.references.findSome? (missingNumber? state.captures) with
  | some offset => rfl
  | none => cases tree.references.findSome? (missingName? state.names) <;> rfl

end Readers
end PerlRegex.Pattern
