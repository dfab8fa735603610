import PerlRegex.Proofs.Capturing.Trees
import PerlRegex.Proofs.Pattern.Bookkeeping

/-! A pattern that is read with and without capturing by plain parentheses. Where it refers to no
group, the two readings go from piece to piece together, and come to trees that differ in their
groups. -/

namespace PerlRegex

/-- The same options, but parentheses without a name only group. -/
def CompileOptions.groupsOnly (options : CompileOptions) : CompileOptions :=
  { options with noAutoCapture := true }

namespace Pattern

def Settings.groupsOnly (settings : Settings) : Settings := { settings with noAutoCapture := true }

/-! ## Readings side by side -/

namespace Reading

/-- Where two readings both give something, it is related. -/
def Tallies (related : α → β → Prop) (reading : Reading α) (other : Reading β) : Prop :=
  ∀ value otherValue, reading = .ok value → other = .ok otherValue → related value otherValue

namespace Tallies

variable {related : α → β → Prop} {result : γ → δ → Prop}

theorem ok {value : α} {otherValue : β} (holds : related value otherValue) :
    Tallies related (.ok value) (.ok otherValue) := by
  rintro _ _ ⟨⟩ ⟨⟩
  exact holds

theorem of_error (failure : ReadFailure) (other : Reading β) :
    Tallies related (.error failure) other := by
  rintro _ _ ⟨⟩

theorem bind {reading : Reading α} {other : Reading β} {next : α → Reading γ}
    {otherNext : β → Reading δ} (first : Tallies related reading other)
    (rest : ∀ value otherValue, related value otherValue →
      Tallies result (next value) (otherNext otherValue)) :
    Tallies result (reading >>= next) (other >>= otherNext) := by
  intro value otherValue read otherRead
  rcases bind_eq_ok.mp read with ⟨middle, begun, read⟩
  rcases bind_eq_ok.mp otherRead with ⟨otherMiddle, otherBegun, otherRead⟩
  exact rest _ _ (first _ _ begun otherBegun) _ _ read otherRead

theorem read {reading : Reading α} {other : Reading β} (tallies : Tallies related reading other) :
    Tallies (fun value otherValue => reading = .ok value ∧ related value otherValue) reading other :=
  fun value otherValue given otherGiven => ⟨given, tallies value otherValue given otherGiven⟩

theorem bind_same {reading : Reading α} {next : α → Reading γ} {otherNext : α → Reading δ}
    (rest : ∀ value, reading = .ok value → Tallies result (next value) (otherNext value)) :
    Tallies result (reading >>= next) (reading >>= otherNext) := by
  intro value otherValue read otherRead
  rcases bind_eq_ok.mp read with ⟨middle, begun, read⟩
  rcases bind_eq_ok.mp otherRead with ⟨otherMiddle, otherBegun, otherRead⟩
  rw [begun] at otherBegun
  injection otherBegun with same
  rw [← same] at otherRead
  exact rest middle begun _ _ read otherRead

end Tallies

end Reading

/-! ## Readers that capture nothing -/

section Readers

variable (settings : Settings)

theorem readQuoted_groupsOnly (text : List UInt8) :
    readQuoted settings.groupsOnly text = readQuoted settings text := by
  fun_induction readQuoted settings text with
  | case1 => rw [readQuoted]
  | case2 byte rest ends => rw [readQuoted, if_pos ends]
  | case3 byte rest more character following read characters used quoted induction =>
      have sameRead : readCharacter settings.groupsOnly byte rest = (character, following) := read
      rw [readQuoted, if_neg more, sameRead]
      dsimp only
      rw [induction, quoted]

theorem readMembers_groupsOnly (state : BracketState) (text : List UInt8) (offset : Nat) :
    readMembers settings.groupsOnly state text offset = readMembers settings state text offset := by
  have member : ∀ quoted byte rest offset,
      readMember settings.groupsOnly quoted byte rest offset =
        readMember settings quoted byte rest offset := fun _ _ _ _ => rfl
  fun_induction readMembers settings state text offset with
  | case1 => rw [readMembers]
  | case2 state offset byte rest closes => rw [readMembers, if_pos closes]
  | case3 state offset byte rest more failure read => rw [readMembers, if_neg more, member, read]
  | case4 state offset byte rest more item following read induction
  | case5 state offset byte rest more on following read induction =>
      rw [readMembers, if_neg more, member, read]
      exact induction
  | case6 state offset byte rest more low following read ranges left =>
      rw [readMembers, if_neg more, member, read]
      dsimp only
      rw [if_pos ranges, left]
  | case7 state offset byte rest more low following read ranges upperByte upperRest left
      upperOffset failure upperRead =>
      rw [readMembers, if_neg more, member, read]
      dsimp only
      rw [if_pos ranges, left]
      dsimp only
      rw [member, upperRead]
  | case8 state offset byte rest more low following read ranges upperByte upperRest left
      upperOffset upper upperFollowing upperRead stop failure added =>
      rw [readMembers, if_neg more, member, read]
      dsimp only
      rw [if_pos ranges, left]
      dsimp only
      rw [member, upperRead]
      dsimp only
      rw [added]
  | case9 state offset byte rest more low following read ranges upperByte upperRest left
      upperOffset upper upperFollowing upperRead stop next added induction =>
      rw [readMembers, if_neg more, member, read]
      dsimp only
      rw [if_pos ranges, left]
      dsimp only
      rw [member, upperRead]
      dsimp only
      rw [added]
      exact induction
  | case10 state offset byte rest more low following read single induction =>
      rw [readMembers, if_neg more, member, read]
      dsimp only
      rw [if_neg single]
      exact induction

theorem readBrackets_groupsOnly (caseless : Bool) (text : List UInt8) (offset : Nat) :
    readBrackets settings.groupsOnly caseless text offset =
      readBrackets settings caseless text offset := by
  rw [readBrackets, readBrackets, readMembers_groupsOnly]

variable {settings}

theorem readNumericEscape_groupsOnly {captures fewer : Nat} (le : fewer ≤ captures)
    {text : List UInt8} {start : Nat} {read : Escape × Nat}
    (given : readNumericEscape settings captures text start = .ok read)
    (refersToNone : escapeMarks read.1 = []) :
    readNumericEscape settings.groupsOnly fewer text start = .ok read := by
  unfold readNumericEscape at given ⊢
  dsimp only at given ⊢
  split at given
  · rename_i octal
    simp only [Bool.and_eq_true, decide_eq_true_eq] at octal
    rw [if_pos]
    · exact given
    · simp only [Bool.and_eq_true, decide_eq_true_eq]
      exact ⟨⟨octal.1.1, Nat.lt_of_le_of_lt le octal.1.2⟩, octal.2⟩
  · injection given with same
    rw [← same] at refersToNone
    cases refersToNone

theorem readEscape_groupsOnly {captures fewer : Nat} (le : fewer ≤ captures) {text : List UInt8}
    {start : Nat} {read : Escape × Nat}
    (given : readEscape settings captures text start = .ok read)
    (refersToNone : escapeMarks read.1 = []) :
    readEscape settings.groupsOnly fewer text start = .ok read := by
  have named : ∀ {reading : Reading (Reference × Nat)},
      (reading >>= fun reference => pure (.reference reference.1, reference.2 + 1)) ≠ .ok read := by
    intro reading given
    rcases Reading.bind_eq_ok.mp given with ⟨reference, _, given⟩
    rw [← Reading.pure_eq_ok.mp given] at refersToNone
    cases refersToNone
  revert given
  unfold readEscape
  split
  · exact id
  · rename_i byte rest
    dsimp only
    rw [readQuoted_groupsOnly]
    split
    iterate 9 exact id
    · exact id
    iterate 2 exact fun given => absurd given named
    iterate 9 exact id
    · split
      · exact id
      · split
        · exact fun given => readNumericEscape_groupsOnly le given refersToNone
        · exact id

end Readers

/-! ## States that differ in their groups -/

/-- The same opening, or a plain parenthesis that captures on the first side only. -/
def Opening.Alike (flags : Flags) (opening other : Opening) : Prop :=
  other = opening ∨ opening = .capture ∧ other = .plain flags

/-- Forms of groups that differ in what is captured. -/
inductive GroupForm.Alike : GroupForm → GroupForm → Prop
  | refl (form : GroupForm) : GroupForm.Alike form form
  | capture (number renumbered : Nat) : GroupForm.Alike (.capture number) (.capture renumbered)
  | released (number : Nat) : GroupForm.Alike (.capture number) .plain

structure OpenGroup.Alike (group other : OpenGroup) : Prop where
  form : group.form.Alike other.form
  outerFlags : other.outerFlags = group.outerFlags
  outerBranches : List.Forall₂ Node.Alike group.outerBranches other.outerBranches
  outerItems : List.Forall₂ Node.Alike group.outerItems other.outerItems

/-- States that differ in their groups, of which the second one has no more. -/
structure State.Alike (state other : State) : Prop where
  flags : other.flags = state.flags
  captures : other.captures ≤ state.captures
  groups : List.Forall₂ OpenGroup.Alike state.groups other.groups
  branches : List.Forall₂ Node.Alike state.branches other.branches
  items : List.Forall₂ Node.Alike state.items other.items
  quantifiable : other.quantifiable = state.quantifiable

namespace State.Alike

variable {state other next otherNext : State}

theorem start (flags : Flags) : (State.start flags).Alike (.start flags) where
  flags := rfl
  captures := Nat.le_refl _
  groups := .nil
  branches := .nil
  items := .nil
  quantifiable := rfl

theorem addItem (alike : state.Alike other) {item otherItem : Tree} (items : item.Alike otherItem) :
    (state.addItem item).Alike (other.addItem otherItem) :=
  { alike with items := .cons items alike.items, quantifiable := rfl }

theorem addCharacters (alike : state.Alike other) (characters : List Nat) :
    (state.addCharacters characters).Alike (other.addCharacters characters) := by
  have literals : List.Forall₂ Node.Alike (characters.map state.literal)
      (characters.map other.literal) := by
    have same : other.literal = state.literal := by
      funext character
      rw [State.literal, State.literal, alike.flags]
    rw [same, List.forall₂_map_left_iff, List.forall₂_map_right_iff, List.forall₂_same]
    exact fun character _ => .literal character _
  exact { alike with
    items := List.rel_append (List.rel_reverse literals) alike.items
    quantifiable := rfl }

theorem addEscape (alike : state.Alike other) {escape : Escape}
    (refersToNone : escapeMarks escape = []) :
    (state.addEscape escape).Alike (other.addEscape escape) := by
  cases escape with
  | characters characters => exact alike.addCharacters characters
  | set item => exact alike.addItem (.charSet _)
  | notNewline => exact alike.addItem .notNewline
  | lineBreak => exact alike.addItem .lineBreak
  | assertion condition => exact alike.addItem (.assertion condition)
  | reference reference => cases refersToNone

theorem repeatLatest (alike : state.Alike other) (bounds : RepeatBounds) (manner : RepeatManner) :
    (state.repeatLatest bounds manner).Alike (other.repeatLatest bounds manner) := by
  have items := alike.items
  unfold State.repeatLatest
  generalize state.items = list at items
  generalize other.items = otherList at items
  cases items with
  | nil => exact alike
  | cons item rest =>
      have repetition := Node.Alike.repetition bounds.least bounds.greatest manner.greedy item
      refine { alike with items := .cons ?_ rest, quantifiable := rfl }
      split
      · exact .atomic repetition
      · exact repetition

theorem currentBranch (alike : state.Alike other) :
    state.currentBranch.Alike other.currentBranch :=
  .ofSequence (List.rel_reverse alike.items)

theorem currentLevel (alike : state.Alike other) : state.currentLevel.Alike other.currentLevel :=
  .ofAlternatives (List.rel_reverse (.cons alike.currentBranch alike.branches))

theorem nextBranch (alike : state.Alike other) : state.nextBranch.Alike other.nextBranch :=
  { alike with
    branches := .cons alike.currentBranch alike.branches
    items := .nil
    quantifiable := rfl }

/-! ## Groups -/

theorem openGroup (alike : state.Alike other) {form otherForm : GroupForm}
    (forms : form.Alike otherForm) {flags otherFlags : Flags} (sameFlags : otherFlags = flags)
    (start : Nat) :
    Reading.Tallies State.Alike (state.openGroup form flags start)
      (other.openGroup otherForm otherFlags start) := by
  unfold State.openGroup
  rw [alike.groups.length_eq]
  split
  · exact .of_error _ _
  · apply Reading.Tallies.ok
    exact { alike with
      flags := sameFlags
      groups := .cons ⟨forms, alike.flags, alike.branches, alike.items⟩ alike.groups
      branches := .nil
      items := .nil
      quantifiable := rfl }

theorem closedForm {form otherForm : GroupForm} (forms : form.Alike otherForm)
    {body otherBody : Tree} (bodies : body.Alike otherBody) (start otherStart : Nat) :
    Reading.Tallies Node.Alike (State.closedForm form body start)
      (State.closedForm otherForm otherBody otherStart) := by
  cases forms with
  | capture number renumbered => exact .ok (.capture number renumbered bodies)
  | released number => exact .ok (.released number bodies)
  | refl =>
      cases form with
      | plain => exact .ok (.group bodies)
      | capture number => exact .ok (.capture number number bodies)
      | atomic => exact .ok (.atomic bodies)
      | lookahead negated => exact .ok (.look .ahead negated bodies)
      | lookbehind negated =>
          exact fun tree otherTree closed otherClosed =>
            alike_of_lookbehind bodies closed otherClosed

theorem closeGroup (alike : state.Alike other) (offset : Nat) :
    Reading.Tallies State.Alike (state.closeGroup offset) (other.closeGroup offset) := by
  have groups := alike.groups
  unfold State.closeGroup
  generalize state.groups = list at groups
  generalize other.groups = otherList at groups
  cases groups with
  | nil => exact .of_error _ _
  | cons group rest =>
      refine (closedForm group.form alike.currentLevel _ _).bind fun item otherItem items => ?_
      apply Reading.Tallies.ok
      exact { alike with
        flags := group.outerFlags
        groups := rest
        branches := group.outerBranches
        items := .cons items group.outerItems
        quantifiable := rfl }

theorem finish (alike : state.Alike other) :
    Reading.Tallies Node.Alike state.finish other.finish := by
  have groups := alike.groups
  unfold State.finish
  generalize state.groups = list at groups
  generalize other.groups = otherList at groups
  cases groups with
  | nil => exact .ok alike.currentLevel
  | cons group rest => exact .of_error _ _

theorem recount (alike : state.Alike other) {captures fewer : Nat} (le : fewer ≤ captures)
    (names otherNames : List (String × Nat)) :
    ({ state with captures := captures, names := names } : State).Alike
      { other with captures := fewer, names := otherNames } where
  flags := alike.flags
  captures := le
  groups := alike.groups
  branches := alike.branches
  items := alike.items
  quantifiable := alike.quantifiable

theorem applyOpening (alike : state.Alike other) {opening : Opening} {start : Nat}
    (refersToNone : (openingMarks state.captures opening start).filterMap Mark.reference? = [])
    (stop : Nat) :
    Reading.Tallies State.Alike (state.applyOpening opening start stop)
      (other.applyOpening opening start stop) := by
  have more := Nat.succ_le_succ alike.captures
  cases opening with
  | comment => exact .ok { alike with quantifiable := rfl }
  | setFlags flags => exact .ok { alike with flags := rfl, quantifiable := rfl }
  | reference name => cases refersToNone
  | plain flags => exact alike.openGroup (.refl _) rfl start
  | atomic | lookahead | lookbehind => exact alike.openGroup (.refl _) alike.flags start
  | capture => exact (alike.recount more _ _).openGroup (.capture _ _) alike.flags start
  | named name =>
      intro next otherNext opened otherOpened
      unfold State.applyOpening at opened otherOpened
      dsimp only at opened otherOpened
      split at opened
      · exact absurd opened refuse_ne_ok
      split at otherOpened
      · exact absurd otherOpened refuse_ne_ok
      exact (alike.recount more _ _).openGroup (.capture _ _) alike.flags start next otherNext
        opened otherOpened

theorem applyOpening_released (alike : state.Alike other) (start stop : Nat) :
    Reading.Tallies State.Alike (state.applyOpening .capture start stop)
      (other.applyOpening (.plain state.flags) start stop) := by
  have fewer : other.captures ≤ state.captures + 1 := Nat.le_succ_of_le alike.captures
  exact (alike.recount fewer _ _).openGroup (.released _) rfl start

theorem applyOpenings (alike : state.Alike other) {opening otherOpening : Opening} {start : Nat}
    (openings : Opening.Alike state.flags opening otherOpening)
    (refersToNone : (openingMarks state.captures opening start).filterMap Mark.reference? = [])
    (stop : Nat) :
    Reading.Tallies State.Alike (state.applyOpening opening start stop)
      (other.applyOpening otherOpening start stop) := by
  rcases openings with rfl | ⟨rfl, rfl⟩
  · exact alike.applyOpening refersToNone stop
  · exact alike.applyOpening_released start stop

end State.Alike

/-! ## Pieces -/

/-- Pieces of the same length that lead to states which differ in their groups. -/
def ReadAlike (read otherRead : State × Nat) : Prop :=
  read.1.Alike otherRead.1 ∧ otherRead.2 = read.2

section Pieces

variable {settings : Settings} {state other : State}

theorem readOpening_groupsOnly (flags : Flags) (text : List UInt8) (start : Nat) :
    Reading.Tallies
      (fun read otherRead =>
        otherRead.2 = read.2 ∧ Opening.Alike flags read.1 otherRead.1)
      (readOpening settings flags text start) (readOpening settings.groupsOnly flags text start) := by
  unfold readOpening
  split
  · intro read otherRead given otherGiven
    rw [given] at otherGiven
    injection otherGiven with same
    exact same ▸ ⟨rfl, .inl rfl⟩
  · split
    · exact .of_error _ _
    · rw [if_pos (show settings.groupsOnly.noAutoCapture = true from rfl)]
      split
      · exact .ok ⟨rfl, .inl rfl⟩
      · exact .ok ⟨rfl, .inr ⟨rfl, rfl⟩⟩

theorem readRepeat_groupsOnly (alike : state.Alike other) (bounds : Reading RepeatBounds)
    (boundsLength : Nat) (rest : List UInt8) (offset : Nat) :
    Reading.Tallies ReadAlike
      (readRepeat state bounds boundsLength rest offset)
      (readRepeat other bounds boundsLength rest offset) := by
  unfold readRepeat
  rw [alike.quantifiable, alike.flags]
  split
  · exact .of_error _ _
  · exact .bind_same fun bounds _ => .ok ⟨alike.repeatLatest bounds _, rfl⟩

/-- A piece that refers to no group leads from states that differ in their groups to such states. -/
theorem readPiece_groupsOnly (alike : state.Alike other) {byte : UInt8} {rest : List UInt8}
    {offset : Nat}
    (refersToNone : (pieceMarks settings state byte rest offset).filterMap Mark.reference? = []) :
    Reading.Tallies ReadAlike
      (readPiece settings state byte rest offset)
      (readPiece settings.groupsOnly other byte rest offset) := by
  have sameBlank : blankLength? other byte rest = blankLength? state byte rest := by
    rw [blankLength?, blankLength?, alike.flags]
  have character : ∀ {character used : Nat},
      Reading.Tallies ReadAlike
        (.ok (state.addCharacters [character], used))
        (.ok (other.addCharacters [character], used)) :=
    .ok ⟨alike.addCharacters _, rfl⟩
  unfold readPiece
  rw [sameBlank, alike.flags]
  split
  · exact .ok ⟨alike, rfl⟩
  · rename_i visible
    dsimp only
    split
    · exact .ok ⟨alike.nextBranch, rfl⟩
    · exact (alike.closeGroup offset).bind fun _ _ closed => .ok ⟨closed, rfl⟩
    iterate 3 exact readRepeat_groupsOnly alike _ _ _ _
    · split
      · exact readRepeat_groupsOnly alike _ _ _ _
      · exact character
    · rename_i sign
      refine (readOpening_groupsOnly _ _ _).read.bind fun read otherRead both => ?_
      rcases read with ⟨opening, used⟩
      rcases otherRead with ⟨otherOpening, otherUsed⟩
      rcases both with ⟨opened, sameUsed, openings⟩
      have quiet : (openingMarks state.captures opening offset).filterMap Mark.reference? = [] := by
        rw [pieceMarks, visible, sign, opened] at refersToNone
        exact refersToNone
      cases sameUsed
      exact (alike.applyOpenings openings quiet _).bind fun _ _ next => .ok ⟨next, rfl⟩
    · rw [readBrackets_groupsOnly]
      exact .bind_same fun _ _ => .ok ⟨alike.addItem (.charSet _), rfl⟩
    · rename_i sign
      intro read otherRead given otherGiven
      rcases Reading.bind_eq_ok.mp given with ⟨⟨escape, used⟩, escaped, given⟩
      have quiet : escapeMarks escape = [] := by
        rw [pieceMarks, visible, sign, escaped] at refersToNone
        cases escape with
        | reference reference => cases refersToNone
        | _ => rfl
      rw [readEscape_groupsOnly alike.captures escaped quiet] at otherGiven
      rw [← Reading.pure_eq_ok.mp given, ← Reading.pure_eq_ok.mp otherGiven]
      exact ⟨alike.addEscape quiet, rfl⟩
    · exact .ok ⟨alike.addItem (by split <;> constructor), rfl⟩
    · exact .ok ⟨alike.addItem (.assertion _), rfl⟩
    · exact .ok ⟨alike.addItem (.assertion _), rfl⟩
    · exact character

theorem alike_of_readPieces {next otherNext : State} (alike : state.Alike other)
    {text : List UInt8} {offset : Nat}
    (refersToNone : (marksFrom settings state text offset).filterMap Mark.reference? = [])
    (read : readPieces settings state text offset = .ok next)
    (otherRead : readPieces settings.groupsOnly other text offset = .ok otherNext) :
    next.Alike otherNext := by
  fun_induction readPieces settings state text offset generalizing other with
  | case1 state offset =>
      rw [readPieces] at otherRead
      injection read with same
      injection otherRead with otherSame
      exact same ▸ otherSame ▸ alike
  | case2 => cases read
  | case3 state offset byte rest following used piece induction =>
      rw [marksFrom, piece, List.filterMap_append, List.append_eq_nil_iff] at refersToNone
      rw [readPieces] at otherRead
      split at otherRead
      · cases otherRead
      · rename_i otherFollowing otherUsed otherPiece
        rcases readPiece_groupsOnly alike refersToNone.1 _ _ piece otherPiece with
          ⟨nextAlike, sameUsed⟩
        rw [show otherUsed = used from sameUsed] at otherRead
        exact induction nextAlike refersToNone.2 read otherRead

end Pieces

/-! ## Whole patterns -/

theorem apply_groupsOnly {options changed : CompileOptions} {verb : Verb} {offset : Nat}
    (applied : verb.apply options offset = .ok changed) :
    verb.apply options.groupsOnly offset = .ok changed.groupsOnly := by
  cases verb with
  | utf =>
      have allowance : options.groupsOnly.neverUtf = options.neverUtf := rfl
      rw [Verb.apply] at applied ⊢
      rw [allowance]
      split at applied
      · exact absurd applied refuseFor_ne_ok
      · rename_i allowed
        injection applied with same
        rw [if_neg allowed, ← same]
        rfl
  | _ =>
      injection applied with same
      rw [← same]
      rfl

theorem readVerbs_groupsOnly {options changed : CompileOptions} {text : List UInt8}
    {offset stop : Nat} (read : readVerbs options text offset = .ok (changed, stop)) :
    readVerbs options.groupsOnly text offset = .ok (changed.groupsOnly, stop) := by
  refine (readVerbs_commutes CompileOptions.groupsOnly (fun _ => True) ?_ trivial read).1
  intro _ _ _ _ _ applied
  exact ⟨apply_groupsOnly applied, trivial⟩

/-- Patterns that are read with and without capturing by plain parentheses, and refer to no group,
differ in their groups only. -/
theorem alike_of_parse {text : List UInt8} {requested : CompileOptions} {pattern other : Pattern}
    (parsed : parse text requested = .ok pattern)
    (otherParsed : parse text requested.groupsOnly = .ok other)
    (refersToNone : pattern.tree.references = []) :
    pattern.tree.Alike other.tree ∧ other.options = pattern.options.groupsOnly
      ∧ other.lineRules = pattern.lineRules := by
  rcases steps_of_parse parsed with
    ⟨bodyOffset, state, tree, verbs, lines, read, finished, resolving, _⟩
  rcases steps_of_parse otherParsed with
    ⟨otherOffset, otherState, otherTree, otherVerbs, otherLines, otherRead, otherFinished,
      otherResolving, _⟩
  rw [readVerbs_groupsOnly verbs] at otherVerbs
  injection otherVerbs with same
  injection same with sameOptions sameOffset
  rw [← sameOptions] at otherLines
  rw [← sameOptions, ← sameOffset] at otherRead
  have sameLines : lineRulesOf pattern.options.groupsOnly = lineRulesOf pattern.options := rfl
  rw [sameLines, lines] at otherLines
  injection otherLines with sameRules
  have quiet : (marksFrom (settingsOf pattern.options) (.start (.ofOptions pattern.options))
      (text.drop bodyOffset) bodyOffset).filterMap Mark.reference? = [] := by
    have writes := writes_of_readPieces read
    rw [(of_resolve resolving).1, Node.references_mapReferences, List.map_eq_nil_iff,
      Node.references_eq_gather, State.gather_of_finish _ _ _ finished, writes.gathers,
      List.append_eq_nil_iff, flatMap_gather_reference] at refersToNone
    exact refersToNone.2
  have states : state.Alike otherState :=
    alike_of_readPieces (.start _) quiet read otherRead
  have trees := states.finish _ _ finished otherFinished
  rw [(of_resolve resolving).1, (of_resolve otherResolving).1]
  exact ⟨trees.mapReferences _ _, sameOptions.symm, sameRules.symm⟩

end Pattern

end PerlRegex
