import PerlRegex.Proofs.Pattern.Marks
import PerlRegex.Proofs.Pattern.Parsing
import PerlRegex.Proofs.Pattern.Words
namespace PerlRegex.Pattern

/-! The groups of a pattern that has been read are numbered without gaps, its names belong to them,
and every reference has come to the groups it may stand for. -/

/-! ## What marks say -/

/-- What may be the name of a group: up to 32 letters, digits and underscores, of which the first is
no digit. -/
structure GroupName (name : String) : Prop where
  nonempty : 1 ≤ name.length
  short : name.length ≤ 32
  word : ∀ character ∈ name.toList, Ascii.isWord character.toNat = true
  start : ∀ character ∈ name.toList.head?, Ascii.isDigit character.toNat = false

/-- A reference by number does not mean the whole match. -/
def Reference.ToGroup : Reference → Prop
  | .number group _ => 1 ≤ group
  | .name _ _ => True

/-- A mark gives a proper name to a group, and refers to one. -/
def Mark.Sound : Mark → Prop
  | .group _ name => ∀ given ∈ name, GroupName given
  | .reference target => target.ToGroup

section Readers

variable {settings : Settings} {text : List UInt8} {captures start offset : Nat}

theorem toList_text (bytes : List UInt8) : (Ascii.text bytes).toList = bytes.map Char.ofUInt8 :=
  String.toList_ofList

theorem length_text (bytes : List UInt8) : (Ascii.text bytes).length = bytes.length := by
  rw [← String.length_toList, toList_text, List.length_map]

theorem readName_ensures_name (terminator : Char) :
    Reading.Ensures (fun _ => True) (fun piece => GroupName piece.1)
      (readName terminator text offset) := by
  unfold readName
  extract_lets name
  split
  · trivial
  · rename_i notDigit
    split
    · trivial
    · rename_i closed
      split
      · trivial
      · rename_i notLong
        simp only [Bool.or_eq_true, not_or, List.isEmpty_iff] at closed
        constructor
        case nonempty =>
          rw [length_text]
          exact List.length_pos_iff.mpr closed.1
        case short =>
          rw [length_text]
          exact Nat.le_of_not_lt notLong
        case word =>
          intro character member
          rw [toList_text] at member
          rcases List.mem_map.mp member with ⟨byte, byteMember, rfl⟩
          exact List.all_eq_true.mp List.all_takeWhile byte byteMember
        case start =>
          intro character first
          rw [toList_text] at first
          cases text with
          | nil => cases first
          | cons byte rest =>
              have digit : Ascii.isDigit byte.toNat = false := Bool.eq_false_iff.mpr notDigit
              by_cases isWord : Ascii.isWord byte.toNat = true
              · have front : name = byte :: leading Ascii.isWord rest :=
                  List.takeWhile_cons_of_pos isWord
                rw [front] at first
                cases first
                exact digit
              · have empty : name = [] := List.takeWhile_cons_of_neg isWord
                rw [empty] at first
                cases first

/-- An opening gives a proper name to a group, if it gives one. -/
def Opening.ProperlyNamed : Opening → Prop
  | .named name => GroupName name
  | _ => True

theorem readFlags_ensures_named {flags : Flags} {on : Bool} :
    Reading.Ensures (fun _ => True) (fun piece => piece.1.ProperlyNamed)
      (readFlags flags on text start offset) := by
  induction text generalizing flags on offset with
  | nil => trivial
  | cons byte rest induction =>
      rw [readFlags]
      split
      · trivial
      · trivial
      · split
        · exact induction
        · split
          · exact induction
          · trivial

theorem readOpening_ensures_named {flags : Flags} :
    Reading.Ensures (fun _ => True) (fun piece => piece.1.ProperlyNamed)
      (readOpening settings flags text start) := by
  have named : ∀ terminator signs (text : List UInt8) offset,
      Reading.Ensures (fun _ => True) (fun piece => piece.1.ProperlyNamed)
        (readName terminator text offset >>= fun name =>
          pure (Opening.named name.1, signs + name.2)) :=
    fun terminator signs text offset =>
      (readName_ensures_name terminator).bind fun _ proper => proper
  unfold readOpening
  split
  · unfold readSpecialOpening
    extract_lets namedOpening unsupported
    split
    · trivial
    · split
      · split <;> trivial
      iterate 4 trivial
      · split
        · trivial
        · split
          · trivial
          · exact named _ _ _ _
      · exact named _ _ _ _
      · split
        · exact named _ _ _ _
        · split
          · exact (readName_ensures_name _).bind fun _ _ => trivial
          · split <;> trivial
      iterate 6 trivial
      · split
        · trivial
        · exact readFlags_ensures_named
  · split
    · trivial
    · split <;> trivial

/-- An escape refers to a group, if it refers. -/
def Escape.ToGroup : Escape → Prop
  | .reference target => target.ToGroup
  | _ => True

theorem referredGroup_ensures_group {sign : Option Char} {number : Nat} :
    Reading.Ensures (fun _ => True) (1 ≤ ·) (referredGroup sign number captures start) := by
  unfold referredGroup
  split
  · split
    · trivial
    · rename_i inside
      simp only [Bool.or_eq_true, decide_eq_true_eq, not_or, Nat.not_lt] at inside
      change 1 ≤ captures + 1 - number
      omega
  · split
    · trivial
    · split
      · trivial
      · exact Nat.one_le_iff_ne_zero.mpr ‹_›
  · split
    · trivial
    · exact Nat.one_le_iff_ne_zero.mpr ‹_›

theorem interpretReference_ensures_group {content : List UInt8} {braced : Bool} {stop : Nat} :
    Reading.Ensures (fun _ => True) (·.ToGroup)
      (interpretReference content braced captures start stop) := by
  unfold interpretReference
  extract_lets sign body
  split
  · exact referredGroup_ensures_group.bind fun _ positive => positive
  · split <;> trivial

theorem readRelativeReference_ensures_group :
    Reading.Ensures (fun _ => True) (fun piece => piece.1.ToGroup)
      (readRelativeReference text captures start offset) := by
  unfold readRelativeReference
  split
  · split
    · trivial
    · exact interpretReference_ensures_group.bind fun _ toGroup => toGroup
  · split
    · trivial
    · exact interpretReference_ensures_group.bind fun _ toGroup => toGroup

theorem readNamedReference_ensures_group :
    Reading.Ensures (fun _ => True) (fun piece => piece.1.ToGroup)
      (readNamedReference text start offset) := by
  have named : ∀ terminator, Reading.Ensures (fun _ => True) (fun piece => piece.1.ToGroup)
      (readName terminator text.tail (offset + 1) >>= fun name =>
        pure (Reference.name name.1 start, name.2 + 1)) :=
    fun terminator => (readName_ensures_name terminator).bind fun _ _ => trivial
  unfold readNamedReference
  split
  · exact named _
  · split
    · exact named _
    · split
      · exact named _
      · trivial

theorem readNumericEscape_ensures_group {byte : UInt8} {rest : List UInt8}
    (digit : Ascii.isDigit byte.toNat = true) (nonzero : Char.ofUInt8 byte ≠ '0') :
    Reading.Ensures (fun _ => True) (fun piece => piece.1.ToGroup)
      (readNumericEscape settings captures (byte :: rest) start) := by
  unfold readNumericEscape
  extract_lets digits number
  split
  · exact .of_next fun _ => trivial
  · change 1 ≤ groupNumber digits
    have front : digits = byte :: leadingDigits 10 rest := by
      have isDigit := (isSome_digitValue_ten byte.toNat).trans digit
      simp only [digits, leadingDigits, leading, List.takeWhile_cons, isDigit, if_true]
    have positive : 1 ≤ digitOf 10 byte := by
      have notZero : byte.toNat ≠ 0x30 := by
        intro same
        exact nonzero (congrArg Char.ofUInt8 (UInt8.toNat_inj.mp same : byte = 0x30))
      simp only [Ascii.isDigit, Bool.and_eq_true, decide_eq_true_eq] at digit
      have value : Ascii.digitValue? 10 byte.toNat = some (byte.toNat - 0x30) := by
        simp only [Ascii.digitValue?, Ascii.isDigit, Bool.and_eq_true, decide_eq_true_eq]
        rw [if_pos digit, if_pos (by omega)]
      rw [digitOf, value, Option.getD_some]
      omega
    have atLeast := le_valueFrom (show 0 < 10 by decide) (leadingDigits 10 rest)
      (0 * 10 + digitOf 10 byte)
    rw [← valueFrom_cons, valueFrom_zero, ← front] at atLeast
    rw [groupNumber]
    omega

theorem readEscape_ensures_group :
    Reading.Ensures (fun _ => True) (fun piece => piece.1.ToGroup)
      (readEscape settings captures text start) := by
  unfold readEscape
  split
  · trivial
  · rename_i byte rest
    dsimp only
    split
    iterate 9 trivial
    · split <;> trivial
    · exact readRelativeReference_ensures_group.bind fun _ toGroup => toGroup
    · exact readNamedReference_ensures_group.bind fun _ toGroup => toGroup
    iterate 2 exact .of_next fun _ => trivial
    iterate 7 trivial
    · split
      · trivial
      · split
        · rename_i numeric
          rw [Bool.and_eq_true, bne_iff_ne] at numeric
          exact readNumericEscape_ensures_group numeric.1 numeric.2
        · exact .of_next fun _ => trivial

end Readers

section Marks

variable {settings : Settings} {state next : State} {byte : UInt8} {rest text : List UInt8}
  {offset used : Nat}

theorem sound_of_mem_pieceMarks {mark : Mark}
    (member : mark ∈ pieceMarks settings state byte rest offset) : mark.Sound := by
  unfold pieceMarks at member
  split at member
  · cases member
  · split at member
    · split at member
      · rename_i opening length opened
        have named : opening.ProperlyNamed := readOpening_ensures_named.of_ok opened
        cases opening with
        | named name =>
            rw [List.mem_singleton.mp member]
            intro given same
            cases same
            exact named
        | capture =>
            rw [List.mem_singleton.mp member]
            intro given impossible
            cases impossible
        | reference name =>
            rw [List.mem_singleton.mp member]
            trivial
        | _ => cases member
      · cases member
    · split at member
      · rename_i escape length escaped
        have toGroup : escape.ToGroup := readEscape_ensures_group.of_ok escaped
        cases escape with
        | reference target =>
            rw [List.mem_singleton.mp member]
            exact toGroup
        | _ => cases member
      · cases member
    · cases member

theorem sound_of_mem_marksFrom {mark : Mark}
    (member : mark ∈ marksFrom settings state text offset) : mark.Sound := by
  fun_induction marksFrom settings state text offset with
  | case1 => cases member
  | case2 => cases member
  | case3 state offset byte rest next following piece induction =>
      rcases List.mem_append.mp member with member | member
      · exact sound_of_mem_pieceMarks member
      · exact induction member

/-! ## Names without duplicates -/

theorem not_mem_of_applyOpening {name : String} {start stop : Nat}
    (single : state.flags.duplicateNames = false)
    (applied : state.applyOpening (.named name) start stop = .ok next) :
    name ∉ state.names.map (·.1) := by
  intro taken
  rcases List.mem_map.mp taken with ⟨entry, member, same⟩
  unfold State.applyOpening at applied
  dsimp only at applied
  rw [if_pos] at applied
  · exact absurd applied refuse_ne_ok
  · rw [single, Bool.not_false, Bool.true_and, List.any_eq_true]
    exact ⟨entry, member, beq_iff_eq.mpr same⟩

theorem nodup_of_readPiece (single : state.flags.duplicateNames = false)
    (distinct : (state.names.map (·.1)).Nodup)
    (read : readPiece settings state byte rest offset = .ok (next, used)) :
    (next.names.map (·.1)).Nodup := by
  have kept : next.names = state.names ++ [] → (next.names.map (·.1)).Nodup := by
    intro same
    rw [same, List.append_nil]
    exact distinct
  cases piece_of_readPiece read with
  | blank => exact distinct
  | @opening opening _ _ _ _ _ applied =>
      have names := (Writes.opening applied).names
      cases opening with
      | named name =>
          rw [names, List.map_append, List.nodup_append]
          refine ⟨distinct, by simp [openingMarks, Mark.entry?], ?_⟩
          intro taken member new newMember
          have isNew : new = name := by simpa [openingMarks, Mark.entry?] using newMember
          rw [isNew]
          rintro rfl
          exact not_mem_of_applyOpening single applied member
      | _ => exact kept names
  | @escape escape =>
      have names : (state.addEscape escape).names = _ := (Writes.escape escape).names
      cases escape <;> exact kept names
  | plain _ _ _ plainly => exact kept (writes_of_plainly plainly).names

theorem nodup_of_visits {reached : State} {position : Nat}
    (visits : Visits settings state text offset reached rest position)
    (single : ∀ reached rest position,
      Visits settings state text offset reached rest position →
      reached.flags.duplicateNames = false)
    (distinct : (state.names.map (·.1)).Nodup) : (reached.names.map (·.1)).Nodup := by
  induction visits with
  | start => exact distinct
  | next earlier read induction =>
      exact nodup_of_readPiece (single _ _ _ earlier) induction read

end Marks

/-! ## Groups and references -/

section Resolving

variable {marks : List Mark} {captures : Nat}

theorem sublist_entries (marks : List Mark) :
    ((marks.filterMap Mark.entry?).map (·.2)).Sublist (marks.filterMap Mark.number?) := by
  induction marks with
  | nil => exact .slnil
  | cons mark marks induction =>
      cases mark with
      | reference target => exact induction
      | group number name =>
          cases name with
          | none => exact induction.cons number
          | some name => exact induction.cons_cons number

theorem mem_entries_iff {name : String} {number : Nat} :
    (name, number) ∈ marks.filterMap Mark.entry? ↔ .group number (some name) ∈ marks := by
  rw [List.mem_filterMap]
  constructor
  · rintro ⟨mark, member, entry⟩
    cases mark with
    | reference target => cases entry
    | group other given =>
        cases given with
        | none => cases entry
        | some given =>
            cases entry
            exact member
  · exact fun member => ⟨_, member, rfl⟩

theorem mem_groupsNamed_iff {names : List (String × Nat)} {name : String} {group : Nat} :
    group ∈ groupsNamed names name ↔ (name, group) ∈ names := by
  simp [groupsNamed]

/-- The bookkeeping of a pattern with these marks. -/
structure Bookkeeping (marks : List Mark) (pattern : Pattern) : Prop where
  /-- The groups of the tree have the numbers from 1 on, in the order of the pattern. -/
  numbers : pattern.tree.captureNumbers = List.range' 1 pattern.captures
  /-- They are the groups that the pattern opens. -/
  opened : marks.filterMap Mark.number? = List.range' 1 pattern.captures
  /-- The table has the names that the pattern gives, each with its group. -/
  names : pattern.names = marks.filterMap Mark.entry?
  increasing : (pattern.names.map (·.2)).Pairwise (· < ·)
  inside : ∀ entry ∈ pattern.names, 1 ≤ entry.2 ∧ entry.2 ≤ pattern.captures
  spelled : ∀ entry ∈ pattern.names, GroupName entry.1
  /-- Each reference of the pattern, in its order, has come to the groups that it may stand for. -/
  references : pattern.tree.references =
    (marks.filterMap Mark.reference?).map (groupsOf pattern.names)
  resolved : ∀ groups ∈ pattern.tree.references, groups ≠ [] ∧ groups.Pairwise (· < ·)
    ∧ ∀ group ∈ groups, 1 ≤ group ∧ group ≤ pattern.captures
  /-- A name stands for all groups that carry it, wherever the pattern opens them. -/
  named : ∀ name offset group,
    group ∈ groupsOf pattern.names (.name name offset) ↔ .group group (some name) ∈ marks

theorem flatMap_gather_number (marks : List Mark) :
    marks.flatMap (·.gather ([·]) fun _ => []) = marks.filterMap Mark.number? := by
  induction marks with
  | nil => rfl
  | cons mark marks induction =>
      rw [List.flatMap_cons, induction]
      cases mark <;> rfl

theorem flatMap_gather_reference (marks : List Mark) :
    marks.flatMap (·.gather (fun _ => []) ([·])) = marks.filterMap Mark.reference? := by
  induction marks with
  | nil => rfl
  | cons mark marks induction =>
      rw [List.flatMap_cons, induction]
      cases mark <;> rfl

theorem groupsOf_of_present {names : List (String × Nat)} {reference : Reference}
    (toGroup : reference.ToGroup) (increasing : (names.map (·.2)).Pairwise (· < ·))
    (inside : ∀ entry ∈ names, 1 ≤ entry.2 ∧ entry.2 ≤ captures)
    (hasNumber : missingNumber? captures reference = none)
    (hasName : missingName? names reference = none) :
    groupsOf names reference ≠ [] ∧ (groupsOf names reference).Pairwise (· < ·)
      ∧ ∀ group ∈ groupsOf names reference, 1 ≤ group ∧ group ≤ captures := by
  cases reference with
  | number group offset =>
      rw [missingNumber?, ite_eq_right_iff] at hasNumber
      refine ⟨List.cons_ne_nil _ _, List.pairwise_singleton _ _, fun other member => ?_⟩
      rw [List.mem_singleton.mp member]
      exact ⟨toGroup, Nat.le_of_not_lt fun beyond => by cases hasNumber beyond⟩
  | name name offset =>
      rw [missingName?, ite_eq_right_iff, List.isEmpty_iff] at hasName
      have sublist : (groupsNamed names name).Sublist (names.map (·.2)) :=
        List.filter_sublist.map _
      refine ⟨fun nothing => ?_, increasing.sublist sublist, fun group member => ?_⟩
      · cases hasName nothing
      · exact inside (name, group) (mem_groupsNamed_iff.mp member)

end Resolving

section WholePatterns

variable {text : List UInt8} {requested : CompileOptions} {pattern : Pattern}

theorem increasing_names_of_parse (parsed : parse text requested = .ok pattern) :
    (pattern.names.map (·.2)).Pairwise (· < ·) := by
  rcases steps_of_parse parsed with ⟨_, state, _, _, _, read, _, _, _, names⟩
  have writes := writes_of_readPieces read
  rw [names.trans writes.names]
  apply List.Pairwise.sublist (sublist_entries _)
  rw [writes.numbers]
  exact List.pairwise_lt_range'

/-- A pattern that is read keeps its books: its groups are numbered without gaps, its names belong
to them, and its references have come to the groups that they may stand for. What it says of them is
found by going over its marks alone. Unless names may be given twice somewhere in the pattern, none
is. -/
theorem parse_bookkeeping (parsed : parse text requested = .ok pattern) :
    ∃ bodyOffset, readVerbs requested text 0 = .ok (pattern.options, bodyOffset)
      ∧ let settings := settingsOf pattern.options
        let start := State.start (.ofOptions pattern.options)
        let body := text.drop bodyOffset
        Bookkeeping (marksFrom settings start body bodyOffset) pattern
        ∧ ((∀ reached rest offset, Visits settings start body bodyOffset reached rest offset →
            reached.flags.duplicateNames = false) → (pattern.names.map (·.1)).Nodup) := by
  rcases steps_of_parse parsed with
    ⟨bodyOffset, state, tree, verbs, _, read, finished, resolving, captures, names⟩
  refine ⟨bodyOffset, verbs, ?_⟩
  intro settings start body
  have writes : Writes (marksFrom settings start body bodyOffset) start state :=
    writes_of_readPieces read
  generalize marked : marksFrom settings start body bodyOffset = marks at writes
  rcases of_resolve resolving with ⟨tree_eq, present⟩
  rw [← captures, ← names] at present
  rw [← names] at tree_eq
  have names_eq : pattern.names = marks.filterMap Mark.entry? := names.trans writes.names
  have count : pattern.captures = (marks.filterMap Mark.number?).length :=
    captures.trans (writes.captures.trans (Nat.zero_add _))
  have opened : marks.filterMap Mark.number? = List.range' 1 pattern.captures := by
    rw [count]
    exact writes.numbers
  have gives : ∀ {α : Type} (number : Nat → List α) (reference : Reference → List α),
      tree.gather (fun _ => []) number reference = marks.flatMap (·.gather number reference) := by
    intro α number reference
    rw [State.gather_of_finish _ _ _ finished, writes.gathers]
    rfl
  have references : tree.references = marks.filterMap Mark.reference? := by
    rw [Node.references_eq_gather, gives, flatMap_gather_reference]
  have entries := sublist_entries marks
  rw [← names_eq, opened] at entries
  have increasing : (pattern.names.map (·.2)).Pairwise (· < ·) :=
    List.Pairwise.sublist entries List.pairwise_lt_range'
  have inside : ∀ entry ∈ pattern.names, 1 ≤ entry.2 ∧ entry.2 ≤ pattern.captures := by
    intro entry member
    have listed := List.mem_range'_1.mp (entries.subset (List.mem_map_of_mem member))
    omega
  refine ⟨?_, fun single => ?_⟩
  · constructor
    case opened => exact opened
    case names => exact names_eq
    case increasing => exact increasing
    case inside => exact inside
    case numbers =>
      rw [tree_eq, Node.captureNumbers_mapReferences, Node.captureNumbers, gives,
        flatMap_gather_number, opened]
    case spelled =>
      intro entry member
      rw [names_eq] at member
      have mark : Mark.group entry.2 (some entry.1) ∈ marks := mem_entries_iff.mp member
      rw [← marked] at mark
      exact sound_of_mem_marksFrom mark entry.1 rfl
    case references => rw [tree_eq, Node.references_mapReferences, references]
    case resolved =>
      intro groups member
      rw [tree_eq, Node.references_mapReferences] at member
      rcases List.mem_map.mp member with ⟨reference, referenceMember, rfl⟩
      have toGroup : reference.ToGroup := by
        rw [references] at referenceMember
        rcases List.mem_filterMap.mp referenceMember with ⟨mark, markMember, same⟩
        rw [← marked] at markMember
        have sound := sound_of_mem_marksFrom markMember
        cases mark with
        | group number name => cases same
        | reference target =>
            cases same
            exact sound
      have found := present reference referenceMember
      exact groupsOf_of_present toGroup increasing inside found.1 found.2
    case named =>
      intro name offset group
      rw [groupsOf, mem_groupsNamed_iff, names_eq, mem_entries_iff]
  · rcases exists_visits settings start body bodyOffset with
      ⟨reached, rest, position, visits, ⟨_, ended⟩ | ⟨_, _, failure, _, _, stopped⟩⟩
    · rw [read] at ended
      rw [names, Except.ok.inj ended]
      exact nodup_of_visits visits single .nil
    · rw [read] at stopped
      cases stopped

/-- `(?J)\k<n>(?<=(?<n>a)|b(c))(?:(?<n>x)|y)+\2` refers to both groups of a name in front of them,
and its lookbehind is taken apart into alternatives. -/
theorem parse_bookkeeping_forward :
    ∃ pattern,
      parse "(?J)\\k<n>(?<=(?<n>a)|b(c))(?:(?<n>x)|y)+\\2".toUTF8.toList {} = .ok pattern
      ∧ pattern.names = [("n", 1), ("n", 3)] ∧ pattern.tree.references = [[1, 3], [2]]
      ∧ pattern.tree.captureNumbers = [1, 2, 3] ∧ ∃ marks, Bookkeeping marks pattern := by
  have evaluated :
      ((parse "(?J)\\k<n>(?<=(?<n>a)|b(c))(?:(?<n>x)|y)+\\2".toUTF8.toList {}).toOption.any
        fun pattern => pattern.captures = 3 ∧ pattern.names = [("n", 1), ("n", 3)]
          ∧ pattern.tree.references = [[1, 3], [2]]) = true := by
    decide +kernel
  cases parsed : parse "(?J)\\k<n>(?<=(?<n>a)|b(c))(?:(?<n>x)|y)+\\2".toUTF8.toList {} with
  | error failure =>
      rw [parsed] at evaluated
      cases evaluated
  | ok pattern =>
      rw [parsed] at evaluated
      rcases of_decide_eq_true evaluated with ⟨captures, names, references⟩
      rcases parse_bookkeeping parsed with ⟨_, _, keeps, _⟩
      have numbers := keeps.numbers
      rw [captures] at numbers
      exact ⟨pattern, rfl, names, references, numbers, _, keeps⟩

end WholePatterns

end PerlRegex.Pattern
