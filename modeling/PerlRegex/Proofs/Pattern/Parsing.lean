import PerlRegex.Proofs.Pattern.Placement
import PerlRegex.Proofs.Utf8.WellFormed
namespace PerlRegex.Pattern

/-! Reading a whole pattern. It goes from piece to piece, each in front of what is left of the
pattern, and comes to a tree or to a fault that the pattern has at the offset reported. -/

/-! ## States -/

namespace State

/-- Two states with the same open groups and the same number of groups. -/
def SameGroups (state other : State) : Prop :=
  state.groups = other.groups ∧ state.captures = other.captures

theorem addEscape_sameGroups (state : State) (escape : Escape) :
    (state.addEscape escape).SameGroups state := by
  cases escape <;> exact ⟨rfl, rfl⟩

theorem repeatLatest_sameGroups (state : State) (bounds : RepeatBounds) (manner : RepeatManner) :
    (state.repeatLatest bounds manner).SameGroups state := by
  unfold repeatLatest
  split <;> exact ⟨rfl, rfl⟩

/-- Every open group keeps the offset of its parenthesis, groups are not nested too deep, and up to
an offset no more groups have been opened than bytes read. -/
structure Opened (pattern : List UInt8) (offset : Nat) (state : State) : Prop where
  opens : ∀ group ∈ state.groups, pattern[group.start]? = some 0x28
  nesting : state.groups.length ≤ deepestNesting
  captures : state.captures ≤ offset

namespace Opened

variable {pattern : List UInt8} {offset : Nat} {state next : State}

theorem start (pattern : List UInt8) (offset : Nat) (flags : Flags) :
    (State.start flags).Opened pattern offset where
  opens := fun _ member => by cases member
  nesting := Nat.zero_le _
  captures := Nat.zero_le offset

theorem of_same (opened : state.Opened pattern offset) (same : next.SameGroups state) {later : Nat}
    (le : offset ≤ later) : next.Opened pattern later where
  opens := by
    rw [same.1]
    exact opened.opens
  nesting := by
    rw [same.1]
    exact opened.nesting
  captures := by
    rw [same.2]
    exact Nat.le_trans opened.captures le

theorem openGroup (opened : state.Opened pattern offset) {form : GroupForm} {flags : Flags}
    {start : Nat} (opens : pattern[start]? = some 0x28)
    (succeeded : state.openGroup form flags start = .ok next) : next.Opened pattern offset := by
  unfold State.openGroup at succeeded
  split at succeeded
  · exact absurd succeeded refuse_ne_ok
  · rename_i shallow
    injection succeeded with same
    rw [← same]
    refine ⟨fun group member => ?_, Nat.lt_of_not_le shallow, opened.captures⟩
    rcases List.mem_cons.mp member with rfl | member
    · exact opens
    · exact opened.opens group member

theorem closeGroup (opened : state.Opened pattern offset) {start : Nat}
    (succeeded : state.closeGroup start = .ok next) : next.Opened pattern offset := by
  unfold State.closeGroup at succeeded
  split at succeeded
  · exact absurd succeeded refuse_ne_ok
  · rename_i group groups listed
    rcases Reading.bind_eq_ok.mp succeeded with ⟨item, _, succeeded⟩
    rw [← Reading.pure_eq_ok.mp succeeded]
    have nesting := opened.nesting
    rw [listed, List.length_cons] at nesting
    refine ⟨fun other member => ?_, Nat.le_of_succ_le nesting, opened.captures⟩
    exact opened.opens other (listed ▸ List.mem_cons_of_mem group member)

theorem applyOpening (opened : state.Opened pattern offset) {opening : Opening}
    {start stop : Nat} (opens : pattern[start]? = some 0x28)
    (succeeded : state.applyOpening opening start stop = .ok next) :
    next.Opened pattern (offset + 1) := by
  have more : ∀ names, ({ state with
      captures := state.captures + 1, names := names } : State).Opened pattern (offset + 1) :=
    fun _ => ⟨opened.opens, opened.nesting, Nat.succ_le_succ opened.captures⟩
  have same : state.Opened pattern (offset + 1) :=
    opened.of_same ⟨rfl, rfl⟩ (Nat.le_succ offset)
  cases opening with
  | comment | setFlags =>
      injection succeeded with result
      exact result ▸ ⟨same.opens, same.nesting, same.captures⟩
  | reference name =>
      injection succeeded with result
      exact result ▸ ⟨same.opens, same.nesting, same.captures⟩
  | plain | atomic | lookahead | lookbehind => exact same.openGroup opens succeeded
  | capture => exact (more state.names).openGroup opens succeeded
  | named name =>
      unfold State.applyOpening at succeeded
      dsimp only at succeeded
      split at succeeded
      · exact absurd succeeded refuse_ne_ok
      · exact (more _).openGroup opens succeeded

end Opened

/-! Faults that open groups lead to. -/

section Faults

variable {pattern : List UInt8} {offset start : Nat} {state : State}

theorem openGroup_ensures {form : GroupForm} {flags : Flags} (inside : start ≤ pattern.length) :
    Reading.Ensures (·.Placed pattern) (fun _ => True) (state.openGroup form flags start) := by
  unfold openGroup
  split
  · exact ensures_refuse inside (by decide)
  · trivial

theorem closedForm_ensures {form : GroupForm} {body : Tree} (inside : start ≤ pattern.length) :
    Reading.Ensures (·.Placed pattern) (fun _ => True) (closedForm form body start) := by
  cases form with
  | lookbehind negated =>
      refine .bind_of_forall (.mapM fun branch _ => ?_) fun looks => ?_
      · split
        · trivial
        · exact ensures_refuse inside (by decide)
      · split <;> trivial
  | _ => trivial

theorem closeGroup_ensures (opened : state.Opened pattern offset)
    (inside : start ≤ pattern.length) :
    Reading.Ensures (·.Placed pattern) (fun _ => True) (state.closeGroup start) := by
  unfold closeGroup
  split
  · exact ensures_refuse inside (by decide)
  · rename_i group groups listed
    have opens := opened.opens group (listed ▸ List.mem_cons_self)
    have groupInside := Nat.le_of_lt (List.getElem?_eq_some_iff.mp opens).1
    exact (closedForm_ensures groupInside).bind fun _ _ => trivial

theorem applyOpening_ensures {opening : Opening} {stop : Nat} (startInside : start ≤ pattern.length)
    (stopInside : stop ≤ pattern.length) :
    Reading.Ensures (·.Placed pattern) (fun _ => True) (state.applyOpening opening start stop) := by
  cases opening with
  | comment | setFlags | reference => trivial
  | plain | atomic | lookahead | lookbehind | capture => exact openGroup_ensures startInside
  | named name =>
      unfold applyOpening
      dsimp only
      split
      · exact ensures_refuse stopInside (by decide)
      · exact openGroup_ensures startInside

theorem finish_ensures (opened : state.Opened pattern offset) :
    Reading.Ensures (·.Placed pattern) (fun tree => tree = state.currentLevel) state.finish := by
  unfold finish
  split
  · rfl
  · rename_i group groups listed
    exact ensures_refuse_unclosed (opened.opens group (listed ▸ List.mem_cons_self))

end Faults

end State

/-! ## Pieces -/

section Pieces

variable {pattern rest : List UInt8} {settings : Settings} {state next : State} {byte : UInt8}
  {offset used : Nat}

theorem length_commentLength_le (text : List UInt8) : commentLength text ≤ text.length := by
  unfold commentLength
  extract_lets comment
  have : comment.length ≤ text.length := (List.takeWhile_sublist _).length_le
  split
  · exact this
  · rename_i more
    have : text.drop comment.length ≠ [] := by simpa using more
    have := List.length_pos_iff.mpr this
    rw [List.length_drop] at this
    omega

theorem readPiece_takesFrom (settings : Settings) (opened : state.Opened pattern offset)
    (here : pattern.drop offset = byte :: rest) :
    Reading.TakesFrom pattern (offset + 1) (readPiece settings state byte rest offset) := by
  have there : offset + 1 + rest.length = pattern.length := by
    have lengths := congrArg List.length here
    rw [List.length_drop, List.length_cons] at lengths
    omega
  have first : pattern[offset]? = some byte := by
    rw [← List.head?_drop, here, List.head?_cons]
  have single : ∀ state : State, Reading.TakesFrom pattern (offset + 1) (.ok (state, 0)) := by
    intro state
    change offset + 1 + 0 ≤ pattern.length
    omega
  have plain : Reading.TakesFrom pattern (offset + 1)
      (.ok (state.addCharacters [(readCharacter settings byte rest).1],
        (readCharacter settings byte rest).2)) := by
    have := following_readCharacter_le settings byte rest
    change offset + 1 + (readCharacter settings byte rest).2 ≤ pattern.length
    omega
  unfold readPiece
  split
  · rename_i length blank
    unfold blankLength? at blank
    split at blank
    · cases blank
    · split at blank
      · injection blank with same
        exact same ▸ single state
      · split at blank
        · injection blank with same
          have := length_commentLength_le rest
          change offset + 1 + length ≤ pattern.length
          omega
        · cases blank
  · extract_lets plainCharacter
    split
    · exact single _
    · exact (State.closeGroup_ensures opened (by omega)).bind fun _ _ => single _
    iterate 3 exact readRepeat_takesFrom there (Nat.zero_le _) trivial
    · split
      · rename_i braces found
        exact readRepeat_takesFrom there (length_lt_of_scan found).2 (bounds_ensures there found)
      · exact plain
    · rename_i same
      have opens : pattern[offset]? = some 0x28 := by
        rw [first, byte_of_ofUInt8 same]
        rfl
      refine (readOpening_takesFrom opens there).bind fun opening taken => ?_
      exact (State.applyOpening_ensures (by omega) taken).bind fun _ _ => taken
    · exact (readBrackets_takesFrom there).bind fun _ taken => taken
    · rename_i same
      have isBackslash : byte = 0x5C := byte_of_ofUInt8 same
      have counted : state.captures ≤ pattern.length := by
        have := opened.captures
        omega
      exact (readEscape_takesFrom (isBackslash ▸ here) counted).bind fun _ taken => taken
    iterate 3 exact single _
    · exact plain

theorem opened_of_plainly (opened : state.Opened pattern offset)
    (plainly : state.Plainly offset next) : next.Opened pattern (offset + 1) := by
  have same : ∀ {other : State}, other.SameGroups state → other.Opened pattern (offset + 1) :=
    fun sameGroups => opened.of_same sameGroups (Nat.le_succ offset)
  cases plainly with
  | close closing => exact (same ⟨rfl, rfl⟩).closeGroup closing
  | repetition bounds manner => exact same (state.repeatLatest_sameGroups bounds manner)
  | _ => exact same ⟨rfl, rfl⟩

theorem opened_of_readPiece (opened : state.Opened pattern offset)
    (here : pattern.drop offset = byte :: rest)
    (read : readPiece settings state byte rest offset = .ok (next, used)) :
    next.Opened pattern (offset + 1) := by
  cases piece_of_readPiece read with
  | blank => exact opened.of_same ⟨rfl, rfl⟩ (Nat.le_succ offset)
  | opening _ sign _ applied =>
      have opens : pattern[offset]? = some 0x28 := by
        rw [← List.head?_drop, here, List.head?_cons, byte_of_ofUInt8 sign]
        rfl
      exact opened.applyOpening opens applied
  | escape => exact opened.of_same (state.addEscape_sameGroups _) (Nat.le_succ offset)
  | plain _ _ _ plainly => exact opened_of_plainly opened plainly

/-- A reading stands in front of what a pattern has from an offset on. What it has built up fits the
pattern, and the references in it are reported within the pattern. -/
structure StandsAt (pattern : List UInt8) (state : State) (text : List UInt8) (offset : Nat) :
    Prop where
  inside : offset ≤ pattern.length
  rest : pattern.drop offset = text
  opened : state.Opened pattern offset
  counted : state.Counted fun reference => reference.offset ≤ pattern.length

theorem readPiece_ensures (settings : Settings)
    (stands : StandsAt pattern state (byte :: rest) offset) :
    Reading.Ensures (·.Placed pattern)
      (fun piece => piece.2 ≤ rest.length
        ∧ StandsAt pattern piece.1 (rest.drop piece.2) (offset + 1 + piece.2))
      (readPiece settings state byte rest offset) := by
  have there : offset + 1 + rest.length = pattern.length := by
    have lengths := congrArg List.length stands.rest
    rw [List.length_drop, List.length_cons] at lengths
    omega
  have takes := readPiece_takesFrom settings stands.opened stands.rest
  cases read : readPiece settings state byte rest offset with
  | error failure => exact takes.of_error read
  | ok piece =>
      rcases piece with ⟨next, used⟩
      have taken := takes.of_ok read
      have opened := opened_of_readPiece stands.opened stands.rest read
      have here : ∀ reference : Reference, reference.offset = offset →
          reference.offset ≤ pattern.length := fun reference same => same ▸ stands.inside
      refine ⟨Nat.le_of_add_le_add_left (there ▸ taken), taken, ?_,
        opened.of_same ⟨rfl, rfl⟩ (Nat.le_add_right _ _),
        counted_of_readPiece stands.counted here read⟩
      rw [Nat.add_assoc, ← List.drop_drop, stands.rest, Nat.add_comm, List.drop_succ_cons]

/-- Where reading comes to, piece by piece. -/
inductive Visits (settings : Settings) (state : State) (text : List UInt8) (offset : Nat) :
    State → List UInt8 → Nat → Prop
  | start : Visits settings state text offset state text offset
  | next {reached following : State} {byte : UInt8} {rest : List UInt8} {position used : Nat} :
      Visits settings state text offset reached (byte :: rest) position →
      readPiece settings reached byte rest position = .ok (following, used) →
      Visits settings state text offset following (rest.drop used) (position + 1 + used)

theorem exists_visits (settings : Settings) (state : State) (text : List UInt8) (offset : Nat) :
    ∃ reached rest position, Visits settings state text offset reached rest position
      ∧ ((rest = [] ∧ readPieces settings state text offset = .ok reached)
        ∨ ∃ byte later failure, rest = byte :: later
          ∧ readPiece settings reached byte later position = .error failure
          ∧ readPieces settings state text offset = .error failure) := by
  suffices onward : ∀ {reached : State} {rest : List UInt8} {position : Nat},
      Visits settings state text offset reached rest position →
      readPieces settings state text offset = readPieces settings reached rest position →
      ∃ reached rest position, Visits settings state text offset reached rest position
        ∧ ((rest = [] ∧ readPieces settings state text offset = .ok reached)
          ∨ ∃ byte later failure, rest = byte :: later
            ∧ readPiece settings reached byte later position = .error failure
            ∧ readPieces settings state text offset = .error failure) from
    onward .start rfl
  intro reached rest position visits same
  fun_induction readPieces settings reached rest position with
  | case1 reached position => exact ⟨reached, [], position, visits, .inl ⟨rfl, same⟩⟩
  | case2 reached position byte rest failure read =>
      exact ⟨reached, _, position, visits, .inr ⟨byte, rest, failure, rfl, read, same⟩⟩
  | case3 reached position byte rest next used piece induction =>
      exact induction (visits.next piece) same

theorem StandsAt.of_visits {text later : List UInt8} {reached : State} {position : Nat}
    (stands : StandsAt pattern state text offset)
    (visits : Visits settings state text offset reached later position) :
    StandsAt pattern reached later position := by
  induction visits with
  | start => exact stands
  | next _ read induction =>
      have ensures := readPiece_ensures settings induction
      rw [read] at ensures
      exact ensures.2

theorem readPieces_ensures {text : List UInt8} (stands : StandsAt pattern state text offset) :
    Reading.Ensures (·.Placed pattern) (fun final => StandsAt pattern final [] pattern.length)
      (readPieces settings state text offset) := by
  fun_induction readPieces settings state text offset with
  | case1 state offset =>
      have atEnd : offset = pattern.length := by
        have lengths := congrArg List.length stands.rest
        have := stands.inside
        rw [List.length_drop, List.length_nil] at lengths
        omega
      exact atEnd ▸ stands
  | case2 state offset byte rest failure read =>
      have ensures := readPiece_ensures settings stands
      rw [read] at ensures
      exact ensures
  | case3 state offset byte rest next used read induction =>
      have ensures := readPiece_ensures settings stands
      rw [read] at ensures
      exact induction ensures.2

end Pieces

/-! ## Whole patterns -/

section WholePatterns

variable {pattern : List UInt8} {requested options : CompileOptions}

theorem of_mem_references {known : Reference → Prop} {captures : Nat} {tree : Tree}
    (counted : Tree.Counted captures known tree) {reference : Reference}
    (member : reference ∈ tree.references) : known reference := by
  induction tree with
  | group body induction => exact induction counted member
  | repetition body least greatest greedy induction => exact induction counted member
  | look direction negated body induction => exact induction counted member
  | atomic body induction => exact induction counted member
  | capture number body induction => exact induction counted.2 member
  | sequence first second firstInduction secondInduction =>
      exact (List.mem_append.mp member).elim (firstInduction counted.1) (secondInduction counted.2)
  | alternation first second firstInduction secondInduction =>
      exact (List.mem_append.mp member).elim (firstInduction counted.1) (secondInduction counted.2)
  | backreference target caseless => exact List.mem_singleton.mp member ▸ counted
  | _ => cases member

theorem resolve_ensures {state : State} {tree : Tree} {captures : Nat}
    (counted : Tree.Counted captures (fun reference => reference.offset ≤ pattern.length) tree) :
    Reading.Ensures (·.Placed pattern) (fun _ => True) (resolve state tree) := by
  have numbered : ∀ offset,
      tree.references.findSome? (missingNumber? state.captures) = some offset →
      offset ≤ pattern.length := by
    intro offset found
    rcases List.exists_of_findSome?_eq_some found with ⟨reference, member, missing⟩
    have inside := of_mem_references counted member
    cases reference with
    | number group start =>
        rw [missingNumber?] at missing
        split at missing
        · injection missing with same
          exact same ▸ inside
        · cases missing
    | name => cases missing
  have named : ∀ offset, tree.references.findSome? (missingName? state.names) = some offset →
      offset ≤ pattern.length := by
    intro offset found
    rcases List.exists_of_findSome?_eq_some found with ⟨reference, member, missing⟩
    have inside := of_mem_references counted member
    cases reference with
    | number => cases missing
    | name name start =>
        rw [missingName?] at missing
        split at missing
        · injection missing with same
          exact same ▸ inside
        · cases missing
  unfold resolve
  extract_lets missing
  cases found : missing with
  | none => trivial
  | some offset =>
      apply ensures_refuse _ (by decide)
      rcases Option.or_eq_some_iff.mp (Option.orElse_eq_or.symm.trans found) with found | ⟨_, found⟩
      · exact numbered offset found
      · exact named offset found

theorem lineRulesOf_ensures :
    Reading.Ensures (·.Placed pattern) (fun _ => True) (lineRulesOf options) := by
  unfold lineRulesOf
  split
  · exact ensures_refuseFor (Nat.zero_le _) (by decide)
  · split
    · exact ensures_refuse (Nat.zero_le _) (by decide)
    · exact ensures_refuseFor (Nat.zero_le _) (by decide)
    · trivial

theorem checkUtf8_ensures :
    Reading.Ensures (·.Placed pattern) (fun _ => True) (checkUtf8 options pattern) := by
  unfold checkUtf8
  split
  · split
    · rename_i offset invalid
      exact ensures_refuse (Utf8.invalidOffset_le invalid) (by decide)
    · trivial
  · trivial

theorem apply_ensures (verb : Verb) (options : CompileOptions) {offset : Nat}
    (inside : offset ≤ pattern.length) :
    Reading.Ensures (·.Placed pattern) (fun _ => True) (verb.apply options offset) := by
  cases verb with
  | utf =>
      unfold Verb.apply
      dsimp only
      split
      · exact ensures_refuseFor inside (by decide)
      · trivial
  | _ => trivial

theorem length_lt_of_verbName {byte : UInt8} {rest name : List UInt8}
    (named : verbName? (byte :: rest) = some name) : name.length + 1 < rest.length := by
  unfold verbName? at named
  split at named
  · have shorter := length_lt_of_upTo named
    rw [List.length_drop, List.length_cons] at shorter
    omega
  · cases named

theorem readVerbs_ensures (options : CompileOptions) {text : List UInt8} {offset : Nat}
    (there : offset + text.length = pattern.length) :
    Reading.Ensures (·.Placed pattern) (fun verbs => verbs.2 ≤ pattern.length)
      (readVerbs options text offset) := by
  have inside : offset ≤ pattern.length := by omega
  fun_induction readVerbs options text offset with
  | case4 options offset byte rest name named verb known failure applied =>
      have ensures := apply_ensures verb options inside
      rw [applied] at ensures
      exact ensures
  | case5 options offset byte rest name named verb known changed applied induction =>
      have closed := length_lt_of_verbName named
      rw [List.length_cons] at there
      have left := List.length_drop (i := name.length + 2) (l := rest)
      exact induction (by omega) (by omega)
  | _ => exact inside

theorem standsAt_start {bodyOffset : Nat} (inside : bodyOffset ≤ pattern.length) :
    StandsAt pattern (.start (.ofOptions options)) (pattern.drop bodyOffset) bodyOffset :=
  ⟨inside, rfl, .start _ _ _, .start _⟩

theorem standsAt_of_readVerbs {bodyOffset : Nat}
    (begun : readVerbs requested pattern 0 = .ok (options, bodyOffset)) :
    StandsAt pattern (.start (.ofOptions options)) (pattern.drop bodyOffset) bodyOffset := by
  have ensures := readVerbs_ensures requested (Nat.zero_add pattern.length)
  rw [begun] at ensures
  exact standsAt_start ensures

theorem parse_ensures (pattern : List UInt8) (requested : CompileOptions) :
    Reading.Ensures (·.Placed pattern) (fun _ => 0 ∉ pattern) (parse pattern requested) := by
  unfold parse
  split
  · rename_i offset found
    have inside := (List.findIdx?_eq_some_iff_getElem.mp found).1
    exact ensures_refuse (Nat.le_of_lt inside) (by decide)
  · rename_i absent
    have none : 0 ∉ pattern := by
      intro member
      have := List.findIdx?_eq_none_iff.mp absent 0 member
      cases this
    refine (readVerbs_ensures requested (Nat.zero_add pattern.length)).bind fun verbs inside => ?_
    refine lineRulesOf_ensures.bind fun lineRules _ => ?_
    refine checkUtf8_ensures.bind fun _ _ => ?_
    refine (readPieces_ensures (standsAt_start inside)).bind fun state stands => ?_
    refine (State.finish_ensures stands.opened).bind fun tree finished => ?_
    have counted := stands.counted.currentLevel
    rw [← finished] at counted
    exact (resolve_ensures counted).bind fun _ _ => none

theorem parse_of_nul (member : 0 ∈ pattern) :
    ∃ offset, parse pattern requested = refuse .nulByteInPattern offset
      ∧ pattern[offset]? = some 0 ∧ ∀ earlier < offset, pattern[earlier]? ≠ some 0 := by
  cases found : pattern.findIdx? (· == 0) with
  | none =>
      have := List.findIdx?_eq_none_iff.mp found 0 member
      cases this
  | some offset =>
      rcases List.findIdx?_eq_some_iff_getElem.mp found with ⟨inside, isNul, first⟩
      refine ⟨offset, by rw [parse, found], ?_, fun earlier less isNul => ?_⟩
      · rw [List.getElem?_eq_getElem inside, beq_iff_eq.mp isNul]
      · rw [List.getElem?_eq_getElem (Nat.lt_trans less inside)] at isNul
        injection isNul with same
        exact first earlier less (beq_iff_eq.mpr same)

end WholePatterns

/-- Every pattern is read, with every choice of options: to a tree, or to a fault reported within
the pattern. A NUL byte anywhere is reported first, a backslash with nothing behind it at the end,
and a missing parenthesis behind the one that it would match. Only a reference that counts on from
the groups so far may come to a group number that is too large to go on with. On the way the reading
goes from piece to piece, and in front of each it has what the pattern has from an offset within it
on. -/
theorem parse_placed (pattern : List UInt8) (requested : CompileOptions) :
    (match parse pattern requested with
      | .ok _ => 0 ∉ pattern
      | .error (.fault fault offset) => PlacedAt pattern fault offset
      | .error .overflow => CountsBeyond pattern)
    ∧ (0 ∈ pattern → ∃ offset,
        parse pattern requested = .error (.fault (.usual .nulByteInPattern) offset)
        ∧ pattern[offset]? = some 0 ∧ ∀ earlier < offset, pattern[earlier]? ≠ some 0)
    ∧ ∀ options bodyOffset, readVerbs requested pattern 0 = .ok (options, bodyOffset) →
        ∀ state text offset,
          Visits (settingsOf options) (.start (.ofOptions options)) (pattern.drop bodyOffset)
            bodyOffset state text offset →
          offset ≤ pattern.length ∧ pattern.drop offset = text := by
  refine ⟨?_, parse_of_nul, fun options bodyOffset begun state text offset visits => ?_⟩
  · have ensures := parse_ensures pattern requested
    split <;> rename_i read <;> rw [read] at ensures <;> exact ensures
  · have stands := (standsAt_of_readVerbs begun).of_visits visits
    exact ⟨stands.inside, stands.rest⟩

end PerlRegex.Pattern
