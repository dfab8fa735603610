import PerlRegex.Pattern
import PerlRegex.Proofs.Groups
import PerlRegex.Proofs.Pattern.Pieces
namespace PerlRegex.Pattern

/-! Every group that a parsed tree captures or refers to is a group of the pattern. While a pattern
is read, no tree that has been built so far has a group with a number beyond the latest. -/

/-! ## Trees -/

/-- No group of a tree has a number beyond `captures`, and all its references are known. -/
def Tree.Counted (captures : Nat) (known : Reference → Prop) (tree : Tree) : Prop :=
  tree.Numbered (· ≤ captures) known

namespace Tree.Counted

variable {captures : Nat} {known : Reference → Prop}

theorem mono {more : Nat} {tree : Tree} (counted : Tree.Counted captures known tree)
    (le : captures ≤ more) : Tree.Counted more known tree :=
  Node.Numbered.imp counted (fun _ below => Nat.le_trans below le) fun _ known => known

theorem ofSequence {trees : List Tree}
    (counted : ∀ tree ∈ trees, Tree.Counted captures known tree) :
    Tree.Counted captures known (.ofSequence trees) := by
  induction trees with
  | nil => trivial
  | cons tree trees induction =>
      have rest := induction fun other member => counted other (List.mem_cons_of_mem tree member)
      cases trees with
      | nil => exact counted tree List.mem_cons_self
      | cons second trees => exact ⟨counted tree List.mem_cons_self, rest⟩

theorem ofAlternatives {trees : List Tree}
    (counted : ∀ tree ∈ trees, Tree.Counted captures known tree) :
    Tree.Counted captures known (.ofAlternatives trees) := by
  induction trees with
  | nil => trivial
  | cons tree trees induction =>
      have rest := induction fun other member => counted other (List.mem_cons_of_mem tree member)
      cases trees with
      | nil => exact counted tree List.mem_cons_self
      | cons second trees => exact ⟨counted tree List.mem_cons_self, rest⟩

theorem alternatives {tree branch : Tree} (counted : Tree.Counted captures known tree)
    (member : branch ∈ tree.alternatives) : Tree.Counted captures known branch := by
  induction tree with
  | alternation first second _ induction =>
      rcases List.mem_cons.mp member with rfl | member
      · exact counted.1
      · exact induction counted.2 member
  | _ => exact List.mem_singleton.mp member ▸ counted

theorem topAlternatives {tree branch : Tree} (counted : Tree.Counted captures known tree)
    (member : branch ∈ tree.topAlternatives) : Tree.Counted captures known branch := by
  induction tree with
  | group body induction => exact induction counted member
  | _ => exact alternatives counted member

end Tree.Counted

/-! ## States -/

namespace State

/-- All that has been read so far stays within the groups counted so far. -/
structure Counted (known : Reference → Prop) (state : State) : Prop where
  items : ∀ tree ∈ state.items, Tree.Counted state.captures known tree
  branches : ∀ tree ∈ state.branches, Tree.Counted state.captures known tree
  outerItems : ∀ group ∈ state.groups, ∀ tree ∈ group.outerItems,
    Tree.Counted state.captures known tree
  outerBranches : ∀ group ∈ state.groups, ∀ tree ∈ group.outerBranches,
    Tree.Counted state.captures known tree
  forms : ∀ group ∈ state.groups, ∀ number, group.form = .capture number →
    number ≤ state.captures
  names : ∀ entry ∈ state.names, entry.2 ≤ state.captures

namespace Counted

variable {state next : State} {known : Reference → Prop}

theorem start (flags : Flags) : (State.start flags).Counted known := by
  constructor <;> simp [State.start]

theorem addItem (counted : state.Counted known) {item : Tree}
    (itemCounted : Tree.Counted state.captures known item) : (state.addItem item).Counted known :=
  { counted with
    items := fun tree member => by
      rcases List.mem_cons.mp member with rfl | member
      · exact itemCounted
      · exact counted.items tree member }

theorem addCharacters (counted : state.Counted known) (characters : List Nat) :
    (state.addCharacters characters).Counted known :=
  { counted with
    items := fun tree member => by
      rcases List.mem_append.mp member with member | member
      · rcases List.mem_map.mp (List.mem_reverse.mp member) with ⟨character, _, rfl⟩
        trivial
      · exact counted.items tree member }

theorem addEscape (counted : state.Counted known) {escape : Escape}
    (refers : ∀ reference, escape = .reference reference → known reference) :
    (state.addEscape escape).Counted known := by
  cases escape with
  | characters characters => exact counted.addCharacters characters
  | reference reference => exact counted.addItem (refers reference rfl)
  | _ => exact counted.addItem trivial

theorem repeatLatest (counted : state.Counted known) (bounds : RepeatBounds)
    (manner : RepeatManner) :
    (state.repeatLatest bounds manner).Counted known := by
  rw [State.repeatLatest]
  cases listed : state.items with
  | nil => exact counted
  | cons item items =>
      have all := counted.items
      rw [listed] at all
      refine { counted with items := fun tree member => ?_ }
      rcases List.mem_cons.mp member with same | member
      · rw [same]
        cases manner.possessive <;> exact all item List.mem_cons_self
      · exact all tree (List.mem_cons_of_mem item member)

theorem currentBranch (counted : state.Counted known) :
    Tree.Counted state.captures known state.currentBranch :=
  .ofSequence fun tree member => counted.items tree (List.mem_reverse.mp member)

theorem currentLevel (counted : state.Counted known) :
    Tree.Counted state.captures known state.currentLevel := by
  refine .ofAlternatives fun tree member => ?_
  rcases List.mem_cons.mp (List.mem_reverse.mp member) with rfl | member
  · exact counted.currentBranch
  · exact counted.branches tree member

theorem nextBranch (counted : state.Counted known) : state.nextBranch.Counted known :=
  { counted with
    items := by simp [State.nextBranch]
    branches := fun tree member => by
      rcases List.mem_cons.mp member with rfl | member
      · exact counted.currentBranch
      · exact counted.branches tree member }

/-! Groups are numbered when they are opened, and what has been read before stays counted. -/

theorem openGroup (counted : state.Counted known) {form : GroupForm} {flags : Flags} {start : Nat}
    (formCounted : ∀ number, form = .capture number → number ≤ state.captures)
    (opened : state.openGroup form flags start = .ok next) : next.Counted known := by
  rw [State.openGroup] at opened
  split at opened
  · exact absurd opened refuse_ne_ok
  · injection opened with same
    rw [← same]
    refine ⟨by simp, by simp, ?_, ?_, ?_, counted.names⟩
    all_goals
      intro group member
      rcases List.mem_cons.mp member with rfl | member
    · exact counted.items
    · exact counted.outerItems group member
    · exact counted.branches
    · exact counted.outerBranches group member
    · exact formCounted
    · exact counted.forms group member

theorem count (counted : state.Counted known) {names : List (String × Nat)}
    (namesCounted : ∀ entry ∈ names, entry.2 ≤ state.captures + 1) :
    ({ state with captures := state.captures + 1, names := names } : State).Counted known where
  items := fun tree member => (counted.items tree member).mono (Nat.le_succ _)
  branches := fun tree member => (counted.branches tree member).mono (Nat.le_succ _)
  outerItems := fun group member tree treeMember =>
    (counted.outerItems group member tree treeMember).mono (Nat.le_succ _)
  outerBranches := fun group member tree treeMember =>
    (counted.outerBranches group member tree treeMember).mono (Nat.le_succ _)
  forms := fun group member number same =>
    Nat.le_succ_of_le (counted.forms group member number same)
  names := namesCounted

theorem lookbehind {captures : Nat} {negated : Bool} {body tree : Tree} {start : Nat}
    (counted : Tree.Counted captures known body)
    (closed : State.lookbehind negated body start = .ok tree) :
    Tree.Counted captures known tree := by
  rw [State.lookbehind] at closed
  rcases Reading.bind_eq_ok.mp closed with ⟨looks, read, closed⟩
  have looksCounted : ∀ look ∈ looks, Tree.Counted captures known look := by
    intro look member
    rcases Reading.exists_of_mem_mapM read member with ⟨branch, branchMember, closedBranch⟩
    have branchCounted := counted.topAlternatives branchMember
    split at closedBranch
    · injection closedBranch with same
      exact same ▸ branchCounted
    · exact absurd closedBranch refuse_ne_ok
  split at closed
  · rw [← Reading.pure_eq_ok.mp closed]
    exact looksCounted _ List.mem_cons_self
  · rw [← Reading.pure_eq_ok.mp closed]
    split
    · exact .ofSequence looksCounted
    · exact Tree.Counted.ofAlternatives looksCounted

theorem closedForm {captures : Nat} {form : GroupForm} {body tree : Tree} {start : Nat}
    (counted : Tree.Counted captures known body)
    (formCounted : ∀ number, form = .capture number → number ≤ captures)
    (closed : State.closedForm form body start = .ok tree) : Tree.Counted captures known tree := by
  cases form with
  | lookbehind negated => exact lookbehind counted closed
  | capture number =>
      injection closed with same
      exact same ▸ ⟨formCounted number rfl, counted⟩
  | _ =>
      injection closed with same
      exact same ▸ counted

theorem closeGroup (counted : state.Counted known) {offset : Nat}
    (closed : state.closeGroup offset = .ok next) : next.Counted known := by
  rw [State.closeGroup] at closed
  split at closed
  · exact absurd closed refuse_ne_ok
  · rename_i group groups listed
    rcases Reading.bind_eq_ok.mp closed with ⟨item, closedItem, closed⟩
    rw [← Reading.pure_eq_ok.mp closed]
    have inside : ∀ other ∈ groups, other ∈ state.groups :=
      fun other member => listed ▸ List.mem_cons_of_mem group member
    have innermost : group ∈ state.groups := listed ▸ List.mem_cons_self
    refine ⟨?_, counted.outerBranches group innermost, ?_, ?_, ?_, counted.names⟩
    · intro tree member
      rcases List.mem_cons.mp member with rfl | member
      · exact closedForm counted.currentLevel (counted.forms group innermost) closedItem
      · exact counted.outerItems group innermost tree member
    · exact fun other member => counted.outerItems other (inside other member)
    · exact fun other member => counted.outerBranches other (inside other member)
    · exact fun other member => counted.forms other (inside other member)

theorem applyOpening (counted : state.Counted known) {opening : Opening} {start stop : Nat}
    (refers : ∀ name, opening = .reference name → known (.name name start))
    (applied : state.applyOpening opening start stop = .ok next) : next.Counted known := by
  cases opening with
  | comment | setFlags =>
      injection applied with same
      exact same ▸ { counted with }
  | reference name =>
      injection applied with same
      exact same ▸ counted.addItem (refers name rfl)
  | plain | atomic | lookahead | lookbehind => exact counted.openGroup (by simp) applied
  | capture =>
      have more := counted.count fun entry member =>
        Nat.le_succ_of_le (counted.names entry member)
      exact more.openGroup (by simp) applied
  | named name =>
      rw [State.applyOpening] at applied
      dsimp only at applied
      split at applied
      · exact absurd applied refuse_ne_ok
      · have namesCounted : ∀ entry ∈ state.names ++ [(name, state.captures + 1)],
            entry.2 ≤ state.captures + 1 := by
          intro entry member
          rcases List.mem_append.mp member with member | member
          · exact Nat.le_succ_of_le (counted.names entry member)
          · exact Nat.le_of_eq (by rw [List.mem_singleton.mp member])
        exact (counted.count namesCounted).openGroup (by simp) applied

end Counted

end State

/-! ## Reading -/

def Reference.offset : Reference → Nat
  | .number _ offset | .name _ offset => offset

section Reading

variable {settings : Settings} {state next : State} {known : Reference → Prop}

/-! References keep the offset of the piece that they were read from. -/

theorem offset_of_interpretReference {content : List UInt8} {braced : Bool}
    {captures start stop : Nat} {reference : Reference}
    (read : interpretReference content braced captures start stop = .ok reference) :
    reference.offset = start := by
  unfold interpretReference at read
  extract_lets sign body at read
  split at read
  · rcases Reading.bind_eq_ok.mp read with ⟨group, _, read⟩
    rw [← Reading.pure_eq_ok.mp read]
    rfl
  · split at read
    · injection read with same
      exact same ▸ rfl
    · exact absurd read refuseFor_ne_ok

theorem offset_of_readRelativeReference {text : List UInt8} {captures start offset used : Nat}
    {reference : Reference}
    (read : readRelativeReference text captures start offset = .ok (reference, used)) :
    reference.offset = start := by
  unfold readRelativeReference at read
  split at read
  · split at read
    · exact absurd read refuseFor_ne_ok
    · rcases Reading.bind_eq_ok.mp read with ⟨interpreted, interpreting, read⟩
      injection Reading.pure_eq_ok.mp read with same
      exact same ▸ offset_of_interpretReference interpreting
  · extract_lets signLength used at read
    split at read
    · exact absurd read refuseFor_ne_ok
    · rcases Reading.bind_eq_ok.mp read with ⟨interpreted, interpreting, read⟩
      injection Reading.pure_eq_ok.mp read with same
      exact same ▸ offset_of_interpretReference interpreting

theorem offset_of_readNamedReference {text : List UInt8} {start offset used : Nat}
    {reference : Reference}
    (read : readNamedReference text start offset = .ok (reference, used)) :
    reference.offset = start := by
  have behind : ∀ terminator, (readName terminator text.tail (offset + 1) >>= fun name =>
      pure (Reference.name name.1 start, name.2 + 1)) = .ok (reference, used) →
      reference.offset = start := by
    intro terminator read
    rcases Reading.bind_eq_ok.mp read with ⟨⟨name, length⟩, _, read⟩
    injection Reading.pure_eq_ok.mp read with same
    exact same ▸ rfl
  unfold readNamedReference at read
  split at read
  · exact behind _ read
  · split at read
    · exact behind _ read
    · split at read
      · exact behind _ read
      · cases read

theorem offset_of_readNumericEscape {captures start used : Nat} {text : List UInt8}
    {reference : Reference}
    (read : readNumericEscape settings captures text start = .ok (.reference reference, used)) :
    reference.offset = start := by
  unfold readNumericEscape at read
  extract_lets digits number at read
  split at read
  · rcases Reading.bind_eq_ok.mp read with ⟨value, _, read⟩
    cases Reading.pure_eq_ok.mp read
  · injection read with same
    injection same with same
    injection same with same
    exact same ▸ rfl

theorem offset_of_readEscape {captures start used : Nat} {text : List UInt8}
    {reference : Reference}
    (read : readEscape settings captures text start = .ok (.reference reference, used)) :
    reference.offset = start := by
  unfold readEscape at read
  split at read
  · exact absurd read refuse_ne_ok
  · dsimp only at read
    split at read
    all_goals try cases read
    · split at read
      · exact absurd read refuseFor_ne_ok
      · cases read
    · rcases Reading.bind_eq_ok.mp read with ⟨⟨target, length⟩, reading, read⟩
      injection Reading.pure_eq_ok.mp read with same
      injection same with same
      exact same ▸ offset_of_readRelativeReference reading
    · rcases Reading.bind_eq_ok.mp read with ⟨⟨target, length⟩, reading, read⟩
      injection Reading.pure_eq_ok.mp read with same
      injection same with same
      exact same ▸ offset_of_readNamedReference reading
    · rcases Reading.bind_eq_ok.mp read with ⟨⟨item, length⟩, _, read⟩
      cases Reading.pure_eq_ok.mp read
    · rcases Reading.bind_eq_ok.mp read with ⟨⟨item, length⟩, _, read⟩
      cases Reading.pure_eq_ok.mp read
    · split at read
      · cases read
      · split at read
        · exact offset_of_readNumericEscape read
        · rcases Reading.bind_eq_ok.mp read with ⟨⟨character, length⟩, _, read⟩
          cases Reading.pure_eq_ok.mp read

theorem counted_of_plainly {offset : Nat} (counted : state.Counted known)
    (plainly : state.Plainly offset next) : next.Counted known := by
  cases plainly with
  | branch => exact counted.nextBranch
  | close closing => exact counted.closeGroup closing
  | repetition bounds manner => exact counted.repeatLatest bounds manner
  | set set => exact counted.addItem trivial
  | dot => exact counted.addItem (by split <;> trivial)
  | assertion condition => exact counted.addItem trivial
  | character character => exact counted.addCharacters _

theorem counted_of_readPiece {byte : UInt8} {rest : List UInt8} {offset used : Nat}
    (counted : state.Counted known)
    (here : ∀ reference : Reference, reference.offset = offset → known reference)
    (read : readPiece settings state byte rest offset = .ok (next, used)) : next.Counted known := by
  cases piece_of_readPiece read with
  | blank => exact counted
  | opening _ _ _ applied => exact counted.applyOpening (fun _ _ => here _ rfl) applied
  | @escape escape _ _ _ escaped =>
      have refers : ∀ reference, escape = .reference reference → known reference :=
        fun reference is => here reference (offset_of_readEscape (is ▸ escaped))
      exact counted.addEscape refers
  | plain _ _ _ plainly => exact counted_of_plainly counted plainly

theorem counted_of_readPieces {text : List UInt8} {offset : Nat} (counted : state.Counted known)
    (behind : ∀ reference : Reference, offset ≤ reference.offset → known reference)
    (read : readPieces settings state text offset = .ok next) : next.Counted known := by
  fun_induction readPieces settings state text offset with
  | case1 state offset =>
      injection read with same
      exact same ▸ counted
  | case2 => cases read
  | case3 state offset byte rest following used piece induction =>
      have here : ∀ reference : Reference, reference.offset = offset → known reference :=
        fun reference same => behind reference (Nat.le_of_eq same.symm)
      exact induction (counted_of_readPiece counted here piece)
        (fun reference later => behind reference (by omega)) read

end Reading

/-! ## Whole patterns -/

section WholePatterns

variable {known : Reference → Prop}

theorem groupsBelow_mapReferences {captures : Nat} {groups : Reference → List Nat} {tree : Tree}
    (counted : Tree.Counted captures known tree)
    (known : ∀ reference ∈ tree.references, ∀ group ∈ groups reference, group ≤ captures) :
    (tree.mapReferences groups).GroupsBelow (captures + 1) := by
  induction tree with
  | group body induction => exact induction counted known
  | repetition body least greatest greedy induction => exact induction counted known
  | look direction negated body induction => exact induction counted known
  | atomic body induction => exact induction counted known
  | capture number body induction =>
      exact ⟨Nat.lt_succ_of_le counted.1, induction counted.2 known⟩
  | sequence first second firstInduction secondInduction =>
      exact ⟨firstInduction counted.1 fun reference member =>
          known reference (List.mem_append_left _ member),
        secondInduction counted.2 fun reference member =>
          known reference (List.mem_append_right _ member)⟩
  | alternation first second firstInduction secondInduction =>
      exact ⟨firstInduction counted.1 fun reference member =>
          known reference (List.mem_append_left _ member),
        secondInduction counted.2 fun reference member =>
          known reference (List.mem_append_right _ member)⟩
  | backreference reference caseless =>
      exact fun group member =>
        Nat.lt_succ_of_le (known reference (List.mem_singleton_self reference) group member)
  | _ => trivial

theorem of_resolve {state : State} {tree : Tree} {resolved : Node (List Nat)}
    (resolving : resolve state tree = .ok resolved) :
    resolved = tree.mapReferences (groupsOf state.names)
      ∧ ∀ reference ∈ tree.references, missingNumber? state.captures reference = none
        ∧ missingName? state.names reference = none := by
  unfold resolve at resolving
  dsimp only at resolving
  split at resolving
  · exact absurd resolving refuse_ne_ok
  · rename_i noneMissing
    injection resolving with same
    rw [Option.orElse_eq_orElse, Option.orElse_eq_or, Option.or_eq_none_iff] at noneMissing
    refine ⟨same.symm, fun reference member => ?_⟩
    exact ⟨List.findSome?_eq_none_iff.mp noneMissing.1 reference member,
      List.findSome?_eq_none_iff.mp noneMissing.2 reference member⟩

theorem groupsBelow_of_resolve {state : State} {tree : Tree} {resolved : Node (List Nat)}
    (counted : state.Counted known) (treeCounted : Tree.Counted state.captures known tree)
    (succeeded : resolve state tree = .ok resolved) :
    resolved.GroupsBelow (state.captures + 1) := by
  rcases of_resolve succeeded with ⟨rfl, present⟩
  apply groupsBelow_mapReferences treeCounted
  intro reference member group groupMember
  cases reference with
  | number number offset =>
      have known := (present _ member).1
      rw [missingNumber?] at known
      rw [List.mem_singleton.mp groupMember]
      split at known
      · cases known
      · omega
  | name name offset =>
      rcases List.mem_map.mp groupMember with ⟨entry, entryMember, rfl⟩
      exact counted.names entry (List.mem_filter.mp entryMember).1

/-- The steps by which a pattern has been read. -/
theorem steps_of_parse {text : List UInt8} {requested : CompileOptions} {pattern : Pattern}
    (parsed : parse text requested = .ok pattern) :
    ∃ offset state tree,
      readVerbs requested text 0 = .ok (pattern.options, offset)
        ∧ lineRulesOf pattern.options = .ok pattern.lineRules
        ∧ readPieces (settingsOf pattern.options) (.start (.ofOptions pattern.options))
          (text.drop offset) offset = .ok state
        ∧ state.finish = .ok tree ∧ resolve state tree = .ok pattern.tree
        ∧ pattern.captures = state.captures ∧ pattern.names = state.names := by
  rw [parse] at parsed
  split at parsed
  · exact absurd parsed refuse_ne_ok
  · rcases Reading.bind_eq_ok.mp parsed with ⟨⟨effective, offset⟩, verbs, parsed⟩
    rcases Reading.bind_eq_ok.mp parsed with ⟨rules, lines, parsed⟩
    rcases Reading.bind_eq_ok.mp parsed with ⟨_, _, parsed⟩
    rcases Reading.bind_eq_ok.mp parsed with ⟨state, read, parsed⟩
    rcases Reading.bind_eq_ok.mp parsed with ⟨tree, finished, parsed⟩
    rcases Reading.bind_eq_ok.mp parsed with ⟨resolved, resolving, parsed⟩
    rw [← Reading.pure_eq_ok.mp parsed]
    exact ⟨offset, state, tree, verbs, lines, read, finished, resolving, rfl, rfl⟩

theorem groupsBelow_of_parse {text : List UInt8} {requested : CompileOptions} {pattern : Pattern}
    (parsed : parse text requested = .ok pattern) :
    pattern.tree.GroupsBelow (pattern.captures + 1) := by
  rcases steps_of_parse parsed with
    ⟨offset, state, tree, _, _, read, finished, resolving, captures, _⟩
  have counted : state.Counted fun _ => True :=
    counted_of_readPieces (.start _) (fun _ _ => trivial) read
  have treeCounted : Tree.Counted state.captures (fun _ => True) tree := by
    rw [State.finish] at finished
    split at finished
    · injection finished with same
      exact same ▸ counted.currentLevel
    · exact absurd finished refuse_ne_ok
  rw [captures]
  exact groupsBelow_of_resolve counted treeCounted resolving

theorem utf8_lineRules_of_parse {text : List UInt8} {requested : CompileOptions}
    {pattern : Pattern} (parsed : parse text requested = .ok pattern) :
    pattern.lineRules.utf8 = pattern.options.utf8 := by
  rcases steps_of_parse parsed with ⟨_, _, _, _, lines, _⟩
  rw [lineRulesOf] at lines
  split at lines
  · exact absurd lines refuseFor_ne_ok
  · split at lines
    · exact absurd lines refuse_ne_ok
    · exact absurd lines refuseFor_ne_ok
    · injection lines with same
      rw [← same]

end WholePatterns

end PerlRegex.Pattern
