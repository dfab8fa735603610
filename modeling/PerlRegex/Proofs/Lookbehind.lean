import PerlRegex.Pattern.Reader
import PerlRegex.Proofs.Execution
import PerlRegex.Proofs.Machine.Placing
import PerlRegex.Proofs.Machine.Positions
import PerlRegex.Proofs.Pattern.Reading
import PerlRegex.Proofs.Pattern.Relabelling
import PerlRegex.Proofs.Width

/-! A lookbehind goes back over as many characters as an alternative of its body takes, and never
checks that the alternative ends where it stands. It need not: the width that is measured on the
tree is the width of every match, and between the characters of a well-formed subject going back is
the converse of going on. So a lookbehind holds exactly where some text that ends there matches. -/

namespace PerlRegex

open Machine (Attempt)

/-! ## The tree of a lookbehind -/

namespace Node

/-- A lookbehind for one alternative, over the width of the alternative. -/
def lookBehind (negated : Bool) (branch : Node Reference) : Node Reference :=
  .look (.behind (branch.fixedWidth?.getD 0)) negated branch

/-- A tree that looks behind for each of some alternatives of fixed widths. One of them has to hold,
or none if it is negated. -/
structure LooksBehind (negated : Bool) (branches : List (Node Reference))
    (tree : Node Reference) : Prop where
  nonempty : branches ≠ []
  measured : ∀ branch ∈ branches, branch.fixedWidth?.isSome
  joined : if negated then tree = .ofSequence (branches.map (lookBehind true))
    else tree = .ofAlternatives (branches.map (lookBehind false))
      ∨ tree = .atomic (.ofAlternatives (branches.map (lookBehind false)))

theorem alternatives_ne_nil (node : Node Reference) : node.alternatives ≠ [] := by
  cases node <;> simp [alternatives]

theorem topAlternatives_ne_nil (node : Node Reference) : node.topAlternatives ≠ [] := by
  induction node with
  | group body induction => exact induction
  | _ => exact alternatives_ne_nil _

section

variable (transform : Reference → Other) {negated : Bool} {branches : List (Node Reference)}

theorem map_lookBehind_mapReferences (branches : List (Node Reference)) :
    (branches.map (lookBehind negated)).map (mapReferences transform) =
      (branches.map (mapReferences transform)).map (lookBehind negated) := by
  simp [lookBehind, mapReferences, Function.comp_def, fixedWidth_mapReferences]

theorem LooksBehind.mapReferences {tree : Node Reference}
    (looksBehind : LooksBehind negated branches tree) :
    LooksBehind negated (branches.map (Node.mapReferences transform))
      (tree.mapReferences transform) where
  nonempty := by simpa using looksBehind.nonempty
  measured := fun branch member => by
    rcases List.mem_map.mp member with ⟨branch, branchMember, rfl⟩
    rw [fixedWidth_mapReferences]
    exact looksBehind.measured branch branchMember
  joined := by
    have joined := looksBehind.joined
    split at joined
    · rw [if_pos ‹_›, joined, mapReferences_ofSequence, map_lookBehind_mapReferences]
    · rw [if_neg ‹_›, ← map_lookBehind_mapReferences, ← mapReferences_ofAlternatives]
      rcases joined with rfl | rfl
      · exact .inl rfl
      · exact .inr rfl

end

end Node

namespace Pattern

theorem looks_of_mapM {negated : Bool} {branches looks : List Tree} {start : Nat}
    (read : (branches.mapM fun branch =>
      match branch.fixedWidth? with
      | some width => .ok (Node.look (.behind width) negated branch)
      | none => refuse .lookbehindNotFixedLength start : Reading (List Tree)) = .ok looks) :
    looks = branches.map (Node.lookBehind negated)
      ∧ ∀ branch ∈ branches, branch.fixedWidth?.isSome := by
  constructor
  · have kept : looks.flatMap (fun look => [look]) =
        branches.flatMap fun branch => [Node.lookBehind negated branch] := by
      refine Reading.flatMap_of_mapM (fun branch look closed => ?_) read
      split at closed
      · rename_i width measured
        injection closed with same
        rw [← same, Node.lookBehind, measured, Option.getD_some]
      · exact absurd closed refuse_ne_ok
    rw [List.map_eq_flatMap, ← kept, List.flatMap_singleton']
  · intro branch member
    rcases Reading.exists_ok_of_mapM read member with ⟨look, closed⟩
    split at closed
    · rename_i width measured
      rw [measured]
      rfl
    · exact absurd closed refuse_ne_ok

theorem looksBehind_of_lookbehind {negated : Bool} {body tree : Tree} {start : Nat}
    (accepted : State.lookbehind negated body start = .ok tree) :
    Node.LooksBehind negated body.topAlternatives tree := by
  rw [State.lookbehind] at accepted
  rcases Reading.bind_eq_ok.mp accepted with ⟨looks, read, accepted⟩
  rcases looks_of_mapM read with ⟨same, measured⟩
  refine ⟨body.topAlternatives_ne_nil, measured, ?_⟩
  split at accepted
  · rename_i look
    rw [← Reading.pure_eq_ok.mp accepted]
    cases negated with
    | true => exact congrArg Node.ofSequence same
    | false => exact .inl (congrArg Node.ofAlternatives same)
  · rw [← Reading.pure_eq_ok.mp accepted, same]
    cases negated with
    | true => rfl
    | false => exact .inr rfl

end Pattern

/-! ## What a lookbehind finds -/

/-- A tree matches some text that ends at the position of a path. -/
def Machine.Attempt.MatchesBefore (attempt : Attempt) (branch : Node (List Nat)) (path : Path) :
    Prop :=
  ∃ start, attempt.Between start ∧
    ∃ result ∈ branch.results attempt { path with position := start },
      result.position = path.position

namespace Node

variable {attempt : Attempt} {path result : Path}

/-! Trees that take no text hold one after another if they all do. -/

theorem eq_of_mem_results_ofSequence {nodes : List (Node (List Nat))}
    (stays : ∀ node ∈ nodes, ∀ result ∈ node.results attempt path, result = path)
    (member : result ∈ (ofSequence nodes).results attempt path) : result = path := by
  fun_induction ofSequence nodes with
  | case1 => exact List.mem_singleton.mp member
  | case2 node => exact stays node List.mem_cons_self result member
  | case3 node rest more induction =>
      rw [results_sequence] at member
      rcases List.mem_flatMap.mp member with ⟨middle, middleMember, member⟩
      rw [stays node List.mem_cons_self middle middleMember] at member
      exact induction (fun other listed => stays other (List.mem_cons_of_mem node listed)) member

theorem results_ofSequence_ne_nil_iff {nodes : List (Node (List Nat))}
    (stays : ∀ node ∈ nodes, ∀ result ∈ node.results attempt path, result = path) :
    (ofSequence nodes).results attempt path ≠ [] ↔
      ∀ node ∈ nodes, node.results attempt path ≠ [] := by
  fun_induction ofSequence nodes with
  | case1 => simp
  | case2 node => simp
  | case3 node rest more induction =>
      have restStays := fun other listed => stays other (List.mem_cons_of_mem node listed)
      rw [results_sequence, List.forall_mem_cons, ← induction restStays]
      constructor
      · intro found
        rcases List.exists_mem_of_ne_nil _ found with ⟨last, member⟩
        rcases List.mem_flatMap.mp member with ⟨middle, middleMember, member⟩
        rw [stays node List.mem_cons_self middle middleMember] at member
        exact ⟨List.ne_nil_of_mem middleMember, List.ne_nil_of_mem member⟩
      · rintro ⟨first, second⟩
        rcases List.exists_mem_of_ne_nil _ first with ⟨middle, middleMember⟩
        rcases List.exists_mem_of_ne_nil _ second with ⟨last, member⟩
        have same := stays node List.mem_cons_self middle middleMember
        exact List.ne_nil_of_mem
          (List.mem_flatMap.mpr ⟨middle, middleMember, same.symm ▸ member⟩)

theorem results_ofAlternatives {nodes : List (Node (List Nat))} (nonempty : nodes ≠ []) :
    (ofAlternatives nodes).results attempt path =
      nodes.flatMap fun node => node.results attempt path := by
  fun_induction ofAlternatives nodes with
  | case1 => exact absurd rfl nonempty
  | case2 node => rw [List.flatMap_singleton]
  | case3 node rest more induction =>
      rw [results_alternation, List.flatMap_cons, induction fun empty => more empty]

/-! The widths of branches lead to where their matches begin. -/

theorem position_of_back (between : attempt.Between path.position) {branch : Node (List Nat)}
    {width start : Nat} (measured : branch.fixedWidth? = some width)
    (room : attempt.back path.position width = some start)
    (member : result ∈ branch.results attempt { path with position := start }) :
    result.position = path.position := by
  have taken : attempt.forward start width = some result.position :=
    forward_of_mem_results measured member
  rw [between.forward_of_back room] at taken
  injection taken with same
  exact same.symm

theorem matchesBefore_iff (between : attempt.Between path.position) {branch : Node (List Nat)}
    {width : Nat} (measured : branch.fixedWidth? = some width) :
    attempt.MatchesBefore branch path ↔
      ∃ start, attempt.back path.position width = some start
        ∧ branch.results attempt { path with position := start } ≠ [] := by
  constructor
  · rintro ⟨start, startBetween, result, member, same⟩
    have taken : attempt.forward start width = some result.position :=
      forward_of_mem_results measured member
    rw [same] at taken
    exact ⟨start, startBetween.back_of_forward taken, List.ne_nil_of_mem member⟩
  · rintro ⟨start, room, found⟩
    rcases List.exists_mem_of_ne_nil _ found with ⟨result, member⟩
    exact ⟨start, between.back room, result, member,
      position_of_back between measured room member⟩

theorem position_of_mem_results_lookBehind {negated : Bool} {branch : Node (List Nat)}
    (member : result ∈ (lookBehind negated branch).results attempt path) :
    result.position = path.position := by
  rcases mem_results_look member with rfl | ⟨start, seen, room, seenMember, rfl⟩ <;> rfl

theorem eq_of_mem_results_lookBehind {branch : Node (List Nat)}
    (member : result ∈ (lookBehind true branch).results attempt path) : result = path := by
  rw [lookBehind, results_look] at member
  split at member
  · simpa using member
  · simp only [if_true] at member
    split at member
    · exact List.mem_singleton.mp member
    · cases member

theorem results_lookBehind_ne_nil_iff (between : attempt.Between path.position) {negated : Bool}
    {branch : Node (List Nat)} (measured : branch.fixedWidth?.isSome) :
    (lookBehind negated branch).results attempt path ≠ [] ↔
      (attempt.MatchesBefore branch path ↔ negated = false) := by
  rcases Option.isSome_iff_exists.mp measured with ⟨width, measured⟩
  rw [matchesBefore_iff between measured, lookBehind, measured, Option.getD_some, results_look,
    Attempt.lookFrom]
  cases attempt.back path.position width with
  | none => cases negated <;> simp
  | some start => cases negated <;> simp

theorem eq_of_mem_results_map_lookBehind {branches : List (Node (List Nat))} :
    ∀ look ∈ branches.map (lookBehind true), ∀ result ∈ look.results attempt path,
      result = path := by
  intro look listed result member
  rcases List.mem_map.mp listed with ⟨branch, _, rfl⟩
  exact eq_of_mem_results_lookBehind member

namespace LooksBehind

variable {negated : Bool} {branches : List (Node (List Nat))} {tree : Node (List Nat)}

theorem results_eq (looksBehind : LooksBehind false branches tree) :
    let found := branches.flatMap fun branch => (lookBehind false branch).results attempt path
    tree.results attempt path = found ∨ tree.results attempt path = found.take 1 := by
  intro found
  have joined : tree = .ofAlternatives (branches.map (lookBehind false))
      ∨ tree = .atomic (.ofAlternatives (branches.map (lookBehind false))) := looksBehind.joined
  have same : (ofAlternatives (branches.map (lookBehind false))).results attempt path = found := by
    rw [results_ofAlternatives (by simpa using looksBehind.nonempty), List.flatMap_map]
  rcases joined with rfl | rfl
  · exact .inl same
  · rw [results_atomic, same]
    exact .inr rfl

theorem position_of_mem_results (looksBehind : LooksBehind negated branches tree)
    (member : result ∈ tree.results attempt path) : result.position = path.position := by
  cases negated with
  | true =>
      have joined : tree = .ofSequence (branches.map (lookBehind true)) := looksBehind.joined
      rw [joined] at member
      rw [eq_of_mem_results_ofSequence eq_of_mem_results_map_lookBehind member]
  | false =>
      have listed : result ∈ branches.flatMap fun branch =>
          (lookBehind false branch).results attempt path := by
        rcases looksBehind.results_eq with same | same
        · exact same ▸ member
        · rw [same] at member
          exact List.mem_of_mem_take member
      rcases List.mem_flatMap.mp listed with ⟨branch, _, member⟩
      exact position_of_mem_results_lookBehind member

/-- A lookbehind holds if one of its alternatives matches some text that ends there, and a negated
one if none of them does. -/
theorem results_ne_nil_iff (looksBehind : LooksBehind negated branches tree)
    (between : attempt.Between path.position) :
    tree.results attempt path ≠ [] ↔
      ((∃ branch ∈ branches, attempt.MatchesBefore branch path) ↔ negated = false) := by
  have each : ∀ branch ∈ branches, ((lookBehind negated branch).results attempt path ≠ [] ↔
      (attempt.MatchesBefore branch path ↔ negated = false)) := fun branch member =>
    results_lookBehind_ne_nil_iff between (looksBehind.measured branch member)
  cases negated with
  | true =>
      have joined : tree = .ofSequence (branches.map (lookBehind true)) := looksBehind.joined
      simp only [Bool.true_eq_false, iff_false] at each ⊢
      rw [joined, results_ofSequence_ne_nil_iff eq_of_mem_results_map_lookBehind,
        List.forall_mem_map, forall₂_congr each]
      simp
  | false =>
      have some : tree.results attempt path ≠ [] ↔
          (branches.flatMap fun branch => (lookBehind false branch).results attempt path)
            ≠ [] := by
        rcases looksBehind.results_eq with same | same
        · exact same ▸ Iff.rfl
        · rw [same, ne_eq, List.take_eq_nil_iff, or_iff_right Nat.one_ne_zero]
      simp only [iff_true] at each ⊢
      rw [some, ne_eq, List.flatMap_eq_nil_iff, Classical.not_forall]
      simp only [Classical.not_forall, exists_prop]
      exact exists_congr fun branch => and_congr_right (each branch)

end LooksBehind

end Node

/-! ## What the machine does -/

namespace Machine

/-- The position of a state, and the spans that its slots hold. -/
def State.path (state : State) : Path where
  position := state.position
  captures := (List.range (state.slots.size / 2)).map (groupSpan? state.slots)

theorem represents_path {state : State} {groups : Nat} (size : state.slots.size = 2 * groups) :
    Represents state.slots state.path.captures where
  size := by
    rw [State.path, List.length_map, List.length_range]
    omega
  span := fun group => by
    have count : state.slots.size / 2 = groups := by omega
    simp only [State.path, count, List.getElem?_map]
    rcases Nat.lt_or_ge group groups with below | beyond
    · rw [List.getElem?_range below]
      rfl
    · have outside : state.slots[2 * group]? = none := Array.getElem?_eq_none (by omega)
      rw [List.getElem?_eq_none (by simpa using beyond), groupSpan?, outside]
      rfl

namespace Attempt

variable {attempt : Attempt} {base : State} {exit register : Nat} {touched : Bool}
  {search : Search} {step : Step}

/-- The machine halts because the subject ends in the middle of a search, where a partial match is
wanted at once. -/
def CutsShort (attempt : Attempt) (search : Search) (step : Step) : Prop :=
  attempt.options.partialMode = .hard ∧ .ended ∈ search
    ∧ ∃ final, attempt.Leads step (.halt .cutShort final)

/-- The machine gets from a state to an address, where it has the same position. All that it has
changed on the way can be undone. -/
def Passes (attempt : Attempt) (state : State) (exit : Nat) : Prop :=
  ∃ (passed : State) (added : List Frame), attempt.Leads (.next state) (.next passed)
    ∧ passed.address = exit ∧ passed.position = state.position ∧ state.Extends 0 added passed

/-- The machine gets from a state to where it fails as if it had failed in that state. -/
def FallsBack (attempt : Attempt) (state : State) : Prop :=
  ∃ failed : State, attempt.Leads (.next state) failed.fail ∧ failed.Agrees state

theorem CutsShort.mono {event : Event} (cuts : attempt.CutsShort search step) :
    attempt.CutsShort (event :: search) step :=
  ⟨cuts.1, List.mem_cons_of_mem event cuts.2.1, cuts.2.2⟩

namespace Follows

theorem onward_or_cutsShort
    (follows : attempt.Follows base exit register touched (.ended :: search) step) :
    (∃ touched, attempt.Follows base exit register touched search step)
      ∨ attempt.CutsShort (.ended :: search) step := by
  rw [Follows] at follows
  split at follows
  · exact .inl ⟨touched, follows⟩
  · exact .inl ⟨true, follows⟩
  · rename_i hard
    exact .inr ⟨hard, List.mem_cons_self, follows⟩

theorem stands_or_cutsShort (found : search.results ≠ [])
    (follows : attempt.Follows base exit register touched search step) :
    (∃ path ∈ search.results, ∃ (state : State) (added : List Frame),
      attempt.Leads step (.next state) ∧ attempt.StandsAt exit path state
        ∧ base.Extends register added state) ∨ attempt.CutsShort search step := by
  induction search generalizing touched with
  | nil => exact absurd rfl found
  | cons event search induction =>
      cases event with
      | found path =>
          rcases follows with ⟨state, added, leads, _, stands, extension, _⟩
          exact .inl ⟨path, List.mem_cons_self, state, added, leads, stands, extension⟩
      | ended =>
          rcases onward_or_cutsShort follows with ⟨_, follows⟩ | cuts
          · exact (induction found follows).imp id CutsShort.mono
          · exact .inr cuts

theorem fails_or_cutsShort (nothing : search.results = [])
    (follows : attempt.Follows base exit register touched search step) :
    (∃ state : State, attempt.Leads step state.fail ∧ state.Agrees base)
      ∨ attempt.CutsShort search step := by
  induction search generalizing touched with
  | nil =>
      rcases follows with ⟨state, leads, agrees, _⟩
      exact .inl ⟨state, leads, agrees⟩
  | cons event search induction =>
      cases event with
      | found path => cases nothing
      | ended =>
          rcases onward_or_cutsShort follows with ⟨_, follows⟩ | cuts
          · exact (induction nothing follows).imp id CutsShort.mono
          · exact .inr cuts

end Follows

/-- A lookbehind with some alternatives, whose code is left at `exit`, is exact in a state. Its
alternatives have fixed widths. So many characters back, each match of an alternative ends at the
position of the state, and an alternative for which the subject has no room there matches no text in
front of the position. The machine passes the lookbehind if some alternative matches some text that
ends at the position, or none where the lookbehind is negated, and otherwise it falls back. Only
where a partial match is wanted at once, the end of the subject may keep it from either. -/
structure LooksBehindExactly (attempt : Attempt) (negated : Bool)
    (branches : List (Node (List Nat))) (tree : Node (List Nat)) (exit : Nat) (state : State) :
    Prop where
  ends : ∀ branch ∈ branches, ∃ width, branch.fixedWidth? = some width
    ∧ (∀ start, attempt.back state.position width = some start →
      ∀ result ∈ branch.results attempt { state.path with position := start },
        result.position = state.position)
    ∧ (attempt.back state.position width = none → ¬ attempt.MatchesBefore branch state.path)
  passes : ((∃ branch ∈ branches, attempt.MatchesBefore branch state.path) ↔ negated = false) →
    attempt.Passes state exit
      ∨ attempt.CutsShort (tree.interpret attempt state.path) (.next state)
  fallsBack : ¬ ((∃ branch ∈ branches, attempt.MatchesBefore branch state.path)
      ↔ negated = false) →
    attempt.FallsBack state
      ∨ attempt.CutsShort (tree.interpret attempt state.path) (.next state)

theorem HasTree.looksBehindExactly {negated : Bool} {branches : List (Node (List Nat))}
    {tree : Node (List Nat)} (looksBehind : Node.LooksBehind negated branches tree)
    {state : State} (hasTree : attempt.HasTree tree state.address register)
    (sound : state.Sound attempt.program attempt.subject.size)
    (between : attempt.Between state.position) :
    attempt.LooksBehindExactly negated branches tree
      (state.address + tree.codeSize attempt.program.utf8) state := by
  have stands : attempt.StandsAt state.address state.path state :=
    ⟨rfl, rfl, represents_path sound.stores.slotCount, sound.position⟩
  have follows := attempt.simulates tree state.address register state.path state hasTree.code
    stands (hasTree.fits sound)
  have holds : tree.results attempt state.path ≠ [] ↔
      ((∃ branch ∈ branches, attempt.MatchesBefore branch state.path) ↔ negated = false) :=
    looksBehind.results_ne_nil_iff between
  constructor
  case ends =>
    intro branch member
    rcases Option.isSome_iff_exists.mp (looksBehind.measured branch member) with
      ⟨width, measured⟩
    have begins : attempt.MatchesBefore branch state.path ↔
        ∃ start, attempt.back state.position width = some start
          ∧ branch.results attempt { state.path with position := start } ≠ [] :=
      Node.matchesBefore_iff between measured
    refine ⟨width, measured, ?_, ?_⟩
    · intro start room result found
      have there : attempt.Between state.path.position := between
      exact Node.position_of_back there measured room found
    · intro noRoom matchesBefore
      rcases begins.mp matchesBefore with ⟨start, room, _⟩
      rw [noRoom] at room
      cases room
  case passes =>
    intro matched
    rcases follows.stands_or_cutsShort (holds.mpr matched) with
      ⟨path, member, passed, added, leads, stands, extension⟩ | cuts
    · have same := looksBehind.position_of_mem_results member
      exact .inl ⟨passed, added, leads, stands.address, stands.position.trans same,
        extension.weaken (Nat.zero_le _)⟩
    · exact .inr cuts
  case fallsBack =>
    intro unmatched
    exact follows.fails_or_cutsShort (Classical.not_not.mp (mt holds.mp unmatched))

end Attempt

end Machine

/-! ## Lookbehinds are exact -/

/-- Every match of a tree of a fixed width takes so many characters. Therefore lookbehinds are
exact, whatever the subject outside UTF-8 mode, and for every well-formed subject in UTF-8 mode:
wherever an attempt comes to a lookbehind of the pattern and does not stand within a character, the
lookbehind holds if and only if one of its alternatives matches some text that ends there. From a
start offset between characters an attempt comes to no other positions. -/
theorem lookbehind_exact {text : List UInt8} {options : CompileOptions} {execution : Execution}
    (compiled : Program.compile text options = .ok execution.program)
    (valid : execution.program.utf8 = true → Utf8.isValid execution.subject.toList = true) :
    (∀ (attempt : Attempt) (path : Path) (node : Node (List Nat)) (width : Nat),
      node.fixedWidth? = some width → ∀ result ∈ node.results attempt path,
        attempt.forward path.position width = some result.position)
    ∧ (∀ start ∈ execution.starts, ∀ state, (execution.attemptAt start).Reaches state →
      (execution.program.utf8 = true →
        Utf8.isBoundary execution.subject state.position = true) →
      ∀ (negated : Bool) (body unresolved : Pattern.Tree) (parenthesis : Nat)
        (groups : Pattern.Reference → List Nat) (register : Nat),
      Pattern.State.lookbehind negated body parenthesis = .ok unresolved →
      let tree := unresolved.mapReferences groups
      Node.Places execution.program.utf8 tree state.address register
        execution.program.pattern.tree 0 0 →
      (execution.attemptAt start).LooksBehindExactly negated
        (body.mapReferences groups).topAlternatives tree
        (state.address + tree.codeSize execution.program.utf8) state)
    ∧ ((execution.program.utf8 = true →
        Utf8.isBoundary execution.subject execution.startOffset = true) →
      ∀ start ∈ execution.starts, ∀ state, (execution.attemptAt start).Reaches state →
        (execution.attemptAt start).Between state.position) := by
  have made := Machine.Compiled.of_compile compiled
  have formed : execution.program.utf8 = true → Utf8.WellFormed execution.subject.toList :=
    fun utf8 => Utf8.wellFormed_of_isValid (valid utf8)
  refine ⟨fun _ _ _ _ measured _ => Node.forward_of_mem_results measured, ?_, ?_⟩
  · intro start member state reaches boundary negated body unresolved parenthesis groups register
      accepted tree places
    have sound := reaches.sound made (Execution.le_size_of_mem_starts member)
    have between : (execution.attemptAt start).Between state.position := fun utf8 =>
      Utf8.between_of_isBoundary (formed utf8) sound.position (boundary utf8)
    have looksBehind :
        Node.LooksBehind negated (body.mapReferences groups).topAlternatives tree := by
      rw [Node.topAlternatives_mapReferences]
      exact (Pattern.looksBehind_of_lookbehind accepted).mapReferences groups
    have whole : (execution.attemptAt start).HasTree execution.program.pattern.tree 0 0 :=
      .of_compiled made
    exact (whole.of_places places).looksBehindExactly looksBehind sound between
  · intro boundary start member state reaches
    have front : (execution.attemptAt start).Between 0 := fun utf8 =>
      Utf8.between_zero (formed utf8)
    exact (reaches.all (Machine.Attempt.keeps_between made.lines)
      (Execution.between_of_mem_starts member formed boundary) front).position

deriving instance DecidableEq for Node

/-- `(?<=ab|é)c` goes back two characters or one. In front of the `c` of `éc` there is no room for
two, but the other alternative matches the one of two bytes, so the attempt that begins there passes
the lookbehind, also in a search that began within `é`. -/
theorem lookbehind_exact_alternatives :
    ∃ program, Program.compile "(?<=ab|é)c".toUTF8.toList { utf8 := true } = .ok program
      ∧ (Execution.attemptAt
        ⟨program, none, {}, "éc".toUTF8.data, 1, { noUtf8Check := true }⟩ 2).Passes
        (.initial program 2) 11 := by
  let first : Pattern.Tree := .sequence (.literal 0x61 false) (.literal 0x62 false)
  let second : Pattern.Tree := .literal 0xE9 false
  let unresolved : Pattern.Tree :=
    .atomic (.alternation (.look (.behind 2) false first) (.look (.behind 1) false second))
  let groups : Pattern.Reference → List Nat := fun _ => []
  let tree := unresolved.mapReferences groups
  let branch := second.mapReferences groups
  have evaluated : ∃ program,
      Program.compile "(?<=ab|é)c".toUTF8.toList { utf8 := true } = .ok program
        ∧ program.pattern.tree = .sequence tree (.literal 0x63 false)
        ∧ tree.codeSize program.utf8 = 11
        ∧ (Machine.State.initial program 2).path = ⟨2, [none]⟩
        ∧ let execution : Execution :=
            ⟨program, none, {}, "éc".toUTF8.data, 1, { noUtf8Check := true }⟩
          2 ∈ execution.starts
            ∧ branch.results (execution.attemptAt 2) ⟨0, [none]⟩ = [⟨2, [none]⟩] :=
    exists_compiled (by decide +kernel)
  rcases evaluated with ⟨program, compiled, whole, size, path, member, found⟩
  refine ⟨program, compiled, ?_⟩
  let execution : Execution :=
    ⟨program, none, {}, "éc".toUTF8.data, 1, { noUtf8Check := true }⟩
  have formed : Utf8.isValid "éc".toUTF8.data.toList = true := by decide +kernel
  have boundary : Utf8.isBoundary "éc".toUTF8.data 2 = true := by decide +kernel
  have places : Node.Places program.utf8 tree 0 0 program.pattern.tree 0 0 := whole ▸ .first .here
  have lookbehinds := (@lookbehind_exact _ _ execution compiled fun _ => formed).2.1
  have exact := lookbehinds 2 member _ .initial (fun _ => boundary) false
    (.alternation first second) unresolved 0 groups 0 rfl places
  have before : (execution.attemptAt 2).MatchesBefore branch
      (Machine.State.initial program 2).path := by
    rw [path]
    exact ⟨0, fun _ => Utf8.between_zero (Utf8.wellFormed_of_isValid formed), ⟨2, [none]⟩,
      found ▸ List.mem_singleton_self _, rfl⟩
  have listed : branch ∈ ((Node.alternation first second).mapReferences groups).topAlternatives :=
    List.mem_cons_of_mem _ List.mem_cons_self
  rcases exact.passes (iff_of_true ⟨branch, listed, before⟩ rfl) with passes | ⟨hard, _⟩
  · rw [size] at passes
    exact passes
  · cases hard

/-- From within a character, as a search may begin whose text is not checked, going back leads to
the beginning of the character, and the `.` of `(?<=.)` ends behind it. Then the lookbehind holds
though no match of `.` ends there. Going back from the end of `é` leads to its beginning also, so
`(?<=©)` does not hold there, though `©` matches the second byte. And where a partial match is wanted
at once, `a(?<=a$)` is cut short at the end of `a`, though `a$` matches all of it. -/
theorem lookbehind_within_character :
    (∃ program, Program.compile "(?<=.)".toUTF8.toList { utf8 := true } = .ok program
      ∧ program.pattern.tree = .look (.behind 1) false .notNewline
      ∧ Utf8.isValid [0xC3, 0xA9] = true
      ∧ program.execute none {} #[0xC3, 0xA9] 1 { noUtf8Check := true } =
        .ok (.matched [some ⟨1, 1⟩])
      ∧ let attempt := Execution.attemptAt
          ⟨program, none, {}, #[0xC3, 0xA9], 1, { noUtf8Check := true }⟩ 1
        attempt.back 1 1 = some 0
        ∧ Node.notNewline.results attempt ⟨0, [none]⟩ = [⟨2, [none]⟩]
        ∧ ∀ start, ∀ result ∈ Node.notNewline.results attempt ⟨start, [none]⟩,
          result.position ≠ 1)
    ∧ (∃ program, Program.compile "(?<=©)".toUTF8.toList { utf8 := true } = .ok program
      ∧ program.pattern.tree = .look (.behind 1) false (.literal 0xA9 false)
      ∧ (Node.literal 0xA9 false).results
        (Execution.attemptAt ⟨program, none, {}, #[0xC3, 0xA9], 2, {}⟩ 2) ⟨1, [none]⟩ =
          [⟨2, [none]⟩]
      ∧ program.execute none {} #[0xC3, 0xA9] 2 {} = .ok .noMatch)
    ∧ ∃ program, Program.compile "a(?<=a$)".toUTF8.toList {} = .ok program
      ∧ let branch := .sequence (.literal 0x61 false) (.assertion (.lineEnd false false))
        program.pattern.tree = .sequence (.literal 0x61 false) (.look (.behind 1) false branch)
        ∧ (Execution.attemptAt ⟨program, none, {}, #[0x61], 0, { partialHard := true }⟩
          0).MatchesBefore branch ⟨1, [none]⟩
        ∧ program.execute none {} #[0x61] 0 { partialHard := true } = .ok (.cutShort ⟨0, 1⟩) := by
  let branch : Node (List Nat) :=
    .sequence (.literal 0x61 false) (.assertion (.lineEnd false false))
  have unchecked : ∃ program, Program.compile "(?<=.)".toUTF8.toList { utf8 := true } = .ok program
      ∧ program.pattern.tree = .look (.behind 1) false .notNewline
      ∧ program.execute none {} #[0xC3, 0xA9] 1 { noUtf8Check := true } =
        .ok (.matched [some ⟨1, 1⟩])
      ∧ let attempt := Execution.attemptAt
          ⟨program, none, {}, #[0xC3, 0xA9], 1, { noUtf8Check := true }⟩ 1
        attempt.back 1 1 = some 0 ∧ attempt.characterAt 0 = some (0xE9, 2)
        ∧ Node.notNewline.results attempt ⟨0, [none]⟩ = [⟨2, [none]⟩] :=
    exists_compiled (by decide +kernel)
  have misses : ∃ program, Program.compile "(?<=©)".toUTF8.toList { utf8 := true } = .ok program
      ∧ program.pattern.tree = .look (.behind 1) false (.literal 0xA9 false)
      ∧ (Node.literal 0xA9 false).results
        (Execution.attemptAt ⟨program, none, {}, #[0xC3, 0xA9], 2, {}⟩ 2) ⟨1, [none]⟩ =
          [⟨2, [none]⟩]
      ∧ program.execute none {} #[0xC3, 0xA9] 2 {} = .ok .noMatch :=
    exists_compiled (by decide +kernel)
  have cut : ∃ program, Program.compile "a(?<=a$)".toUTF8.toList {} = .ok program
      ∧ program.utf8 = false
      ∧ program.pattern.tree = .sequence (.literal 0x61 false) (.look (.behind 1) false branch)
      ∧ branch.results (Execution.attemptAt
          ⟨program, none, {}, #[0x61], 0, { partialHard := true }⟩ 0) ⟨0, [none]⟩ = [⟨1, [none]⟩]
      ∧ program.execute none {} #[0x61] 0 { partialHard := true } = .ok (.cutShort ⟨0, 1⟩) :=
    exists_compiled (by decide +kernel)
  rcases unchecked with ⟨program, compiled, tree, matched, back, first, found⟩
  rcases cut with ⟨other, otherCompiled, bytes, otherTree, otherFound, cut⟩
  refine ⟨⟨program, compiled, tree, by decide +kernel, matched, back, found, ?_⟩, misses,
    other, otherCompiled, otherTree, ?_, cut⟩
  · intro start result member same
    rcases Attempt.mem_results_searchCharacter.mp (Attempt.mem_results_searchNotNewline member) with
      ⟨character, length, present, _, rfl⟩
    -- A match that ends at 1 would take one byte from 0 on, where a character of two bytes is.
    have positive := (Attempt.length_of_characterAt present).1
    have front : start = 0 := by
      dsimp only at same
      omega
    rw [front, first] at present
    cases present
    dsimp only at same
    omega
  · refine ⟨0, fun utf8 => ?_, ⟨1, [none]⟩, otherFound ▸ List.mem_singleton_self _, rfl⟩
    rw [show other.utf8 = true from utf8] at bytes
    cases bytes

end PerlRegex
