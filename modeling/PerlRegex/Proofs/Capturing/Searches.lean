import PerlRegex.Proofs.Capturing.Trees
import PerlRegex.Proofs.Machine.Decision

/-! Trees that differ in their groups lead through the same positions, in the same order, and meet
the end of the subject at the same points. Only the spans on the way are different ones. -/

namespace PerlRegex

namespace Search

/-! ## Searches through the same positions -/

/-- Searches that go the same way, whatever the groups hold on it. -/
inductive Alike : Search → Search → Prop
  | nil : Alike [] []
  | found {path other : Path} {search otherSearch : Search} :
      other.position = path.position → Alike search otherSearch →
      Alike (.found path :: search) (.found other :: otherSearch)
  | ended {search otherSearch : Search} :
      Alike search otherSearch → Alike (.ended :: search) (.ended :: otherSearch)

namespace Alike

variable {search other : Search} {path otherPath : Path}

theorem single (same : otherPath.position = path.position) :
    Alike [.found path] [.found otherPath] :=
  .found same .nil

theorem append {rest otherRest : Search} (alike : Alike search other)
    (restAlike : Alike rest otherRest) : Alike (search ++ rest) (other ++ otherRest) := by
  induction alike with
  | nil => exact restAlike
  | found same _ induction => exact .found same induction
  | ended _ induction => exact .ended induction

theorem andThen {next otherNext : Path → Search} (alike : Alike search other)
    (nextAlike : ∀ path otherPath : Path, otherPath.position = path.position →
      Alike (next path) (otherNext otherPath)) :
    Alike (search.andThen next) (other.andThen otherNext) := by
  induction alike with
  | nil => exact .nil
  | found same _ induction => exact (nextAlike _ _ same).append induction
  | ended _ induction => exact .ended induction

theorem first (alike : Alike search other) : Alike search.first other.first := by
  induction alike with
  | nil => exact .nil
  | found same _ _ => exact .single same
  | ended _ induction => exact .ended induction

theorem absence (same : otherPath.position = path.position) (alike : Alike search other) :
    Alike (search.absence path) (other.absence otherPath) := by
  induction alike with
  | nil => exact .single same
  | found _ _ _ => exact .nil
  | ended _ induction => exact .ended induction

theorem prefer (greedy : Bool) (alike : Alike search other)
    (same : otherPath.position = path.position) :
    Alike (Search.prefer greedy search path) (Search.prefer greedy other otherPath) := by
  cases greedy with
  | true => exact alike.append (.single same)
  | false => exact .found same alike

section Repetition

variable {body otherBody : Path → Search}
  (bodyAlike : ∀ path otherPath : Path, otherPath.position = path.position →
    Alike (body path) (otherBody otherPath))
include bodyAlike

theorem exactly (count : Nat) (same : otherPath.position = path.position) :
    Alike (Search.exactly body count path) (Search.exactly otherBody count otherPath) := by
  induction count generalizing path otherPath with
  | zero => exact .single same
  | succ count induction => exact (bodyAlike _ _ same).andThen fun _ _ => induction

theorem upTo (greedy : Bool) (count : Nat) (same : otherPath.position = path.position) :
    Alike (Search.upTo body greedy count path) (Search.upTo otherBody greedy count otherPath) := by
  induction count generalizing path otherPath with
  | zero => exact .single same
  | succ count induction =>
      exact ((bodyAlike _ _ same).andThen fun _ _ => induction).prefer greedy same

theorem unbounded (size : Nat) (greedy : Bool) (same : otherPath.position = path.position) :
    Alike (Search.unbounded size body greedy path)
      (Search.unbounded size otherBody greedy otherPath) := by
  fun_induction Search.unbounded size body greedy path generalizing otherPath with
  | case1 path induction =>
      rw [Search.unbounded]
      refine Alike.prefer greedy ((bodyAlike _ _ same).andThen fun next otherNext nextSame => ?_) same
      rw [same, nextSame]
      split
      · rename_i progress
        exact induction next progress nextSame
      · exact .single nextSame

theorem optional (size : Nat) (greedy : Bool) (limit : Option Nat)
    (same : otherPath.position = path.position) :
    Alike (Search.optional size body greedy limit path)
      (Search.optional size otherBody greedy limit otherPath) := by
  cases limit with
  | some limit => exact upTo bodyAlike greedy limit same
  | none => exact unbounded bodyAlike size greedy same

end Repetition

end Alike

/-! ## One body or its alternatives -/

/-- Committing to the first path of a part changes nothing for the first path of the whole. -/
theorem first_append_first (search rest : Search) :
    first (search ++ rest.first) = first (search ++ rest) := by
  induction search with
  | nil =>
      induction rest with
      | nil => rfl
      | cons event rest induction =>
          cases event with
          | found path => rfl
          | ended => exact congrArg (List.cons Event.ended) induction
  | cons event search induction =>
      cases event with
      | found path => rfl
      | ended => exact congrArg (List.cons Event.ended) induction

theorem first_first_append (search rest : Search) :
    first (search.first ++ rest) = first (search ++ rest) := by
  induction search with
  | nil => rfl
  | cons event search induction =>
      cases event with
      | found path => rfl
      | ended => exact congrArg (List.cons Event.ended) induction

theorem first_first (search : Search) : first search.first = search.first := by
  have same := first_first_append search []
  rw [List.append_nil, List.append_nil] at same
  exact same

theorem first_andThen_found (change : Path → Path) (search : Search) :
    (search.first.andThen fun path => [.found (change path)]) =
      first (search.andThen fun path => [.found (change path)]) := by
  induction search with
  | nil => rfl
  | cons event search induction =>
      cases event with
      | found path => rfl
      | ended => exact congrArg (List.cons Event.ended) induction

theorem append_andThen (search rest : Search) (next : Path → Search) :
    (search ++ rest).andThen next = search.andThen next ++ rest.andThen next :=
  List.flatMap_append

theorem absence_append {path : Path} {search rest : Search} {next : Path → Search}
    (follows : next path = rest.absence path) :
    (search ++ rest).absence path = (search.absence path).andThen next := by
  induction search with
  | nil => exact follows.symm.trans (List.append_nil _).symm
  | cons event search induction =>
      cases event with
      | found path => rfl
      | ended => exact congrArg (List.cons Event.ended) induction

end Search

namespace Node

variable {attempt : Machine.Attempt} {path : Path}

theorem interpret_alternatives (node : Node (List Nat)) :
    (node.alternatives.flatMap fun branch => branch.interpret attempt path) =
      node.interpret attempt path := by
  induction node with
  | alternation first second _ induction =>
      rw [alternatives, List.flatMap_cons, induction, interpret]
  | _ => exact List.flatMap_singleton ..

theorem interpret_topAlternatives (node : Node (List Nat)) :
    (node.topAlternatives.flatMap fun branch => branch.interpret attempt path) =
      node.interpret attempt path := by
  induction node with
  | group body induction => exact induction
  | _ => exact interpret_alternatives _

theorem interpret_ofAlternatives {nodes : List (Node (List Nat))} (nonempty : nodes ≠ []) :
    (ofAlternatives nodes).interpret attempt path =
      nodes.flatMap fun node => node.interpret attempt path := by
  fun_induction ofAlternatives nodes with
  | case1 => exact absurd rfl nonempty
  | case2 node => exact (List.flatMap_singleton ..).symm
  | case3 node rest more induction =>
      rw [interpret, List.flatMap_cons, induction fun empty => more empty]

section LooksBehind

variable {branches : List (Node (List Nat))} {width : Nat}

theorem map_lookBehind_of_width (negated : Bool)
    (measured : ∀ branch ∈ branches, branch.fixedWidth? = some width) :
    branches.map (lookBehind negated) = branches.map (look (.behind width) negated) := by
  refine List.map_congr_left fun branch member => ?_
  rw [lookBehind, measured branch member, Option.getD_some]

/-- The first thing seen by looking back at some alternatives one by one, from one place, is the
first thing seen by looking back at all of them. -/
theorem first_flatMap_look (branches : List (Node (List Nat))) {start : Nat}
    (room : attempt.lookFrom (.behind width) path.position = some start) :
    Search.first (branches.flatMap fun branch =>
        (look (.behind width) false branch).interpret attempt path) =
      (Search.first (branches.flatMap fun branch =>
        branch.interpret attempt { path with position := start })).andThen
          fun seen => [.found { seen with position := path.position }] := by
  induction branches with
  | nil => rfl
  | cons branch branches induction =>
      have looks : (look (.behind width) false branch).interpret attempt path =
          (branch.interpret attempt { path with position := start }).first.andThen
            fun seen => [.found { seen with position := path.position }] := by
        rw [interpret, room]
        rfl
      rw [List.flatMap_cons, List.flatMap_cons, looks]
      simp only [Search.first_andThen_found, Search.append_andThen,
        Search.first_first_append] at induction ⊢
      rw [← Search.first_append_first, induction, Search.first_append_first]

theorem interpret_ofSequence_look (nonempty : branches ≠ []) {start : Nat}
    (room : attempt.lookFrom (.behind width) path.position = some start) :
    (ofSequence (branches.map (look (.behind width) true))).interpret attempt path =
      Search.absence path (branches.flatMap fun branch =>
        branch.interpret attempt { path with position := start }) := by
  have looks : ∀ branch : Node (List Nat),
      (look (.behind width) true branch).interpret attempt path =
        (branch.interpret attempt { path with position := start }).absence path := by
    intro branch
    rw [interpret, room]
    rfl
  induction branches with
  | nil => exact absurd rfl nonempty
  | cons branch branches induction =>
      cases branches with
      | nil =>
          rw [List.flatMap_singleton]
          exact looks branch
      | cons second rest =>
          rw [List.flatMap_cons, Search.absence_append (induction (List.cons_ne_nil _ _)),
            ← looks branch]
          rfl

theorem interpret_ofSequence_look_of_none
    (none : attempt.lookFrom (.behind width) path.position = none) :
    (ofSequence (branches.map (look (.behind width) true))).interpret attempt path =
      [.found path] := by
  have looks : ∀ branch : Node (List Nat),
      (look (.behind width) true branch).interpret attempt path = [.found path] := by
    intro branch
    rw [interpret, none]
    rfl
  induction branches with
  | nil => rfl
  | cons branch branches induction =>
      cases branches with
      | nil => exact looks branch
      | cons second rest =>
          have continues : (sequence (look (.behind width) true branch)
              (ofSequence ((second :: rest).map (look (.behind width) true)))).interpret attempt
                path = [.found path] := by
            rw [interpret, looks branch, Search.found_andThen, induction]
            rfl
          exact continues

theorem interpret_lookBehindAll_false (nonempty : branches ≠ [])
    (measured : ∀ branch ∈ branches, branch.fixedWidth? = some width) :
    (lookBehindAll false branches).interpret attempt path =
      Search.first (branches.flatMap fun branch =>
        (look (.behind width) false branch).interpret attempt path) := by
  have looks := map_lookBehind_of_width false measured
  match branches with
  | [] => exact absurd rfl nonempty
  | [branch] =>
      have whole : lookBehindAll false [branch] = look (.behind width) false branch :=
        List.head_eq_of_cons_eq looks
      rw [whole, List.flatMap_singleton, interpret]
      cases attempt.lookFrom (.behind width) path.position with
      | none => rfl
      | some start =>
          have committed := Search.first_andThen_found
            (fun seen => { seen with position := path.position })
            (branch.interpret attempt { path with position := start })
          exact committed.trans ((Search.first_first _).symm.trans
            (congrArg Search.first committed.symm))
  | first :: second :: rest =>
      have whole : lookBehindAll false (first :: second :: rest) =
          atomic (ofAlternatives ((first :: second :: rest).map (look (.behind width) false))) :=
        congrArg (fun looks => atomic (ofAlternatives looks)) looks
      rw [whole, interpret, interpret_ofAlternatives (by simp), List.flatMap_map]

/-- Looking back at each alternative of a tree of a fixed width is looking back at the tree. -/
theorem interpret_lookBehindAll {node : Node (List Nat)} (measured : node.fixedWidth? = some width)
    (negated : Bool) :
    (lookBehindAll negated node.topAlternatives).interpret attempt path =
      (look (.behind width) negated node).interpret attempt path := by
  have nonempty := node.topAlternatives_ne_nil
  have each : ∀ branch ∈ node.topAlternatives, branch.fixedWidth? = some width :=
    fun branch member => fixedWidth_of_mem_topAlternatives measured member
  have body : ∀ path, node.interpret attempt path =
      node.topAlternatives.flatMap fun branch => branch.interpret attempt path :=
    fun path => (interpret_topAlternatives node).symm
  rw [interpret]
  generalize node.topAlternatives = branches at nonempty each body
  cases negated with
  | true =>
      have sequence : lookBehindAll true branches =
          ofSequence (branches.map (look (.behind width) true)) := by
        rw [← map_lookBehind_of_width true each]
        rcases branches with _ | ⟨branch, _ | ⟨second, rest⟩⟩ <;> rfl
      rw [sequence]
      cases room : attempt.lookFrom (.behind width) path.position with
      | none => exact interpret_ofSequence_look_of_none room
      | some start =>
          rw [interpret_ofSequence_look nonempty room, ← body]
          rfl
  | false =>
      -- The alternatives look equally far back: there is room for each of them or for none.
      cases room : attempt.lookFrom (.behind width) path.position with
      | none =>
          have looks : ∀ branch : Node (List Nat),
              (look (.behind width) false branch).interpret attempt path = [] := by
            intro branch
            rw [interpret, room]
            rfl
          rw [interpret_lookBehindAll_false nonempty each, List.flatMap_eq_nil_iff.mpr]
          · rfl
          · exact fun branch _ => looks branch
      | some start =>
          rw [interpret_lookBehindAll_false nonempty each, first_flatMap_look branches room, ← body]
          rfl

end LooksBehind

end Node

/-! ## Attempts -/

namespace Machine

/-- Attempts at the same position, of programs that go by the same rules. -/
structure Attempt.SameRules (attempt other : Attempt) : Prop where
  subject : other.subject = attempt.subject
  options : other.options = attempt.options
  startOffset : other.startOffset = attempt.startOffset
  start : other.start = attempt.start
  utf8 : other.program.utf8 = attempt.program.utf8
  ucp : other.program.ucp = attempt.program.ucp
  lineRules : other.program.pattern.lineRules = attempt.program.pattern.lineRules

namespace Attempt.SameRules

variable {attempt other : Attempt} (same : attempt.SameRules other)
include same

theorem characterAt (position : Nat) :
    other.characterAt position = attempt.characterAt position := by
  rw [Attempt.characterAt, Attempt.characterAt, same.utf8, same.subject]

theorem characterBefore (position : Nat) :
    other.characterBefore position = attempt.characterBefore position := by
  rw [Attempt.characterBefore, Attempt.characterBefore, same.utf8, same.subject]

theorem back (position count : Nat) : other.back position count = attempt.back position count := by
  induction count generalizing position with
  | zero => rfl
  | succ count induction =>
      rw [Attempt.back, Attempt.back, same.characterBefore]
      split
      · rfl
      · exact induction _

theorem lookFrom (direction : LookDirection) (position : Nat) :
    other.lookFrom direction position = attempt.lookFrom direction position := by
  cases direction with
  | ahead => rfl
  | behind width => exact same.back position width

theorem isWordAt (character : Option (Nat × Nat)) :
    other.isWordAt character = attempt.isWordAt character := by
  rw [Attempt.isWordAt, Attempt.isWordAt, same.ucp]

theorem atFinalNewline (position : Nat) :
    other.atFinalNewline position = attempt.atFinalNewline position := by
  rw [Attempt.atFinalNewline, Attempt.atFinalNewline, same.lineRules, same.subject]

theorem holds (position : Nat) (condition : Assertion) :
    other.holds position condition = attempt.holds position condition := by
  unfold Attempt.holds
  simp only [same.subject, same.options, same.startOffset, same.lineRules, same.atFinalNewline,
    same.isWordAt, same.characterAt, same.characterBefore]

theorem looksPastEnd (condition : Assertion) :
    other.looksPastEnd condition = attempt.looksPastEnd condition := by
  unfold Attempt.looksPastEnd
  rw [same.options]

theorem refusesEmpty (position : Nat) :
    other.refusesEmpty position = attempt.refusesEmpty position := by
  rw [Attempt.refusesEmpty, Attempt.refusesEmpty, same.start, same.options, same.startOffset]

/-! ## Tests -/

theorem searchEnd (position : Nat) :
    Search.Alike (attempt.searchEnd position) (other.searchEnd position) := by
  rw [Attempt.searchEnd, Attempt.searchEnd, same.start]
  split
  · exact .nil
  · exact .ended .nil

variable {path otherPath : Path} (here : otherPath.position = path.position)
include here

theorem searchCharacter (accepts : Nat → Bool) :
    Search.Alike (attempt.searchCharacter accepts path)
      (other.searchCharacter accepts otherPath) := by
  rw [Attempt.searchCharacter, Attempt.searchCharacter, same.characterAt, here]
  split
  · split
    · exact .single rfl
    · exact .nil
  · exact same.searchEnd _

theorem searchNotNewline :
    Search.Alike (attempt.searchNotNewline path) (other.searchNotNewline otherPath) := by
  rw [Attempt.searchNotNewline, Attempt.searchNotNewline, same.lineRules, same.subject, here]
  split
  · exact .nil
  · exact same.searchCharacter here _

theorem searchLineBreak :
    Search.Alike (attempt.searchLineBreak path) (other.searchLineBreak otherPath) := by
  rw [Attempt.searchLineBreak, Attempt.searchLineBreak, same.lineRules, same.subject, here]
  split
  · exact .single rfl
  · split
    · exact same.searchEnd _
    · exact .nil

theorem searchCondition (condition : Assertion) :
    Search.Alike (attempt.searchCondition condition path)
      (other.searchCondition condition otherPath) := by
  rw [Attempt.searchCondition, Attempt.searchCondition, same.subject, same.looksPastEnd, same.holds,
    here]
  apply Search.Alike.append
  · split
    · exact same.searchEnd _
    · exact .nil
  · split
    · exact .single here
    · exact .nil

end Attempt.SameRules

end Machine

theorem Node.alike_interpret_look {attempt other : Machine.Attempt}
    (same : attempt.SameRules other) (direction : LookDirection) (negated : Bool)
    {body otherBody : Node (List Nat)}
    (alike : ∀ path otherPath : Path, otherPath.position = path.position →
      Search.Alike (body.interpret attempt path) (otherBody.interpret other otherPath))
    {path otherPath : Path} (here : otherPath.position = path.position) :
    Search.Alike ((look direction negated body).interpret attempt path)
      ((look direction negated otherBody).interpret other otherPath) := by
  rw [interpret, interpret, same.lookFrom, here]
  cases attempt.lookFrom direction path.position with
  | none =>
      cases negated with
      | true => exact .single here
      | false => exact .nil
  | some start =>
      have bodies := alike { path with position := start } { otherPath with position := start } rfl
      cases negated with
      | true => exact bodies.absence here
      | false => exact bodies.first.andThen fun _ _ _ => .single rfl

/-- Trees that differ in their groups are searched alike. -/
theorem Node.Alike.interpret {attempt other : Machine.Attempt} (same : attempt.SameRules other)
    {node otherNode : Node (List Nat)} (alike : node.Alike otherNode) {path otherPath : Path}
    (here : otherPath.position = path.position) :
    Search.Alike (node.interpret attempt path) (otherNode.interpret other otherPath) := by
  induction alike generalizing path otherPath with
  | empty => exact .single here
  | literal character caseless =>
      rw [Node.interpret, Node.interpret, same.utf8]
      exact same.searchCharacter here _
  | anyCharacter => exact same.searchCharacter here _
  | notNewline => exact same.searchNotNewline here
  | lineBreak => exact same.searchLineBreak here
  | charSet set =>
      rw [Node.interpret, Node.interpret, same.ucp]
      exact same.searchCharacter here _
  | assertion condition => exact same.searchCondition here condition
  | group _ induction => exact induction here
  | capture number renumbered _ induction =>
      exact (induction here).andThen fun _ _ there => .single there
  | @released number body otherBody _ induction =>
      -- The other tree goes on from its body at once, which is to close nothing.
      have closed : Search.Alike
          ((body.interpret attempt path).andThen fun inner =>
            [.found (inner.close number path.position)])
          ((otherBody.interpret other otherPath).andThen fun inner => [.found inner]) :=
        (induction here).andThen fun _ _ there => .single there
      rw [Search.andThen_found] at closed
      exact closed
  | sequence _ _ firstInduction secondInduction =>
      exact (firstInduction here).andThen fun _ _ => secondInduction
  | alternation _ _ firstInduction secondInduction =>
      exact (firstInduction here).append (secondInduction here)
  | repetition least greatest greedy _ induction =>
      rw [Node.interpret, Node.interpret, same.subject]
      refine (Search.Alike.exactly (fun _ _ => induction) least here).andThen fun _ _ there => ?_
      exact Search.Alike.optional (fun _ _ => induction) _ greedy _ there
  | look direction negated _ induction =>
      exact alike_interpret_look same direction negated (fun _ _ => induction) here
  | atomic _ induction => exact (induction here).first
  | lookApart negated _ measured induction =>
      rw [interpret_lookBehindAll measured]
      exact alike_interpret_look same _ negated (fun _ _ => induction) here

end PerlRegex
