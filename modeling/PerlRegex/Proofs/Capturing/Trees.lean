import Mathlib.Data.List.Forall2
import PerlRegex.Proofs.Lookbehind

/-! Two trees that differ in their groups only: what one captures the other captures under another
number, or just groups. They measure the same. A lookbehind over a capture is one lookbehind, and
without the capture it is one for each alternative that the parentheses hold. -/

namespace PerlRegex.Node

variable {First Second Other : Type}

/-! ## Lookbehinds -/

/-- The tree of a lookbehind for some alternatives. -/
def lookBehindAll (negated : Bool) (branches : List (Node Other)) : Node Other :=
  match branches with
  | [branch] => lookBehind negated branch
  | branches =>
      if negated then .ofSequence (branches.map (lookBehind true))
      else .atomic (.ofAlternatives (branches.map (lookBehind false)))

theorem lookBehindAll_mapReferences (transform : First → Second) (negated : Bool)
    (branches : List (Node First)) :
    (lookBehindAll negated branches).mapReferences transform =
      lookBehindAll negated (branches.map (mapReferences transform)) := by
  have each : (branches.map (lookBehind negated)).map (mapReferences transform) =
      (branches.map (mapReferences transform)).map (lookBehind negated) :=
    map_lookBehind_mapReferences transform branches
  match branches with
  | [] => cases negated <;> rfl
  | [branch] => exact List.head_eq_of_cons_eq each
  | first :: second :: rest =>
      cases negated with
      | true =>
          refine (mapReferences_ofSequence transform _).trans ?_
          rw [each]
          rfl
      | false =>
          refine congrArg atomic ((mapReferences_ofAlternatives transform _).trans ?_)
          rw [each]
          rfl

theorem fixedWidth_ofSequence {nodes : List (Node Other)}
    (none : ∀ node ∈ nodes, node.fixedWidth? = some 0) :
    (ofSequence nodes).fixedWidth? = some 0 := by
  fun_induction ofSequence nodes with
  | case1 => rfl
  | case2 node => exact none node List.mem_cons_self
  | case3 node rest more induction =>
      rw [List.forall_mem_cons] at none
      rw [fixedWidth?, none.1, induction none.2]
      rfl

theorem fixedWidth_ofAlternatives {nodes : List (Node Other)}
    (none : ∀ node ∈ nodes, node.fixedWidth? = some 0) :
    (ofAlternatives nodes).fixedWidth? = some 0 := by
  fun_induction ofAlternatives nodes with
  | case1 => rfl
  | case2 node => exact none node List.mem_cons_self
  | case3 node rest more induction =>
      rw [List.forall_mem_cons] at none
      rw [fixedWidth?, none.1, induction none.2]
      rfl

theorem fixedWidth_lookBehindAll (negated : Bool) (branches : List (Node Other)) :
    (lookBehindAll negated branches).fixedWidth? = some 0 := by
  have each : ∀ negated, ∀ node ∈ branches.map (lookBehind negated),
      node.fixedWidth? = some 0 := by
    intro negated node member
    rcases List.mem_map.mp member with ⟨branch, _, rfl⟩
    rfl
  unfold lookBehindAll
  split
  · rfl
  · split
    · exact fixedWidth_ofSequence (each true)
    · exact fixedWidth_ofAlternatives (each false)

theorem alternatives_lookBehindAll (negated : Bool) (branches : List (Node Other)) :
    (lookBehindAll negated branches).alternatives = [lookBehindAll negated branches]
      ∧ (lookBehindAll negated branches).topAlternatives = [lookBehindAll negated branches] := by
  match branches with
  | [] => cases negated <;> exact ⟨rfl, rfl⟩
  | [branch] => exact ⟨rfl, rfl⟩
  | first :: second :: rest => cases negated <;> exact ⟨rfl, rfl⟩

/-! ## Alternatives -/

theorem fixedWidth_of_mem_alternatives {node branch : Node Other} {width : Nat}
    (measured : node.fixedWidth? = some width) (member : branch ∈ node.alternatives) :
    branch.fixedWidth? = some width := by
  induction node with
  | alternation first second _ induction =>
      rw [fixedWidth?] at measured
      rcases Option.bind_eq_some_iff.mp measured with ⟨firstWidth, firstMeasured, measured⟩
      rcases Option.bind_eq_some_iff.mp measured with ⟨secondWidth, secondMeasured, measured⟩
      split at measured
      · rename_i same
        injection measured with wide
        rcases List.mem_cons.mp member with rfl | member
        · rw [firstMeasured, wide]
        · exact induction (by rw [secondMeasured, same, wide]) member
      · cases measured
  | _ =>
      rw [List.mem_singleton.mp member]
      exact measured

theorem fixedWidth_of_mem_topAlternatives {node branch : Node Other} {width : Nat}
    (measured : node.fixedWidth? = some width) (member : branch ∈ node.topAlternatives) :
    branch.fixedWidth? = some width := by
  induction node with
  | group body induction => exact induction measured member
  | _ => exact fixedWidth_of_mem_alternatives measured member

/-! ## Trees that differ in their groups -/

/-- Trees without references that are the same but for their groups. What the first one captures the
second one captures under any number, or only groups. -/
inductive Alike : Node First → Node Second → Prop
  | empty : Alike .empty .empty
  | literal (character : Nat) (caseless : Bool) :
      Alike (.literal character caseless) (.literal character caseless)
  | anyCharacter : Alike .anyCharacter .anyCharacter
  | notNewline : Alike .notNewline .notNewline
  | lineBreak : Alike .lineBreak .lineBreak
  | charSet (set : CharSet) : Alike (.charSet set) (.charSet set)
  | assertion (condition : Assertion) : Alike (.assertion condition) (.assertion condition)
  | group {body : Node First} {other : Node Second} :
      Alike body other → Alike (.group body) (.group other)
  | capture (number renumbered : Nat) {body : Node First} {other : Node Second} :
      Alike body other → Alike (.capture number body) (.capture renumbered other)
  | released (number : Nat) {body : Node First} {other : Node Second} :
      Alike body other → Alike (.capture number body) (.group other)
  | sequence {first second : Node First} {otherFirst otherSecond : Node Second} :
      Alike first otherFirst → Alike second otherSecond →
      Alike (.sequence first second) (.sequence otherFirst otherSecond)
  | alternation {first second : Node First} {otherFirst otherSecond : Node Second} :
      Alike first otherFirst → Alike second otherSecond →
      Alike (.alternation first second) (.alternation otherFirst otherSecond)
  | repetition (least : Nat) (greatest : Option Nat) (greedy : Bool) {body : Node First}
      {other : Node Second} :
      Alike body other →
      Alike (.repetition body least greatest greedy) (.repetition other least greatest greedy)
  | look (direction : LookDirection) (negated : Bool) {body : Node First} {other : Node Second} :
      Alike body other → Alike (.look direction negated body) (.look direction negated other)
  | atomic {body : Node First} {other : Node Second} :
      Alike body other → Alike (.atomic body) (.atomic other)
  /-- One lookbehind, and one for each alternative of a tree of the same width. -/
  | lookApart (negated : Bool) {width : Nat} {body : Node First} {other : Node Second} :
      Alike body other → other.fixedWidth? = some width →
      Alike (.look (.behind width) negated body) (lookBehindAll negated other.topAlternatives)

namespace Alike

variable {node : Node First} {other : Node Second}

theorem fixedWidth (alike : node.Alike other) : node.fixedWidth? = other.fixedWidth? := by
  induction alike with
  | group _ induction | capture _ _ _ induction | released _ _ induction | atomic _ induction =>
      exact induction
  | sequence _ _ firstInduction secondInduction =>
      rw [fixedWidth?, fixedWidth?, firstInduction, secondInduction]
  | alternation _ _ firstInduction secondInduction =>
      rw [fixedWidth?, fixedWidth?, firstInduction, secondInduction]
  | repetition _ _ _ _ induction => rw [fixedWidth?, fixedWidth?, induction]
  | lookApart negated _ _ _ => exact (fixedWidth_lookBehindAll negated _).symm
  | _ => rfl

theorem mapReferences {Third Fourth : Type} (alike : node.Alike other) (transform : First → Third)
    (change : Second → Fourth) :
    (node.mapReferences transform).Alike (other.mapReferences change) := by
  induction alike with
  | empty => exact .empty
  | literal character caseless => exact .literal character caseless
  | anyCharacter => exact .anyCharacter
  | notNewline => exact .notNewline
  | lineBreak => exact .lineBreak
  | charSet set => exact .charSet set
  | assertion condition => exact .assertion condition
  | group _ induction => exact .group induction
  | capture number renumbered _ induction => exact .capture number renumbered induction
  | released number _ induction => exact .released number induction
  | sequence _ _ firstInduction secondInduction => exact .sequence firstInduction secondInduction
  | alternation _ _ firstInduction secondInduction =>
      exact .alternation firstInduction secondInduction
  | repetition least greatest greedy _ induction =>
      exact .repetition least greatest greedy induction
  | look direction negated _ induction => exact .look direction negated induction
  | atomic _ induction => exact .atomic induction
  | lookApart negated _ measured induction =>
      rw [lookBehindAll_mapReferences, ← topAlternatives_mapReferences]
      exact .lookApart negated induction (by rw [fixedWidth_mapReferences, measured])

theorem ofSequence {nodes : List (Node First)} {others : List (Node Second)}
    (alike : List.Forall₂ Alike nodes others) :
    (ofSequence nodes).Alike (Node.ofSequence others) := by
  induction alike with
  | nil => exact .empty
  | cons first rest induction =>
      cases rest with
      | nil => exact first
      | cons second rest => exact .sequence first induction

theorem ofAlternatives {nodes : List (Node First)} {others : List (Node Second)}
    (alike : List.Forall₂ Alike nodes others) :
    (ofAlternatives nodes).Alike (Node.ofAlternatives others) := by
  induction alike with
  | nil => exact .empty
  | cons first rest induction =>
      cases rest with
      | nil => exact first
      | cons second rest => exact .alternation first induction

theorem lookBehind (negated : Bool) (alike : node.Alike other) :
    (lookBehind negated node).Alike (Node.lookBehind negated other) := by
  rw [Node.lookBehind, Node.lookBehind, alike.fixedWidth]
  exact .look _ negated alike

theorem lookBehindAll (negated : Bool) {branches : List (Node First)}
    {others : List (Node Second)} (alike : List.Forall₂ Alike branches others) :
    (lookBehindAll negated branches).Alike (Node.lookBehindAll negated others) := by
  have each : ∀ negated, List.Forall₂ Alike (branches.map (Node.lookBehind negated))
      (others.map (Node.lookBehind negated)) := by
    intro negated
    rw [List.forall₂_map_left_iff, List.forall₂_map_right_iff]
    exact alike.imp fun _ _ branchAlike => branchAlike.lookBehind negated
  match alike with
  | .nil =>
      cases negated with
      | true => exact .empty
      | false => exact .atomic .empty
  | .cons first .nil => exact first.lookBehind negated
  | .cons first (.cons second rest) =>
      cases negated with
      | true => exact ofSequence (each true)
      | false => exact .atomic (ofAlternatives (each false))

theorem alternatives (alike : node.Alike other) :
    List.Forall₂ Alike node.alternatives other.alternatives := by
  induction alike with
  | alternation first _ _ induction => exact .cons first induction
  | lookApart negated alike measured _ =>
      rw [(alternatives_lookBehindAll negated _).1]
      exact .cons (.lookApart negated alike measured) .nil
  | _ => exact .cons (by constructor <;> assumption) .nil

/-- Their alternatives are alike one by one, unless the first tree is a capture where the second one
is a group that can be seen through. -/
theorem topAlternatives (alike : node.Alike other) :
    List.Forall₂ Alike node.topAlternatives other.topAlternatives
      ∨ ∃ (whole : Node First) (inner : Node Second), whole.Alike inner
        ∧ node.topAlternatives = [whole] ∧ other.topAlternatives = inner.topAlternatives := by
  induction alike with
  | group _ induction => exact induction
  | released number alike _ => exact .inr ⟨_, _, .released number alike, rfl, rfl⟩
  | alternation first second _ _ => exact .inl (alternation first second).alternatives
  | lookApart negated alike measured _ =>
      rw [(alternatives_lookBehindAll negated _).2]
      exact .inl (.cons (.lookApart negated alike measured) .nil)
  | _ => exact .inl (.cons (by constructor <;> assumption) .nil)

end Alike

end PerlRegex.Node

namespace PerlRegex.Pattern

open PerlRegex.Node (Alike lookBehind lookBehindAll)

theorem eq_lookBehindAll_of_lookbehind {negated : Bool} {body tree : Tree} {start : Nat}
    (accepted : State.lookbehind negated body start = .ok tree) :
    tree = lookBehindAll negated body.topAlternatives
      ∧ ∀ branch ∈ body.topAlternatives, branch.fixedWidth?.isSome := by
  rw [State.lookbehind] at accepted
  rcases Reading.bind_eq_ok.mp accepted with ⟨looks, read, accepted⟩
  rcases looks_of_mapM read with ⟨same, measured⟩
  refine ⟨?_, measured⟩
  rw [same] at accepted
  generalize body.topAlternatives = branches at accepted
  rcases branches with _ | ⟨branch, _ | ⟨second, rest⟩⟩
  · cases negated <;> exact (Reading.pure_eq_ok.mp accepted).symm
  · exact (Reading.pure_eq_ok.mp accepted).symm
  · cases negated <;> exact (Reading.pure_eq_ok.mp accepted).symm

theorem alike_of_lookbehind {negated : Bool} {body tree other otherTree : Tree}
    {start otherStart : Nat} (alike : body.Alike other)
    (accepted : State.lookbehind negated body start = .ok tree)
    (otherAccepted : State.lookbehind negated other otherStart = .ok otherTree) :
    tree.Alike otherTree := by
  rcases eq_lookBehindAll_of_lookbehind accepted with ⟨rfl, measured⟩
  rcases eq_lookBehindAll_of_lookbehind otherAccepted with ⟨rfl, _⟩
  rcases alike.topAlternatives with each | ⟨whole, inner, wholeAlike, single, through⟩
  · exact .lookBehindAll negated each
  -- A lookbehind sees the alternatives through a group, but takes a capture as a whole.
  · rw [single] at measured
    rcases Option.isSome_iff_exists.mp (measured whole List.mem_cons_self) with ⟨width, wide⟩
    rw [single, through, lookBehindAll, lookBehind, wide]
    exact .lookApart negated wholeAlike (wholeAlike.fixedWidth ▸ wide)

end PerlRegex.Pattern
