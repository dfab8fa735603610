import PerlRegex.Pattern.Node
namespace PerlRegex.Node

/-! The groups that a tree names, where it captures and where it refers back. -/

/-- The numbers of all groups of a tree satisfy one condition, and all its references another. -/
def Numbered (number : Nat → Prop) (reference : Reference → Prop) : Node Reference → Prop
  | .group body | .repetition body _ _ _ | .look _ _ body | .atomic body =>
      body.Numbered number reference
  | .capture index body => number index ∧ body.Numbered number reference
  | .sequence first second | .alternation first second =>
      first.Numbered number reference ∧ second.Numbered number reference
  | .backreference target _ => reference target
  | .empty | .literal _ _ | .anyCharacter | .notNewline | .lineBreak | .charSet _
  | .assertion _ => True

/-- All groups that a tree captures or refers to have numbers below `count`. -/
def GroupsBelow (count : Nat) : Node (List Nat) → Prop :=
  Numbered (· < count) fun groups => ∀ index ∈ groups, index < count

theorem Numbered.imp {number number' : Nat → Prop} {reference reference' : Reference → Prop}
    {node : Node Reference} (numbered : node.Numbered number reference)
    (weakerNumber : ∀ index, number index → number' index)
    (weakerReference : ∀ target, reference target → reference' target) :
    node.Numbered number' reference' := by
  induction node with
  | group body induction => exact induction numbered
  | repetition body least greatest greedy induction => exact induction numbered
  | look direction negated body induction => exact induction numbered
  | atomic body induction => exact induction numbered
  | capture index body induction => exact ⟨weakerNumber index numbered.1, induction numbered.2⟩
  | sequence first second firstInduction secondInduction =>
      exact ⟨firstInduction numbered.1, secondInduction numbered.2⟩
  | alternation first second firstInduction secondInduction =>
      exact ⟨firstInduction numbered.1, secondInduction numbered.2⟩
  | backreference target caseless => exact weakerReference target numbered
  | _ => trivial

end PerlRegex.Node
