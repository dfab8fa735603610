import PerlRegex.Pattern.Node

/-! A tree with other references in it has the same shape, so whatever is put together or measured
by the shape alone is the same. -/

namespace PerlRegex.Node

variable (transform : Reference → Other)

theorem mapReferences_mapReferences (further : Other → Another) (node : Node Reference) :
    (node.mapReferences transform).mapReferences further =
      node.mapReferences fun reference => further (transform reference) := by
  induction node with
  | group body induction | capture number body induction
  | repetition body least greatest greedy induction | look direction negated body induction
  | atomic body induction =>
      simp only [mapReferences, induction]
  | sequence first second firstInduction secondInduction
  | alternation first second firstInduction secondInduction =>
      simp only [mapReferences, firstInduction, secondInduction]
  | _ => rfl

theorem mapReferences_ofSequence (nodes : List (Node Reference)) :
    (ofSequence nodes).mapReferences transform =
      ofSequence (nodes.map (mapReferences transform)) := by
  fun_induction ofSequence nodes with
  | case1 | case2 => rfl
  | case3 node rest more induction =>
      cases rest with
      | nil => exact absurd rfl more
      | cons => exact congrArg (Node.sequence _) induction

theorem mapReferences_ofAlternatives (nodes : List (Node Reference)) :
    (ofAlternatives nodes).mapReferences transform =
      ofAlternatives (nodes.map (mapReferences transform)) := by
  fun_induction ofAlternatives nodes with
  | case1 | case2 => rfl
  | case3 node rest more induction =>
      cases rest with
      | nil => exact absurd rfl more
      | cons => exact congrArg (Node.alternation _) induction

theorem alternatives_mapReferences (node : Node Reference) :
    (node.mapReferences transform).alternatives =
      node.alternatives.map (mapReferences transform) := by
  induction node with
  | alternation first second _ induction => exact congrArg (List.cons _) induction
  | _ => rfl

theorem topAlternatives_mapReferences (node : Node Reference) :
    (node.mapReferences transform).topAlternatives =
      node.topAlternatives.map (mapReferences transform) := by
  induction node with
  | group body induction => exact induction
  | alternation first second => exact alternatives_mapReferences transform _
  | _ => rfl

theorem fixedWidth_mapReferences (node : Node Reference) :
    (node.mapReferences transform).fixedWidth? = node.fixedWidth? := by
  induction node with
  | group body induction | capture number body induction | atomic body induction => exact induction
  | repetition body least greatest greedy induction =>
      simp only [mapReferences, fixedWidth?, induction]
  | sequence first second firstInduction secondInduction
  | alternation first second firstInduction secondInduction =>
      simp only [mapReferences, fixedWidth?, firstInduction, secondInduction]
  | _ => rfl

end PerlRegex.Node
