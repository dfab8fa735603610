namespace PerlRegex.Unicode

/-! A set of code points is held as its maximal runs of consecutive members, arranged as a
search tree. Everything in `below` is smaller than `first`, everything in `above` is larger
than `last`. The tables of this folder are balanced, so a lookup takes about ten comparisons. -/

inductive CodePointSet where
  | empty
  | node (below : CodePointSet) (first last : Nat) (above : CodePointSet)

namespace CodePointSet

def run (first last : Nat) : CodePointSet :=
  .node .empty first last .empty

def contains : CodePointSet → Nat → Bool
  | .empty, _ => false
  | .node below first last above, codePoint =>
      if codePoint < first then below.contains codePoint
      else if last < codePoint then above.contains codePoint
      else true

def runs : CodePointSet → List (Nat × Nat)
  | .empty => []
  | .node below first last above => below.runs ++ (first, last) :: above.runs

example : ((run 0x41 0x5A).contains 0x51, (run 0x41 0x5A).contains 0x61) = (true, false) := rfl

end CodePointSet

end PerlRegex.Unicode
