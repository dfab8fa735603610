namespace PerlRegex.Unicode

/-! Case mappings come in runs: the code points `first`, `first + step`, up to `last` all move by
the same distance, `first` going to `target`. A step of two covers the alphabets whose capital and
small letters alternate. Like a `CodePointSet`, a `CaseMap` is a search tree of such runs. -/

structure CaseRun where
  first : Nat
  last : Nat
  step : Nat
  target : Nat

inductive CaseMap where
  | empty
  | node (below : CaseMap) (run : CaseRun) (above : CaseMap)

namespace CaseMap

def single (first last step target : Nat) : CaseMap :=
  .node .empty ⟨first, last, step, target⟩ .empty

def find? : CaseMap → Nat → Option Nat
  | .empty, _ => none
  | .node below run above, codePoint =>
      if codePoint < run.first then below.find? codePoint
      else if run.last < codePoint then above.find? codePoint
      else if (codePoint - run.first) % run.step = 0 then
        some (run.target + (codePoint - run.first))
      else none

def runs : CaseMap → List CaseRun
  | .empty => []
  | .node below run above => below.runs ++ run :: above.runs

example : (single 0x100 0x12E 2 0x101).find? 0x104 = some 0x105 := rfl
example : (single 0x100 0x12E 2 0x101).find? 0x105 = none := rfl

end CaseMap

end PerlRegex.Unicode
