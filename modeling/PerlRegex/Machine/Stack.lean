import PerlRegex.Machine.Storage
namespace PerlRegex.Machine

/-! All runs share one stack. A run remembers how high the stack was when it began, its base, and
leaves alone what lies below: it goes back, commits or undoes what it has done down to there. -/

/-- Drop the choices from the index `next` on, earliest frame first. The array is not copied: a
frame that stays is swapped to the index `kept`, behind the frames that stay before it. -/
def dropChoices (stack : Array Frame) (kept next : Nat) : Array Frame :=
  if inside : next < stack.size then
    if stack[next].isChoice then dropChoices stack kept (next + 1)
    else dropChoices (stack.swapIfInBounds kept next) (kept + 1) (next + 1)
  else stack.take kept
termination_by stack.size - next
decreasing_by
  all_goals
    try rw [Array.size_swapIfInBounds]
    omega

example : dropChoices #[.choice 5 0, .choice 9 1, .register 0 3, .choice 7 2, .slot 2 none] 1 1 =
    #[.choice 5 0, .register 0 3, .slot 2 none] := by decide +kernel

namespace Storage

def commit (storage : Storage) (base : Nat) : Storage :=
  { storage with frames := (dropChoices storage.frames.reverse.toArray base base).toList.reverse }

def undo (storage : Storage) : Frame → Storage
  | .choice _ _ => storage
  | .slot slot former => { storage with slots := storage.slots.setIfInBounds slot former }
  | .register register former =>
      { storage with registers := storage.registers.setIfInBounds register former }

def unwindFrom (storage : Storage) (base : Nat) : List Frame → Storage
  | [] => { storage with frames := [] }
  | frame :: earlier =>
      if earlier.length < base then { storage with frames := frame :: earlier }
      else (storage.undo frame).unwindFrom base earlier

def unwind (storage : Storage) (base : Nat) : Storage := storage.unwindFrom base storage.frames

end Storage

end PerlRegex.Machine
