import PerlRegex.Proofs.Search
namespace PerlRegex.Search

/-! Two searches that go the same way up to the point where the first one runs out of text. From
there on nothing is said about the second. -/

inductive Agrees : Search → Search → Prop
  | nil : Agrees [] []
  | found (path : Path) {short long : Search} :
      Agrees short long → Agrees (.found path :: short) (.found path :: long)
  | ended (short long : Search) : Agrees (.ended :: short) long

namespace Agrees

variable {short long : Search}

theorem refl (search : Search) : Agrees search search := by
  induction search with
  | nil => exact .nil
  | cons event search induction =>
      cases event with
      | found path => exact .found path induction
      | ended => exact .ended _ _

theorem single (path : Path) : Agrees [.found path] [.found path] := .found path .nil

theorem path_eq {path other : Path}
    (agrees : Agrees (.found path :: short) (.found other :: long)) : path = other := by
  cases agrees
  rfl

theorem if_found_iff {path : Path} {here there : Bool} :
    Agrees (if here then [.found path] else []) (if there then [.found path] else [])
      ↔ here = there := by
  constructor
  · intro agrees
    cases here <;> cases there <;> first | rfl | cases agrees
  · rintro rfl
    exact .refl _

theorem append {shortRest longRest : Search} (agrees : Agrees short long)
    (rest : Agrees shortRest longRest) : Agrees (short ++ shortRest) (long ++ longRest) := by
  induction agrees with
  | nil => exact rest
  | found path _ induction => exact .found path induction
  | ended short long => exact .ended _ _

theorem andThen {next other : Path → Search} (agrees : Agrees short long)
    (rest : ∀ path ∈ short.results, Agrees (next path) (other path)) :
    Agrees (short.andThen next) (long.andThen other) := by
  induction agrees with
  | nil => exact .nil
  | found path _ induction =>
      rw [found_andThen, found_andThen]
      exact (rest path List.mem_cons_self).append
        (induction fun path member => rest path (List.mem_cons_of_mem _ member))
  | ended short long => exact .ended _ _

theorem first (agrees : Agrees short long) : Agrees short.first long.first := by
  cases agrees with
  | nil => exact .nil
  | found path _ => exact .single path
  | ended short long => exact .ended _ _

theorem absence (origin : Path) (agrees : Agrees short long) :
    Agrees (short.absence origin) (long.absence origin) := by
  cases agrees with
  | nil => exact .single origin
  | found path _ => exact .nil
  | ended short long => exact .ended _ _

theorem prefer {greedy : Bool} (agrees : Agrees short long) (path : Path) :
    Agrees (Search.prefer greedy short path) (Search.prefer greedy long path) := by
  cases greedy with
  | true => exact agrees.append (.single path)
  | false => exact .found path agrees

/-! Repetitions agree if their bodies do, on all the paths that the copies of the first body lead
to. -/

section Repetition

variable {body other : Path → Search} {good : Path → Prop}
  (agree : ∀ path, good path → Agrees (body path) (other path))
  (keeps : ∀ path, good path → ∀ result ∈ (body path).results, good result)
include agree keeps

theorem exactly (count : Nat) {path : Path} (starts : good path) :
    Agrees (Search.exactly body count path) (Search.exactly other count path) := by
  induction count generalizing path with
  | zero => exact .single path
  | succ count induction =>
      rw [Search.exactly, Search.exactly]
      exact (agree path starts).andThen fun next member => induction (keeps path starts next member)

theorem upTo (greedy : Bool) (count : Nat) {path : Path} (starts : good path) :
    Agrees (Search.upTo body greedy count path) (Search.upTo other greedy count path) := by
  induction count generalizing path with
  | zero => exact .single path
  | succ count induction =>
      rw [Search.upTo, Search.upTo]
      apply Agrees.prefer
      exact (agree path starts).andThen fun next member => induction (keeps path starts next member)

theorem unbounded {size longer : Nat} (le : size ≤ longer)
    (inside : ∀ path, good path → path.position ≤ size) (greedy : Bool) {path : Path}
    (starts : good path) :
    Agrees (Search.unbounded size body greedy path)
      (Search.unbounded longer other greedy path) := by
  induction gap : size - path.position using Nat.strongRecOn generalizing path with
  | ind gap induction =>
      rw [Search.unbounded, Search.unbounded]
      apply Agrees.prefer
      apply (agree path starts).andThen
      intro next member
      have nextGood := keeps path starts next member
      have nextInside := inside next nextGood
      have nextWithin := Nat.le_trans nextInside le
      by_cases taken : path.position < next.position
      · rw [if_pos ⟨taken, nextInside⟩, if_pos ⟨taken, nextWithin⟩]
        exact induction _ (by omega) nextGood rfl
      · rw [if_neg (fun both => taken both.1), if_neg (fun both => taken both.1)]
        exact .single next

theorem optional {size longer : Nat} (le : size ≤ longer)
    (inside : ∀ path, good path → path.position ≤ size) (greedy : Bool) (limit : Option Nat)
    {path : Path} (starts : good path) :
    Agrees (Search.optional size body greedy limit path)
      (Search.optional longer other greedy limit path) := by
  cases limit with
  | some limit => exact upTo agree keeps greedy limit starts
  | none => exact unbounded agree keeps le inside greedy starts

end Repetition

end Agrees

end PerlRegex.Search
