import PerlRegex.Span
namespace PerlRegex

/-! The course of a search for a match, as the list of what happens on the way. A search that is
given all the time it wants finds path after path, the preferred ones first, and now and then it
meets the end of the subject where it would have gone on. -/

/-- A way to match: the position it leads to, and the spans of the groups at that point. -/
structure Path where
  position : Nat
  captures : Captures
  deriving DecidableEq, Repr

def Path.close (path : Path) (group start : Nat) : Path :=
  { path with captures := path.captures.set group (some ⟨start, path.position⟩) }

inductive Event where
  | found (path : Path)
  /-- The subject ended where more text was wanted. -/
  | ended
  deriving DecidableEq, Repr

namespace Event

def path? : Event → Option Path
  | .found path => some path
  | .ended => none

def follow (next : Path → List Event) : Event → List Event
  | .found path => next path
  | .ended => [.ended]

end Event

abbrev Search := List Event

namespace Search

/-! ## Results -/

/-- The paths that a search finds, the preferred ones first. -/
def results (search : Search) : List Path := search.filterMap Event.path?

@[simp] theorem results_nil : results [] = [] := rfl

@[simp] theorem results_found (path : Path) (search : Search) :
    results (.found path :: search) = path :: results search := rfl

@[simp] theorem results_ended (search : Search) :
    results (.ended :: search) = results search := rfl

@[simp] theorem results_append (first second : Search) :
    results (first ++ second) = results first ++ results second :=
  List.filterMap_append

/-! ## One search after another -/

def andThen (search : Search) (next : Path → Search) : Search :=
  search.flatMap (Event.follow next)

@[simp] theorem nil_andThen (next : Path → Search) : andThen [] next = [] := rfl

@[simp] theorem found_andThen (path : Path) (search : Search) (next : Path → Search) :
    andThen (.found path :: search) next = next path ++ andThen search next := rfl

@[simp] theorem ended_andThen (search : Search) (next : Path → Search) :
    andThen (.ended :: search) next = .ended :: andThen search next := rfl

@[simp] theorem andThen_found (search : Search) :
    andThen search (fun path => [.found path]) = search := by
  induction search with
  | nil => rfl
  | cons event search induction => cases event <;> simp [induction]

@[simp] theorem results_andThen (search : Search) (next : Path → Search) :
    results (search.andThen next) = search.results.flatMap fun path => results (next path) := by
  induction search with
  | nil => rfl
  | cons event search induction => cases event <;> simp [induction]

/-! ## Committing to the first path -/

/-- Stop at the first path. -/
def first : Search → Search
  | [] => []
  | .found path :: _ => [.found path]
  | .ended :: rest => .ended :: first rest

/-- Stop at the first path, and find the path `origin` if there is none. -/
def absence (origin : Path) : Search → Search
  | [] => [.found origin]
  | .found _ :: _ => []
  | .ended :: rest => .ended :: absence origin rest

@[simp] theorem results_first (search : Search) :
    results search.first = search.results.take 1 := by
  induction search with
  | nil => rfl
  | cons event search induction => cases event <;> simp [first, induction]

@[simp] theorem results_absence (origin : Path) (search : Search) :
    results (search.absence origin) = if search.results.isEmpty then [origin] else [] := by
  induction search with
  | nil => rfl
  | cons event search induction => cases event <;> simp [absence, induction]

/-! ## Repetition -/

/-- Either stay with a path or go on behind it. What is preferred comes first. -/
def prefer (greedy : Bool) (onward : Search) (path : Path) : Search :=
  if greedy then onward ++ [.found path] else .found path :: onward

def exactly (body : Path → Search) : (count : Nat) → Path → Search
  | 0, path => [.found path]
  | count + 1, path => (body path).andThen (exactly body count)

def upTo (body : Path → Search) (greedy : Bool) : (count : Nat) → Path → Search
  | 0, path => [.found path]
  | count + 1, path => prefer greedy ((body path).andThen (upTo body greedy count)) path

/-- Copies of a body for as long as each of them takes text. A copy that takes none is the last.
Positions lie within a text of the given size. -/
def unbounded (size : Nat) (body : Path → Search) (greedy : Bool) (path : Path) : Search :=
  prefer greedy
    ((body path).andThen fun next =>
      if path.position < next.position ∧ next.position ≤ size then
        unbounded size body greedy next
      else [.found next])
    path
termination_by size - path.position

def optional (size : Nat) (body : Path → Search) (greedy : Bool) :
    (limit : Option Nat) → Path → Search
  | some limit => upTo body greedy limit
  | none => unbounded size body greedy

theorem mem_results_prefer {greedy : Bool} {onward : Search} {path result : Path} :
    result ∈ results (prefer greedy onward path) ↔ result ∈ results onward ∨ result = path := by
  cases greedy <;> simp [prefer, or_comm]

/-! What holds between a path and every path that a body finds behind it holds between a path and
what a repetition of the body finds behind it, if it can be chained. -/

section Related

variable {body : Path → Search} {related : Path → Path → Prop}

theorem related_exactly (refl : ∀ path, related path path)
    (trans : ∀ {first second third}, related first second → related second third →
      related first third)
    (relatedBody : ∀ path, ∀ result ∈ (body path).results, related path result)
    (count : Nat) (path : Path) :
    ∀ result ∈ (exactly body count path).results, related path result := by
  induction count generalizing path with
  | zero =>
      intro result member
      rw [exactly] at member
      rw [List.mem_singleton.mp member]
      exact refl path
  | succ count induction =>
      intro result member
      rw [exactly, results_andThen] at member
      rcases List.mem_flatMap.mp member with ⟨middle, middleMember, resultMember⟩
      exact trans (relatedBody path middle middleMember) (induction middle result resultMember)

theorem related_upTo (refl : ∀ path, related path path)
    (trans : ∀ {first second third}, related first second → related second third →
      related first third)
    (relatedBody : ∀ path, ∀ result ∈ (body path).results, related path result)
    (greedy : Bool) (count : Nat) (path : Path) :
    ∀ result ∈ (upTo body greedy count path).results, related path result := by
  induction count generalizing path with
  | zero =>
      intro result member
      rw [upTo] at member
      rw [List.mem_singleton.mp member]
      exact refl path
  | succ count induction =>
      intro result member
      rw [upTo, mem_results_prefer, results_andThen] at member
      rcases member with member | same
      · rcases List.mem_flatMap.mp member with ⟨middle, middleMember, resultMember⟩
        exact trans (relatedBody path middle middleMember) (induction middle result resultMember)
      · rw [same]
        exact refl path

theorem related_unbounded (refl : ∀ path, related path path)
    (trans : ∀ {first second third}, related first second → related second third →
      related first third)
    (relatedBody : ∀ path, ∀ result ∈ (body path).results, related path result)
    (size : Nat) (greedy : Bool) (path : Path) :
    ∀ result ∈ (unbounded size body greedy path).results, related path result := by
  fun_induction unbounded size body greedy path with
  | case1 path induction =>
      intro result member
      rw [mem_results_prefer, results_andThen] at member
      rcases member with member | same
      · rcases List.mem_flatMap.mp member with ⟨middle, middleMember, resultMember⟩
        have reached := relatedBody path middle middleMember
        split at resultMember
        · rename_i progress
          exact trans reached (induction middle progress result resultMember)
        · rw [List.mem_singleton.mp resultMember]
          exact reached
      · rw [same]
        exact refl path

theorem related_optional (refl : ∀ path, related path path)
    (trans : ∀ {first second third}, related first second → related second third →
      related first third)
    (relatedBody : ∀ path, ∀ result ∈ (body path).results, related path result)
    (size : Nat) (greedy : Bool) (limit : Option Nat) (path : Path) :
    ∀ result ∈ (optional size body greedy limit path).results, related path result := by
  cases limit with
  | some limit => exact related_upTo refl trans relatedBody greedy limit path
  | none => exact related_unbounded refl trans relatedBody size greedy path

end Related

end Search

end PerlRegex
