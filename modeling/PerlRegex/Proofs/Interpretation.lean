import PerlRegex.Machine.Step
import PerlRegex.Proofs.Search
namespace PerlRegex

/-! What a tree means, by recursion on the tree alone: the paths it finds from a given one, the
preferred ones first. There is no code here, no stack and no budget. Whether the end of the subject
stood in the way of a path is part of the search, because partial matching asks for it. -/

namespace Machine.Attempt

/-! ## Single steps -/

/-- A search that wants text at a position where there is none. Nothing is noted before the attempt
has taken any text. -/
def searchEnd (attempt : Attempt) (position : Nat) : Search :=
  if position ≤ attempt.start then [] else [.ended]

def searchCharacter (attempt : Attempt) (accepts : Nat → Bool) (path : Path) : Search :=
  match attempt.characterAt path.position with
  | some (character, length) =>
      if accepts character then [.found { path with position := path.position + length }] else []
  | none => attempt.searchEnd path.position

def searchNotNewline (attempt : Attempt) (path : Path) : Search :=
  if (attempt.program.pattern.lineRules.newlineAt? attempt.subject path.position).isSome then []
  else attempt.searchCharacter (fun _ => true) path

def searchLineBreak (attempt : Attempt) (path : Path) : Search :=
  match attempt.program.pattern.lineRules.lineBreakAt? attempt.subject path.position with
  | some length => [.found { path with position := path.position + length }]
  | none => if attempt.subject.size ≤ path.position then attempt.searchEnd path.position else []

def searchCondition (attempt : Attempt) (condition : Assertion) (path : Path) : Search :=
  (if path.position = attempt.subject.size && attempt.looksPastEnd condition then
    attempt.searchEnd path.position
  else []) ++ if attempt.holds path.position condition then [.found path] else []

/-- Take what the first group of a list with a span has matched. If no group has one, the reference
fails, or matches nothing where that is the convention. -/
def searchReference (attempt : Attempt) (groups : List Nat) (caseless : Bool) (path : Path) :
    Search :=
  match groups.findSome? fun group => path.captures[group]?.join with
  | none => if attempt.program.pattern.options.javascriptCompat then [.found path] else []
  | some span =>
      match attempt.repeats span caseless path.position with
      | .matched stop => [.found { path with position := stop }]
      | .differs => []
      | .ranOut => attempt.searchEnd attempt.subject.size

/-- Where the body of a lookaround at a position is tried, if the subject has room for it. -/
def lookFrom (attempt : Attempt) (direction : LookDirection) (position : Nat) : Option Nat :=
  match direction with
  | .ahead => some position
  | .behind width => attempt.back position width

end Machine.Attempt

namespace Node

/-- Whether a literal matches a character. Outside UTF-8 mode only the letters of ASCII have
variants. -/
def literalAccepts (utf8 : Bool) (literal : Nat) (caseless : Bool) (character : Nat) : Bool :=
  character == literal
    || (caseless && (CaseFolding.variants literal).contains character
      && (utf8 || (literal < 0x80 && character < 0x80)))

/-! ## Trees -/

/-- The search for a tree behind a path.

Alternatives are tried from left to right. A repetition has its mandatory copies first and then its
optional ones, and prefers more of them if it is greedy. Lookarounds and atomic groups are content
with the first path of their body. A group has a span from where it is closed on, and only on the
paths that lead through there. -/
def interpret (attempt : Machine.Attempt) : Node (List Nat) → Path → Search
  | .empty, path => [.found path]
  | .literal character caseless, path =>
      attempt.searchCharacter (literalAccepts attempt.program.utf8 character caseless) path
  | .anyCharacter, path => attempt.searchCharacter (fun _ => true) path
  | .notNewline, path => attempt.searchNotNewline path
  | .lineBreak, path => attempt.searchLineBreak path
  | .charSet set, path => attempt.searchCharacter (set.contains attempt.program.ucp) path
  | .assertion condition, path => attempt.searchCondition condition path
  | .group body, path => body.interpret attempt path
  | .capture number body, path =>
      (body.interpret attempt path).andThen fun inner => [.found (inner.close number path.position)]
  | .sequence first second, path =>
      (first.interpret attempt path).andThen (second.interpret attempt)
  | .alternation first second, path =>
      first.interpret attempt path ++ second.interpret attempt path
  | .repetition body least greatest greedy, path =>
      (Search.exactly (body.interpret attempt) least path).andThen
        (Search.optional attempt.subject.size (body.interpret attempt) greedy
          (greatest.map (· - least)))
  | .backreference groups caseless, path => attempt.searchReference groups caseless path
  | .look direction negated body, path =>
      match attempt.lookFrom direction path.position with
      | none => if negated then [.found path] else []
      | some start =>
          let inner := body.interpret attempt { path with position := start }
          if negated then inner.absence path
          else inner.first.andThen fun seen => [.found { seen with position := path.position }]
  | .atomic body, path => (body.interpret attempt path).first

/-- The paths that a tree finds behind a path, the preferred ones first. -/
def results (attempt : Machine.Attempt) (node : Node (List Nat)) (path : Path) : List Path :=
  (node.interpret attempt path).results

section Results

variable (attempt : Machine.Attempt) (path : Path) (first second body : Node (List Nat))

@[simp] theorem results_empty : results attempt .empty path = [path] := rfl

@[simp] theorem results_group : results attempt (.group body) path = body.results attempt path :=
  rfl

@[simp] theorem results_capture (number : Nat) :
    results attempt (.capture number body) path =
      (body.results attempt path).map (·.close number path.position) := by
  simp [results, interpret, List.map_eq_flatMap]

@[simp] theorem results_sequence :
    results attempt (.sequence first second) path =
      (first.results attempt path).flatMap (second.results attempt) := by
  simp only [results, interpret, Search.results_andThen]
  rfl

@[simp] theorem results_alternation :
    results attempt (.alternation first second) path =
      first.results attempt path ++ second.results attempt path := by
  simp [results, interpret]

@[simp] theorem results_atomic :
    results attempt (.atomic body) path = (body.results attempt path).take 1 := by
  simp [results, interpret]

@[simp] theorem results_repetition (least : Nat) (greatest : Option Nat) (greedy : Bool) :
    results attempt (.repetition body least greatest greedy) path =
      (Search.exactly (body.interpret attempt) least path).results.flatMap fun path =>
        (Search.optional attempt.subject.size (body.interpret attempt) greedy
          (greatest.map (· - least)) path).results := by
  simp only [results, interpret, Search.results_andThen]

theorem results_look (direction : LookDirection) (negated : Bool) :
    results attempt (.look direction negated body) path =
      match attempt.lookFrom direction path.position with
      | none => if negated then [path] else []
      | some start =>
          let seen := body.results attempt { path with position := start }
          if negated then (if seen.isEmpty then [path] else [])
          else (seen.take 1).map fun seen => { seen with position := path.position } := by
  simp only [results, interpret]
  cases attempt.lookFrom direction path.position with
  | none => cases negated <;> rfl
  | some start => cases negated <;> simp [List.map_eq_flatMap]

end Results

end Node

end PerlRegex
