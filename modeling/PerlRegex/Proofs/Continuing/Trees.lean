import PerlRegex.Proofs.Continuing.Tests
namespace PerlRegex

/-! A tree finds the same on a subject that goes on, up to the point where the shorter subject ends
too early, if its search comes to no blind test. -/

namespace Node

def isTest : Node (List Nat) → Bool
  | .literal _ _ | .anyCharacter | .notNewline | .lineBreak | .charSet _ | .assertion _
  | .backreference _ _ => true
  | _ => false

/-- Whether a test is blind at a position: its answer depends on the text behind the end of the
subject, and no attempt reports that. -/
def Blind (attempt : Machine.Attempt) (more : Array UInt8) (position : Nat) :
    Node (List Nat) → Prop
  | .notNewline =>
      attempt.program.pattern.lineRules.newline = .crLf ∧ SplitsCrLf attempt.subject more position
  | .lineBreak => SplitsCrLf attempt.subject more position
  | .assertion condition => attempt.BlindTo more position condition
  | _ => False

/-- The search for a tree behind a path comes to a test at another path. For a repetition the number
of copies is left out of account. -/
inductive ComesTo (attempt : Machine.Attempt) :
    Node (List Nat) → Path → Node (List Nat) → Path → Prop
  | test {node : Node (List Nat)} (path : Path) :
      node.isTest = true → ComesTo attempt node path node path
  | group {body test : Node (List Nat)} {path there : Path} :
      ComesTo attempt body path test there → ComesTo attempt (.group body) path test there
  | capture {number : Nat} {body test : Node (List Nat)} {path there : Path} :
      ComesTo attempt body path test there →
      ComesTo attempt (.capture number body) path test there
  | sequenceFirst {first second test : Node (List Nat)} {path there : Path} :
      ComesTo attempt first path test there →
      ComesTo attempt (.sequence first second) path test there
  | sequenceSecond {first second test : Node (List Nat)} {path middle there : Path} :
      middle ∈ first.results attempt path → ComesTo attempt second middle test there →
      ComesTo attempt (.sequence first second) path test there
  | alternationFirst {first second test : Node (List Nat)} {path there : Path} :
      ComesTo attempt first path test there →
      ComesTo attempt (.alternation first second) path test there
  | alternationSecond {first second test : Node (List Nat)} {path there : Path} :
      ComesTo attempt second path test there →
      ComesTo attempt (.alternation first second) path test there
  | copy {body test : Node (List Nat)} {least : Nat} {greatest : Option Nat} {greedy : Bool}
      {path there : Path} :
      ComesTo attempt body path test there →
      ComesTo attempt (.repetition body least greatest greedy) path test there
  | again {body test : Node (List Nat)} {least : Nat} {greatest : Option Nat} {greedy : Bool}
      {path next there : Path} :
      next ∈ body.results attempt path →
      ComesTo attempt (.repetition body least greatest greedy) next test there →
      ComesTo attempt (.repetition body least greatest greedy) path test there
  | look {direction : LookDirection} {negated : Bool} {body test : Node (List Nat)} {start : Nat}
      {path there : Path} :
      attempt.lookFrom direction path.position = some start →
      ComesTo attempt body { path with position := start } test there →
      ComesTo attempt (.look direction negated body) path test there
  | atomic {body test : Node (List Nat)} {path there : Path} :
      ComesTo attempt body path test there → ComesTo attempt (.atomic body) path test there

/-- Whether no test of a tree can be blind, whatever the subject and the line rules are. -/
def neverBlind : Node (List Nat) → Bool
  | .notNewline | .lineBreak | .assertion .endOfTextOrFinalNewline | .assertion (.lineStart true)
  | .assertion (.lineEnd _ _) => false
  | .group body | .capture _ body | .repetition body _ _ _ | .look _ _ body | .atomic body =>
      body.neverBlind
  | .sequence first second | .alternation first second => first.neverBlind && second.neverBlind
  | _ => true

variable {attempt : Machine.Attempt} {more : Array UInt8}

theorem not_blind_of_neverBlind {node test : Node (List Nat)} {path there : Path}
    (never : node.neverBlind = true) (comes : node.ComesTo attempt path test there) :
    ¬ test.Blind attempt more there.position := by
  induction comes with
  | @test node path isTest =>
      cases node with
      | assertion condition =>
          cases condition with
          | lineStart multiline =>
              cases multiline with
              | true => cases never
              | false => exact fun blind => Bool.false_ne_true blind.1
          | endOfTextOrFinalNewline | lineEnd => cases never
          | startOfText | endOfText | startOffset | wordBoundary => exact not_false
      | notNewline | lineBreak => cases never
      | _ => exact not_false
  | group _ induction => exact induction never
  | capture _ induction => exact induction never
  | sequenceFirst _ induction => exact induction (Bool.and_eq_true_iff.mp never).1
  | sequenceSecond _ _ induction => exact induction (Bool.and_eq_true_iff.mp never).2
  | alternationFirst _ induction => exact induction (Bool.and_eq_true_iff.mp never).1
  | alternationSecond _ induction => exact induction (Bool.and_eq_true_iff.mp never).2
  | copy _ induction => exact induction never
  | again _ _ induction => exact induction never
  | look _ _ induction => exact induction never
  | atomic _ induction => exact induction never

theorem ComesTo.isTest {node test : Node (List Nat)} {path there : Path}
    (comes : node.ComesTo attempt path test there) : test.isTest = true := by
  induction comes with
  | test _ isTest => exact isTest
  | group _ induction | capture _ induction | sequenceFirst _ induction
  | sequenceSecond _ _ induction | alternationFirst _ induction | alternationSecond _ induction
  | copy _ induction | again _ _ induction | look _ _ induction | atomic _ induction =>
      exact induction

theorem ComesTo.all {holds : Nat → Prop} (keeps : attempt.Keeps holds)
    {node test : Node (List Nat)} {path there : Path}
    (comes : node.ComesTo attempt path test there) (all : path.All holds) : there.All holds := by
  induction comes with
  | test => exact all
  | group _ induction | capture _ induction | sequenceFirst _ induction
  | alternationFirst _ induction | alternationSecond _ induction | copy _ induction
  | atomic _ induction => exact induction all
  | sequenceSecond member _ induction => exact induction (all_of_mem_results keeps all member)
  | again member _ induction => exact induction (all_of_mem_results keeps all member)
  | look room _ induction => exact induction (all.move (keeps.look all.position room))

variable (goesOn : attempt.GoesOn more)
include goesOn

theorem agrees_test_iff {test : Node (List Nat)} {path : Path} (isTest : test.isTest = true)
    (inside : path.All (· ≤ attempt.subject.size)) :
    Search.Agrees (test.interpret attempt path) (test.interpret (attempt.continued more) path)
      ↔ ¬ test.Blind attempt more path.position := by
  cases test with
  | literal | anyCharacter | charSet =>
      exact iff_of_true (goesOn.agrees_searchCharacter inside.position) not_false
  | notNewline => exact goesOn.agrees_searchNotNewline_iff inside.position
  | lineBreak => exact goesOn.agrees_searchLineBreak_iff inside.position
  | assertion condition =>
      exact (goesOn.agrees_searchCondition_iff inside.position rfl).trans
        (goesOn.not_blindTo_iff inside.position)
  | backreference => exact iff_of_true (goesOn.agrees_searchReference inside) not_false
  | empty | group | capture | sequence | alternation | repetition | look | atomic => cases isTest

theorem agrees_interpret {node : Node (List Nat)} {path : Path}
    (inside : path.All (· ≤ attempt.subject.size))
    (sees : ∀ test there, node.ComesTo attempt path test there →
      ¬ test.Blind attempt more there.position) :
    Search.Agrees (node.interpret attempt path) (node.interpret (attempt.continued more) path) := by
  have keeps := attempt.keeps_inside
  induction node generalizing path with
  | literal | anyCharacter | notNewline | lineBreak | charSet | assertion | backreference =>
      exact (agrees_test_iff goesOn rfl inside).mpr (sees _ path (.test path rfl))
  | empty => exact .single path
  | group body induction =>
      exact induction inside fun test there comes => sees test there (.group comes)
  | capture number body induction =>
      rw [interpret, interpret]
      apply (induction inside fun test there comes => sees test there (.capture comes)).andThen
      intro inner member
      exact .single _
  | sequence first second firstInduction secondInduction =>
      rw [interpret, interpret]
      apply (firstInduction inside fun test there comes =>
        sees test there (.sequenceFirst comes)).andThen
      intro middle member
      exact secondInduction (all_of_mem_results keeps inside member) fun test there comes =>
        sees test there (.sequenceSecond member comes)
  | alternation first second firstInduction secondInduction =>
      rw [interpret, interpret]
      exact (firstInduction inside fun test there comes =>
        sees test there (.alternationFirst comes)).append
        (secondInduction inside fun test there comes => sees test there (.alternationSecond comes))
  | repetition body least greatest greedy induction =>
      rw [interpret, interpret]
      -- What is carried from copy to copy: the path lies inside, and no blind test lies behind it.
      let good : Path → Prop := fun path => path.All (· ≤ attempt.subject.size)
        ∧ ∀ test there, (repetition body least greatest greedy).ComesTo attempt path test there →
          ¬ test.Blind attempt more there.position
      have agree : ∀ path, good path → Search.Agrees (body.interpret attempt path)
          (body.interpret (attempt.continued more) path) := fun path here =>
        induction here.1 fun test there comes => here.2 test there (.copy comes)
      have goodNext : ∀ path, good path → ∀ next ∈ (body.interpret attempt path).results,
          good next := fun path here next member =>
        ⟨all_of_mem_results keeps here.1 member, fun test there comes =>
          here.2 test there (.again member comes)⟩
      have longer := Nat.le_of_lt (goesOn.lt_size (Nat.le_refl _))
      apply (Search.Agrees.exactly agree goodNext least ⟨inside, sees⟩).andThen
      intro middle member
      have middleGood : good path → good middle :=
        Search.related_exactly (fun _ => id) (fun begun continued here => continued (begun here))
          (fun path next member here => goodNext path here next member) least path middle member
      exact Search.Agrees.optional agree goodNext longer (fun path here => here.1.position) greedy _
        (middleGood ⟨inside, sees⟩)
  | look direction negated body induction =>
      rw [interpret, interpret, goesOn.lookFrom inside.position]
      cases room : attempt.lookFrom direction path.position with
      | none => exact .refl _
      | some start =>
          have agrees := induction (inside.move (keeps.look inside.position room))
            fun test there comes => sees test there (.look room comes)
          cases negated with
          | true => exact agrees.absence path
          | false => exact agrees.first.andThen fun seen _ => .single _
  | atomic body induction =>
      rw [interpret, interpret]
      exact (induction inside fun test there comes => sees test there (.atomic comes)).first

end Node

end PerlRegex
