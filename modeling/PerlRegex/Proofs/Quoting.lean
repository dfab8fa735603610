import Mathlib.Algebra.Group.Nat.Defs
import PerlRegex.Proofs.Pattern.Quoting
import PerlRegex.Proofs.Unplanned
namespace PerlRegex

/-! A quoted text is a pattern for just that text. Under any options but those that fold case or tie
the match to a place, it matches where the bytes of the text stand first. -/

/-- Options that can be reconciled, and under which a literal matches itself only, wherever it
stands. -/
structure CompileOptions.MatchesLiterally (options : CompileOptions) : Prop where
  newline : options.newline?.isSome = true
  lineBreaks : options.lineBreaks?.isSome = true
  allowed : ¬ (options.utf8 = true ∧ options.neverUtf = true)
  caseful : options.caseless = false
  anywhere : options.anchored = false
  anyLine : options.firstLine = false

section Texts

variable {text : String} {options : CompileOptions}

theorem exists_program_quote (literally : options.MatchesLiterally)
    (short : (charactersOf options.utf8 text).length < 2 ^ 20) :
    ∃ program, Program.compile (Utf8.ofText (quote text)) options = .ok program
      ∧ program.pattern.tree = .ofCharacters (charactersOf options.utf8 text)
      ∧ program.pattern.captures = 0 ∧ program.pattern.options = options := by
  rcases Pattern.parse_quote text literally.newline literally.lineBreaks literally.caseful
    literally.allowed with ⟨rules, parsed⟩
  have fits : ¬ Program.longest <
      (Node.ofCharacters (charactersOf options.utf8 text) : Node (List Nat)).codeSize options.utf8
        + 1 := by
    rw [Node.codeSize_ofCharacters, Program.longest]
    omega
  rw [Program.compile, parsed]
  dsimp only [Pattern.program]
  rw [if_neg fits]
  exact ⟨_, rfl, rfl, rfl, rfl⟩

namespace Regex

variable {regex : Regex} {program : Program}

theorem leadingText_of_tree (present : regex.program = some program)
    (tree : program.pattern.tree = .ofCharacters (charactersOf program.utf8 text)) :
    regex.leadingText = (text, true) := by
  have bytes : regex.leadingBytes = (Utf8.ofText text, true) := by
    rw [leadingBytes, present]
    dsimp only
    rw [tree, Node.leadingText_ofCharacters, ← bytesIn_charactersOf program.utf8 text, bytesIn]
    cases program.utf8 <;> rfl
  rw [leadingText, bytes, Utf8.lossyText_ofText]

theorem seeksCharacters_execution (literally : program.pattern.options.MatchesLiterally)
    (tree : program.pattern.tree = .ofCharacters (charactersOf program.utf8 text))
    (groups : program.pattern.captures = 0) {subject : Array UInt8} {startOffset : Nat}
    (inside : startOffset ≤ subject.size)
    (checked : program.utf8 = true →
      Utf8.isValid subject.toList = true ∧ Utf8.isBoundary subject startOffset = true) :
    (regex.execution program subject startOffset {}).unplanned.SeeksCharacters
      (charactersOf program.utf8 text) where
  tree := tree
  groups := groups
  characters := fun _ member => isCharacter_of_mem_charactersOf member
  anywhere := literally.anywhere
  anyLine := literally.anyLine
  noPlan := rfl
  options := rfl
  inside := inside
  formed := fun utf8 => Utf8.wellFormed_of_isValid (checked utf8).1
  boundary := fun utf8 => (checked utf8).2

/-- A quoted text makes a pattern without groups that matches the text and nothing else. It finds
the first place at or behind the start offset where the bytes of the text stand, and no match if
there is none. That may be given up for want of instructions or frames, but there are numbers of
them that are enough. All of this holds of every expression with the program, however it has been
studied and limited. An offset has to be one of the subject. -/
theorem compile_quote (text : String) (literally : options.MatchesLiterally)
    (short : (charactersOf options.utf8 text).length < 2 ^ 20) :
    ∃ regex, compile (Utf8.ofText (quote text)) options = .ok regex
      ∧ regex.groups = 0
      ∧ regex.leadingText = (text, true)
      ∧ ∀ again : Regex, again.Made → again.program = regex.program →
        ∀ (subject : Array UInt8) (startOffset : Nat),
        (options.utf8 = true →
          Utf8.isValid subject.toList = true ∧ Utf8.isBoundary subject startOffset = true) →
        (startOffset ≤ subject.size →
          ∃ outcome : Outcome, outcome.LocatesBytes subject (Utf8.ofText text) startOffset
            ∧ (again.execAt subject startOffset {} = .ok outcome
              ∨ again.execAt subject startOffset {} = .error (.error .matchLimit)
              ∨ again.execAt subject startOffset {} = .error (.error .recursionLimit))
            ∧ ∃ enough : Limits, ∀ limits : Limits,
              enough.instructions ≤ limits.instructions → enough.frames ≤ limits.frames →
                (again.setLimits limits).execAt subject startOffset {} = .ok outcome)
        ∧ (subject.size < startOffset →
          again.execAt subject startOffset {} =
            .error (.beyondSubject startOffset subject.size)) := by
  rcases exists_program_quote literally short with ⟨program, compiled, tree, groups, kept⟩
  have utf8 : options.utf8 = program.utf8 := congrArg CompileOptions.utf8 kept.symm
  rw [utf8] at tree
  refine ⟨_, compile_of_program compiled, groups, leadingText_of_tree rfl tree, ?_⟩
  intro again made present subject startOffset checked
  rw [utf8] at checked
  refine ⟨fun inside => ?_, fun beyond => execAt_of_lt present beyond {}⟩
  rcases made.exists_runsFreely_unplanned checked present inside {} with ⟨enough, states, runs⟩
  have seeks : ((again.setLimits enough).execution program subject startOffset
      {}).unplanned.SeeksCharacters (charactersOf program.utf8 text) :=
    seeksCharacters_execution (kept.symm ▸ literally) tree groups inside checked
  refine ⟨_, ?_, runs.execAt_cases, ⟨states.length, Machine.mostHeld states⟩, ?_⟩
  · rw [← bytesIn_charactersOf program.utf8 text]
    exact seeks.locatesBytes_tryStarts
  · intro limits instructions frames
    exact runs.execAt_of_enough limits instructions frames

/-- A text that looks like a verb, a NUL in front of hexadecimal digits, blanks, a comment, a
repeated character and an escape. It stands twice behind the `é` of the subject. -/
theorem compile_quote_signs :
    ∃ regex, compile (Utf8.ofText (quote "(*CR)\x0041 #é+\\E"))
        { utf8 := true, extended := true, extra := true } = .ok regex
      ∧ regex.leadingText = ("(*CR)\x0041 #é+\\E", true)
      ∧ regex.execAt (Utf8.ofText "é(*CR)\x0041 #é+\\E(*CR)\x0041 #é+\\E").toArray 0 {} =
        .ok (.matched [some ⟨2, 17⟩]) := by
  let text := "(*CR)\x0041 #é+\\E"
  let subject := (Utf8.ofText "é(*CR)\x0041 #é+\\E(*CR)\x0041 #é+\\E").toArray
  have evaluated : ∃ program, Program.compile (Utf8.ofText (quote text))
        { utf8 := true, extended := true, extra := true } = .ok program
      ∧ execAt ⟨some program, none, {}⟩ subject 0 {} ≠ .error (.error .matchLimit)
      ∧ execAt ⟨some program, none, {}⟩ subject 0 {} ≠ .error (.error .recursionLimit) :=
    exists_compiled (by decide +kernel)
  rcases evaluated with ⟨program, compiled, enough⟩
  have literally : ({ utf8 := true, extended := true, extra := true } :
      CompileOptions).MatchesLiterally :=
    ⟨rfl, rfl, by decide, rfl, rfl, rfl⟩
  rcases compile_quote text literally (by decide +kernel) with
    ⟨regex, made, _, leading, finds⟩
  have same := (compile_of_program compiled).symm.trans made
  injection same with same
  have first : FirstOccurrence subject (Utf8.ofText text) 0 2 := by
    refine ⟨by decide, by decide +kernel, fun earlier _ before => ?_⟩
    have nowhere : ∀ earlier < 2, ¬ OccursAt subject (Utf8.ofText text) earlier := by
      decide +kernel
    exact nowhere earlier before
  refine ⟨regex, made, leading, ?_⟩
  rcases (finds regex (.compiled made) rfl subject 0 (by decide +kernel)).1 (Nat.zero_le _) with
    ⟨outcome, locates, found | gaveUp | gaveUp, _⟩
  · rw [found, locates.found 2 first]
    decide +kernel
  · exact absurd (same ▸ gaveUp) enough.1
  · exact absurd (same ▸ gaveUp) enough.2

end Regex

end Texts

end PerlRegex
