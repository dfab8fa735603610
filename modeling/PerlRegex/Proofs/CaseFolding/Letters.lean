import PerlRegex.Proofs.CaseFolding.Agreement
import PerlRegex.Proofs.Unicode.CodePointSet

/-! What characters are that have other cases. They are letters, capitals and small ones among their
variants, and numerals only together. -/

namespace PerlRegex

namespace Unicode.CaseRun

/-- A run as runs of consecutive code points. -/
def pieces (run : CaseRun) : List (Nat × Nat) :=
  if run.step = 1 then [(run.first, run.last)]
  else run.codePoints.map fun codePoint => (codePoint, codePoint)

theorem Holds.exists_piece {run : CaseRun} {codePoint : Nat} (holds : run.Holds codePoint) :
    ∃ piece ∈ run.pieces, piece.1 ≤ codePoint ∧ codePoint ≤ piece.2 := by
  rw [pieces]
  split
  · exact ⟨_, List.mem_singleton_self _, holds.1, holds.2.1⟩
  · exact ⟨_, List.mem_map_of_mem holds.mem_codePoints, Nat.le_refl _, Nat.le_refl _⟩

end Unicode.CaseRun

namespace CaseFolding

open Unicode (toLowercase toUppercase isAlphabetic isLowercase isUppercase isNumeric)

/-! ## Pairs -/

/-- The runs of letters that have a small form but are no capitals: the digraphs with a capital
first letter, and the Greek capitals with an iota at their side. -/
def titleCases : List (Nat × Nat) := [
  (0x1C5, 0x1C5), (0x1C8, 0x1C8), (0x1CB, 0x1CB), (0x1F2, 0x1F2), (0x1F88, 0x1F8F),
  (0x1F98, 0x1F9F), (0x1FA8, 0x1FAF), (0x1FBC, 0x1FBC), (0x1FCC, 0x1FCC), (0x1FFC, 0x1FFC)]

/-- Title cases belong to families. Apart from them capitals are what has a small form, and small
letters what has a large one. -/
structure PairTables : Prop where
  titleCasesInFamily :
    (titleCases.all fun run =>
      (List.range' run.1 (run.2 + 1 - run.1)).all inFamily) = true
  coversToLowercase :
    Unicode.covers Unicode.uppercase.runs
      ((toLowercase.runs.flatMap Unicode.CaseRun.pieces).filter
        fun piece => !titleCases.contains piece) = true
  coversToUppercase :
    Unicode.covers Unicode.lowercase.runs
      ((toUppercase.runs.flatMap Unicode.CaseRun.pieces).filter
        fun piece => !titleCases.contains piece) = true

theorem pairTables : PairTables where
  titleCasesInFamily := by decide +kernel
  coversToLowercase := by decide +kernel
  coversToUppercase := by decide +kernel

theorem not_titleCase_of_outside {codePoint : Nat} (outside : inFamily codePoint = false)
    {piece : Nat × Nat} (within : piece.1 ≤ codePoint ∧ codePoint ≤ piece.2) :
    titleCases.contains piece = false := by
  rw [← Bool.not_eq_true]
  intro titled
  have all := List.all_eq_true.mp pairTables.titleCasesInFamily piece
    (List.contains_iff_mem.mp titled)
  have inside := List.all_eq_true.mp all codePoint (List.mem_range'_1.mpr (by omega))
  rw [outside] at inside
  cases inside

/-- What a mapping moves belongs to a set whose runs cover those of the mapping, title cases left
out. -/
theorem contains_of_find? {map : Unicode.CaseMap} {set : Unicode.CodePointSet} {least : Nat}
    (increasing : Unicode.increasingFrom least set.runs = true)
    (covered : Unicode.covers set.runs
      ((map.runs.flatMap Unicode.CaseRun.pieces).filter
        fun piece => !titleCases.contains piece) = true)
    {codePoint target : Nat} (outside : inFamily codePoint = false)
    (found : map.find? codePoint = some target) : set.contains codePoint = true := by
  rcases Unicode.CaseMap.exists_run_of_find? found with ⟨run, listed, holds, _⟩
  rcases holds.exists_piece with ⟨piece, member, within⟩
  have kept : piece ∈ (map.runs.flatMap Unicode.CaseRun.pieces).filter
      fun piece => !titleCases.contains piece := by
    rw [List.mem_filter, not_titleCase_of_outside outside within]
    exact ⟨List.mem_flatMap.mpr ⟨run, listed, member⟩, rfl⟩
  rcases Unicode.exists_run_of_covers covered piece kept with ⟨run, runListed, inside⟩
  exact (Unicode.CodePointSet.contains_iff increasing codePoint).mpr ⟨run, runListed, by omega⟩

/-- A capital and its small letter, which have no other variants. -/
structure Paired (capital small : Nat) : Prop where
  capitalOutside : inFamily capital = false
  smallOutside : inFamily small = false
  lowers : toLowercase.find? capital = some small
  raises : toUppercase.find? small = some capital

theorem Paired.isUppercase {capital small : Nat} (paired : Paired capital small) :
    isUppercase capital = true :=
  contains_of_find? Unicode.letterTables.increasingUppercase pairTables.coversToLowercase
    paired.capitalOutside paired.lowers

theorem Paired.isLowercase {capital small : Nat} (paired : Paired capital small) :
    isLowercase small = true :=
  contains_of_find? Unicode.letterTables.increasingLowercase pairTables.coversToUppercase
    paired.smallOutside paired.raises

theorem exists_paired {codePoint : Nat} (outside : inFamily codePoint = false)
    (cased : variants codePoint ≠ [codePoint]) :
    ∃ capital small, Paired capital small
      ∧ ∀ other, other ∈ variants codePoint ↔ other = capital ∨ other = small := by
  cases lower : toLowercase.find? codePoint with
  | some small =>
      refine ⟨codePoint, small, ?_, fun other => ?_⟩
      · exact ⟨outside, toLowercase_outside outside lower, lower,
          (undoes_of_toLowercase outside lower).returns⟩
      · simp [variants_of_toLowercase outside lower]
  | none =>
      cases upper : toUppercase.find? codePoint with
      | some capital =>
          refine ⟨capital, codePoint, ?_, fun other => ?_⟩
          · exact ⟨toUppercase_outside outside upper, outside,
              (undoes_of_toUppercase outside upper).returns, upper⟩
          · simp [variants_of_toUppercase outside upper, or_comm]
      | none =>
          apply absurd (variants_of_alone _) cased
          rw [partners_of_outside outside, lower, upper]
          rfl

/-- What the two letters of every pair have in common, variants outside the families have in
common. -/
theorem eq_of_mem_variants {property : Nat → α}
    (same : ∀ capital small, Paired capital small → property capital = property small)
    {codePoint other : Nat} (outside : inFamily codePoint = false)
    (member : other ∈ variants codePoint) : property other = property codePoint := by
  by_cases alone : variants codePoint = [codePoint]
  · rw [alone] at member
    rw [List.mem_singleton.mp member]
  rcases exists_paired outside alone with ⟨capital, small, paired, all⟩
  have alike : ∀ letter ∈ variants codePoint, property letter = property small := by
    intro letter letterMember
    rcases (all letter).mp letterMember with rfl | rfl
    · exact same letter small paired
    · rfl
  rw [alike other member, alike codePoint (mem_variants_self codePoint)]

/-! ## Families -/

/-- The Greek capitals with an iota at their side. Their small form does not lead back to them. -/
def iotaCapitals : List Nat :=
  List.range' 0x1F88 8 ++ List.range' 0x1F98 8 ++ List.range' 0x1FA8 8 ++ [0x1FBC, 0x1FCC, 0x1FFC]

/-- Families consist of letters that are no numerals, with a small letter in the core. Every family
has a capital there too, but for those of the Greek capitals with an iota. -/
structure FamilyLetters : Prop where
  iotaCapitals :
    ∀ capital ∈ iotaCapitals, inFamily capital = true ∧ isLowercase capital = false
  letters :
    ∀ family ∈ families,
      (∀ codePoint ∈ family.members, isAlphabetic codePoint = true ∧ isNumeric codePoint = false)
        ∧ ∃ small ∈ family.core, isLowercase small = true
  capitals :
    ∀ family ∈ families,
      ((∃ capital ∈ family.core, isUppercase capital = true)
          ∧ ∀ codePoint ∈ family.members, codePoint ∉ CaseFolding.iotaCapitals)
        ∨ (∃ small ∈ family.core, family.core = [small])
          ∧ ∀ stray ∈ family.strays, stray ∈ CaseFolding.iotaCapitals
            ∧ isUppercase stray = false ∧ isLowercase stray = false

theorem familyLetters : FamilyLetters where
  iotaCapitals := by decide +kernel
  letters := by decide +kernel
  capitals := by decide +kernel

theorem mem_members_of_mem_variants {family : Family} (listed : family ∈ families)
    {codePoint other : Nat} (belongs : codePoint ∈ family.members)
    (member : other ∈ variants codePoint) : other ∈ family.members := by
  rcases (mem_variants_of_member listed belongs).mp member with rfl | inCore
  · exact belongs
  · exact List.mem_append_left _ inCore

theorem mem_strays_of_cased {family : Family} (listed : family ∈ families) {small codePoint : Nat}
    (alone : family.core = [small]) (member : codePoint ∈ family.members)
    (cased : variants codePoint ≠ [codePoint]) : codePoint ∈ family.strays := by
  rcases List.mem_append.mp member with inCore | inStrays
  · have same : codePoint = small := by
      rw [alone] at inCore
      exact List.mem_singleton.mp inCore
    have all := (familyTables.variants family listed).1 codePoint inCore
    rw [alone, List.perm_singleton, ← same] at all
    exact absurd all cased
  · exact inStrays

/-! ## Characters with other cases -/

section Cased

variable {codePoint : Nat} (cased : variants codePoint ≠ [codePoint])
include cased

theorem isAlphabetic_of_cased {other : Nat} (member : other ∈ variants codePoint) :
    isAlphabetic other = true := by
  cases outside : inFamily codePoint with
  | false =>
      rcases exists_paired outside cased with ⟨capital, small, paired, all⟩
      rcases (all other).mp member with rfl | rfl
      · exact Unicode.isAlphabetic_of_isUppercase paired.isUppercase
      · exact Unicode.isAlphabetic_of_isLowercase paired.isLowercase
  | true =>
      rcases inFamily_iff.mp outside with ⟨family, listed, belongs⟩
      exact ((familyLetters.letters family listed).1 other
        (mem_members_of_mem_variants listed belongs member)).1

theorem exists_isLowercase_of_cased : ∃ small ∈ variants codePoint, isLowercase small = true := by
  cases outside : inFamily codePoint with
  | false =>
      rcases exists_paired outside cased with ⟨capital, small, paired, all⟩
      exact ⟨small, (all small).mpr (.inr rfl), paired.isLowercase⟩
  | true =>
      rcases inFamily_iff.mp outside with ⟨family, listed, belongs⟩
      rcases (familyLetters.letters family listed).2 with ⟨small, inCore, lower⟩
      exact ⟨small, (mem_variants_of_member listed belongs).mpr (.inr inCore), lower⟩

theorem exists_isUppercase_iff_of_cased :
    (∃ capital ∈ variants codePoint, isUppercase capital = true) ↔ codePoint ∉ iotaCapitals := by
  cases outside : inFamily codePoint with
  | false =>
      rcases exists_paired outside cased with ⟨capital, small, paired, all⟩
      apply iff_of_true
      · exact ⟨capital, (all capital).mpr (.inl rfl), paired.isUppercase⟩
      · intro iota
        have inside := (familyLetters.iotaCapitals codePoint iota).1
        rw [outside] at inside
        cases inside
  | true =>
      rcases inFamily_iff.mp outside with ⟨family, listed, belongs⟩
      rcases familyLetters.capitals family listed with
        ⟨⟨capital, inCore, upper⟩, notIota⟩ | ⟨⟨small, inCore, alone⟩, strays⟩
      · apply iff_of_true
        · exact ⟨capital, (mem_variants_of_member listed belongs).mpr (.inr inCore), upper⟩
        · exact notIota codePoint belongs
      · have stray := strays codePoint (mem_strays_of_cased listed alone belongs cased)
        apply iff_of_false
        · rintro ⟨other, member, upper⟩
          rcases (mem_variants_of_member listed belongs).mp member with rfl | otherInCore
          · rw [stray.2.1] at upper
            cases upper
          · rcases (familyLetters.letters family listed).2 with ⟨letter, letterInCore, lower⟩
            rw [alone] at otherInCore letterInCore
            rw [List.mem_singleton.mp letterInCore, ← List.mem_singleton.mp otherInCore,
              Unicode.not_isLowercase_of_isUppercase upper] at lower
            cases lower
        · exact fun notIota => notIota stray.1

theorem exists_not_isLowercase_of_cased :
    ∃ other ∈ variants codePoint, isLowercase other = false := by
  by_cases iota : codePoint ∈ iotaCapitals
  · exact ⟨codePoint, mem_variants_self codePoint,
      (familyLetters.iotaCapitals codePoint iota).2⟩
  · rcases (exists_isUppercase_iff_of_cased cased).mpr iota with ⟨capital, member, upper⟩
    exact ⟨capital, member, Unicode.not_isLowercase_of_isUppercase upper⟩

end Cased

/-! ## Numerals -/

/-- The Roman numerals, of which there are capitals and small ones. They are the only letters with
cases that are numerals as well. -/
def romanNumerals : Nat × Nat := (0x2160, 0x217F)

/-- The runs of numerals with the Roman ones taken out. -/
def otherNumerals : List (Nat × Nat) :=
  Unicode.numeric.runs.flatMap fun run =>
    if run.1 ≤ romanNumerals.1 ∧ romanNumerals.2 ≤ run.2 then
      [(run.1, romanNumerals.1 - 1), (romanNumerals.2 + 1, run.2)]
    else [run]

/-- Roman numerals are numerals, and the others are no letters with cases. A capital is a Roman
numeral if its small form is one. -/
structure NumeralTables : Prop where
  increasingNumeric : Unicode.increasingFrom 0 Unicode.numeric.runs = true
  increasingOthers : Unicode.increasingFrom 0 otherNumerals = true
  apartUppercase : Unicode.apart Unicode.uppercase.runs otherNumerals = true
  apartLowercase : Unicode.apart Unicode.lowercase.runs otherNumerals = true
  holdsRoman : ∃ run ∈ Unicode.numeric.runs, run.1 ≤ romanNumerals.1 ∧ romanNumerals.2 ≤ run.2
  romanPairs :
    ∀ run ∈ toLowercase.runs,
      romanNumerals.1 ≤ run.first ∧ run.last ≤ romanNumerals.2 ∧ romanNumerals.1 ≤ run.target
          ∧ run.target + (run.last - run.first) ≤ romanNumerals.2
        ∨ (run.last < romanNumerals.1 ∨ romanNumerals.2 < run.first)
          ∧ (run.target + (run.last - run.first) < romanNumerals.1
            ∨ romanNumerals.2 < run.target)

theorem numeralTables : NumeralTables where
  increasingNumeric := by decide +kernel
  increasingOthers := by decide +kernel
  apartUppercase := by decide +kernel
  apartLowercase := by decide +kernel
  holdsRoman := by decide +kernel
  romanPairs := by decide +kernel

theorem isNumeric_iff {codePoint : Nat} :
    isNumeric codePoint = true ↔
      ∃ run ∈ Unicode.numeric.runs, run.1 ≤ codePoint ∧ codePoint ≤ run.2 :=
  Unicode.CodePointSet.contains_iff numeralTables.increasingNumeric codePoint

theorem isNumeric_of_romanNumeral {codePoint : Nat}
    (roman : romanNumerals.1 ≤ codePoint ∧ codePoint ≤ romanNumerals.2) :
    isNumeric codePoint = true := by
  rcases numeralTables.holdsRoman with ⟨run, member, around⟩
  exact isNumeric_iff.mpr ⟨run, member, by omega⟩

theorem exists_otherNumeral {codePoint : Nat} (number : isNumeric codePoint = true)
    (other : ¬ (romanNumerals.1 ≤ codePoint ∧ codePoint ≤ romanNumerals.2)) :
    ∃ run ∈ otherNumerals, run.1 ≤ codePoint ∧ codePoint ≤ run.2 := by
  rcases isNumeric_iff.mp number with ⟨run, member, within⟩
  by_cases around : run.1 ≤ romanNumerals.1 ∧ romanNumerals.2 ≤ run.2
  · rcases Nat.lt_or_ge codePoint romanNumerals.1 with before | behind
    · refine ⟨(run.1, romanNumerals.1 - 1), ?_, within.1, by omega⟩
      exact List.mem_flatMap.mpr ⟨run, member, by simp [around]⟩
    · refine ⟨(romanNumerals.2 + 1, run.2), ?_, by omega, within.2⟩
      exact List.mem_flatMap.mpr ⟨run, member, by simp [around]⟩
  · refine ⟨run, List.mem_flatMap.mpr ⟨run, member, ?_⟩, within⟩
    rw [if_neg around]
    exact List.mem_singleton_self run

theorem romanNumeral_of_contains {letters : Unicode.CodePointSet}
    (increasing : Unicode.increasingFrom 0 letters.runs = true)
    (separate : Unicode.apart letters.runs otherNumerals = true) {codePoint : Nat}
    (letter : letters.contains codePoint = true) (number : isNumeric codePoint = true) :
    romanNumerals.1 ≤ codePoint ∧ codePoint ≤ romanNumerals.2 := by
  apply Decidable.byContradiction
  intro other
  rcases exists_otherNumeral number other with ⟨numerals, numeralsListed, within⟩
  rcases (Unicode.CodePointSet.contains_iff increasing codePoint).mp letter with
    ⟨run, listed, inside⟩
  have := Unicode.lt_or_lt_of_apart separate increasing numeralTables.increasingOthers
    run listed numerals numeralsListed
  omega

theorem Paired.romanNumeral_iff {capital small : Nat} (paired : Paired capital small) :
    romanNumerals.1 ≤ capital ∧ capital ≤ romanNumerals.2
      ↔ romanNumerals.1 ≤ small ∧ small ≤ romanNumerals.2 := by
  rcases Unicode.CaseMap.exists_run_of_find? paired.lowers with ⟨run, listed, ⟨_, _, _⟩, _⟩
  have := numeralTables.romanPairs run listed
  omega

theorem Paired.isNumeric_eq {capital small : Nat} (paired : Paired capital small) :
    isNumeric capital = isNumeric small := by
  rw [Bool.eq_iff_iff]
  constructor
  · intro number
    have roman := romanNumeral_of_contains Unicode.letterTables.increasingUppercase
      numeralTables.apartUppercase paired.isUppercase number
    exact isNumeric_of_romanNumeral (paired.romanNumeral_iff.mp roman)
  · intro number
    have roman := romanNumeral_of_contains Unicode.letterTables.increasingLowercase
      numeralTables.apartLowercase paired.isLowercase number
    exact isNumeric_of_romanNumeral (paired.romanNumeral_iff.mpr roman)

theorem isNumeric_of_mem_variants {codePoint other : Nat} (member : other ∈ variants codePoint) :
    isNumeric other = isNumeric codePoint := by
  cases outside : inFamily codePoint with
  | false => exact eq_of_mem_variants (fun _ _ => Paired.isNumeric_eq) outside member
  | true =>
      rcases inFamily_iff.mp outside with ⟨family, listed, belongs⟩
      have letters := (familyLetters.letters family listed).1
      rw [(letters other (mem_members_of_mem_variants listed belongs member)).2,
        (letters codePoint belongs).2]

/-! ## Words of ASCII -/

/-- The letters of ASCII that have variants beyond it, and these variants: the dotless i, the long s
and the Kelvin sign. The dotless i is not a variant of anything else. -/
def asciiCrossings : List Nat := [0x4B, 0x53, 0x6B, 0x73, 0x131, 0x17F, 0x212A]

/-- Letters of ASCII have their other cases in ASCII, but for those that cross over to others of
their families. -/
structure CrossingTables : Prop where
  words :
    ∀ codePoint < 0x80, ∀ other ∈ letterCases codePoint,
      Ascii.isWord codePoint = true ∧ Ascii.isWord other = true
  crossings :
    ∀ family ∈ families, ∀ codePoint ∈ family.members,
      (∃ other ∈ family.core, Ascii.isWord other ≠ Ascii.isWord codePoint) ↔
        codePoint ∈ asciiCrossings
  inFamily : ∀ codePoint ∈ asciiCrossings, inFamily codePoint = true

theorem crossingTables : CrossingTables where
  words := by decide +kernel
  crossings := by decide +kernel
  inFamily := by decide +kernel

theorem isWord_of_beyond {codePoint : Nat} (beyond : 0x80 ≤ codePoint) :
    Ascii.isWord codePoint = false := by
  rw [← Bool.not_eq_true]
  intro word
  simp only [Ascii.isWord, Ascii.isAlphanumeric, Ascii.isLetter, Ascii.isDigit, Ascii.isUpper,
    Ascii.isLower, Bool.or_eq_true, Bool.and_eq_true, decide_eq_true_eq, beq_iff_eq] at word
  omega

theorem Paired.isWord_eq {capital small : Nat} (paired : Paired capital small) :
    Ascii.isWord capital = Ascii.isWord small := by
  have smallCase : small ∈ letterCases capital := by
    rw [letterCases_eq, paired.lowers]
    exact List.mem_append_left _ (List.mem_singleton_self small)
  have capitalCase : capital ∈ letterCases small := by
    rw [letterCases_eq, paired.raises]
    exact List.mem_append_right _ (List.mem_singleton_self capital)
  rcases Nat.lt_or_ge capital 0x80 with ascii | beyond
  · rcases crossingTables.words capital ascii small smallCase with ⟨word, otherWord⟩
    rw [word, otherWord]
  · rcases Nat.lt_or_ge small 0x80 with ascii | otherBeyond
    · rcases crossingTables.words small ascii capital capitalCase with ⟨word, otherWord⟩
      rw [word, otherWord]
    · rw [isWord_of_beyond beyond, isWord_of_beyond otherBeyond]

theorem exists_isWord_ne_iff {codePoint : Nat} :
    (∃ other ∈ variants codePoint, Ascii.isWord other ≠ Ascii.isWord codePoint) ↔
      codePoint ∈ asciiCrossings := by
  cases outside : inFamily codePoint with
  | false =>
      apply iff_of_false
      · rintro ⟨other, member, differs⟩
        exact differs (eq_of_mem_variants (fun _ _ => Paired.isWord_eq) outside member)
      · intro crossing
        rw [crossingTables.inFamily codePoint crossing] at outside
        cases outside
  | true =>
      rcases inFamily_iff.mp outside with ⟨family, listed, belongs⟩
      rw [← crossingTables.crossings family listed codePoint belongs]
      constructor
      · rintro ⟨other, member, differs⟩
        rcases (mem_variants_of_member listed belongs).mp member with rfl | inCore
        · exact absurd rfl differs
        · exact ⟨other, inCore, differs⟩
      · rintro ⟨other, inCore, differs⟩
        exact ⟨other, (mem_variants_of_member listed belongs).mpr (.inr inCore), differs⟩

end CaseFolding

end PerlRegex
