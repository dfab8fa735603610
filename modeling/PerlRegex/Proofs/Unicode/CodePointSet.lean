import PerlRegex.CharSet
namespace PerlRegex.Unicode

/-! Sets of code points looked at as lists of runs. Whether one set holds another one, or has
nothing in common with it, is found out by going along two lists of runs once. -/

/-! ## Lists of runs -/

/-- Whether runs stand in increasing order, the first one not before `least`. -/
def increasingFrom (least : Nat) : List (Nat × Nat) → Bool
  | [] => true
  | run :: rest => least ≤ run.1 && run.1 ≤ run.2 && increasingFrom (run.2 + 1) rest

/-- Whether every piece lies within one of the runs, where both stand in increasing order. -/
def covers : (runs pieces : List (Nat × Nat)) → Bool
  | [], pieces => pieces.isEmpty
  | run :: runs, pieces =>
      covers runs (pieces.dropWhile fun piece => run.1 ≤ piece.1 && piece.2 ≤ run.2)

/-- Whether no run has anything in common with one of the others, where both stand in increasing
order. -/
def apart : (runs others : List (Nat × Nat)) → Bool
  | [], _ => true
  | run :: runs, others =>
      let later := others.dropWhile fun other => other.2 < run.1
      (later.head?.all fun other => run.2 < other.1) && apart runs later

theorem le_of_increasingFrom {least : Nat} {runs : List (Nat × Nat)}
    (increasing : increasingFrom least runs = true) :
    ∀ run ∈ runs, least ≤ run.1 ∧ run.1 ≤ run.2 := by
  induction runs generalizing least with
  | nil => simp
  | cons first rest induction =>
      simp only [increasingFrom, Bool.and_eq_true, decide_eq_true_eq] at increasing
      intro run member
      rcases List.mem_cons.mp member with rfl | member
      · exact increasing.1
      · have := induction increasing.2 run member
        omega

theorem increasingFrom_append {least : Nat} {front back : List (Nat × Nat)} {run : Nat × Nat}
    (increasing : increasingFrom least (front ++ run :: back) = true) :
    increasingFrom least front = true ∧ (∀ other ∈ front, other.2 < run.1)
      ∧ run.1 ≤ run.2 ∧ increasingFrom (run.2 + 1) back = true := by
  induction front generalizing least with
  | nil =>
      simp only [List.nil_append, increasingFrom, Bool.and_eq_true, decide_eq_true_eq]
        at increasing
      exact ⟨rfl, by simp, increasing.1.2, increasing.2⟩
  | cons first front induction =>
      simp only [List.cons_append, increasingFrom, Bool.and_eq_true, decide_eq_true_eq]
        at increasing ⊢
      rcases induction increasing.2 with ⟨ordered, before, later⟩
      refine ⟨⟨increasing.1, ordered⟩, fun other member => ?_, later⟩
      rcases List.mem_cons.mp member with rfl | member
      · exact (le_of_increasingFrom increasing.2 run (by simp)).1
      · exact before other member

theorem exists_run_of_covers {runs pieces : List (Nat × Nat)}
    (covered : covers runs pieces = true) :
    ∀ piece ∈ pieces, ∃ run ∈ runs, run.1 ≤ piece.1 ∧ piece.2 ≤ run.2 := by
  induction runs generalizing pieces with
  | nil =>
      intro piece member
      rw [covers, List.isEmpty_iff] at covered
      rw [covered] at member
      cases member
  | cons run runs induction =>
      intro piece member
      let within : Nat × Nat → Bool := fun piece => run.1 ≤ piece.1 && piece.2 ≤ run.2
      have parts : pieces.takeWhile within ++ pieces.dropWhile within = pieces :=
        List.takeWhile_append_dropWhile
      rw [← parts] at member
      rcases List.mem_append.mp member with taken | left
      · have inside : within piece = true :=
          List.all_eq_true.mp List.all_takeWhile piece taken
        simp only [within, Bool.and_eq_true, decide_eq_true_eq] at inside
        exact ⟨run, List.mem_cons_self, inside⟩
      · rcases induction covered piece left with ⟨other, otherMember, inside⟩
        exact ⟨other, List.mem_cons_of_mem run otherMember, inside⟩

theorem lt_or_lt_of_apart {runs others : List (Nat × Nat)} {least otherLeast : Nat}
    (checked : apart runs others = true) (increasing : increasingFrom least runs = true)
    (otherIncreasing : increasingFrom otherLeast others = true) :
    ∀ run ∈ runs, ∀ other ∈ others, other.2 < run.1 ∨ run.2 < other.1 := by
  induction runs generalizing others least otherLeast with
  | nil => simp
  | cons first runs induction =>
      let before : Nat × Nat → Bool := fun other => other.2 < first.1
      simp only [apart, Bool.and_eq_true] at checked
      simp only [increasingFrom, Bool.and_eq_true, decide_eq_true_eq] at increasing
      have passed : ∀ other ∈ others.takeWhile before, other.2 < first.1 := by
        intro other member
        exact of_decide_eq_true (List.all_eq_true.mp List.all_takeWhile other member)
      intro run member other otherMember
      have parts : others.takeWhile before ++ others.dropWhile before = others :=
        List.takeWhile_append_dropWhile
      rw [← parts] at otherMember otherIncreasing
      rcases List.mem_append.mp otherMember with taken | left
      · have := passed other taken
        rcases List.mem_cons.mp member with rfl | member
        · exact .inl this
        · have := le_of_increasingFrom increasing.2 run member
          exact .inl (by omega)
      · cases later : others.dropWhile before with
        | nil =>
            rw [later] at left
            cases left
        | cons next rest =>
            rw [later] at left otherIncreasing
            change (((others.dropWhile before).head?.all fun other => first.2 < other.1) = true)
              ∧ apart runs (others.dropWhile before) = true at checked
            rw [later] at checked
            rcases increasingFrom_append otherIncreasing with ⟨_, _, ordered, behind⟩
            have nextIncreasing : increasingFrom next.1 (next :: rest) = true := by
              simp [increasingFrom, ordered, behind]
            rcases List.mem_cons.mp member with rfl | member
            · have ahead : run.2 < next.1 := of_decide_eq_true checked.1
              have := (le_of_increasingFrom nextIncreasing other left).1
              exact .inr (by omega)
            · exact induction checked.2 increasing.2 nextIncreasing run member other left

/-! ## Sets as lists of runs -/

namespace CodePointSet

theorem contains_iff {set : CodePointSet} {least : Nat}
    (increasing : increasingFrom least set.runs = true) (codePoint : Nat) :
    set.contains codePoint = true ↔ ∃ run ∈ set.runs, run.1 ≤ codePoint ∧ codePoint ≤ run.2 := by
  induction set generalizing least with
  | empty => simp [contains, runs]
  | node below first last above belowInduction aboveInduction =>
      rw [runs] at increasing
      rcases increasingFrom_append increasing with ⟨belowIncreasing, before, ordered, behind⟩
      have later := fun run member => (le_of_increasingFrom behind run member).1
      dsimp only at before ordered later
      simp only [contains, runs, List.mem_append, List.mem_cons]
      split
      · rename_i smaller
        rw [belowInduction belowIncreasing]
        constructor
        · rintro ⟨run, member, within⟩
          exact ⟨run, .inl member, within⟩
        · rintro ⟨run, member | rfl | member, within⟩
          · exact ⟨run, member, within⟩
          · omega
          · have := later run member
            omega
      · split
        · rename_i greater
          rw [aboveInduction behind]
          constructor
          · rintro ⟨run, member, within⟩
            exact ⟨run, .inr (.inr member), within⟩
          · rintro ⟨run, member | rfl | member, within⟩
            · have := before run member
              omega
            · omega
            · exact ⟨run, member, within⟩
        · simp only [true_iff]
          exact ⟨(first, last), .inr (.inl rfl), by omega⟩

end CodePointSet

/-! ## Letters -/

/-- The tables of letters are in order. Capitals and small letters are letters, none of them is
both, and all letters are code points. -/
structure LetterTables : Prop where
  increasingAlphabetic : increasingFrom 0 alphabetic.runs = true
  increasingUppercase : increasingFrom 0 uppercase.runs = true
  increasingLowercase : increasingFrom 0 lowercase.runs = true
  coversUppercase : covers alphabetic.runs uppercase.runs = true
  coversLowercase : covers alphabetic.runs lowercase.runs = true
  apartCases : apart uppercase.runs lowercase.runs = true
  below : ∀ run ∈ alphabetic.runs, run.2 < 0x110000

theorem letterTables : LetterTables where
  increasingAlphabetic := by decide +kernel
  increasingUppercase := by decide +kernel
  increasingLowercase := by decide +kernel
  coversUppercase := by decide +kernel
  coversLowercase := by decide +kernel
  apartCases := by decide +kernel
  below := by decide +kernel

section

variable {codePoint : Nat}

theorem isAlphabetic_iff :
    isAlphabetic codePoint = true ↔
      ∃ run ∈ alphabetic.runs, run.1 ≤ codePoint ∧ codePoint ≤ run.2 :=
  CodePointSet.contains_iff letterTables.increasingAlphabetic codePoint

theorem isUppercase_iff :
    isUppercase codePoint = true ↔
      ∃ run ∈ uppercase.runs, run.1 ≤ codePoint ∧ codePoint ≤ run.2 :=
  CodePointSet.contains_iff letterTables.increasingUppercase codePoint

theorem isLowercase_iff :
    isLowercase codePoint = true ↔
      ∃ run ∈ lowercase.runs, run.1 ≤ codePoint ∧ codePoint ≤ run.2 :=
  CodePointSet.contains_iff letterTables.increasingLowercase codePoint

theorem isAlphabetic_of_isUppercase (upper : isUppercase codePoint = true) :
    isAlphabetic codePoint = true := by
  rcases isUppercase_iff.mp upper with ⟨piece, member, within⟩
  rcases exists_run_of_covers letterTables.coversUppercase piece member with
    ⟨run, listed, inside⟩
  exact isAlphabetic_iff.mpr ⟨run, listed, by omega⟩

theorem isAlphabetic_of_isLowercase (lower : isLowercase codePoint = true) :
    isAlphabetic codePoint = true := by
  rcases isLowercase_iff.mp lower with ⟨piece, member, within⟩
  rcases exists_run_of_covers letterTables.coversLowercase piece member with
    ⟨run, listed, inside⟩
  exact isAlphabetic_iff.mpr ⟨run, listed, by omega⟩

theorem not_isLowercase_of_isUppercase (upper : isUppercase codePoint = true) :
    isLowercase codePoint = false := by
  rw [← Bool.not_eq_true]
  intro lower
  rcases isUppercase_iff.mp upper with ⟨run, member, within⟩
  rcases isLowercase_iff.mp lower with ⟨other, otherMember, otherWithin⟩
  have := lt_or_lt_of_apart letterTables.apartCases letterTables.increasingUppercase
    letterTables.increasingLowercase run member other otherMember
  omega

end

/-! ## Signs -/

/-- Runs of characters that are not letters: all that there are within ASCII and Latin-1, and those
beyond that belong to one of the other classes of characters. -/
def signs : List (Nat × Nat) := [
  (0x00, 0x40), (0x5B, 0x60), (0x7B, 0xA9), (0xAB, 0xB4), (0xB6, 0xB9), (0xBB, 0xBF),
  (0x660, 0x669), (0x6F0, 0x6F9), (0x7C0, 0x7C9), (0x966, 0x96F), (0x9E6, 0x9EF), (0xA66, 0xA6F),
  (0xAE6, 0xAEF), (0xB66, 0xB6F), (0xBE6, 0xBEF), (0xC66, 0xC6F), (0xCE6, 0xCEF), (0xD66, 0xD6F),
  (0xE50, 0xE59), (0xED0, 0xED9), (0xF20, 0xF29), (0x1040, 0x1049), (0x1680, 0x1680),
  (0x180E, 0x180E), (0x2000, 0x2029), (0x202F, 0x205F), (0x3000, 0x3003), (0xD800, 0xDFFF),
  (0xFF10, 0xFF19)]

/-- Signs are in order and apart from letters, and hold white space, digits and the punctuation
beyond ASCII. -/
structure SignTables : Prop where
  increasingSigns : increasingFrom 0 signs = true
  apartLetters : apart signs alphabetic.runs = true
  increasingWhiteSpace : increasingFrom 0 whiteSpace.runs = true
  coversWhiteSpace : covers signs whiteSpace.runs = true
  holdDigits : ∀ first ∈ decimalZeros, ∃ run ∈ signs, run.1 ≤ first ∧ first + 9 ≤ run.2
  holdPunctuation : ∀ piece ∈ widePunctuation, ∃ run ∈ signs, run.1 ≤ piece.1 ∧ piece.2 ≤ run.2

theorem signTables : SignTables where
  increasingSigns := by decide +kernel
  apartLetters := by decide +kernel
  increasingWhiteSpace := by decide +kernel
  coversWhiteSpace := by decide +kernel
  holdDigits := by decide +kernel
  holdPunctuation := by decide +kernel

section

variable {codePoint : Nat} (letter : isAlphabetic codePoint = true)
include letter

theorem not_sign_of_isAlphabetic :
    ∀ run ∈ signs, codePoint < run.1 ∨ run.2 < codePoint := by
  intro run member
  rcases isAlphabetic_iff.mp letter with ⟨other, otherMember, within⟩
  have := lt_or_lt_of_apart signTables.apartLetters signTables.increasingSigns
    letterTables.increasingAlphabetic run member other otherMember
  omega

theorem outside_of_isAlphabetic {first last : Nat}
    (held : ∃ run ∈ signs, run.1 ≤ first ∧ last ≤ run.2) :
    ¬ (first ≤ codePoint ∧ codePoint ≤ last) := by
  rcases held with ⟨run, listed, inside⟩
  have := not_sign_of_isAlphabetic letter run listed
  omega

theorem isScalar_of_isAlphabetic : Utf8.isScalar codePoint = true := by
  rcases isAlphabetic_iff.mp letter with ⟨run, member, within⟩
  have below := letterTables.below run member
  have surrogates := not_sign_of_isAlphabetic letter (0xD800, 0xDFFF) (by decide)
  dsimp only at surrogates
  simp only [Utf8.isScalar, Bool.or_eq_true, Bool.and_eq_true, decide_eq_true_eq]
  omega

theorem isAlphanumeric_of_isAlphabetic : isAlphanumeric codePoint = true := by
  rw [isAlphanumeric, letter, Bool.true_or]

theorem not_isWhiteSpace_of_isAlphabetic : isWhiteSpace codePoint = false := by
  rw [← Bool.not_eq_true]
  intro space
  rcases (CodePointSet.contains_iff signTables.increasingWhiteSpace codePoint).mp space with
    ⟨piece, member, within⟩
  have held := exists_run_of_covers signTables.coversWhiteSpace piece member
  exact outside_of_isAlphabetic letter held within

theorem not_isDecimal_of_isAlphabetic : isDecimal codePoint = false := by
  rw [← Bool.not_eq_true]
  intro decimal
  rcases List.any_eq_true.mp decimal with ⟨first, member, within⟩
  simp only [Bool.and_eq_true, decide_eq_true_eq] at within
  exact outside_of_isAlphabetic letter (signTables.holdDigits first member) (by omega)

theorem not_isWidePunctuation_of_isAlphabetic : isWidePunctuation codePoint = false := by
  rw [← Bool.not_eq_true]
  intro punctuation
  rcases List.any_eq_true.mp punctuation with ⟨piece, member, within⟩
  simp only [Bool.and_eq_true, decide_eq_true_eq] at within
  exact outside_of_isAlphabetic letter (signTables.holdPunctuation piece member) within

/-- Within ASCII and Latin-1 the letters that ASCII has are the only ones before AA. -/
theorem ascii_of_isAlphabetic :
    0x41 ≤ codePoint ∧ codePoint ≤ 0x5A ∨ 0x61 ≤ codePoint ∧ codePoint ≤ 0x7A
      ∨ 0xAA ≤ codePoint := by
  have first := not_sign_of_isAlphabetic letter (0x00, 0x40) (by decide)
  have second := not_sign_of_isAlphabetic letter (0x5B, 0x60) (by decide)
  have third := not_sign_of_isAlphabetic letter (0x7B, 0xA9) (by decide)
  dsimp only at first second third
  omega

theorem not_isControl_of_isAlphabetic : isControl codePoint = false := by
  have ascii := ascii_of_isAlphabetic letter
  simp only [isControl, Bool.or_eq_false_iff, Bool.and_eq_false_iff, decide_eq_false_iff_not]
  omega

theorem not_isPunctuation_of_isAlphabetic : Ascii.isPunctuation codePoint = false := by
  have ascii := ascii_of_isAlphabetic letter
  simp only [Ascii.isPunctuation, Ascii.isGraphic, Ascii.isAlphanumeric, Ascii.isLetter,
    Ascii.isUpper, Ascii.isLower, Bool.and_eq_false_iff, Bool.not_eq_false', Bool.or_eq_true,
    Bool.and_eq_true, decide_eq_true_eq, decide_eq_false_iff_not]
  omega

end

end PerlRegex.Unicode
