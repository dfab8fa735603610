import PerlRegex.Proofs.CaseFolding.Families
namespace PerlRegex.CaseFolding

/-! Two characters are compared by looking for one among the variants of the other, or by comparing
their representatives. Both come to the same, in either direction, unless one of the characters is a
stray in the family of the other. -/

open Unicode (toLowercase toUppercase)

/-- A stray that has a character among its variants without being one of the character's. -/
def OneWay (stray character : Nat) : Prop :=
  ∃ family ∈ strayFamilies, stray ∈ family.strays ∧ character ∈ family.core

instance (stray character : Nat) : Decidable (OneWay stray character) :=
  inferInstanceAs (Decidable (∃ family ∈ strayFamilies, _))

theorem oneWay_iff {stray character : Nat} :
    OneWay stray character ↔
      ∃ family ∈ families, stray ∈ family.strays ∧ character ∈ family.core := by
  constructor
  · rintro ⟨family, listed, member⟩
    exact ⟨family, List.mem_append_right _ listed, member⟩
  · rintro ⟨family, listed, member, inCore⟩
    rcases List.mem_append.mp listed with closed | listed
    · rcases List.mem_map.mp closed with ⟨members, _, rfl⟩
      cases member
    · exact ⟨family, listed, member, inCore⟩

/-! ## Within a family -/

section Members

variable {family : Family} (listed : family ∈ families) {first second : Nat}
include listed

theorem oneWay_variants (inStrays : first ∈ family.strays) (inCore : second ∈ family.core) :
    second ∈ variants first ∧ first ∉ variants second := by
  have firstMember : first ∈ family.members := List.mem_append_right _ inStrays
  have secondMember : second ∈ family.members := List.mem_append_left _ inCore
  have strayApart := (familyTables.apart family listed).2 first inStrays
  rw [mem_variants_of_member listed firstMember, mem_variants_of_member listed secondMember]
  refine ⟨.inr inCore, ?_⟩
  rintro (rfl | impossible)
  · exact strayApart inCore
  · exact strayApart impossible

theorem mem_variants_iff_fold_of_member (firstMember : first ∈ family.members)
    (secondMember : second ∈ family.members) (forward : ¬ OneWay first second)
    (backward : ¬ OneWay second first) :
    second ∈ variants first ↔ fold true first = fold true second := by
  rcases familyTables.folds family listed with ⟨core, _, strays⟩
  rw [mem_variants_of_member listed firstMember]
  rcases List.mem_append.mp firstMember with firstInCore | firstInStrays
  · rcases List.mem_append.mp secondMember with secondInCore | secondInStrays
    · have same : fold true first = fold true second :=
        Option.some.inj ((core first firstInCore).trans (core second secondInCore).symm)
      exact iff_of_true (.inr secondInCore) same
    · exact absurd (oneWay_iff.mpr ⟨family, listed, secondInStrays, firstInCore⟩) backward
  · rcases List.mem_append.mp secondMember with secondInCore | secondInStrays
    · exact absurd (oneWay_iff.mpr ⟨family, listed, firstInStrays, secondInCore⟩) forward
    · have apart := (familyTables.apart family listed).2 second secondInStrays
      constructor
      · rintro (rfl | inCore)
        · rfl
        · exact absurd inCore apart
      · intro same
        exact .inl (strays first firstInStrays second secondInStrays same).symm

theorem fold_mem_members (member : first ∈ family.members) : fold true first ∈ family.members := by
  rcases familyTables.folds family listed with ⟨core, strays, _⟩
  have headMember : ∀ {codePoint : Nat}, some codePoint = family.core.head? →
      codePoint ∈ family.members := fun same =>
    List.mem_append_left _ (List.mem_of_head? same.symm)
  rcases List.mem_append.mp member with inCore | inStrays
  · exact headMember (core first inCore)
  · rcases strays first inStrays with same | same
    · exact headMember same
    · rw [same]
      exact member

end Members

/-! ## Outside the families -/

section Outside

variable {codePoint : Nat} (outside : inFamily codePoint = false)
include outside

theorem toLowercase_outside {small : Nat} (found : toLowercase.find? codePoint = some small) :
    inFamily small = false := by
  apply outside_of_partner outside
  rw [partners, letterCases_eq, (undoes_of_toLowercase outside found).returns]
  simp

theorem toUppercase_outside {capital : Nat}
    (found : toUppercase.find? codePoint = some capital) : inFamily capital = false := by
  apply outside_of_partner outside
  rw [partners, letterCases_eq, (undoes_of_toUppercase outside found).returns]
  simp

theorem variants_of_toLowercase {small : Nat} (found : toLowercase.find? codePoint = some small) :
    variants codePoint = [codePoint, small] := by
  have undoes := undoes_of_toLowercase outside found
  apply variants_of_paired undoes.ne
  · rw [partners_of_outside outside, found, undoes.starts]
    rfl
  · rw [partners_of_outside (toLowercase_outside outside found), undoes.ends, undoes.returns]
    rfl

theorem variants_of_toUppercase {capital : Nat}
    (found : toUppercase.find? codePoint = some capital) :
    variants codePoint = [codePoint, capital] := by
  have undoes := undoes_of_toUppercase outside found
  apply variants_of_paired undoes.ne
  · rw [partners_of_outside outside, found, undoes.starts]
    rfl
  · rw [partners_of_outside (toUppercase_outside outside found), undoes.ends, undoes.returns]
    rfl

theorem mem_variants_of_outside {other : Nat} :
    other ∈ variants codePoint ↔
      other = codePoint ∨ toLowercase.find? codePoint = some other
        ∨ toUppercase.find? codePoint = some other := by
  cases lower : toLowercase.find? codePoint with
  | some small =>
      rw [variants_of_toLowercase outside lower, (undoes_of_toLowercase outside lower).starts]
      simp [eq_comm]
  | none =>
      cases upper : toUppercase.find? codePoint with
      | some capital =>
          rw [variants_of_toUppercase outside upper]
          simp [eq_comm]
      | none =>
          have alone : partners codePoint = [] := by
            rw [partners_of_outside outside, lower, upper]
            rfl
          rw [variants_of_alone alone]
          simp

theorem fold_outside : inFamily (fold true codePoint) = false := by
  rw [fold_of_outside outside]
  cases found : toLowercase.find? codePoint with
  | none => exact outside
  | some small => exact toLowercase_outside outside found

theorem variants_outside {other : Nat} (member : other ∈ variants codePoint) :
    inFamily other = false := by
  rcases (mem_variants_of_outside outside).mp member with rfl | lower | upper
  · exact outside
  · exact toLowercase_outside outside lower
  · exact toUppercase_outside outside upper

end Outside

theorem mem_variants_iff_fold_of_outside {first second : Nat} (firstOutside : inFamily first = false)
    (secondOutside : inFamily second = false) :
    second ∈ variants first ↔ fold true first = fold true second := by
  rw [mem_variants_of_outside firstOutside, fold_of_outside firstOutside,
    fold_of_outside secondOutside]
  constructor
  · rintro (rfl | lower | upper)
    · rfl
    · rw [lower, (undoes_of_toLowercase firstOutside lower).ends]
      rfl
    · have undoes := undoes_of_toUppercase firstOutside upper
      rw [undoes.returns, undoes.starts]
      rfl
  · intro same
    cases firstLower : toLowercase.find? first with
    | some small =>
        have returns := (undoes_of_toLowercase firstOutside firstLower).returns
        rw [firstLower, Option.getD_some] at same
        cases secondLower : toLowercase.find? second with
        | some otherSmall =>
            have otherReturns := (undoes_of_toLowercase secondOutside secondLower).returns
            rw [secondLower, Option.getD_some] at same
            rw [← same, returns] at otherReturns
            exact .inl (Option.some.inj otherReturns).symm
        | none =>
            rw [secondLower, Option.getD_none] at same
            exact .inr (.inl (congrArg some same))
    | none =>
        rw [firstLower, Option.getD_none] at same
        cases secondLower : toLowercase.find? second with
        | some otherSmall =>
            have otherReturns := (undoes_of_toLowercase secondOutside secondLower).returns
            rw [secondLower, Option.getD_some] at same
            rw [← same] at otherReturns
            exact .inr (.inr otherReturns)
        | none =>
            rw [secondLower, Option.getD_none] at same
            exact .inl same.symm

/-! ## Agreement -/

theorem apart_of_members {family : Family} (listed : family ∈ families) {first second : Nat}
    (member : first ∈ family.members) (notMember : second ∉ family.members) :
    second ∉ variants first := by
  rw [mem_variants_of_member listed member]
  rintro (rfl | inCore)
  · exact notMember member
  · exact notMember (List.mem_append_left _ inCore)

theorem mem_variants_iff_fold {first second : Nat} (forward : ¬ OneWay first second)
    (backward : ¬ OneWay second first) :
    second ∈ variants first ↔ fold true first = fold true second := by
  cases firstIn : inFamily first with
  | true =>
      rcases inFamily_iff.mp firstIn with ⟨family, listed, firstMember⟩
      by_cases secondMember : second ∈ family.members
      · exact mem_variants_iff_fold_of_member listed firstMember secondMember forward backward
      · refine iff_of_false (apart_of_members listed firstMember secondMember) ?_
        intro same
        have shared := fold_mem_members listed firstMember
        rw [same] at shared
        cases secondIn : inFamily second with
        | true =>
            rcases inFamily_iff.mp secondIn with ⟨other, otherListed, otherMember⟩
            have sameFamily := family_unique otherListed listed
              (fold_mem_members otherListed otherMember) shared
            exact secondMember (sameFamily ▸ otherMember)
        | false =>
            have inside := inFamily_iff.mpr ⟨family, listed, shared⟩
            rw [fold_outside secondIn] at inside
            cases inside
  | false =>
      cases secondIn : inFamily second with
      | false => exact mem_variants_iff_fold_of_outside firstIn secondIn
      | true =>
          rcases inFamily_iff.mp secondIn with ⟨family, listed, secondMember⟩
          refine iff_of_false ?_ ?_
          · intro member
            rw [variants_outside firstIn member] at secondIn
            cases secondIn
          · intro same
            have inside := inFamily_iff.mpr ⟨family, listed, fold_mem_members listed secondMember⟩
            rw [← same, fold_outside firstIn] at inside
            cases inside

theorem OneWay.variants {stray character : Nat} (oneWay : OneWay stray character) :
    character ∈ CaseFolding.variants stray ∧ stray ∉ CaseFolding.variants character := by
  rcases oneWay_iff.mp oneWay with ⟨family, listed, inStrays, inCore⟩
  exact oneWay_variants listed inStrays inCore

/-! ## Bytes -/

/-- Whether a byte is a capital of Latin-1 beyond ASCII. -/
def isLatinCapital (codePoint : Nat) : Bool :=
  0xC0 ≤ codePoint && codePoint ≤ 0xDE && codePoint != 0xD7

/-- Whether two bytes are both cases of one letter of Latin-1 beyond ASCII. -/
def LatinCases (first second : Nat) : Prop :=
  isLatinCapital first = true ∧ second = first + 0x20
    ∨ isLatinCapital second = true ∧ first = second + 0x20

instance (first second : Nat) : Decidable (LatinCases first second) :=
  inferInstanceAs (Decidable (_ ∨ _))

theorem strays_beyond_bytes :
    ∀ family ∈ strayFamilies, ∀ stray ∈ family.strays, 0x100 ≤ stray := by
  decide +kernel

theorem not_oneWay_of_byte {byte : Nat} (small : byte < 0x100) (character : Nat) :
    ¬ OneWay byte character := by
  rintro ⟨family, listed, member, _⟩
  have := strays_beyond_bytes family listed byte member
  omega

theorem fold_of_ascii {codePoint : Nat} (ascii : codePoint < 0x80) (utf8 : Bool) :
    fold utf8 codePoint = Ascii.toLower codePoint :=
  if_pos ascii

theorem fold_false_of_beyond {codePoint : Nat} (beyond : 0x80 ≤ codePoint) :
    fold false codePoint = codePoint := by
  rw [fold, if_neg (Nat.not_lt_of_le beyond)]
  rfl

theorem toLower_lt {codePoint : Nat} (ascii : codePoint < 0x80) :
    Ascii.toLower codePoint < 0x80 := by
  rw [Ascii.toLower]
  split
  · rename_i upper
    simp only [Ascii.isUpper, Bool.and_eq_true, decide_eq_true_eq] at upper
    omega
  · exact ascii

/-- The small letters of the capitals of Latin-1. The sign for micro is compared by the letter. -/
theorem fold_true_of_latin :
    ∀ byte < 0x100, 0x80 ≤ byte →
      fold true byte =
        if isLatinCapital byte then byte + 0x20 else if byte = 0xB5 then 0x3BC else byte := by
  decide +kernel

theorem latinCases_comm {first second : Nat} :
    LatinCases first second ↔ LatinCases second first :=
  or_comm

theorem LatinCases.beyond {first second : Nat} (cases : LatinCases first second) :
    0x80 ≤ first ∧ 0x80 ≤ second ∧ first ≠ second := by
  simp only [LatinCases, isLatinCapital, Bool.and_eq_true, decide_eq_true_eq] at cases
  omega

theorem fold_ne_of_ascii {ascii byte : Nat} (inside : ascii < 0x80) (beyond : 0x80 ≤ byte)
    (small : byte < 0x100) :
    fold true ascii ≠ fold true byte ∧ fold false ascii ≠ fold false byte := by
  have lower := toLower_lt inside
  rw [fold_of_ascii inside, fold_of_ascii inside, fold_false_of_beyond beyond,
    fold_true_of_latin byte small beyond]
  refine ⟨?_, by omega⟩
  split
  · omega
  · split <;> omega

/-- Compared as characters, two bytes agree that agree as bytes, and the cases of the letters of
Latin-1 in addition. -/
theorem fold_true_eq_iff_of_bytes {first second : Nat} (firstByte : first < 0x100)
    (secondByte : second < 0x100) :
    fold true first = fold true second ↔
      fold false first = fold false second ∨ LatinCases first second := by
  rcases Nat.lt_or_ge first 0x80 with firstAscii | firstBeyond
  · have notLatin : ¬ LatinCases first second := fun cases => by
      have := cases.beyond
      omega
    rcases Nat.lt_or_ge second 0x80 with secondAscii | secondBeyond
    · rw [fold_of_ascii firstAscii, fold_of_ascii firstAscii, fold_of_ascii secondAscii,
        fold_of_ascii secondAscii]
      exact (or_iff_left notLatin).symm
    · have apart := fold_ne_of_ascii firstAscii secondBeyond secondByte
      exact iff_of_false apart.1 fun either => either.elim apart.2 notLatin
  · rcases Nat.lt_or_ge second 0x80 with secondAscii | secondBeyond
    · have apart := fold_ne_of_ascii secondAscii firstBeyond firstByte
      have notLatin : ¬ LatinCases first second := fun cases => by
        have := cases.beyond
        omega
      exact iff_of_false (Ne.symm apart.1) fun either => either.elim (Ne.symm apart.2) notLatin
    · rw [fold_false_of_beyond firstBeyond, fold_false_of_beyond secondBeyond,
        fold_true_of_latin first firstByte firstBeyond,
        fold_true_of_latin second secondByte secondBeyond]
      simp only [LatinCases, isLatinCapital, Bool.and_eq_true, decide_eq_true_eq, bne_iff_ne]
      repeat' split
      all_goals omega

theorem LatinCases.fold_ne {first second : Nat} (cases : LatinCases first second) :
    fold false first ≠ fold false second := by
  rcases cases.beyond with ⟨firstBeyond, secondBeyond, apart⟩
  rw [fold_false_of_beyond firstBeyond, fold_false_of_beyond secondBeyond]
  exact apart

theorem mem_variants_iff_of_bytes {first second : Nat} (firstByte : first < 0x100)
    (secondByte : second < 0x100) :
    second ∈ variants first ↔
      fold false first = fold false second ∨ LatinCases first second := by
  rw [mem_variants_iff_fold (not_oneWay_of_byte firstByte second)
    (not_oneWay_of_byte secondByte first)]
  exact fold_true_eq_iff_of_bytes firstByte secondByte

theorem ascii_variant_iff_fold {first second : Nat} (firstByte : first < 0x100)
    (secondByte : second < 0x100) :
    second = first ∨ second ∈ variants first ∧ first < 0x80 ∧ second < 0x80 ↔
      fold false first = fold false second := by
  rw [mem_variants_iff_of_bytes firstByte secondByte]
  constructor
  · rintro (rfl | ⟨same | cases, ascii, _⟩)
    · rfl
    · exact same
    · exact absurd cases.beyond.1 (Nat.not_le_of_lt ascii)
  · intro same
    rcases Nat.lt_or_ge first 0x80 with firstAscii | firstBeyond
    · rcases Nat.lt_or_ge second 0x80 with secondAscii | secondBeyond
      · exact .inr ⟨.inl same, firstAscii, secondAscii⟩
      · exact absurd same (fold_ne_of_ascii firstAscii secondBeyond secondByte).2
    · rcases Nat.lt_or_ge second 0x80 with secondAscii | secondBeyond
      · exact absurd same.symm (fold_ne_of_ascii secondAscii firstBeyond firstByte).2
      · rw [fold_false_of_beyond firstBeyond, fold_false_of_beyond secondBeyond] at same
        exact .inl same.symm

end PerlRegex.CaseFolding
