import PerlRegex.Proofs.CaseFolding
import PerlRegex.Proofs.Unicode.CaseMap
namespace PerlRegex.CaseFolding

/-! Which characters are variants of one another. Most characters that have a case at all come in
pairs of a small letter and its capital. The others belong to one of the families listed here. -/

open Unicode (toLowercase toUppercase)

/-! ## Families -/

/-- Letters that are more than a pair. The members of the core are variants of one another. A stray
has the whole core among its variants and is not a variant of any of them. -/
structure Family where
  core : List Nat
  strays : List Nat
  deriving DecidableEq, Repr

def Family.members (family : Family) : List Nat := family.core ++ family.strays

/-- The families that `extraPairs` closes, the small letter first. -/
def closedFamilies : List (List Nat) := [
  [0x73, 0x53, 0x17F], [0x6B, 0x4B, 0x212A], [0xE5, 0xC5, 0x212B], [0xDF, 0x1E9E],
  [0x3BC, 0x39C, 0xB5], [0x3B2, 0x392, 0x3D0], [0x3B5, 0x395, 0x3F5],
  [0x3B8, 0x398, 0x3D1, 0x3F4], [0x3B9, 0x399, 0x345, 0x1FBE], [0x3BA, 0x39A, 0x3F0],
  [0x3C0, 0x3A0, 0x3D6], [0x3C1, 0x3A1, 0x3F1], [0x3C3, 0x3A3, 0x3C2], [0x3C6, 0x3A6, 0x3D5],
  [0x3C9, 0x3A9, 0x2126]]

/-- The families with strays: the dotless i, the digraphs with a capital first letter, the Cyrillic
letters of old manuscripts, the long s with a dot, and the Greek capitals with an iota at their
side. A capital is a stray where the small letter does not lead back to it. -/
def strayFamilies : List Family :=
  [⟨[0x69, 0x49], [0x131]⟩, ⟨[0x1C6, 0x1C4], [0x1C5]⟩, ⟨[0x1C9, 0x1C7], [0x1C8]⟩,
    ⟨[0x1CC, 0x1CA], [0x1CB]⟩, ⟨[0x1F3, 0x1F1], [0x1F2]⟩, ⟨[0x432, 0x412], [0x1C80]⟩,
    ⟨[0x434, 0x414], [0x1C81]⟩, ⟨[0x43E, 0x41E], [0x1C82]⟩, ⟨[0x441, 0x421], [0x1C83]⟩,
    ⟨[0x442, 0x422], [0x1C84, 0x1C85]⟩, ⟨[0x44A, 0x42A], [0x1C86]⟩, ⟨[0x463, 0x462], [0x1C87]⟩,
    ⟨[0xA64B, 0xA64A], [0x1C88]⟩, ⟨[0x1E61, 0x1E60], [0x1E9B]⟩, ⟨[0x1FB3], [0x1FBC]⟩,
    ⟨[0x1FC3], [0x1FCC]⟩, ⟨[0x1FF3], [0x1FFC]⟩]
  ++ [0x1F80, 0x1F90, 0x1FA0].flatMap fun first =>
    (List.range 8).map fun index => ⟨[first + index], [first + 8 + index]⟩

def families : List Family :=
  (closedFamilies.map fun members => ⟨members, []⟩) ++ strayFamilies

def inFamily (codePoint : Nat) : Bool := families.any (·.members.contains codePoint)

theorem inFamily_iff {codePoint : Nat} :
    inFamily codePoint = true ↔ ∃ family ∈ families, codePoint ∈ family.members := by
  simp [inFamily]

/-! ### What holds of the families -/

/-- The variants of a member are the core, with the member itself. It is compared by the small
letter, or by itself if it is a stray. Families have no member in common: the first one that lists a
character is the only one. -/
structure FamilyTables : Prop where
  variants :
    ∀ family ∈ families,
      (∀ codePoint ∈ family.core, (variants codePoint).Perm family.core)
        ∧ ∀ stray ∈ family.strays, (CaseFolding.variants stray).Perm (stray :: family.core)
  folds :
    ∀ family ∈ families,
      (∀ codePoint ∈ family.core, some (fold true codePoint) = family.core.head?)
        ∧ (∀ stray ∈ family.strays,
          some (fold true stray) = family.core.head? ∨ fold true stray = stray)
        ∧ ∀ stray ∈ family.strays, ∀ other ∈ family.strays,
          fold true stray = fold true other → stray = other
  apart :
    ∀ family ∈ families,
      (∀ codePoint ∈ family.members,
        families.find? (·.members.contains codePoint) = some family)
        ∧ ∀ stray ∈ family.strays, stray ∉ family.core
  extraPairs : ∀ pair ∈ extraPairs, inFamily pair.1 ∧ inFamily pair.2

theorem familyTables : FamilyTables where
  variants := by decide +kernel
  folds := by decide +kernel
  apart := by decide +kernel
  extraPairs := by decide +kernel

theorem mem_variants_of_member {family : Family} (listed : family ∈ families)
    {codePoint other : Nat} (member : codePoint ∈ family.members) :
    other ∈ variants codePoint ↔ other = codePoint ∨ other ∈ family.core := by
  rcases familyTables.variants family listed with ⟨core, strays⟩
  rcases List.mem_append.mp member with inCore | inStrays
  · rw [(core codePoint inCore).mem_iff]
    constructor
    · exact .inr
    · rintro (rfl | inCore)
      · assumption
      · exact inCore
  · rw [(strays codePoint inStrays).mem_iff, List.mem_cons]

theorem family_unique {first second : Family} (firstListed : first ∈ families)
    (secondListed : second ∈ families) {codePoint : Nat} (inFirst : codePoint ∈ first.members)
    (inSecond : codePoint ∈ second.members) : first = second := by
  have foundFirst := (familyTables.apart first firstListed).1 codePoint inFirst
  have foundSecond := (familyTables.apart second secondListed).1 codePoint inSecond
  exact Option.some.inj (foundFirst.symm.trans foundSecond)

/-! ## Letters outside the families -/

/-- Outside the families the two mappings undo each other, and within ASCII they are what the rules
for letters of ASCII say. -/
structure MappingTables : Prop where
  lowercaseUndone : toLowercase.runs.all (toUppercase.undoesRun toLowercase inFamily) = true
  uppercaseUndone : toUppercase.runs.all (toLowercase.undoesRun toUppercase inFamily) = true
  asciiCases :
    ∀ codePoint < 0x80,
      letterCases codePoint =
          (toLowercase.find? codePoint).toList ++ (toUppercase.find? codePoint).toList
        ∧ Ascii.toLower codePoint = (toLowercase.find? codePoint).getD codePoint

theorem mappingTables : MappingTables where
  lowercaseUndone := by decide +kernel
  uppercaseUndone := by decide +kernel
  asciiCases := by decide +kernel

theorem letterCases_eq (codePoint : Nat) :
    letterCases codePoint =
      (toLowercase.find? codePoint).toList ++ (toUppercase.find? codePoint).toList := by
  rcases Nat.lt_or_ge codePoint 0x80 with ascii | beyond
  · exact (mappingTables.asciiCases codePoint ascii).1
  · rw [letterCases, if_neg (Nat.not_lt_of_le beyond)]

section Outside

variable {codePoint : Nat} (outside : inFamily codePoint = false)
include outside

theorem partners_of_outside :
    partners codePoint =
      (toLowercase.find? codePoint).toList ++ (toUppercase.find? codePoint).toList := by
  have noExtra : extraCases codePoint = [] := by
    rw [extraCases, List.filterMap_eq_nil_iff]
    rintro ⟨small, other⟩ listed
    rcases familyTables.extraPairs _ listed with ⟨smallInside, otherInside⟩
    have notSmall : codePoint ≠ small := by
      rintro rfl
      rw [outside] at smallInside
      cases smallInside
    have notOther : codePoint ≠ other := by
      rintro rfl
      rw [outside] at otherInside
      cases otherInside
    simp [notSmall, notOther]
  rw [partners, letterCases_eq, noExtra, List.append_nil]

theorem fold_of_outside : fold true codePoint = (toLowercase.find? codePoint).getD codePoint := by
  rcases Nat.lt_or_ge codePoint 0x80 with ascii | beyond
  · rw [fold, if_pos ascii]
    exact (mappingTables.asciiCases codePoint ascii).2
  · rw [fold, if_neg (Nat.not_lt_of_le beyond)]
    simp only [Bool.not_true, Bool.false_eq_true, if_false]
    split
    · rename_i small other found
      have otherInside := (familyTables.extraPairs _ (List.mem_of_find?_eq_some found)).2
      have same : other = codePoint := by simpa using List.find?_some found
      rw [same, outside] at otherInside
      cases otherInside
    · rfl

theorem undoes_of_toLowercase {small : Nat} (found : toLowercase.find? codePoint = some small) :
    toUppercase.Undoes toLowercase codePoint small :=
  Unicode.CaseMap.undoes_of_find? mappingTables.lowercaseUndone outside found

theorem undoes_of_toUppercase {capital : Nat}
    (found : toUppercase.find? codePoint = some capital) :
    toLowercase.Undoes toUppercase codePoint capital :=
  Unicode.CaseMap.undoes_of_find? mappingTables.uppercaseUndone outside found

end Outside

theorem outside_of_partner {codePoint partner : Nat} (outside : inFamily codePoint = false)
    (leads : codePoint ∈ partners partner) : inFamily partner = false := by
  rw [← Bool.not_eq_true]
  intro inside
  rcases inFamily_iff.mp inside with ⟨family, listed, member⟩
  have belongs : codePoint = partner ∨ codePoint ∈ family.core :=
    (mem_variants_of_member listed member).mp (mem_variants_of_mem_partners leads)
  have codePointInside : inFamily codePoint = true := by
    refine inFamily_iff.mpr ⟨family, listed, ?_⟩
    rcases belongs with rfl | inCore
    · exact member
    · exact List.mem_append_left _ inCore
  rw [outside] at codePointInside
  cases codePointInside

end PerlRegex.CaseFolding
