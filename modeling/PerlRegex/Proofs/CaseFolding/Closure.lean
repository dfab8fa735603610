import Mathlib.Data.List.Nodup
import Mathlib.Logic.Relation
import PerlRegex.Proofs.CaseFolding.Agreement
namespace PerlRegex.CaseFolding

/-! The variants of a character are all that chains of case partners lead to. The list grows while
it is gone through, and the end of it is reached all the same: what has been looked at has its
partners in the list, and no list grows beyond a family. -/

/-! ## Case partners -/

/-- From a character to one that it is paired with: to its small or its capital form, or across one
of `extraPairs` in either direction. -/
inductive IsPartner : Nat → Nat → Prop
  | letter {codePoint other : Nat} : other ∈ letterCases codePoint → IsPartner codePoint other
  | fromSmall {small other : Nat} : (small, other) ∈ extraPairs → IsPartner small other
  | toSmall {small other : Nat} : (small, other) ∈ extraPairs → IsPartner other small

theorem mem_extraCases_iff {codePoint other : Nat} :
    other ∈ extraCases codePoint ↔
      (codePoint, other) ∈ extraPairs ∨ (other, codePoint) ∈ extraPairs := by
  rw [extraCases, List.mem_filterMap]
  constructor
  · rintro ⟨⟨small, extra⟩, listed, same⟩
    dsimp only at same
    split at same
    · rename_i isSmall
      injection same with same
      exact .inl (isSmall ▸ same ▸ listed)
    · split at same
      · rename_i isExtra
        injection same with same
        exact .inr (isExtra ▸ same ▸ listed)
      · cases same
  · rintro (listed | listed)
    · exact ⟨_, listed, by simp⟩
    · -- A character that is paired with itself would be found on the left as well.
      refine ⟨_, listed, ?_⟩
      by_cases same : codePoint = other <;> simp [same]

theorem mem_partners_iff {codePoint other : Nat} :
    other ∈ partners codePoint ↔ IsPartner codePoint other := by
  rw [partners, List.mem_append, mem_extraCases_iff]
  constructor
  · rintro (letter | fromSmall | toSmall)
    · exact .letter letter
    · exact .fromSmall fromSmall
    · exact .toSmall toSmall
  · rintro (letter | fromSmall | toSmall)
    · exact .inl letter
    · exact .inr (.inl fromSmall)
    · exact .inr (.inr toSmall)

/-! ## Appending -/

theorem mem_appendNew_iff {found added : List Nat} {codePoint : Nat} :
    codePoint ∈ appendNew found added ↔ codePoint ∈ found ∨ codePoint ∈ added := by
  induction added generalizing found with
  | nil => simp [appendNew]
  | cons first added induction =>
      rw [appendNew]
      split
      · rename_i present
        have firstFound := List.contains_iff_mem.mp present
        rw [induction, List.mem_cons]
        constructor
        · exact Or.imp_right .inr
        · rintro (before | rfl | new)
          · exact .inl before
          · exact .inl firstFound
          · exact .inr new
      · rw [induction, List.mem_append, List.mem_singleton, List.mem_cons, or_assoc]

theorem nodup_appendNew {found : List Nat} (nodup : found.Nodup) (added : List Nat) :
    (appendNew found added).Nodup := by
  induction added generalizing found with
  | nil => exact nodup
  | cons first added induction =>
      rw [appendNew]
      split
      · exact induction nodup
      · rename_i absent
        have new : first ∉ found := fun member => absent (List.contains_iff_mem.mpr member)
        have grown := nodup.concat new
        rw [List.concat_eq_append] at grown
        exact induction grown

/-! ## Going through a list that grows -/

/-- Going through `found` from the member numbered `next` on, and appending the partners of each
member that are not there yet, comes to an end with `result`. -/
inductive Closes : (next : Nat) → (found result : List Nat) → Prop
  | done {next : Nat} {found : List Nat} : found[next]? = none → Closes next found found
  | turn {next codePoint : Nat} {found result : List Nat} : found[next]? = some codePoint →
      Closes (next + 1) (appendNew found (partners codePoint)) result → Closes next found result

theorem closes_closeFrom {budget next : Nat} {found : List Nat}
    (short : (closeFrom budget next found).length ≤ next + budget) :
    Closes next found (closeFrom budget next found) := by
  induction budget generalizing next found with
  | zero => exact .done (List.getElem?_eq_none short)
  | succ budget induction =>
      rw [closeFrom] at short ⊢
      cases looked : found[next]? with
      | none => exact .done looked
      | some codePoint =>
          rw [looked] at short
          dsimp only at short ⊢
          exact .turn looked (induction (by omega))

/-- What holds of a list while it is gone through: it begins with the character, has no member
twice, leads nowhere that chains of partners do not lead, and holds the partners of all members
that have been looked at. -/
structure Closing (codePoint next : Nat) (found : List Nat) : Prop where
  begins : found.head? = some codePoint
  nodup : found.Nodup
  reached : ∀ other ∈ found, Relation.ReflTransGen IsPartner codePoint other
  closed : ∀ index < next, ∀ member, found[index]? = some member →
    ∀ other, IsPartner member other → other ∈ found

namespace Closing

variable {codePoint next member : Nat} {found result : List Nat}

theorem start (codePoint : Nat) : Closing codePoint 0 [codePoint] where
  begins := rfl
  nodup := List.nodup_singleton codePoint
  reached := fun other listed => by
    rw [List.mem_singleton.mp listed]
  closed := fun index below => absurd below (Nat.not_lt_zero index)

theorem turn (closing : Closing codePoint next found) (looked : found[next]? = some member) :
    Closing codePoint (next + 1) (appendNew found (partners member)) where
  begins := by
    rcases prefix_appendNew found (partners member) with ⟨more, grown⟩
    rw [← grown, List.head?_append, closing.begins]
    rfl
  nodup := nodup_appendNew closing.nodup _
  reached := fun other listed => by
    rcases mem_appendNew_iff.mp listed with before | new
    · exact closing.reached other before
    · exact (closing.reached member (List.mem_of_getElem? looked)).tail (mem_partners_iff.mp new)
  closed := fun index below earlier listed other partner => by
    have same : (appendNew found (partners member))[index]? = found[index]? := by
      rcases prefix_appendNew found (partners member) with ⟨more, grown⟩
      have inside := (List.getElem?_eq_some_iff.mp looked).1
      rw [← grown, List.getElem?_append_left (by omega)]
    rw [same] at listed
    rcases Nat.lt_or_eq_of_le (Nat.le_of_lt_succ below) with before | rfl
    · exact mem_appendNew_iff.mpr (.inl (closing.closed index before earlier listed other partner))
    · rw [looked] at listed
      injection listed with isMember
      exact mem_appendNew_iff.mpr (.inr (mem_partners_iff.mpr (isMember ▸ partner)))

theorem of_closes (closing : Closing codePoint next found) (closes : Closes next found result) :
    Closing codePoint result.length result := by
  induction closes with
  | @done next found ended =>
      have beyond := List.getElem?_eq_none_iff.mp ended
      exact { closing with closed := fun index below => closing.closed index (by omega) }
  | turn looked _ induction => exact induction (closing.turn looked)

theorem mem_iff (closing : Closing codePoint found.length found) {other : Nat} :
    other ∈ found ↔ Relation.ReflTransGen IsPartner codePoint other := by
  constructor
  · exact closing.reached other
  · intro chain
    induction chain with
    | refl => exact List.mem_of_mem_head? closing.begins
    | tail _ step induction =>
        rcases List.getElem?_of_mem induction with ⟨index, listed⟩
        have inside := (List.getElem?_eq_some_iff.mp listed).1
        exact closing.closed index inside _ listed _ step

end Closing

/-! ## Variants -/

theorem length_members_le : ∀ family ∈ families, family.members.length ≤ familyBound := by
  decide +kernel

theorem length_variants_le (codePoint : Nat) : (variants codePoint).length ≤ familyBound := by
  cases outside : inFamily codePoint with
  | false =>
      cases lower : Unicode.toLowercase.find? codePoint with
      | some small =>
          rw [variants_of_toLowercase outside lower]
          exact (by decide : 2 ≤ familyBound)
      | none =>
          cases upper : Unicode.toUppercase.find? codePoint with
          | some capital =>
              rw [variants_of_toUppercase outside upper]
              exact (by decide : 2 ≤ familyBound)
          | none =>
              have alone : partners codePoint = [] := by
                rw [partners_of_outside outside, lower, upper]
                rfl
              rw [variants_of_alone alone]
              exact (by decide : 1 ≤ familyBound)
  | true =>
      rcases inFamily_iff.mp outside with ⟨family, listed, member⟩
      have bound := length_members_le family listed
      rw [Family.members, List.length_append] at bound
      rcases familyTables.variants family listed with ⟨core, strays⟩
      rcases List.mem_append.mp member with inCore | inStrays
      · rw [(core codePoint inCore).length_eq]
        omega
      · have positive := List.length_pos_of_mem inStrays
        rw [(strays codePoint inStrays).length_eq, List.length_cons]
        omega

/-- Going through the variants of a character comes to an end by itself, whatever the character. The
list has no member twice, begins with the character, and holds exactly what chains of case partners
lead to. -/
theorem variants_closed (codePoint : Nat) :
    Closes 0 [codePoint] (variants codePoint)
      ∧ (variants codePoint).Nodup
      ∧ (variants codePoint).head? = some codePoint
      ∧ ∀ other,
        other ∈ variants codePoint ↔ Relation.ReflTransGen IsPartner codePoint other := by
  have short : (closeFrom familyBound 0 [codePoint]).length ≤ 0 + familyBound := by
    rw [Nat.zero_add]
    exact length_variants_le codePoint
  have closes : Closes 0 [codePoint] (variants codePoint) := closes_closeFrom short
  have closing := (Closing.start codePoint).of_closes closes
  exact ⟨closes, closing.nodup, closing.begins, fun _ => closing.mem_iff⟩

/-- Two of the extra pairs begin with the small iota. -/
example : variants 0x3B9 = [0x3B9, 0x399, 0x345, 0x1FBE] := by decide +kernel

end PerlRegex.CaseFolding
