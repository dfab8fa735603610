import PerlRegex.CaseFolding
namespace PerlRegex.CaseFolding

/-! The variants of a character. -/

theorem prefix_appendNew (found added : List Nat) : found <+: appendNew found added := by
  induction added generalizing found with
  | nil => exact List.prefix_refl found
  | cons codePoint added induction =>
      rw [appendNew]
      split
      · exact induction found
      · exact (List.prefix_append found [codePoint]).trans (induction _)

theorem prefix_closeFrom (budget next : Nat) (found : List Nat) :
    found <+: closeFrom budget next found := by
  induction budget generalizing next found with
  | zero => exact List.prefix_refl found
  | succ budget induction =>
      rw [closeFrom]
      split
      · exact List.prefix_refl found
      · exact (prefix_appendNew found _).trans (induction _ _)

theorem mem_appendNew_of_mem {found added : List Nat} {codePoint : Nat}
    (member : codePoint ∈ added) : codePoint ∈ appendNew found added := by
  induction added generalizing found with
  | nil => cases member
  | cons first added induction =>
      rw [appendNew]
      rcases List.mem_cons.mp member with rfl | later
      · split
        · rename_i present
          exact (prefix_appendNew found added).subset (List.contains_iff_mem.mp present)
        · exact (prefix_appendNew _ added).subset
            (List.mem_append_right found (List.mem_singleton_self _))
      · split
        · exact induction later
        · exact induction later

theorem mem_variants_self (codePoint : Nat) : codePoint ∈ variants codePoint :=
  (prefix_closeFrom familyBound 0 [codePoint]).subset (List.mem_singleton_self codePoint)

theorem mem_variants_of_mem_partners {codePoint partner : Nat}
    (member : partner ∈ partners codePoint) : partner ∈ variants codePoint := by
  have first : variants codePoint =
      closeFrom 7 1 (appendNew [codePoint] (partners codePoint)) := rfl
  rw [first]
  exact (prefix_closeFrom 7 1 _).subset (mem_appendNew_of_mem member)

theorem variants_of_alone {codePoint : Nat} (alone : partners codePoint = []) :
    variants codePoint = [codePoint] := by
  simp [variants, familyBound, closeFrom, appendNew, alone]

theorem variants_of_paired {codePoint other : Nat} (apart : other ≠ codePoint)
    (leads : partners codePoint = [other]) (returns : partners other = [codePoint]) :
    variants codePoint = [codePoint, other] := by
  simp [variants, familyBound, closeFrom, appendNew, leads, returns, apart]

end PerlRegex.CaseFolding
