import PerlRegex.Proofs.Utf8.WellFormed
import PerlRegex.Template
namespace PerlRegex

/-! Templates take texts apart at dollar signs only. What is put in the place of a reference goes
between characters. -/

namespace Template

theorem lt_of_isWordByte {byte : UInt8} (isWord : isWordByte byte = true) : byte < 0x80 := by
  rw [UInt8.lt_iff_toNat_lt]
  simp [isWordByte, Ascii.isWord, Ascii.isAlphanumeric, Ascii.isLetter, Ascii.isLower,
    Ascii.isUpper, Ascii.isDigit] at isWord
  change byte.toNat < 0x80
  omega

theorem take_of_takeWhile_ne {stop : UInt8} {text : List UInt8}
    (closed : (text.takeWhile (· != stop)).length < text.length) :
    text.take ((text.takeWhile (· != stop)).length + 1) = text.takeWhile (· != stop) ++ [stop] := by
  induction text with
  | nil => cases closed
  | cons byte rest induction =>
      rw [List.takeWhile_cons] at closed ⊢
      split
      · rename_i before
        rw [if_pos before, List.length_cons, List.length_cons, Nat.add_lt_add_iff_right] at closed
        rw [List.length_cons, List.take_succ_cons, induction closed, List.cons_append]
      · rename_i here
        simp only [bne_iff_ne, ne_eq, Decidable.not_not] at here
        rw [here]
        rfl

theorem ascii_of_readReference {text name : List UInt8} {used : Nat}
    (read : readReference? text = some (name, used)) : ∀ byte ∈ text.take used, byte < 0x80 := by
  unfold readReference? at read
  split at read
  · rename_i braced
    extract_lets inside at read
    split at read
    · rename_i closed
      injection read with same
      injection same with _ length
      simp only [Bool.and_eq_true, decide_eq_true_eq, List.all_eq_true] at closed
      rcases closed with ⟨⟨closed, _⟩, words⟩
      cases text with
      | nil => cases braced
      | cons first rest =>
          injection beq_iff_eq.mp braced with opens
          have taken : rest.take (inside.length + 1) = inside ++ [0x7D] :=
            take_of_takeWhile_ne (Nat.lt_of_succ_lt_succ closed)
          intro byte member
          rw [← length, List.take_succ_cons, taken] at member
          rcases List.mem_cons.mp member with rfl | member
          · exact opens ▸ by decide
          · rcases List.mem_append.mp member with member | member
            · exact lt_of_isWordByte (words byte member)
            · exact List.mem_singleton.mp member ▸ by decide
    · cases read
  · extract_lets front at read
    split at read
    · cases read
    · injection read with same
      injection same with _ length
      intro byte member
      have taken : text.take front.length = front :=
        (List.prefix_iff_eq_take.mp (List.takeWhile_prefix _)).symm
      rw [← length, taken] at member
      exact lt_of_isWordByte (List.all_eq_true.mp List.all_takeWhile byte member)

theorem parse_append {front : List UInt8} (plain : ∀ byte ∈ front, byte ≠ dollar)
    (rest : List UInt8) : parse (front ++ rest) = front.map .byte ++ parse rest := by
  induction front with
  | nil => rfl
  | cons byte front induction =>
      rw [List.cons_append, parse, if_pos (plain byte List.mem_cons_self),
        induction fun other member => plain other (List.mem_cons_of_mem byte member)]
      rfl

section Expand

variable (regex : Regex) (subject : Array UInt8) (captures : Captures)

theorem expand_append (first second : Template) :
    expand (first ++ second) regex subject captures =
      expand first regex subject captures ++ expand second regex subject captures :=
  List.flatMap_append

theorem expand_bytes (bytes : List UInt8) :
    expand (bytes.map .byte) regex subject captures = bytes := by
  induction bytes with
  | nil => rfl
  | cons byte bytes induction =>
      rw [List.map_cons, ← List.singleton_append, expand_append, induction]
      rfl

theorem mem_of_spanOf {regex : Regex} {captures : Captures} {piece : TemplatePiece} {span : Span}
    (found : spanOf regex captures piece = some span) : some span ∈ captures := by
  have listed : ∀ number : Nat, (captures[number]?).join = some span → some span ∈ captures := by
    intro number found
    exact List.mem_of_getElem? (Option.join_eq_some_iff.mp found)
  cases piece with
  | byte => cases found
  | group number => exact listed number found
  | named name =>
      rw [spanOf] at found
      split at found
      · rcases List.exists_of_findSome?_eq_some found with ⟨number, _, found⟩
        exact listed number found
      · cases found

variable {subject captures}

theorem wellFormed_expand_reference
    (groups : ∀ span, some span ∈ captures → Utf8.WellFormed (span.bytes subject))
    (name : List UInt8) :
    Utf8.WellFormed (expand [reference name] regex subject captures) := by
  have written : expand [reference name] regex subject captures =
      (spanOf regex captures (reference name)).elim [] (·.bytes subject) := by
    unfold reference
    split <;> exact List.append_nil _
  rw [written]
  cases found : spanOf regex captures (reference name) with
  | none => exact .nil
  | some span => exact groups span (mem_of_spanOf found)

theorem wellFormed_expand_parse
    (groups : ∀ span, some span ∈ captures → Utf8.WellFormed (span.bytes subject))
    {text : List UInt8} (formed : Utf8.WellFormed text) :
    Utf8.WellFormed (expand (parse text) regex subject captures) := by
  induction length : text.length using Nat.strongRecOn generalizing text with
  | ind _ induction =>
      -- What stands for a piece of the template, and the replacement for what follows it.
      have onward : ∀ {rest : List UInt8} (pieces : Template),
          Utf8.WellFormed (expand pieces regex subject captures) → rest.length < text.length →
          Utf8.WellFormed rest →
          Utf8.WellFormed (expand (pieces ++ parse rest) regex subject captures) := by
        intro rest pieces written shorter formed
        rw [expand_append]
        exact written.append (induction _ (length ▸ shorter) formed rfl)
      cases formed with
      | nil =>
          rw [parse]
          exact .nil
      | @cons codePoint lead tail rest encodes restFormed =>
          by_cases sign : lead = dollar
          · have alone : tail = [] := by
              have announced := encodes.announced
              rw [sign] at announced
              exact List.length_eq_zero_iff.mp (Nat.succ.inj announced).symm
            have single : Utf8.WellFormed [dollar] := .singleton_of_ascii (by decide)
            rw [alone, List.nil_append, sign] at onward ⊢
            rw [List.length_cons] at onward
            rw [parse, if_neg (fun other => other rfl)]
            split
            · rename_i doubled
              cases rest with
              | nil => cases doubled
              | cons second rest =>
                  injection beq_iff_eq.mp doubled with same
                  exact onward [.byte dollar] single (Nat.le_succ _)
                    (restFormed.tail_of_ascii (same ▸ by decide))
            · split
              · exact onward [.byte dollar] single (Nat.lt_succ_self _) restFormed
              · rename_i name used read
                refine onward [reference name] (wellFormed_expand_reference regex groups name) ?_
                  (restFormed.drop_of_ascii (ascii_of_readReference read))
                rw [List.length_drop]
                omega
          · have plain : ∀ byte ∈ lead :: tail, byte ≠ dollar := by
              intro byte member same
              rcases List.mem_cons.mp member with rfl | member
              · exact sign same
              · have continues := encodes.continues byte member
                rw [same] at continues
                cases continues
            have single := Utf8.WellFormed.cons encodes .nil
            rw [List.append_nil] at single
            rw [← List.cons_append, parse_append plain]
            apply onward _ _ _ restFormed
            · rw [expand_bytes]
              exact single
            · simp only [List.length_cons, List.length_append]
              omega

end Expand

end Template

end PerlRegex
