import PerlRegex.Proofs.Utf8.Decoding
import PerlRegex.Proofs.Utf8.WellFormed
namespace PerlRegex.Utf8

/-! Well-formed texts read in both directions. Going on from the start of a text comes to the
positions between its characters and to no other, and going back from each of them finds the
character that leads there. -/

/-! ## Windows -/

theorem announcedLength_le (lead : UInt8) : announcedLength lead ≤ 4 := by
  rw [announcedLength_eq]
  repeat' split
  all_goals omega

theorem decode_take (lead : UInt8) (rest : List UInt8) :
    decode (lead :: rest.take 3) = decode (lead :: rest) := by
  have within := announcedLength_le lead
  have taken : (rest.take 3).take (announcedLength lead - 1) =
      rest.take (announcedLength lead - 1) := by
    rw [List.take_take, Nat.min_eq_left (by omega)]
  rw [decode, decode, taken]

theorem decodeAt_eq_decode (text : Array UInt8) (position : Nat) :
    decodeAt text position = decode (text.toList.drop position) := by
  rw [decodeAt]
  cases found : text[position]? with
  | none =>
      have beyond : text.toList.length ≤ position := Array.getElem?_eq_none_iff.mp found
      rw [List.drop_eq_nil_of_le beyond]
      rfl
  | some lead =>
      rcases Array.getElem?_eq_some_iff.mp found with ⟨inside, here⟩
      have begins : text.toList.drop position = lead :: text.toList.drop (position + 1) := by
        rw [List.drop_eq_getElem_cons (by simpa using inside), Array.getElem_toList, here]
      dsimp only
      split
      · rename_i ascii
        have alone : announcedLength lead = 1 := by
          rw [announcedLength_eq, if_pos]
          exact Nat.lt_trans (UInt8.lt_iff_toNat_lt.mp ascii) (by decide)
        rw [begins, decode, alone]
        rfl
      · have window : (text.extract position (position + 4)).toList =
            lead :: (text.toList.drop (position + 1)).take 3 := by
          rw [Array.toList_extract, List.extract_eq_take_drop, Nat.add_sub_cancel_left, begins,
            List.take_succ_cons]
        rw [window, decode_take, begins]

/-! ## Within a character -/

theorem isBoundary_within {text : Array UInt8} {position codePoint length : Nat}
    (between : Between text position)
    (decoded : decodeAt text position = some (codePoint, length)) {index : Nat}
    (later : position < index) (earlier : index < position + length) :
    isBoundary text index = false := by
  have inside := length_of_decodeAt decoded
  rcases between with ⟨front, back, same, there, _, backFormed⟩
  cases backFormed with
  | nil =>
      have whole := congrArg List.length same
      simp only [List.append_nil, Array.length_toList] at whole
      omega
  | @cons _ lead tail rest encodes _ =>
      rw [← there, decodeAt_of_encodes encodes same] at decoded
      injection decoded with decoded
      injection decoded with _ lengthSame
      have member : index - position - 1 < tail.length := by omega
      have found : text[index]? = some tail[index - position - 1] := by
        rw [← Array.getElem?_toList, same, List.getElem?_append_right (by omega), there,
          List.getElem?_cons, if_neg (by omega), List.getElem?_append_left member,
          List.getElem?_eq_getElem member]
      have continues := encodes.continues _ (List.getElem_mem member)
      rw [isBoundary, found, Option.any_some, continues]
      simp only [Bool.not_true, Bool.or_false, beq_eq_false_iff_ne]
      omega

/-! ## Going on -/

/-- The positions that decoding comes to from the start of a text, one character after another. -/
inductive ComesTo (text : Array UInt8) : Nat → Prop
  | start : ComesTo text 0
  | next {position codePoint length : Nat} : ComesTo text position →
      decode (text.toList.drop position) = some (codePoint, length) →
      ComesTo text (position + length)

namespace ComesTo

variable {text : Array UInt8} {position : Nat}

theorem between (formed : WellFormed text.toList) (comesTo : ComesTo text position) :
    Between text position := by
  induction comesTo with
  | start => exact between_zero formed
  | @next position codePoint length _ decoded induction =>
      rw [← decodeAt_eq_decode] at decoded
      have inside := length_of_decodeAt decoded
      rcases induction.decodeAt (by omega) with ⟨_, _, _, _, _, other, following⟩
      rw [decoded] at other
      injection other with same
      injection same with _ lengthSame
      exact lengthSame ▸ following

theorem of_between (between : Between text position) : ComesTo text position := by
  induction position using Nat.strongRecOn with
  | ind position induction =>
      rcases Nat.eq_zero_or_pos position with rfl | positive
      · exact .start
      rcases between.exists_before positive with
        ⟨codePoint, length, _, decoded, within, previous⟩
      have advances := (length_of_decodeAt decoded).1
      rw [decodeAt_eq_decode] at decoded
      have comesTo := ComesTo.next (induction _ (by omega) previous) decoded
      rwa [Nat.sub_add_cancel within] at comesTo

end ComesTo

/-! ## Both directions -/

/-- In a well-formed text, decoding back from a position between two characters leads to the
previous such position, where decoding on gives the same character. Decoding on from the start
comes to exactly these positions. And what begins with an encoded character, whatever follows, is
decoded as that character. -/
theorem directions_agree {text : Array UInt8} (valid : isValid text.toList = true) :
    (∀ position, 0 < position → position ≤ text.size → isBoundary text position = true →
      ∃ codePoint length, decodeBefore text position = some (codePoint, length)
        ∧ 0 < length ∧ length ≤ position
        ∧ decode (text.toList.drop (position - length)) = some (codePoint, length)
        ∧ isBoundary text (position - length) = true
        ∧ ∀ index, position - length < index → index < position →
          isBoundary text index = false)
      ∧ (∀ position, ComesTo text position ↔
        position ≤ text.size ∧ isBoundary text position = true)
      ∧ ∀ codePoint, isScalar codePoint = true → ∀ rest,
        decode (encode codePoint ++ rest) = some (codePoint, (encode codePoint).length) := by
  have formed := wellFormed_of_isValid valid
  refine ⟨fun position positive inside boundary => ?_, fun position => ?_,
    fun codePoint scalar rest => ?_⟩
  · have between := between_of_isBoundary formed inside boundary
    rcases between.exists_before positive with
      ⟨codePoint, length, before, decoded, within, previous⟩
    have advances := (length_of_decodeAt decoded).1
    refine ⟨codePoint, length, before, advances, within, ?_, previous.isBoundary,
      fun index later earlier => isBoundary_within previous decoded later (by omega)⟩
    rw [← decodeAt_eq_decode]
    exact decoded
  · constructor
    · intro comesTo
      have between := comesTo.between formed
      exact ⟨between.le_size, between.isBoundary⟩
    · rintro ⟨inside, boundary⟩
      exact .of_between (between_of_isBoundary formed inside boundary)
  · rcases encodes_of_isScalar scalar with ⟨lead, tail, encodes⟩
    rw [encodes.encode, List.cons_append, encodes.decode_append rest, List.length_cons]

/-- In `aé€` the last character is found in either direction, and the positions that decoding comes
to are 0, 1, 3 and 6. -/
theorem directions_agree_euro :
    isValid "aé€".toUTF8.data.toList = true
      ∧ (∃ codePoint length, decodeBefore "aé€".toUTF8.data 6 = some (codePoint, length)
        ∧ decode ("aé€".toUTF8.data.toList.drop (6 - length)) = some (codePoint, length)
        ∧ codePoint = 0x20AC ∧ length = 3)
      ∧ (∀ position, ComesTo "aé€".toUTF8.data position ↔ position ∈ [0, 1, 3, 6])
      ∧ decode (encode 0x20AC ++ [0x82]) = some (0x20AC, 3) := by
  have valid : isValid "aé€".toUTF8.data.toList = true := by decide +kernel
  have size : "aé€".toUTF8.data.size = 6 := by decide +kernel
  have boundaries : ∀ position < 7, isBoundary "aé€".toUTF8.data position = true ↔
      position ∈ [0, 1, 3, 6] := by decide +kernel
  rcases directions_agree valid with ⟨back, forth, encoded⟩
  refine ⟨valid, ?_, fun position => (forth position).trans ?_, ?_⟩
  · rcases back 6 (by decide) (by decide +kernel) (by decide +kernel) with
      ⟨codePoint, length, before, _, _, decoded, _⟩
    have last : decodeBefore "aé€".toUTF8.data 6 = some (0x20AC, 3) := by decide +kernel
    rw [last] at before
    injection before with same
    injection same with codePointSame lengthSame
    exact ⟨codePoint, length, by rw [last, codePointSame, lengthSame], decoded,
      codePointSame.symm, lengthSame.symm⟩
  · rw [size]
    constructor
    · rintro ⟨inside, boundary⟩
      exact (boundaries position (Nat.lt_succ_of_le inside)).mp boundary
    · intro listed
      have inside : position < 7 := by
        simp only [List.mem_cons, List.not_mem_nil, or_false] at listed
        omega
      exact ⟨Nat.le_of_lt_succ inside, (boundaries position inside).mpr listed⟩
  · exact encoded 0x20AC (by decide) [0x82]

end PerlRegex.Utf8
