import Mathlib.Data.List.TakeWhile
import PerlRegex.Proofs.Utf8.WellFormed
namespace PerlRegex.Utf8

/-! Well-formed bytes are the encoding of a text. Reading them replaces nothing, and writing down
what was read gives them back. -/

/-! ## Characters -/

theorem Encodes.second_fits {codePoint : Nat} {lead second : UInt8} {more : List UInt8}
    (encodes : Encodes codePoint lead (second :: more)) :
    ¬ (second < (secondByteBounds lead).1) ∧ ¬ ((secondByteBounds lead).2 < second) := by
  have scalar := isScalar_iff.mp encodes.scalar
  have bounds := isContinuation_iff.mp (encodes.continues second List.mem_cons_self)
  have assembled := encodes.assembled (List.cons_ne_nil second more)
  have announced := encodes.announced
  have length := encodes.length
  rw [secondByteBounds_iff]
  rw [encodedLength] at length
  rcases more with _ | ⟨third, _ | ⟨fourth, _ | ⟨fifth, more⟩⟩⟩
  · have leads := announcedLength_eq_two_iff.mp announced
    omega
  · have leads := announcedLength_eq_three_iff.mp announced
    simp only [assemble, List.foldl_cons, List.foldl_nil, List.length_cons, List.length_nil]
      at assembled length
    simp only [Nat.reduceAdd, Nat.reduceShiftRight] at assembled
    split at length
    · omega
    · split at length
      · omega
      · omega
  · have leads := announcedLength_eq_four_iff.mp announced
    simp only [assemble, List.foldl_cons, List.foldl_nil, List.length_cons, List.length_nil]
      at assembled length
    simp only [Nat.reduceAdd, Nat.reduceShiftRight] at assembled
    split at length
    · omega
    · split at length
      · omega
      · split at length
        · omega
        · omega
  · have := encodes.length_le
    simp only [List.length_cons] at this
    omega

theorem readStrict_of_encodes {codePoint : Nat} {lead : UInt8} {tail : List UInt8}
    (encodes : Encodes codePoint lead tail) (rest : List UInt8) :
    readStrict lead (tail ++ rest) = (some codePoint, tail.length) := by
  cases tail with
  | nil =>
      have small : codePoint < 0x80 := by
        have length := encodes.length
        rw [encodedLength] at length
        split at length
        · assumption
        · repeat' split at length
          all_goals cases length
      have ascii : lead < 0x80 := by
        rw [UInt8.lt_iff_toNat_lt, encodes.single rfl]
        exact small
      rw [readStrict, if_pos ascii, encodes.single rfl]
      rfl
  | cons second more =>
      have announced := encodes.announced
      rw [List.length_cons] at announced
      have wide : ¬ lead < 0x80 := by
        intro ascii
        rw [UInt8.lt_iff_toNat_lt] at ascii
        have small : lead.toNat < 0x80 := ascii
        rw [announcedLength_eq, if_pos (by omega)] at announced
        omega
      have fits := encodes.second_fits
      have following : fittingBytes lead (second :: more ++ rest) = more.length + 1 := by
        have taken : (more ++ rest).take (announcedLength lead - 2) = more := by
          rw [announced, Nat.add_sub_cancel (n := more.length) (m := 2), List.take_left]
        have continues : more.takeWhile isContinuation = more :=
          List.takeWhile_eq_self_iff.mpr fun byte member =>
            encodes.continues byte (List.mem_cons_of_mem second member)
        simp only [fittingBytes, List.cons_append]
        rw [if_neg (by simp [fits, announced]), taken, continues, Nat.add_comm]
      rw [readStrict, if_neg wide]
      dsimp only
      rw [following, if_pos ⟨Nat.succ_ne_zero _, announced.symm⟩, ← List.length_cons (a := second),
        List.take_left, encodes.assembled (List.cons_ne_nil second more)]

/-- The encoding of a character is the one that texts are stored in. -/
theorem utf8EncodeChar_ofNat {codePoint : Nat} (scalar : isScalar codePoint = true) :
    String.utf8EncodeChar (Char.ofNat codePoint) = encode codePoint := by
  have bounds := isScalar_iff.mp scalar
  have valid : codePoint.isValidChar := by
    rcases bounds with small | ⟨from_, below⟩
    · exact .inl small
    · exact .inr ⟨by omega, below⟩
  have value : (Char.ofNat codePoint).val.toNat = codePoint := by
    rw [Char.ofNat, dif_pos valid]
    rfl
  rw [String.utf8EncodeChar, value]
  by_cases one : codePoint < 0x80
  · have length : encodedLength codePoint = 1 := by simp [encodedLength, one]
    rw [if_pos (Nat.le_of_lt_succ one)]
    simp [encode, scalar, length]
  by_cases two : codePoint < 0x800
  · have length : encodedLength codePoint = 2 := by simp [encodedLength, one, two]
    rw [if_neg (by omega), if_pos (Nat.le_of_lt_succ two)]
    have first : codePoint / 64 % 32 = codePoint / 64 := by omega
    simp [encode, scalar, length, first, Nat.add_comm]
  by_cases three : codePoint < 0x10000
  · have length : encodedLength codePoint = 3 := by simp [encodedLength, one, two, three]
    rw [if_neg (by omega), if_neg (by omega), if_pos (Nat.le_of_lt_succ three)]
    have first : codePoint / 4096 % 16 = codePoint / 4096 := by omega
    simp [encode, scalar, length, first, Nat.add_comm]
  · have length : encodedLength codePoint = 4 := by simp [encodedLength, one, two, three]
    rw [if_neg (by omega), if_neg (by omega), if_neg (by omega)]
    have first : codePoint / 262144 % 8 = codePoint / 262144 := by omega
    simp [encode, scalar, length, first, Nat.add_comm]

/-! ## Texts -/

namespace WellFormed

variable {bytes : List UInt8}

theorem invalidOffsetFrom (formed : WellFormed bytes) (offset : Nat) :
    invalidOffsetFrom? offset bytes = none := by
  induction formed generalizing offset with
  | nil => rw [invalidOffsetFrom?]
  | @cons codePoint lead tail rest encodes _ induction =>
      rw [invalidOffsetFrom?, readStrict_of_encodes encodes]
      dsimp only
      rw [List.drop_left]
      exact induction _

theorem isValid (formed : WellFormed bytes) : isValid bytes = true := by
  rw [Utf8.isValid, invalidOffset?, formed.invalidOffsetFrom]
  rfl

theorem flatMap_lossyCharacters (formed : WellFormed bytes) :
    (lossyCharacters bytes).flatMap String.utf8EncodeChar = bytes := by
  induction formed with
  | nil =>
      rw [lossyCharacters]
      rfl
  | @cons codePoint lead tail rest encodes _ induction =>
      rw [lossyCharacters, readStrict_of_encodes encodes]
      dsimp only
      rw [List.drop_left, List.flatMap_cons, induction, Option.elim_some,
        utf8EncodeChar_ofNat encodes.scalar, encodes.encode, List.cons_append]

theorem ofText_lossyText (formed : WellFormed bytes) : ofText (lossyText bytes) = bytes := by
  have stored : ofText (lossyText bytes) =
      (lossyCharacters bytes).flatMap String.utf8EncodeChar := by
    simp [ofText, lossyText, String.toUTF8, List.utf8Encode]
  rw [stored, formed.flatMap_lossyCharacters]

end WellFormed

/-! ## The bytes of a text -/

theorem isScalar_toNat (character : Char) : isScalar character.toNat = true := by
  rw [isScalar_iff]
  rcases character.valid with small | ⟨from_, below⟩
  · exact .inl small
  · exact .inr ⟨from_, below⟩

theorem ofText_eq_flatMap_encode (text : String) :
    ofText text = text.toList.flatMap fun character => encode character.toNat := by
  have encoded : ∀ character : Char,
      String.utf8EncodeChar character = encode character.toNat := by
    intro character
    rw [← utf8EncodeChar_ofNat (isScalar_toNat character), Char.ofNat_toNat]
  have stored : ∀ characters : List Char,
      ofText (String.ofList characters) = characters.flatMap String.utf8EncodeChar := by
    intro characters
    simp [ofText, String.toUTF8, List.utf8Encode]
  have whole := stored text.toList
  rw [String.ofList_toList, funext encoded] at whole
  exact whole

theorem WellFormed.flatMap_encode (characters : List Char) :
    WellFormed (characters.flatMap fun character => encode character.toNat) := by
  induction characters with
  | nil => exact .nil
  | cons character rest induction =>
      rcases encodes_of_isScalar (isScalar_toNat character) with ⟨lead, tail, encodes⟩
      rw [List.flatMap_cons, encodes.encode]
      exact .cons encodes induction

theorem wellFormed_ofText (text : String) : WellFormed (ofText text) := by
  rw [ofText_eq_flatMap_encode]
  exact .flatMap_encode _

theorem lossyCharacters_flatMap_encode (characters : List Char) :
    lossyCharacters (characters.flatMap fun character => encode character.toNat) = characters := by
  induction characters with
  | nil =>
      rw [List.flatMap_nil, lossyCharacters]
  | cons character rest induction =>
      rcases encodes_of_isScalar (isScalar_toNat character) with ⟨lead, tail, encodes⟩
      rw [List.flatMap_cons, encodes.encode, List.cons_append, lossyCharacters,
        readStrict_of_encodes encodes]
      dsimp only
      rw [List.drop_left, induction, Option.elim_some, Char.ofNat_toNat]

theorem lossyText_ofText (text : String) : lossyText (ofText text) = text := by
  rw [lossyText, ofText_eq_flatMap_encode, lossyCharacters_flatMap_encode, String.ofList_toList]

theorem ofText_join (texts : List String) :
    ofText (String.join texts) = texts.flatMap ofText := by
  rw [ofText_eq_flatMap_encode, String.toList_join, List.flatMap_assoc,
    funext ofText_eq_flatMap_encode]

theorem join_lossyText {parts : List (List UInt8)}
    (read : ∀ part ∈ parts, ofText (lossyText part) = part) :
    String.join (parts.map lossyText) = lossyText parts.flatten := by
  have exactly : (parts.map lossyText).map ofText = parts := by
    rw [List.map_map]
    exact (List.map_congr_left read).trans (List.map_id parts)
  have joined : ofText (String.join (parts.map lossyText)) = parts.flatten := by
    rw [ofText_join, List.flatMap_def, exactly]
  rw [← joined, lossyText_ofText]

end PerlRegex.Utf8
