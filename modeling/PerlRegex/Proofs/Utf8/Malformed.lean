import PerlRegex.Proofs.Execution
import PerlRegex.Proofs.Utf8.Encoding
namespace PerlRegex.Utf8

/-! Decoding asks for the shape of an encoding only: a leading byte with as many continuation bytes
as it announces. Four kinds of byte sequences have that shape and encode nothing. They are read as
one character all the same, where other malformed bytes are read one by one. -/

/-- Bytes in the shape of an encoding of more than one byte. -/
structure Shaped (lead : UInt8) (tail : List UInt8) : Prop where
  announced : announcedLength lead = tail.length + 1
  several : tail ≠ []
  continues : ∀ byte ∈ tail, isContinuation byte = true

/-- Bytes in the shape of an encoding whose second byte is out of the bounds that the leading byte
sets. -/
inductive Counterfeit : UInt8 → List UInt8 → Prop
  /-- A code point below U+0800 in three bytes. -/
  | overlongThree {second third : UInt8} : isContinuation second = true →
      isContinuation third = true → second < 0xA0 → Counterfeit 0xE0 [second, third]
  | surrogate {second third : UInt8} : isContinuation second = true →
      isContinuation third = true → 0xA0 ≤ second → Counterfeit 0xED [second, third]
  /-- A code point below U+10000 in four bytes. -/
  | overlongFour {second third fourth : UInt8} : isContinuation second = true →
      isContinuation third = true → isContinuation fourth = true → second < 0x90 →
      Counterfeit 0xF0 [second, third, fourth]
  /-- A code point above U+10FFFF. -/
  | beyond {second third fourth : UInt8} : isContinuation second = true →
      isContinuation third = true → isContinuation fourth = true → 0x90 ≤ second →
      Counterfeit 0xF4 [second, third, fourth]

/-! ## Decoding by shape -/

section

variable {lead : UInt8} {tail rest : List UInt8}

theorem decode_of_shaped (shaped : Shaped lead tail) (rest : List UInt8) :
    decode (lead :: (tail ++ rest)) = some (assemble lead tail, tail.length + 1) := by
  have taken : (tail ++ rest).take (announcedLength lead - 1) = tail := by
    rw [shaped.announced, Nat.add_sub_cancel, List.take_left]
  have whole : tail.all isContinuation = true := List.all_eq_true.mpr shaped.continues
  rw [decode, taken]
  simp [shaped.several, shaped.announced, whole]

theorem decode_of_unshaped (unshaped : ∀ tail, tail <+: rest → ¬ Shaped lead tail) :
    decode (lead :: rest) = some (lead.toNat, 1) := by
  have misshapen := unshaped _ (List.take_prefix (announcedLength lead - 1) rest)
  have positive := announcedLength_pos lead
  rw [decode]
  split
  · rfl
  · rename_i complete
    simp only [Bool.or_eq_true, List.isEmpty_iff, decide_eq_true_eq, Bool.not_eq_true',
      not_or, Bool.not_eq_false, List.all_eq_true] at complete
    have fewer := List.length_take_le (announcedLength lead - 1) rest
    exact absurd ⟨by omega, complete.1.1, complete.2⟩ misshapen

/-! ## Encodings and counterfeits -/

theorem Encodes.shaped {codePoint : Nat} (encodes : Encodes codePoint lead tail)
    (several : tail ≠ []) : Shaped lead tail :=
  ⟨encodes.announced, several, encodes.continues⟩

theorem Counterfeit.shaped (counterfeit : Counterfeit lead tail) : Shaped lead tail := by
  cases counterfeit with
  | overlongThree second third => exact ⟨rfl, by simp, by simp [second, third]⟩
  | surrogate second third => exact ⟨rfl, by simp, by simp [second, third]⟩
  | overlongFour second third fourth => exact ⟨rfl, by simp, by simp [second, third, fourth]⟩
  | beyond second third fourth => exact ⟨rfl, by simp, by simp [second, third, fourth]⟩

theorem encodedLength_le_two {codePoint : Nat} (small : codePoint < 0x800) :
    encodedLength codePoint ≤ 2 := by
  rw [encodedLength]
  repeat' split
  all_goals omega

theorem encodedLength_le_three {codePoint : Nat} (small : codePoint < 0x10000) :
    encodedLength codePoint ≤ 3 := by
  rw [encodedLength]
  repeat' split
  all_goals omega

theorem Counterfeit.unencoded (counterfeit : Counterfeit lead tail) :
    isScalar (assemble lead tail) = false
      ∨ encodedLength (assemble lead tail) ≤ tail.length := by
  cases counterfeit with
  | @overlongThree second third continues _ small =>
      have bounds := isContinuation_iff.mp continues
      rw [UInt8.lt_iff_toNat_lt] at small
      refine .inr (encodedLength_le_two ?_)
      simp [assemble] at small ⊢
      omega
  | @surrogate second third continues _ large =>
      have bounds := isContinuation_iff.mp continues
      rw [UInt8.le_iff_toNat_le] at large
      rw [Bool.eq_false_iff, ne_eq, isScalar_iff]
      left
      simp [assemble] at large ⊢
      omega
  | @overlongFour second third fourth continues _ _ small =>
      have bounds := isContinuation_iff.mp continues
      rw [UInt8.lt_iff_toNat_lt] at small
      refine .inr (encodedLength_le_three ?_)
      simp [assemble] at small ⊢
      omega
  | @beyond second third fourth continues _ _ large =>
      have bounds := isContinuation_iff.mp continues
      rw [UInt8.le_iff_toNat_le] at large
      rw [Bool.eq_false_iff, ne_eq, isScalar_iff]
      left
      simp [assemble] at large ⊢
      omega

theorem Counterfeit.not_encodes (counterfeit : Counterfeit lead tail) {codePoint : Nat} :
    ¬ Encodes codePoint lead tail := by
  intro encodes
  have assembled := encodes.assembled counterfeit.shaped.several
  rcases counterfeit.unencoded with notScalar | shorter
  · rw [assembled, encodes.scalar] at notScalar
    cases notScalar
  · rw [assembled, encodes.length] at shorter
    exact absurd shorter (Nat.not_succ_le_self _)

theorem Shaped.encodes_or_counterfeit (shaped : Shaped lead tail) :
    Encodes (assemble lead tail) lead tail ∨ Counterfeit lead tail := by
  have announced := shaped.announced
  have continues := shaped.continues
  have bounds : ∀ byte ∈ tail, 0x80 ≤ byte.toNat ∧ byte.toNat < 0xC0 := fun byte member =>
    isContinuation_iff.mp (continues byte member)
  rcases tail with _ | ⟨second, _ | ⟨third, _ | ⟨fourth, _ | ⟨fifth, more⟩⟩⟩⟩
  · exact absurd rfl shaped.several
  · have secondBounds := bounds second (by simp)
    rcases encode_assemble_two announced ⟨secondBounds.1, by omega⟩ with ⟨scalar, encoded⟩
    exact .inl (.of_encode scalar encoded)
  · have secondBounds := bounds second (by simp)
    by_cases overlong : lead.toNat = 0xE0 ∧ second.toNat < 0xA0
    · obtain rfl : lead = 0xE0 := UInt8.toNat_inj.mp overlong.1
      exact .inr (.overlongThree (continues second (by simp)) (continues third (by simp))
        (UInt8.lt_iff_toNat_lt.mpr overlong.2))
    by_cases surrogate : lead.toNat = 0xED ∧ 0xA0 ≤ second.toNat
    · obtain rfl : lead = 0xED := UInt8.toNat_inj.mp surrogate.1
      exact .inr (.surrogate (continues second (by simp)) (continues third (by simp))
        (UInt8.le_iff_toNat_le.mpr surrogate.2))
    rcases encode_assemble_three announced ⟨secondBounds.1, by omega, by omega, by omega⟩
      (bounds third (by simp)) with ⟨scalar, encoded⟩
    exact .inl (.of_encode scalar encoded)
  · have secondBounds := bounds second (by simp)
    by_cases overlong : lead.toNat = 0xF0 ∧ second.toNat < 0x90
    · obtain rfl : lead = 0xF0 := UInt8.toNat_inj.mp overlong.1
      exact .inr (.overlongFour (continues second (by simp)) (continues third (by simp))
        (continues fourth (by simp)) (UInt8.lt_iff_toNat_lt.mpr overlong.2))
    by_cases outOfRange : lead.toNat = 0xF4 ∧ 0x90 ≤ second.toNat
    · obtain rfl : lead = 0xF4 := UInt8.toNat_inj.mp outOfRange.1
      exact .inr (.beyond (continues second (by simp)) (continues third (by simp))
        (continues fourth (by simp)) (UInt8.le_iff_toNat_le.mpr outOfRange.2))
    rcases encode_assemble_four announced ⟨secondBounds.1, by omega, by omega, by omega⟩
      (bounds third (by simp)) (bounds fourth (by simp)) with ⟨scalar, encoded⟩
    exact .inl (.of_encode scalar encoded)
  · -- No leading byte announces more than four bytes.
    rw [announcedLength_eq] at announced
    simp only [List.length_cons] at announced
    repeat' split at announced
    all_goals omega

end

/-! ## Decoding by encodings -/

/-- The first character takes more than one byte only where these bytes are its encoding, and is the
first byte by itself in every other case. -/
def DecodesByEncoding (lead : UInt8) (rest : List UInt8) : Prop :=
  (∃ codePoint length, decode (lead :: rest) = some (codePoint, length) ∧ 1 < length
      ∧ isScalar codePoint = true ∧ encode codePoint = (lead :: rest).take length)
    ∨ decode (lead :: rest) = some (lead.toNat, 1)
      ∧ ∀ codePoint, isScalar codePoint = true → encode codePoint <+: lead :: rest →
        (encode codePoint).length = 1

section

variable {lead : UInt8} {tail rest : List UInt8}

theorem Encodes.decodesByEncoding {codePoint : Nat} (encodes : Encodes codePoint lead tail)
    (several : tail ≠ []) (rest : List UInt8) : DecodesByEncoding lead (tail ++ rest) := by
  refine .inl ⟨codePoint, tail.length + 1, encodes.decode_append rest, ?_, encodes.scalar, ?_⟩
  · exact Nat.succ_lt_succ (List.length_pos_iff.mpr several)
  · rw [encodes.encode, List.take_succ_cons, List.take_left]

theorem decodesByEncoding_of_unshaped (unshaped : ∀ tail, tail <+: rest → ¬ Shaped lead tail) :
    DecodesByEncoding lead rest := by
  refine .inr ⟨decode_of_unshaped unshaped, fun codePoint scalar begins => ?_⟩
  rcases encodes_of_isScalar scalar with ⟨first, tail, encodes⟩
  rw [encodes.encode] at begins ⊢
  rcases List.cons_prefix_cons.mp begins with ⟨rfl, tailBegins⟩
  by_cases several : tail = []
  · rw [several]
    rfl
  · exact absurd (encodes.shaped several) (unshaped tail tailBegins)

theorem Counterfeit.not_decodesByEncoding (counterfeit : Counterfeit lead tail)
    (rest : List UInt8) : ¬ DecodesByEncoding lead (tail ++ rest) := by
  have decoded := decode_of_shaped counterfeit.shaped rest
  rintro (⟨codePoint, length, other, _, scalar, encoded⟩ | ⟨alone, _⟩)
  · rw [decoded] at other
    injection other with same
    injection same with _ lengthSame
    rw [← lengthSame, List.take_succ_cons, List.take_left] at encoded
    exact counterfeit.not_encodes (.of_encode scalar encoded)
  · rw [decoded] at alone
    injection alone with same
    injection same with _ lengthSame
    exact counterfeit.shaped.several (List.length_eq_zero_iff.mp (by omega))

/-- Decoding keeps to the encodings exactly where no counterfeit comes first. A counterfeit is read
as one character, which has no encoding or a shorter one. -/
theorem decodesByEncoding_iff (lead : UInt8) (rest : List UInt8) :
    (DecodesByEncoding lead rest ↔ ∀ tail, tail <+: rest → ¬ Counterfeit lead tail)
      ∧ ∀ tail, tail <+: rest → Counterfeit lead tail →
        decode (lead :: rest) = some (assemble lead tail, tail.length + 1)
          ∧ (isScalar (assemble lead tail) = false
            ∨ encodedLength (assemble lead tail) ≤ tail.length) := by
  constructor
  · constructor
    · rintro decodes tail ⟨more, rfl⟩ counterfeit
      exact counterfeit.not_decodesByEncoding more decodes
    · intro genuine
      by_cases shaped : ∃ tail, tail <+: rest ∧ Shaped lead tail
      · rcases shaped with ⟨tail, begins, shaped⟩
        have encodes := shaped.encodes_or_counterfeit.resolve_right (genuine tail begins)
        rcases begins with ⟨more, rfl⟩
        exact encodes.decodesByEncoding shaped.several more
      · exact decodesByEncoding_of_unshaped fun tail begins shapedTail =>
          shaped ⟨tail, begins, shapedTail⟩
  · rintro tail ⟨more, rfl⟩ counterfeit
    exact ⟨decode_of_shaped counterfeit.shaped more, counterfeit.unencoded⟩

end

/-- The three bytes of an overlong letter A are read as that letter, and a dot takes all three. -/
theorem overlong_letter_decoded :
    decode [0xE0, 0x81, 0x81] = some (0x41, 3) ∧ encode 0x41 = [0x41]
      ∧ (∃ program, Program.compile ".".toUTF8.toList { utf8 := true } = .ok program
        ∧ program.execute none {} #[0xE0, 0x81, 0x81] 0 { noUtf8Check := true } =
          .ok (.matched [some ⟨0, 3⟩]))
      ∧ ¬ ∀ (lead : UInt8) (rest : List UInt8), DecodesByEncoding lead rest := by
  refine ⟨by decide, by decide, exists_compiled (by decide +kernel), fun always => ?_⟩
  have counterfeit : Counterfeit 0xE0 [0x81, 0x81] :=
    .overlongThree (by decide) (by decide) (by decide)
  exact counterfeit.not_decodesByEncoding [] (always 0xE0 [0x81, 0x81])

end PerlRegex.Utf8
