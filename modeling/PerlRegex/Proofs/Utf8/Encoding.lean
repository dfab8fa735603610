import PerlRegex.Utf8.Text
namespace PerlRegex.Utf8

/-! Encoded characters. The first byte of an encoding announces its length, all bytes behind it are
continuation bytes, and decoding gives the character back. -/

/-! ## Bytes as numbers -/

theorem isContinuation_iff {byte : UInt8} :
    isContinuation byte = true ↔ 0x80 ≤ byte.toNat ∧ byte.toNat < 0xC0 := by
  simp [isContinuation, UInt8.le_iff_toNat_le, UInt8.lt_iff_toNat_lt]

theorem announcedLength_eq (lead : UInt8) :
    announcedLength lead =
      if lead.toNat < 0xC2 then 1
      else if lead.toNat < 0xE0 then 2
      else if lead.toNat < 0xF0 then 3
      else if lead.toNat < 0xF5 then 4
      else 1 := by
  simp [announcedLength, UInt8.lt_iff_toNat_lt]

theorem announcedLength_eq_two_iff {lead : UInt8} :
    announcedLength lead = 2 ↔ 0xC2 ≤ lead.toNat ∧ lead.toNat < 0xE0 := by
  rw [announcedLength_eq]
  repeat' split
  all_goals omega

theorem announcedLength_eq_three_iff {lead : UInt8} :
    announcedLength lead = 3 ↔ 0xE0 ≤ lead.toNat ∧ lead.toNat < 0xF0 := by
  rw [announcedLength_eq]
  repeat' split
  all_goals omega

theorem announcedLength_eq_four_iff {lead : UInt8} :
    announcedLength lead = 4 ↔ 0xF0 ≤ lead.toNat ∧ lead.toNat < 0xF5 := by
  rw [announcedLength_eq]
  repeat' split
  all_goals omega

theorem isScalar_iff {codePoint : Nat} :
    isScalar codePoint = true ↔
      codePoint < 0xD800 ∨ 0xE000 ≤ codePoint ∧ codePoint < 0x110000 := by
  simp [isScalar]

/-! ## Encodings -/

/-- The bytes of an encoding, as a reader meets them. -/
structure Encodes (codePoint : Nat) (lead : UInt8) (tail : List UInt8) : Prop where
  scalar : isScalar codePoint = true
  encode : encode codePoint = lead :: tail
  announced : announcedLength lead = tail.length + 1
  length : encodedLength codePoint = tail.length + 1
  leads : isContinuation lead = false
  continues : ∀ byte ∈ tail, isContinuation byte = true
  single : tail = [] → lead.toNat = codePoint
  assembled : tail ≠ [] → assemble lead tail = codePoint

theorem encodes_of_isScalar {codePoint : Nat} (scalar : isScalar codePoint = true) :
    ∃ lead tail, Encodes codePoint lead tail := by
  have bounds := isScalar_iff.mp scalar
  by_cases one : codePoint < 0x80
  · have length : encodedLength codePoint = 1 := by simp [encodedLength, one]
    refine ⟨UInt8.ofNat codePoint, [], scalar, ?_, ?_, length, ?_, by simp, ?_, by simp⟩
    · simp [encode, scalar, length]
    · rw [announcedLength_eq]
      simp
      omega
    · rw [Bool.eq_false_iff, ne_eq, isContinuation_iff]
      simp
      omega
    · simp
      omega
  by_cases two : codePoint < 0x800
  · have length : encodedLength codePoint = 2 := by simp [encodedLength, one, two]
    refine ⟨UInt8.ofNat (0xC0 + codePoint / 64), [UInt8.ofNat (0x80 + codePoint % 64)],
      scalar, ?_, ?_, length, ?_, ?_, by simp, ?_⟩
    · simp [encode, scalar, length]
    · apply announcedLength_eq_two_iff.mpr
      simp
      omega
    · rw [Bool.eq_false_iff, ne_eq, isContinuation_iff]
      simp
      omega
    · simp [isContinuation_iff]
      omega
    · simp [assemble]
      omega
  by_cases three : codePoint < 0x10000
  · have length : encodedLength codePoint = 3 := by simp [encodedLength, one, two, three]
    refine ⟨UInt8.ofNat (0xE0 + codePoint / 4096), [UInt8.ofNat (0x80 + codePoint / 64 % 64),
      UInt8.ofNat (0x80 + codePoint % 64)], scalar, ?_, ?_, length, ?_, ?_, by simp, ?_⟩
    · simp [encode, scalar, length]
    · apply announcedLength_eq_three_iff.mpr
      simp
      omega
    · rw [Bool.eq_false_iff, ne_eq, isContinuation_iff]
      simp
      omega
    · simp [isContinuation_iff]
      omega
    · simp [assemble]
      omega
  · have length : encodedLength codePoint = 4 := by simp [encodedLength, one, two, three]
    refine ⟨UInt8.ofNat (0xF0 + codePoint / 262144),
      [UInt8.ofNat (0x80 + codePoint / 4096 % 64), UInt8.ofNat (0x80 + codePoint / 64 % 64),
        UInt8.ofNat (0x80 + codePoint % 64)], scalar, ?_, ?_, length, ?_, ?_, by simp, ?_⟩
    · simp [encode, scalar, length]
    · apply announcedLength_eq_four_iff.mpr
      simp
      omega
    · rw [Bool.eq_false_iff, ne_eq, isContinuation_iff]
      simp
      omega
    · simp [isContinuation_iff]
      omega
    · simp [assemble]
      omega

namespace Encodes

variable {codePoint : Nat} {lead : UInt8} {tail : List UInt8}

theorem length_le (encodes : Encodes codePoint lead tail) : tail.length ≤ 3 := by
  have length := encodes.length
  rw [encodedLength] at length
  repeat' split at length
  all_goals omega

theorem decode_append (encodes : Encodes codePoint lead tail) (rest : List UInt8) :
    decode (lead :: (tail ++ rest)) = some (codePoint, tail.length + 1) := by
  have taken : (tail ++ rest).take (announcedLength lead - 1) = tail := by
    rw [encodes.announced, Nat.add_sub_cancel, List.take_left]
  rw [decode, taken]
  by_cases alone : tail = []
  · simp [alone, encodes.single alone]
  · have whole : tail.all isContinuation = true := List.all_eq_true.mpr encodes.continues
    simp [alone, encodes.announced, whole, encodes.assembled alone]

theorem of_encode (scalar : isScalar codePoint = true)
    (encoded : Utf8.encode codePoint = lead :: tail) : Encodes codePoint lead tail := by
  rcases encodes_of_isScalar scalar with ⟨lead', tail', encodes⟩
  have same := encodes.encode.symm.trans encoded
  injection same with sameLead sameTail
  exact sameLead ▸ sameTail ▸ encodes

end Encodes

/-! ## Strict reading -/

theorem secondByteBounds_iff {lead second : UInt8} :
    (¬ (second < (secondByteBounds lead).1) ∧ ¬ ((secondByteBounds lead).2 < second)) ↔
      0x80 ≤ second.toNat ∧ second.toNat ≤ 0xBF
        ∧ (lead.toNat = 0xE0 → 0xA0 ≤ second.toNat) ∧ (lead.toNat = 0xED → second.toNat ≤ 0x9F)
        ∧ (lead.toNat = 0xF0 → 0x90 ≤ second.toNat)
        ∧ (lead.toNat = 0xF4 → second.toNat ≤ 0x8F) := by
  simp only [secondByteBounds, UInt8.lt_iff_toNat_lt, ← UInt8.toNat_inj]
  repeat' split
  all_goals
    simp at *
    omega

theorem encode_assemble_two {lead second : UInt8} (leads : announcedLength lead = 2)
    (bounds : 0x80 ≤ second.toNat ∧ second.toNat ≤ 0xBF) :
    isScalar (assemble lead [second]) = true
      ∧ encode (assemble lead [second]) = [lead, second] := by
  have leadBounds := announcedLength_eq_two_iff.mp leads
  have assembled : assemble lead [second] = lead.toNat % 32 * 64 + second.toNat % 64 := rfl
  have scalar : isScalar (assemble lead [second]) = true := by
    rw [isScalar_iff, assembled]
    omega
  have length : encodedLength (assemble lead [second]) = 2 := by
    rw [encodedLength, if_neg (by omega), if_pos (by omega)]
  refine ⟨scalar, ?_⟩
  rw [encode, if_neg (by simp [scalar]), length]
  simp only [List.cons.injEq, and_true, ← UInt8.toNat_inj, UInt8.toNat_ofNat']
  omega

theorem encode_assemble_three {lead second third : UInt8} (leads : announcedLength lead = 3)
    (bounds : 0x80 ≤ second.toNat ∧ second.toNat ≤ 0xBF
      ∧ (lead.toNat = 0xE0 → 0xA0 ≤ second.toNat) ∧ (lead.toNat = 0xED → second.toNat ≤ 0x9F))
    (continues : 0x80 ≤ third.toNat ∧ third.toNat < 0xC0) :
    isScalar (assemble lead [second, third]) = true
      ∧ encode (assemble lead [second, third]) = [lead, second, third] := by
  have leadBounds := announcedLength_eq_three_iff.mp leads
  have assembled : assemble lead [second, third] =
      (lead.toNat % 16 * 64 + second.toNat % 64) * 64 + third.toNat % 64 := by simp [assemble]
  have scalar : isScalar (assemble lead [second, third]) = true := by
    rw [isScalar_iff, assembled]
    omega
  have length : encodedLength (assemble lead [second, third]) = 3 := by
    rw [encodedLength, if_neg (by omega), if_neg (by omega), if_pos (by omega)]
  refine ⟨scalar, ?_⟩
  rw [encode, if_neg (by simp [scalar]), length]
  simp only [List.cons.injEq, and_true, ← UInt8.toNat_inj, UInt8.toNat_ofNat']
  omega

theorem encode_assemble_four {lead second third fourth : UInt8} (leads : announcedLength lead = 4)
    (bounds : 0x80 ≤ second.toNat ∧ second.toNat ≤ 0xBF
      ∧ (lead.toNat = 0xF0 → 0x90 ≤ second.toNat) ∧ (lead.toNat = 0xF4 → second.toNat ≤ 0x8F))
    (continuesThird : 0x80 ≤ third.toNat ∧ third.toNat < 0xC0)
    (continuesFourth : 0x80 ≤ fourth.toNat ∧ fourth.toNat < 0xC0) :
    isScalar (assemble lead [second, third, fourth]) = true
      ∧ encode (assemble lead [second, third, fourth]) = [lead, second, third, fourth] := by
  have leadBounds := announcedLength_eq_four_iff.mp leads
  have assembled : assemble lead [second, third, fourth] =
      ((lead.toNat % 8 * 64 + second.toNat % 64) * 64 + third.toNat % 64) * 64
        + fourth.toNat % 64 := by simp [assemble]
  have scalar : isScalar (assemble lead [second, third, fourth]) = true := by
    rw [isScalar_iff, assembled]
    omega
  have length : encodedLength (assemble lead [second, third, fourth]) = 4 := by
    rw [encodedLength, if_neg (by omega), if_neg (by omega), if_neg (by omega)]
  refine ⟨scalar, ?_⟩
  rw [encode, if_neg (by simp [scalar]), length]
  simp only [List.cons.injEq, and_true, ← UInt8.toNat_inj, UInt8.toNat_ofNat']
  omega

/-- The bytes behind the second one that could belong to a character all do, if there are as many as
the leading byte announces. -/
theorem continues_of_length_takeWhile {bytes : List UInt8} {count : Nat}
    (whole : ((bytes.take count).takeWhile isContinuation).length = count) :
    count ≤ bytes.length ∧ ∀ byte ∈ bytes.take count, isContinuation byte = true := by
  have fewer := (List.takeWhile_prefix isContinuation : _ <+: bytes.take count).length_le
  have taken := List.length_take (i := count) (l := bytes)
  have same : (bytes.take count).takeWhile isContinuation = bytes.take count :=
    (List.takeWhile_prefix isContinuation).eq_of_length (by omega)
  refine ⟨by omega, fun byte member => ?_⟩
  rw [← same] at member
  exact List.all_eq_true.mp List.all_takeWhile byte member

theorem encode_of_fittingBytes {lead : UInt8} {rest : List UInt8}
    (nonzero : fittingBytes lead rest ≠ 0)
    (complete : fittingBytes lead rest + 1 = announcedLength lead) :
    isScalar (assemble lead (rest.take (fittingBytes lead rest))) = true
      ∧ encode (assemble lead (rest.take (fittingBytes lead rest))) =
        lead :: rest.take (fittingBytes lead rest) := by
  cases rest with
  | nil => exact absurd rfl nonzero
  | cons second rest =>
      have fits : ¬ (announcedLength lead = 1 ∨ second < (secondByteBounds lead).1
          ∨ (secondByteBounds lead).2 < second) := by
        intro misfits
        apply nonzero
        simp only [fittingBytes]
        rw [if_pos (by simpa [or_assoc] using misfits)]
      have count : fittingBytes lead (second :: rest) =
          1 + ((rest.take (announcedLength lead - 2)).takeWhile isContinuation).length := by
        simp only [fittingBytes]
        rw [if_neg (by simpa [or_assoc] using fits)]
      rw [not_or, not_or] at fits
      have bounds := secondByteBounds_iff.mp fits.2
      have whole : ((rest.take (announcedLength lead - 2)).takeWhile isContinuation).length =
          announcedLength lead - 2 := by omega
      rcases continues_of_length_takeWhile whole with ⟨long, continues⟩
      have following : fittingBytes lead (second :: rest) = announcedLength lead - 2 + 1 := by omega
      have lengths : announcedLength lead = 2 ∨ announcedLength lead = 3
          ∨ announcedLength lead = 4 := by
        have other := fits.1
        rw [announcedLength_eq] at other ⊢
        repeat' split
        all_goals simp_all
      rw [following, List.take_succ_cons]
      rcases lengths with two | three | four
      · rw [two]
        exact encode_assemble_two two ⟨bounds.1, bounds.2.1⟩
      · rw [three] at long continues ⊢
        cases rest with
        | nil => simp at long
        | cons third rest =>
            have third' := isContinuation_iff.mp (continues third (by simp))
            exact encode_assemble_three three
              ⟨bounds.1, bounds.2.1, bounds.2.2.1, bounds.2.2.2.1⟩ third'
      · rw [four] at long continues ⊢
        cases rest with
        | nil => simp at long
        | cons third rest =>
            cases rest with
            | nil => simp at long
            | cons fourth rest =>
                have third' := isContinuation_iff.mp (continues third (by simp))
                have fourth' := isContinuation_iff.mp (continues fourth (by simp))
                exact encode_assemble_four four ⟨bounds.1, bounds.2.1, bounds.2.2.2.2⟩ third'
                  fourth'

/-- What the strict reader accepts is the encoding of what it reads. -/
theorem encodes_of_readStrict {lead : UInt8} {rest : List UInt8} {codePoint following : Nat}
    (read : readStrict lead rest = (some codePoint, following)) :
    Encodes codePoint lead (rest.take following) := by
  rw [readStrict] at read
  split at read
  · rename_i ascii
    rw [UInt8.lt_iff_toNat_lt] at ascii
    simp only [Prod.mk.injEq, Option.some.injEq] at read
    rcases read with ⟨rfl, rfl⟩
    have small : lead.toNat < 0x80 := ascii
    have length : encodedLength lead.toNat = 1 := by rw [encodedLength, if_pos small]
    have scalar : isScalar lead.toNat = true := isScalar_iff.mpr (.inl (by omega))
    apply Encodes.of_encode scalar
    rw [encode, if_neg (by simp [scalar]), length]
    simp
  · dsimp only at read
    split at read
    · rename_i complete
      simp only [Prod.mk.injEq, Option.some.injEq] at read
      rcases read with ⟨rfl, rfl⟩
      rcases encode_of_fittingBytes complete.1 complete.2 with ⟨scalar, encoded⟩
      exact .of_encode scalar encoded
    · simp at read

end PerlRegex.Utf8
