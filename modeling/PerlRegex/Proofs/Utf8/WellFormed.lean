import PerlRegex.Proofs.Utf8.Encoding
namespace PerlRegex.Utf8

/-! Well-formed texts: characters one after another, each in its own encoding. Between two
characters such a text falls into two that are well formed. -/

inductive WellFormed : List UInt8 → Prop
  | nil : WellFormed []
  | cons {codePoint : Nat} {lead : UInt8} {tail rest : List UInt8} :
      Encodes codePoint lead tail → WellFormed rest → WellFormed (lead :: (tail ++ rest))

theorem wellFormed_of_invalidOffsetFrom {offset : Nat} {bytes : List UInt8}
    (valid : invalidOffsetFrom? offset bytes = none) : WellFormed bytes := by
  fun_induction invalidOffsetFrom? offset bytes with
  | case1 => exact .nil
  | case2 => cases valid
  | case3 offset lead rest codePoint following read induction =>
      have formed := WellFormed.cons (encodes_of_readStrict read) (induction valid)
      rw [List.take_append_drop] at formed
      exact formed

theorem wellFormed_of_invalidOffset {bytes : List UInt8} (valid : invalidOffset? bytes = none) :
    WellFormed bytes :=
  wellFormed_of_invalidOffsetFrom valid

theorem wellFormed_of_isValid {bytes : List UInt8} (valid : isValid bytes = true) :
    WellFormed bytes :=
  wellFormed_of_invalidOffset (Option.isNone_iff_eq_none.mp valid)

theorem fittingBytes_le (lead : UInt8) (rest : List UInt8) :
    fittingBytes lead rest ≤ rest.length := by
  cases rest with
  | nil => exact Nat.zero_le _
  | cons second rest =>
      have fitting : ((rest.take (announcedLength lead - 2)).takeWhile isContinuation).length
          ≤ rest.length :=
        ((List.takeWhile_sublist _).trans (List.take_sublist _ _)).length_le
      simp only [fittingBytes, List.length_cons]
      split
      · exact Nat.zero_le _
      · omega

theorem readStrict_le (lead : UInt8) (rest : List UInt8) :
    (readStrict lead rest).2 ≤ rest.length := by
  unfold readStrict
  extract_lets following
  split
  · exact Nat.zero_le _
  · split <;> exact fittingBytes_le lead rest

theorem invalidOffsetFrom_le {offset invalid : Nat} {bytes : List UInt8}
    (found : invalidOffsetFrom? offset bytes = some invalid) : invalid ≤ offset + bytes.length := by
  fun_induction invalidOffsetFrom? offset bytes with
  | case1 => cases found
  | case2 =>
      injection found with same
      omega
  | case3 offset lead rest codePoint following read induction =>
      have within : following ≤ rest.length := by
        have := readStrict_le lead rest
        rwa [read] at this
      have := induction found
      rw [List.length_drop] at this
      rw [List.length_cons]
      omega

theorem invalidOffset_le {invalid : Nat} {bytes : List UInt8}
    (found : invalidOffset? bytes = some invalid) : invalid ≤ bytes.length := by
  have := invalidOffsetFrom_le found
  omega

namespace WellFormed

variable {front back bytes : List UInt8}

theorem uncons {codePoint : Nat} {lead : UInt8} {tail rest : List UInt8}
    (encodes : Encodes codePoint lead tail) (formed : WellFormed (lead :: (tail ++ rest))) :
    WellFormed rest := by
  generalize same : lead :: (tail ++ rest) = bytes at formed
  cases formed with
  | nil => cases same
  | @cons otherPoint otherLead otherTail otherRest otherEncodes otherFormed =>
      injection same with sameLead sameRest
      have lengths : tail.length = otherTail.length := by
        have := encodes.announced
        have := otherEncodes.announced
        rw [← sameLead] at this
        omega
      rw [(List.append_inj sameRest lengths).2]
      exact otherFormed

theorem append (frontFormed : WellFormed front) (backFormed : WellFormed back) :
    WellFormed (front ++ back) := by
  induction frontFormed with
  | nil => exact backFormed
  | @cons codePoint lead tail rest encodes _ induction =>
      rw [List.cons_append, List.append_assoc]
      exact .cons encodes induction

theorem of_append (frontFormed : WellFormed front) (formed : WellFormed (front ++ back)) :
    WellFormed back := by
  induction frontFormed with
  | nil => exact formed
  | @cons codePoint lead tail rest encodes _ induction =>
      rw [List.cons_append, List.append_assoc] at formed
      exact induction (uncons encodes formed)

theorem encodes_of_ascii {byte : UInt8} (ascii : byte < 0x80) : Encodes byte.toNat byte [] := by
  have read : readStrict byte [] = (some byte.toNat, 0) := by rw [readStrict, if_pos ascii]
  exact encodes_of_readStrict read

theorem singleton_of_ascii {byte : UInt8} (ascii : byte < 0x80) : WellFormed [byte] :=
  .cons (encodes_of_ascii ascii) .nil

theorem tail_of_ascii {byte : UInt8} {rest : List UInt8} (ascii : byte < 0x80)
    (formed : WellFormed (byte :: rest)) : WellFormed rest :=
  uncons (encodes_of_ascii ascii) formed

theorem drop_of_ascii {count : Nat} (ascii : ∀ byte ∈ bytes.take count, byte < 0x80)
    (formed : WellFormed bytes) : WellFormed (bytes.drop count) := by
  induction count generalizing bytes with
  | zero => exact formed
  | succ count induction =>
      cases bytes with
      | nil => exact formed
      | cons byte rest =>
          apply induction
          · exact fun other member => ascii other (List.mem_cons_of_mem byte member)
          · exact formed.tail_of_ascii (ascii byte List.mem_cons_self)

theorem exists_last (formed : WellFormed bytes) (nonempty : bytes ≠ []) :
    ∃ front codePoint lead tail, WellFormed front ∧ Encodes codePoint lead tail
      ∧ bytes = front ++ lead :: tail := by
  induction formed with
  | nil => exact absurd rfl nonempty
  | @cons codePoint lead tail rest encodes restFormed induction =>
      by_cases last : rest = []
      · exact ⟨[], codePoint, lead, tail, .nil, encodes, by simp [last]⟩
      · rcases induction last with ⟨front, lastPoint, lastLead, lastTail, frontFormed, lastEncodes,
          same⟩
        refine ⟨lead :: (tail ++ front), lastPoint, lastLead, lastTail, .cons encodes frontFormed,
          lastEncodes, ?_⟩
        rw [same, List.cons_append, List.append_assoc]

/-- A text can be cut at a position that does not lie within a character. -/
theorem split (formed : WellFormed bytes) {position : Nat} (inside : position ≤ bytes.length)
    (outside : position = 0 ∨ (bytes[position]?).any isContinuation = false) :
    ∃ front back, bytes = front ++ back ∧ front.length = position ∧ WellFormed front
      ∧ WellFormed back := by
  induction formed generalizing position with
  | nil => exact ⟨[], [], rfl, (Nat.le_zero.mp inside).symm, .nil, .nil⟩
  | @cons codePoint lead tail rest encodes restFormed induction =>
      rcases Nat.eq_zero_or_pos position with rfl | positive
      · exact ⟨[], _, rfl, rfl, .nil, .cons encodes restFormed⟩
      have stop := outside.resolve_left (Nat.ne_of_gt positive)
      -- Within the first character every byte but the first continues it.
      have behind : tail.length < position := by
        apply Nat.lt_of_not_le
        intro within
        have found : (lead :: (tail ++ rest))[position]? = tail[position - 1]? := by
          rw [List.getElem?_cons, if_neg (Nat.ne_of_gt positive),
            List.getElem?_append_left (by omega)]
        have member : position - 1 < tail.length := by omega
        rw [found, List.getElem?_eq_getElem member, Option.any_some,
          encodes.continues _ (List.getElem_mem member)] at stop
        cases stop
      have shorter : position - (tail.length + 1) ≤ rest.length := by
        simp only [List.length_cons, List.length_append] at inside
        omega
      have stopRest : (rest[position - (tail.length + 1)]?).any isContinuation = false := by
        rw [List.getElem?_cons, if_neg (Nat.ne_of_gt positive),
          List.getElem?_append_right (by omega)] at stop
        rw [← stop, Nat.sub_sub, Nat.add_comm 1]
      rcases induction shorter (.inr stopRest) with
        ⟨front, back, same, length, frontFormed, backFormed⟩
      refine ⟨lead :: (tail ++ front), back, ?_, ?_, .cons encodes frontFormed, backFormed⟩
      · rw [same, List.cons_append, List.append_assoc]
      · simp only [List.length_cons, List.length_append]
        omega

end WellFormed

/-! ## Decoding -/

section Decoding

variable {text : Array UInt8} {front tail rest : List UInt8} {lead : UInt8}

theorem getElem?_front_length (same : text.toList = front ++ lead :: (tail ++ rest)) :
    text[front.length]? = some lead := by
  rw [← Array.getElem?_toList, same, List.getElem?_append_right (Nat.le_refl _), Nat.sub_self]
  rfl

theorem decodeAt_of_encodes {codePoint : Nat} (encodes : Encodes codePoint lead tail)
    (same : text.toList = front ++ lead :: (tail ++ rest)) :
    decodeAt text front.length = some (codePoint, tail.length + 1) := by
  rw [decodeAt, getElem?_front_length same]
  dsimp only
  split
  · rename_i ascii
    have announced : announcedLength lead = 1 := by
      rw [announcedLength_eq, if_pos]
      exact Nat.lt_trans (UInt8.lt_iff_toNat_lt.mp ascii) (by decide)
    have alone : tail = [] := by
      rw [encodes.announced] at announced
      exact List.length_eq_zero_iff.mp (by omega)
    rw [alone, encodes.single alone]
    rfl
  · have window : (text.extract front.length (front.length + 4)).toList =
        lead :: (tail ++ rest.take (3 - tail.length)) := by
      rw [Array.toList_extract, same, List.extract_eq_take_drop, Nat.add_sub_cancel_left,
        List.drop_left, List.take_succ_cons, List.take_append,
        List.take_of_length_le encodes.length_le]
    rw [window, encodes.decode_append]

theorem decodeAt_of_isContinuation {position : Nat} {byte : UInt8}
    (present : text[position]? = some byte) (continues : isContinuation byte = true) :
    decodeAt text position = some (byte.toNat, 1) := by
  have bounds := isContinuation_iff.mp continues
  have wide : ¬ byte < 0x80 := by
    rw [UInt8.lt_iff_toNat_lt]
    exact Nat.not_lt_of_le bounds.1
  have alone : announcedLength byte = 1 := by
    rw [announcedLength_eq, if_pos]
    omega
  have inside : position < text.toList.length := (Array.getElem?_eq_some_iff.mp present).1
  have here : text.toList[position] = byte := (Array.getElem?_eq_some_iff.mp present).2
  have window : (text.extract position (position + 4)).toList =
      byte :: (text.toList.drop (position + 1)).take 3 := by
    rw [Array.toList_extract, List.extract_eq_take_drop, Nat.add_sub_cancel_left,
      List.drop_eq_getElem_cons inside, List.take_succ_cons, here]
  rw [decodeAt, present]
  dsimp only
  rw [if_neg wide, window, decode, alone]
  rfl

end Decoding

/-! ## Positions between characters -/

/-- A position between two characters of a well-formed text, or at one of its ends. -/
def Between (text : Array UInt8) (position : Nat) : Prop :=
  ∃ front back, text.toList = front ++ back ∧ front.length = position ∧ WellFormed front
    ∧ WellFormed back

theorem between_of_isBoundary {text : Array UInt8} {position : Nat}
    (formed : WellFormed text.toList) (inside : position ≤ text.size)
    (boundary : isBoundary text position = true) : Between text position := by
  apply formed.split inside
  simpa [isBoundary] using boundary

theorem between_zero {text : Array UInt8} (formed : WellFormed text.toList) : Between text 0 :=
  ⟨[], text.toList, rfl, rfl, .nil, formed⟩

theorem between_size {text : Array UInt8} (formed : WellFormed text.toList) :
    Between text text.size :=
  ⟨text.toList, [], (List.append_nil _).symm, Array.length_toList, formed, .nil⟩

namespace Between

variable {text : Array UInt8} {position : Nat}

theorem le_size (between : Between text position) : position ≤ text.size := by
  rcases between with ⟨front, back, same, length, _, _⟩
  have whole := congrArg List.length same
  rw [List.length_append, Array.length_toList] at whole
  omega

theorem decodeAt (between : Between text position) (before : position < text.size) :
    ∃ codePoint lead tail, Encodes codePoint lead tail ∧ text[position]? = some lead
      ∧ Utf8.decodeAt text position = some (codePoint, tail.length + 1)
      ∧ Between text (position + (tail.length + 1)) := by
  rcases between with ⟨front, back, same, length, frontFormed, backFormed⟩
  cases backFormed with
  | nil =>
      have whole := congrArg List.length same
      simp only [List.append_nil, Array.length_toList] at whole
      omega
  | @cons codePoint lead tail rest encodes restFormed =>
      rw [← length]
      refine ⟨codePoint, lead, tail, encodes, getElem?_front_length same,
        decodeAt_of_encodes encodes same, front ++ lead :: tail, rest, ?_, ?_,
        frontFormed.append ?_, restFormed⟩
      · rw [same, List.append_assoc]
        rfl
      · rw [List.length_append]
        rfl
      · have single := WellFormed.cons encodes .nil
        rw [List.append_nil] at single
        exact single

theorem skipContinuationsBack_eq {start position budget : Nat} (le : start ≤ position)
    (short : position - start ≤ budget)
    (leads : (text[start]?).any isContinuation = false)
    (continues : ∀ index, start < index → index ≤ position →
      (text[index]?).any isContinuation = true) :
    skipContinuationsBack text budget position = start := by
  induction budget generalizing position with
  | zero =>
      rw [skipContinuationsBack]
      omega
  | succ budget induction =>
      rw [skipContinuationsBack]
      by_cases same : position = start
      · rw [same, leads]
        rfl
      · rw [continues position (by omega) (Nat.le_refl _)]
        exact induction (by omega) (by omega) fun index later before =>
          continues index later (by omega)

theorem decodeBefore_of_encodes {codePoint : Nat} {lead : UInt8} {tail before behind : List UInt8}
    (encodes : Encodes codePoint lead tail)
    (whole : text.toList = before ++ lead :: (tail ++ behind)) :
    Utf8.decodeBefore text (before.length + (tail.length + 1)) =
      some (codePoint, tail.length + 1) := by
  have found : text[before.length]? = some lead := getElem?_front_length whole
  have skipped : skipContinuationsBack text
      (min 3 (before.length + (tail.length + 1) - 1)) (before.length + (tail.length + 1) - 1) =
        before.length := by
    apply skipContinuationsBack_eq (by omega)
    · have := encodes.length_le
      omega
    · rw [found, Option.any_some, encodes.leads]
    · intro index later within
      have member : index - before.length - 1 < tail.length := by omega
      rw [← Array.getElem?_toList, whole, List.getElem?_append_right (by omega),
        List.getElem?_cons, if_neg (by omega), List.getElem?_append_left member,
        List.getElem?_eq_getElem member, Option.any_some]
      exact encodes.continues _ (List.getElem_mem member)
  rw [Utf8.decodeBefore, if_neg (by omega), skipped]
  dsimp only
  rw [decodeAt_of_encodes encodes whole]
  dsimp only
  rw [if_pos rfl]

theorem exists_before (between : Between text position) (positive : 0 < position) :
    ∃ codePoint length, Utf8.decodeBefore text position = some (codePoint, length)
      ∧ Utf8.decodeAt text (position - length) = some (codePoint, length) ∧ length ≤ position
      ∧ Between text (position - length) := by
  rcases between with ⟨front, back, same, length, frontFormed, backFormed⟩
  have nonempty : front ≠ [] := by
    intro empty
    rw [empty, List.length_nil] at length
    omega
  rcases frontFormed.exists_last nonempty with
    ⟨before, codePoint, lead, tail, beforeFormed, encodes, shape⟩
  have lengths : before.length + (tail.length + 1) = position := by
    rw [← length, shape, List.length_append]
    rfl
  have whole : text.toList = before ++ (lead :: (tail ++ back)) := by
    rw [same, shape, List.append_assoc]
    rfl
  refine ⟨codePoint, tail.length + 1, ?_, ?_, by omega, ?_⟩
  · rw [← lengths]
    exact decodeBefore_of_encodes encodes whole
  · rw [← lengths, Nat.add_sub_cancel]
    exact decodeAt_of_encodes encodes whole
  · rw [← lengths, Nat.add_sub_cancel]
    exact ⟨before, lead :: (tail ++ back), whole, rfl, beforeFormed, .cons encodes backFormed⟩

theorem decodeBefore (between : Between text position) (positive : 0 < position) :
    ∃ codePoint length, Utf8.decodeBefore text position = some (codePoint, length)
      ∧ Between text (position - length) := by
  rcases between.exists_before positive with ⟨codePoint, length, decoded, _, _, previous⟩
  exact ⟨codePoint, length, decoded, previous⟩

theorem decodeBefore_of_decodeAt (between : Between text position) {codePoint length : Nat}
    (found : Utf8.decodeAt text position = some (codePoint, length)) :
    Utf8.decodeBefore text (position + length) = some (codePoint, length) := by
  rcases between with ⟨front, back, same, there, _, backFormed⟩
  cases backFormed with
  | nil =>
      have missing : text[position]? = none := by
        rw [List.append_nil] at same
        rw [← Array.getElem?_toList, same, ← there]
        exact List.getElem?_eq_none (Nat.le_refl _)
      rw [Utf8.decodeAt, missing] at found
      cases found
  | cons encodes _ =>
      rw [← there, decodeAt_of_encodes encodes same] at found
      injection found with found
      injection found with codePointSame lengthSame
      rw [← there, ← codePointSame, ← lengthSame]
      exact decodeBefore_of_encodes encodes same

theorem wellFormed_extract {origin stop : Nat} (originBetween : Between text origin)
    (stopBetween : Between text stop) : WellFormed (text.extract origin stop).toList := by
  rcases Nat.lt_or_ge stop origin with backwards | le
  · rw [Array.extract_empty_of_stop_le_start (Nat.le_of_lt backwards)]
    exact .nil
  · rcases originBetween with ⟨front, back, same, length, frontFormed, _⟩
    rcases stopBetween with ⟨stopFront, stopBack, stopSame, stopLength, stopFormed, _⟩
    have taken : front = text.toList.take origin := by
      rw [same, ← length, List.take_left]
    have stopTaken : stopFront = text.toList.take stop := by
      rw [stopSame, ← stopLength, List.take_left]
    have parts : stopFront = front ++ (text.extract origin stop).toList := by
      rw [Array.toList_extract, List.extract_eq_take_drop, taken, stopTaken, ← List.take_add,
        Nat.add_sub_of_le le]
    exact frontFormed.of_append (parts ▸ stopFormed)

/-- A copy of the text between two such positions ends at such a position if it begins at one. -/
theorem of_copy {origin stop : Nat} (start : Between text position)
    (originBetween : Between text origin) (stopBetween : Between text stop) (le : origin ≤ stop)
    (copied : ∀ index < stop - origin, text[position + index]? = text[origin + index]?) :
    Between text (position + (stop - origin)) := by
  have inside := stopBetween.le_size
  let part := (text.extract origin stop).toList
  have partFormed : WellFormed part := originBetween.wellFormed_extract stopBetween
  rcases start with ⟨front, back, same, length, frontFormed, backFormed⟩
  have partCopied : back.take (stop - origin) = part := by
    have backDropped : back = text.toList.drop position := by
      rw [same, ← length, List.drop_left]
    apply List.ext_getElem?
    intro index
    simp only [part, Array.toList_extract, List.extract_eq_take_drop, backDropped,
      List.getElem?_take, List.getElem?_drop, Array.getElem?_toList]
    split
    · rename_i within
      exact copied index within
    · rfl
  have partLength : part.length = stop - origin := by
    simp only [part, Array.length_toList, Array.size_extract]
    omega
  have backParts : back = part ++ back.drop (stop - origin) := by
    rw [← partCopied, List.take_append_drop]
  refine ⟨front ++ part, back.drop (stop - origin), ?_, ?_, frontFormed.append partFormed,
    partFormed.of_append (backParts ▸ backFormed)⟩
  · rw [List.append_assoc, ← backParts, same]
  · rw [List.length_append, length, partLength]

theorem isBoundary (between : Between text position) : isBoundary text position = true := by
  rcases between with ⟨front, back, same, length, _, backFormed⟩
  have here : text[position]? = back.head? := by
    rw [← Array.getElem?_toList, same, ← length, List.getElem?_append_right (Nat.le_refl _),
      Nat.sub_self, List.head?_eq_getElem?]
  rw [Utf8.isBoundary, here]
  cases backFormed with
  | nil => simp
  | cons encodes _ => simp [encodes.leads]

end Between

end PerlRegex.Utf8
