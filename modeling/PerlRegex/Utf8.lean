namespace PerlRegex.Utf8

/-! Decoding and encoding of single characters. Decoding here is lenient: bytes that do not form a
multi-byte sequence stand for themselves, one code point a byte, so that every byte string can be
walked from end to end. What counts as well formed is settled by the strict reader of
`PerlRegex.Utf8.Text`. -/

def isContinuation (byte : UInt8) : Bool := 0x80 ≤ byte && byte < 0xC0

/-- The length of the sequence that a leading byte announces. Bytes that lead nothing count as a
sequence of one. -/
def announcedLength (lead : UInt8) : Nat :=
  if lead < 0xC2 then 1
  else if lead < 0xE0 then 2
  else if lead < 0xF0 then 3
  else if lead < 0xF5 then 4
  else 1

def assemble (lead : UInt8) (continuation : List UInt8) : Nat :=
  continuation.foldl (fun codePoint byte => codePoint * 64 + byte.toNat % 64)
    (lead.toNat % (64 >>> continuation.length))

def decode : List UInt8 → Option (Nat × Nat)
  | [] => none
  | lead :: rest =>
      let continuation := rest.take (announcedLength lead - 1)
      if continuation.isEmpty || continuation.length + 1 < announcedLength lead
          || !continuation.all isContinuation then
        some (lead.toNat, 1)
      else some (assemble lead continuation, announcedLength lead)

example : decode [0xC3, 0xA9, 0x61] = some (0xE9, 2) := rfl
example : decode [0xFF, 0x61] = some (0xFF, 1) := rfl
example : decode [0xE2, 0x82] = some (0xE2, 1) := rfl

def decodeAt (text : Array UInt8) (position : Nat) : Option (Nat × Nat) :=
  match text[position]? with
  | none => none
  | some lead =>
      if lead < 0x80 then some (lead.toNat, 1)
      else decode (text.extract position (position + 4)).toList

def skipContinuationsBack (text : Array UInt8) : (budget position : Nat) → Nat
  | 0, position => position
  | budget + 1, position =>
      if (text[position]?).any isContinuation then
        skipContinuationsBack text budget (position - 1)
      else position

/-- The character that ends at a position. Where no sequence ends there, the last byte stands for
itself. -/
def decodeBefore (text : Array UInt8) (position : Nat) : Option (Nat × Nat) :=
  if position = 0 then none
  else
    let start := skipContinuationsBack text (min 3 (position - 1)) (position - 1)
    match decodeAt text start with
    | some (codePoint, length) =>
        if start + length = position then some (codePoint, length)
        else text[position - 1]?.map fun byte => (byte.toNat, 1)
    | none => none

/-- Positions between characters. Everything from the end of the text on counts as one. -/
def isBoundary (text : Array UInt8) (position : Nat) : Bool :=
  position == 0 || !(text[position]?).any isContinuation

def nextBoundary (text : Array UInt8) (position : Nat) : Nat :=
  if (text[position]?).any isContinuation then nextBoundary text (position + 1) else position
termination_by text.size - position
decreasing_by
  rename_i continues
  have : position < text.size := by
    apply Decidable.byContradiction
    intro beyond
    simp [Array.getElem?_eq_none (Nat.le_of_not_lt beyond)] at continues
  omega

theorem le_nextBoundary (text : Array UInt8) (position : Nat) :
    position ≤ nextBoundary text position := by
  fun_induction nextBoundary text position with
  | case1 position _ induction => omega
  | case2 => exact Nat.le_refl _

def isScalar (codePoint : Nat) : Bool :=
  codePoint < 0xD800 || (0xE000 ≤ codePoint && codePoint < 0x110000)

def encodedLength (codePoint : Nat) : Nat :=
  if codePoint < 0x80 then 1
  else if codePoint < 0x800 then 2
  else if codePoint < 0x10000 then 3
  else 4

/-- The encoding of a code point. What has none is cut down to its lowest byte. -/
def encode (codePoint : Nat) : List UInt8 :=
  if !isScalar codePoint then [UInt8.ofNat codePoint]
  else match encodedLength codePoint with
    | 1 => [UInt8.ofNat codePoint]
    | 2 => [UInt8.ofNat (0xC0 + codePoint / 64), UInt8.ofNat (0x80 + codePoint % 64)]
    | 3 => [UInt8.ofNat (0xE0 + codePoint / 4096), UInt8.ofNat (0x80 + codePoint / 64 % 64),
        UInt8.ofNat (0x80 + codePoint % 64)]
    | _ => [UInt8.ofNat (0xF0 + codePoint / 262144), UInt8.ofNat (0x80 + codePoint / 4096 % 64),
        UInt8.ofNat (0x80 + codePoint / 64 % 64), UInt8.ofNat (0x80 + codePoint % 64)]

example : encode 0xE9 = [0xC3, 0xA9] := rfl
example : encode 0x10FFFF = [0xF4, 0x8F, 0xBF, 0xBF] := rfl

end PerlRegex.Utf8
