import PerlRegex.Pattern.Reader
import PerlRegex.Proofs.Pattern.Reading
namespace PerlRegex.Pattern

/-! What a piece of a pattern makes of the state that it is read in. Whatever is kept from piece to
piece is kept by each of the cases. -/

/-- What a piece comes to that neither opens a group nor begins with a backslash. -/
inductive State.Plainly (state : State) (offset : Nat) : State → Prop
  | branch : state.Plainly offset state.nextBranch
  | close {closed : State} (closing : state.closeGroup offset = .ok closed) :
      state.Plainly offset closed
  | repetition (bounds : RepeatBounds) (manner : RepeatManner) :
      state.Plainly offset (state.repeatLatest bounds manner)
  | set (set : CharSet) : state.Plainly offset (state.addItem (.charSet set))
  | dot : state.Plainly offset
      (state.addItem (if state.flags.dotAll then .anyCharacter else .notNewline))
  | assertion (condition : Assertion) : state.Plainly offset (state.addItem (.assertion condition))
  | character (character : Nat) : state.Plainly offset (state.addCharacters [character])

/-- What the piece whose first byte is `byte`, at `offset`, comes to, and the number of bytes that it
takes behind that byte. -/
inductive Piece (settings : Settings) (state : State) (byte : UInt8) (rest : List UInt8)
    (offset : Nat) : State → Nat → Prop
  | blank {used : Nat} (blank : blankLength? state byte rest = some used) :
      Piece settings state byte rest offset state used
  | opening {opening : Opening} {next : State} {used : Nat}
      (visible : blankLength? state byte rest = none) (sign : Char.ofUInt8 byte = '(')
      (opened : readOpening settings state.flags rest offset = .ok (opening, used))
      (applied : state.applyOpening opening offset (offset + 1 + used) = .ok next) :
      Piece settings state byte rest offset next used
  | escape {escape : Escape} {used : Nat} (visible : blankLength? state byte rest = none)
      (sign : Char.ofUInt8 byte = '\\')
      (escaped : readEscape settings state.captures rest offset = .ok (escape, used)) :
      Piece settings state byte rest offset (state.addEscape escape) used
  | plain {next : State} {used : Nat} (visible : blankLength? state byte rest = none)
      (notOpening : Char.ofUInt8 byte ≠ '(') (notEscape : Char.ofUInt8 byte ≠ '\\')
      (plainly : state.Plainly offset next) : Piece settings state byte rest offset next used

section

variable {settings : Settings} {state next : State} {byte : UInt8} {rest : List UInt8}
  {offset used : Nat}

theorem exists_of_readRepeat {bounds : Reading RepeatBounds} {boundsLength : Nat}
    (read : readRepeat state bounds boundsLength rest offset = .ok (next, used)) :
    ∃ value manner, next = state.repeatLatest value manner := by
  unfold readRepeat at read
  split at read
  · exact absurd read refuse_ne_ok
  · rcases Reading.bind_eq_ok.mp read with ⟨value, _, read⟩
    injection Reading.pure_eq_ok.mp read with same
    exact ⟨value, _, same.symm⟩

theorem plainly_of_readRepeat {bounds : Reading RepeatBounds} {boundsLength : Nat}
    (read : readRepeat state bounds boundsLength rest offset = .ok (next, used)) :
    state.Plainly offset next := by
  rcases exists_of_readRepeat read with ⟨value, manner, rfl⟩
  exact .repetition value manner

theorem piece_of_readPiece (read : readPiece settings state byte rest offset = .ok (next, used)) :
    Piece settings state byte rest offset next used := by
  unfold readPiece at read
  split at read
  · rename_i length blank
    injection read with same
    injection same with same length
    exact same ▸ length ▸ .blank blank
  · rename_i visible
    have settled : ∀ {other : State} {length : Nat},
        (.ok (other, length) : Reading (State × Nat)) = .ok (next, used) →
        state.Plainly offset other → state.Plainly offset next := by
      intro other length read plainly
      injection read with same
      injection same with same
      exact same ▸ plainly
    dsimp only at read
    -- One case for each sign, in the order of the reader, and the last one for all other characters.
    split at read
    · rename_i sign
      exact .plain visible (by simp [sign]) (by simp [sign]) (settled read .branch)
    · rename_i sign
      rcases Reading.bind_eq_ok.mp read with ⟨closed, closing, read⟩
      exact .plain visible (by simp [sign]) (by simp [sign]) (settled read (.close closing))
    iterate 3
      · rename_i sign
        exact .plain visible (by simp [sign]) (by simp [sign]) (plainly_of_readRepeat read)
    · rename_i sign
      apply Piece.plain visible (by simp [sign]) (by simp [sign])
      split at read
      · exact plainly_of_readRepeat read
      · exact settled read (.character _)
    · rename_i sign
      rcases Reading.bind_eq_ok.mp read with ⟨⟨opening, length⟩, opened, read⟩
      rcases Reading.bind_eq_ok.mp read with ⟨applied, applying, read⟩
      injection Reading.pure_eq_ok.mp read with same length
      exact .opening visible sign (length ▸ opened) (same ▸ length ▸ applying)
    · rename_i sign
      rcases Reading.bind_eq_ok.mp read with ⟨⟨set, length⟩, _, read⟩
      exact .plain visible (by simp [sign]) (by simp [sign]) (settled read (.set set))
    · rename_i sign
      rcases Reading.bind_eq_ok.mp read with ⟨⟨escape, length⟩, escaped, read⟩
      injection Reading.pure_eq_ok.mp read with same length
      exact same ▸ .escape visible sign (length ▸ escaped)
    · rename_i sign
      exact .plain visible (by simp [sign]) (by simp [sign]) (settled read .dot)
    iterate 2
      · rename_i sign
        exact .plain visible (by simp [sign]) (by simp [sign]) (settled read (.assertion _))
    · rename_i notOpening _ notEscape _ _ _
      exact .plain visible notOpening notEscape (settled read (.character _))

end

end PerlRegex.Pattern
