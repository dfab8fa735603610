import PerlRegex.Proofs.Execution
import PerlRegex.Proofs.Utf8.Texts
namespace PerlRegex

/-! A sequence of literals is searched for as a string of bytes: it matches where the encodings of
its characters stand one after another, and nowhere else. -/

/-! ## Occurrences -/

def OccursAt (subject : Array UInt8) (bytes : List UInt8) (position : Nat) : Prop :=
  bytes <+: subject.toList.drop position

instance (subject : Array UInt8) (bytes : List UInt8) (position : Nat) :
    Decidable (OccursAt subject bytes position) :=
  inferInstanceAs (Decidable (_ <+: _))

/-- The least position, not before another one, at which bytes stand in a subject. -/
structure FirstOccurrence (subject : Array UInt8) (bytes : List UInt8) (start position : Nat) :
    Prop where
  from_ : start ≤ position
  occurs : OccursAt subject bytes position
  least : ∀ earlier, start ≤ earlier → earlier < position → ¬ OccursAt subject bytes earlier

section Occurrences

variable {subject : Array UInt8} {bytes first second : List UInt8} {position : Nat}

theorem OccursAt.nil (subject : Array UInt8) (position : Nat) : OccursAt subject [] position :=
  List.nil_prefix

theorem occursAt_append_iff :
    OccursAt subject (first ++ second) position ↔
      OccursAt subject first position ∧ OccursAt subject second (position + first.length) := by
  unfold OccursAt
  rw [← List.drop_drop]
  constructor
  · intro occurs
    refine ⟨(List.prefix_append first second).trans occurs, ?_⟩
    rcases occurs with ⟨rest, same⟩
    rw [← same, List.append_assoc, List.drop_left]
    exact List.prefix_append second rest
  · rintro ⟨⟨rest, same⟩, occurs⟩
    rw [← same, List.drop_left] at occurs
    rw [← same]
    exact (List.prefix_append_right_inj first).mpr occurs

theorem occursAt_singleton_iff {byte : UInt8} :
    OccursAt subject [byte] position ↔ subject[position]? = some byte := by
  rw [OccursAt, ← Array.getElem?_toList, ← List.head?_drop]
  cases subject.toList.drop position with
  | nil => simp
  | cons first rest => simp [List.cons_prefix_cons, eq_comm]

theorem OccursAt.head {byte : UInt8} (occurs : OccursAt subject (byte :: bytes) position) :
    subject[position]? = some byte :=
  occursAt_singleton_iff.mp (List.IsPrefix.trans (List.prefix_append [byte] bytes) occurs)

theorem OccursAt.le_size (occurs : OccursAt subject bytes position) (nonempty : bytes ≠ []) :
    position + bytes.length ≤ subject.size := by
  have length := occurs.length_le
  have positive := List.length_pos_iff.mpr nonempty
  have size : subject.toList.length = subject.size := Array.length_toList
  rw [List.length_drop] at length
  omega

end Occurrences

/-! ## Characters as bytes -/

/-- The bytes of a character in a mode. Outside UTF-8 mode it is one byte. -/
def encodeIn (utf8 : Bool) (character : Nat) : List UInt8 :=
  if utf8 then Utf8.encode character else [UInt8.ofNat character]

def bytesIn (utf8 : Bool) (characters : List Nat) : List UInt8 :=
  characters.flatMap (encodeIn utf8)

def IsCharacter (utf8 : Bool) (character : Nat) : Prop :=
  if utf8 then Utf8.isScalar character = true else character < 0x100

theorem isBoundary_of_occursAt {subject : Array UInt8} {bytes : List UInt8}
    {character position : Nat} (scalar : Utf8.isScalar character = true)
    (occurs : OccursAt subject (encodeIn true character ++ bytes) position) :
    Utf8.isBoundary subject position = true := by
  rcases Utf8.encodes_of_isScalar scalar with ⟨lead, tail, encodes⟩
  rw [encodeIn, if_pos rfl, encodes.encode] at occurs
  simp [Utf8.isBoundary, occurs.head, encodes.leads]

/-- The characters that a text consists of in a mode: its own, or outside UTF-8 mode its bytes. -/
def charactersOf (utf8 : Bool) (text : String) : List Nat :=
  if utf8 then text.toList.map Char.toNat else (Utf8.ofText text).map UInt8.toNat

theorem isCharacter_of_mem_charactersOf {utf8 : Bool} {text : String} {character : Nat}
    (member : character ∈ charactersOf utf8 text) : IsCharacter utf8 character := by
  unfold charactersOf at member
  unfold IsCharacter
  split at member <;> rename_i mode
  · rcases List.mem_map.mp member with ⟨original, _, rfl⟩
    rw [if_pos mode]
    exact Utf8.isScalar_toNat original
  · rcases List.mem_map.mp member with ⟨byte, _, rfl⟩
    rw [if_neg mode]
    exact byte.toNat_lt

theorem bytesIn_charactersOf (utf8 : Bool) (text : String) :
    bytesIn utf8 (charactersOf utf8 text) = Utf8.ofText text := by
  cases utf8 with
  | true =>
      rw [charactersOf, if_pos rfl, bytesIn, List.flatMap_map, Utf8.ofText_eq_flatMap_encode]
      rfl
  | false =>
      rw [charactersOf, if_neg Bool.false_ne_true, bytesIn, List.flatMap_map]
      simp [encodeIn]

namespace Machine.Attempt

variable {attempt : Attempt} {position character : Nat}

theorem characterAt_of_occursAt (isCharacter : IsCharacter attempt.program.utf8 character)
    (occurs : OccursAt attempt.subject (encodeIn attempt.program.utf8 character) position) :
    attempt.characterAt position =
      some (character, (encodeIn attempt.program.utf8 character).length) := by
  rw [characterAt]
  unfold encodeIn IsCharacter at *
  split
  · rename_i utf8
    rw [if_pos utf8] at isCharacter occurs
    rcases Utf8.encodes_of_isScalar isCharacter with ⟨lead, tail, encodes⟩
    rw [encodes.encode] at occurs ⊢
    have inside := occurs.le_size (List.cons_ne_nil lead tail)
    rcases occurs with ⟨rest, same⟩
    have whole : attempt.subject.toList =
        attempt.subject.toList.take position ++ lead :: (tail ++ rest) := by
      rw [← List.cons_append, same, List.take_append_drop]
    have decoded := Utf8.decodeAt_of_encodes encodes whole
    rw [List.length_take_of_le (Nat.le_of_add_right_le inside)] at decoded
    exact decoded
  · rename_i bytes
    rw [if_neg bytes] at isCharacter occurs
    rw [occursAt_singleton_iff.mp occurs, Option.map_some, UInt8.toNat_ofNat_of_lt' isCharacter]
    rfl

theorem occursAt_of_characterAt (between : attempt.Between position) {length : Nat}
    (found : attempt.characterAt position = some (character, length)) :
    OccursAt attempt.subject (encodeIn attempt.program.utf8 character) position := by
  have inside := length_of_characterAt found
  rw [characterAt] at found
  unfold encodeIn
  split
  · rename_i utf8
    rw [if_pos utf8] at found
    rcases between utf8 with ⟨front, back, same, atFront, _, backFormed⟩
    cases backFormed with
    | nil =>
        have whole := congrArg List.length same
        rw [List.append_nil, Array.length_toList] at whole
        omega
    | @cons codePoint lead tail rest encodes _ =>
        have decoded := Utf8.decodeAt_of_encodes encodes same
        rw [atFront, found] at decoded
        injection decoded with pair
        injection pair with sameCharacter
        rw [OccursAt, sameCharacter, encodes.encode, ← atFront, same, List.drop_left]
        exact ⟨rest, rfl⟩
  · rename_i bytes
    rw [if_neg bytes] at found
    rcases Option.map_eq_some_iff.mp found with ⟨byte, present, same⟩
    injection same with sameCharacter
    rw [occursAt_singleton_iff, present, ← sameCharacter, UInt8.ofNat_toNat]

theorem results_searchCharacter_literal {path : Path} (between : attempt.Between path.position)
    (isCharacter : IsCharacter attempt.program.utf8 character) :
    (attempt.searchCharacter (Node.literalAccepts attempt.program.utf8 character false)
        path).results =
      if OccursAt attempt.subject (encodeIn attempt.program.utf8 character) path.position then
        [{ path with
          position := path.position + (encodeIn attempt.program.utf8 character).length }]
      else [] := by
  rw [searchCharacter]
  split
  · rename_i other length found
    by_cases same : other = character
    · rw [same] at found ⊢
      have occurs := occursAt_of_characterAt between found
      rw [characterAt_of_occursAt isCharacter occurs] at found
      cases found
      rw [if_pos (by simp [Node.literalAccepts]), if_pos occurs]
      rfl
    · rw [if_neg (by simp [Node.literalAccepts, same]), if_neg]
      · rfl
      · intro occurs
        rw [characterAt_of_occursAt isCharacter occurs] at found
        cases found
        exact same rfl
  · rename_i ended
    rw [if_neg]
    · exact List.eq_nil_iff_forall_not_mem.mpr fun _ => mem_results_searchEnd
    · intro occurs
      rw [characterAt_of_occursAt isCharacter occurs] at ended
      cases ended

end Machine.Attempt

/-! ## Sequences of literals -/

namespace Node

/-- Characters one after another, each of them just itself. -/
def ofCharacters (characters : List Nat) : Node Reference :=
  .ofSequence (characters.map fun character => .literal character false)

theorem ofCharacters_cons_cons (first second : Nat) (characters : List Nat) :
    (ofCharacters (first :: second :: characters) : Node Reference) =
      .sequence (.literal first false) (ofCharacters (second :: characters)) := rfl

theorem references_ofCharacters (characters : List Nat) :
    (ofCharacters characters : Node Reference).references = [] := by
  induction characters with
  | nil => rfl
  | cons first rest induction =>
      cases rest with
      | nil => rfl
      | cons second rest =>
          rw [ofCharacters_cons_cons, references, induction]
          rfl

theorem mapReferences_ofCharacters (transform : Reference → Other) (characters : List Nat) :
    (ofCharacters characters : Node Reference).mapReferences transform =
      ofCharacters characters := by
  induction characters with
  | nil => rfl
  | cons first rest induction =>
      cases rest with
      | nil => rfl
      | cons second rest =>
          rw [ofCharacters_cons_cons, mapReferences, induction]
          rfl

theorem codeSize_ofCharacters (utf8 : Bool) (characters : List Nat) :
    (ofCharacters characters : Node Reference).codeSize utf8 = characters.length := by
  induction characters with
  | nil => rfl
  | cons first rest induction =>
      cases rest with
      | nil => rfl
      | cons second rest =>
          rw [ofCharacters_cons_cons, codeSize, induction, codeSize, Nat.add_comm]
          rfl

/-- All of the characters are what a match begins with, and there is nothing else to it. -/
theorem leadingText_ofCharacters (characters : List Nat) :
    (ofCharacters characters : Node Reference).leadingText = (characters, true) := by
  induction characters with
  | nil => rfl
  | cons first rest induction =>
      cases rest with
      | nil => rfl
      | cons second rest =>
          rw [ofCharacters_cons_cons, leadingText, leadingText, induction]
          rfl

theorem results_ofCharacters_cons (attempt : Machine.Attempt) (character : Nat)
    (characters : List Nat) (path : Path) :
    (ofCharacters (character :: characters)).results attempt path =
      ((literal character false).results attempt path).flatMap
        ((ofCharacters characters).results attempt) := by
  cases characters with
  | nil => exact (List.flatMap_singleton' _).symm
  | cons second rest => rw [ofCharacters_cons_cons, results_sequence]

/-- There is one way to match characters at a position, if their bytes stand there. -/
theorem results_ofCharacters {attempt : Machine.Attempt} {characters : List Nat} {path : Path}
    (between : attempt.Between path.position)
    (areCharacters : ∀ character ∈ characters, IsCharacter attempt.program.utf8 character) :
    (ofCharacters characters).results attempt path =
      if OccursAt attempt.subject (bytesIn attempt.program.utf8 characters) path.position then
        [{ path with
          position := path.position + (bytesIn attempt.program.utf8 characters).length }]
      else [] := by
  induction characters generalizing path with
  | nil =>
      have occurs : OccursAt attempt.subject (bytesIn attempt.program.utf8 []) path.position :=
        .nil _ _
      rw [if_pos occurs]
      rfl
  | cons character characters induction =>
      rw [List.forall_mem_cons] at areCharacters
      have first : (literal character false).results attempt path = _ :=
        Machine.Attempt.results_searchCharacter_literal between areCharacters.1
      rw [results_ofCharacters_cons, first, bytesIn, List.flatMap_cons, ← bytesIn]
      by_cases occurs :
          OccursAt attempt.subject (encodeIn attempt.program.utf8 character) path.position
      · have found := Machine.Attempt.characterAt_of_occursAt areCharacters.1 occurs
        rw [if_pos occurs, List.flatMap_singleton, induction (between.characterAt found)
          areCharacters.2]
        simp only [occursAt_append_iff, occurs, true_and, List.length_append, Nat.add_assoc]
      · rw [if_neg occurs, if_neg fun all => occurs (occursAt_append_iff.mp all).1]
        rfl

end Node

/-! ## Searching -/

/-- What a search for bytes from an offset on should come to: the first place where they stand, or
nothing if there is none. -/
structure Outcome.LocatesBytes (subject : Array UInt8) (bytes : List UInt8) (start : Nat)
    (outcome : Outcome) : Prop where
  found : ∀ position, FirstOccurrence subject bytes start position →
    outcome = .matched [some ⟨position, position + bytes.length⟩]
  absent : (∀ position, start ≤ position → ¬ OccursAt subject bytes position) →
    outcome = .noMatch

namespace Execution

/-- An execution, free to match wherever it can, of a program for characters one after another. -/
structure SeeksCharacters (execution : Execution) (characters : List Nat) : Prop where
  tree : execution.program.pattern.tree = .ofCharacters characters
  groups : execution.program.pattern.captures = 0
  characters : ∀ character ∈ characters, IsCharacter execution.program.utf8 character
  anywhere : execution.program.pattern.options.anchored = false
  anyLine : execution.program.pattern.options.firstLine = false
  noPlan : execution.plan = none
  options : execution.options = {}
  inside : execution.startOffset ≤ execution.subject.size
  formed : execution.program.utf8 = true → Utf8.WellFormed execution.subject.toList
  boundary : execution.program.utf8 = true →
    Utf8.isBoundary execution.subject execution.startOffset = true

namespace SeeksCharacters

variable {execution : Execution} {characters : List Nat}
  (seeks : execution.SeeksCharacters characters)
include seeks

theorem starts_eq :
    execution.starts = execution.positionsFrom execution.subject.size execution.startOffset := by
  have last : execution.lastStart = execution.subject.size := by
    rw [lastStart, if_neg (by simp [seeks.anyLine])]
  have often : execution.startsOnce = false := by
    simp [startsOnce, seeks.options, seeks.anywhere, seeks.noPlan]
  rw [starts, startsFrom, often, last]
  rfl

theorem match_eq {position : Nat} (member : position ∈ execution.starts) :
    (((execution.program.pattern.tree.results (execution.attemptAt position)
        (execution.attemptAt position).origin).find? fun path =>
          !(execution.attemptAt position).refusesEmpty path.position).map fun path =>
        path.captures.set 0 (some ⟨position, path.position⟩)) =
      if OccursAt execution.subject (bytesIn execution.program.utf8 characters) position then
        some [some ⟨position, position + (bytesIn execution.program.utf8 characters).length⟩]
      else none := by
  have captures : (execution.attemptAt position).origin.captures = [none] := by
    simp [Machine.Attempt.origin, attemptAt, seeks.groups]
  have results : (Node.ofCharacters characters).results (execution.attemptAt position)
      (execution.attemptAt position).origin =
        if OccursAt execution.subject (bytesIn execution.program.utf8 characters) position then
          [⟨position + (bytesIn execution.program.utf8 characters).length, [none]⟩]
        else [] := by
    rw [← captures]
    exact Node.results_ofCharacters (between_of_mem_starts member seeks.formed seeks.boundary)
      seeks.characters
  have accepts : ∀ stop, (execution.attemptAt position).refusesEmpty stop = false := by
    intro stop
    simp [Machine.Attempt.refusesEmpty, attemptAt, seeks.options]
  rw [seeks.tree, results]
  split
  · rw [List.find?_cons_of_pos (by rw [accepts]; rfl)]
    rfl
  · rfl

theorem mem_starts {position : Nat}
    (first : FirstOccurrence execution.subject (bytesIn execution.program.utf8 characters)
      execution.startOffset position) : position ∈ execution.starts := by
  rw [seeks.starts_eq, mem_positionsFrom]
  by_cases here : position = execution.startOffset
  · exact ⟨first.from_, here ▸ seeks.inside, .inl here⟩
  have occurs := first.occurs
  have isCharacters := seeks.characters
  cases characters with
  | nil =>
      have before := Nat.lt_of_le_of_ne first.from_ (Ne.symm here)
      exact absurd (OccursAt.nil _ _) (first.least _ (Nat.le_refl _) before)
  | cons character rest =>
      refine ⟨first.from_, ?_, .inr ?_⟩
      · have found : (execution.attemptAt position).characterAt position = _ :=
          Machine.Attempt.characterAt_of_occursAt (isCharacters character List.mem_cons_self)
            (occursAt_append_iff.mp occurs).1
        exact Nat.le_of_add_right_le (Machine.Attempt.length_of_characterAt found).2
      · cases utf8 : execution.program.utf8 with
        | false => exact .inl rfl
        | true =>
            rw [utf8] at occurs isCharacters
            exact .inr (isBoundary_of_occursAt (isCharacters character List.mem_cons_self) occurs)

/-- An execution for characters finds the first place where their bytes stand. -/
theorem locatesBytes_tryStarts :
    (execution.tryStarts none execution.starts).LocatesBytes execution.subject
      (bytesIn execution.program.utf8 characters) execution.startOffset := by
  have from_ : ∀ position ∈ execution.starts, execution.startOffset ≤ position := by
    intro position member
    rw [seeks.starts_eq, mem_positionsFrom] at member
    exact member.1
  rw [tryStarts_of_partialMode_none (by rw [seeks.options]; rfl)]
  constructor
  case found =>
    intro position first
    have member := seeks.mem_starts first
    have increasing := execution.increasing_positionsFrom execution.subject.size
      execution.startOffset
    rw [← seeks.starts_eq] at increasing
    -- The starts in front of this one are lower, and the bytes do not stand there.
    rcases List.append_of_mem member with ⟨before, behind, parts⟩
    rw [List.findSome?_eq_some_iff.mpr]
    refine ⟨before, position, behind, parts, ?_, fun earlier listed => ?_⟩
    · rw [seeks.match_eq member, if_pos first.occurs]
    · have earlierMember : earlier ∈ execution.starts := parts ▸ List.mem_append_left _ listed
      rw [parts, List.pairwise_append] at increasing
      have lower := increasing.2.2 earlier listed position List.mem_cons_self
      rw [seeks.match_eq earlierMember, if_neg (first.least _ (from_ _ earlierMember) lower)]
  case absent =>
    intro nowhere
    rw [List.findSome?_eq_none_iff.mpr]
    intro position member
    rw [seeks.match_eq member, if_neg (nowhere position (from_ position member))]

end SeeksCharacters

end Execution

end PerlRegex
