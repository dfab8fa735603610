import PerlRegex.Proofs.Characters
import PerlRegex.Proofs.Splicing
namespace PerlRegex

/-! Splitting takes a subject apart at its matches and loses nothing: the pieces and the matches
between them make up the subject. A limit on the number of pieces cuts the list of all pieces short,
and what it cuts off stays together as the last piece. -/

/-! ## Where a subject comes apart -/

/-- Matches without the empty ones right behind the match that was kept before them. -/
def keptMatches : (stop : Option Nat) → List Span → List Span
  | _, [] => []
  | stop, span :: later =>
      if span.isEmpty && stop == some span.start then keptMatches stop later
      else span :: keptMatches (some span.stop) later

/-- Whether a match has a piece on either side. An empty one at an end of the subject has none. -/
def separates (size : Nat) (span : Span) : Bool :=
  !(span.isEmpty && (span.start == 0 || span.start == size))

/-- The matches between pieces. -/
def separators (size : Nat) (stop : Option Nat) (spans : List Span) : List Span :=
  (keptMatches stop spans).filter (separates size)

/-- The pieces between separators, from a position to the end of the subject. -/
def piecesFrom (size : Nat) : (start : Nat) → (separators : List Span) → List Span
  | start, [] => [⟨start, size⟩]
  | start, span :: later => ⟨start, span.start⟩ :: piecesFrom size span.stop later

/-- At most so many pieces, the last of which is all that follows where it begins. -/
def limitPieces (size most : Nat) (pieces : List Span) : List Span :=
  if pieces.length ≤ most then pieces
  else pieces.take (most - 1)
    ++ (pieces[most - 1]?.map fun piece => ⟨piece.start, size⟩).toList

/-- All pieces, or as many of them as are wanted at most. -/
def wantedPieces (size : Nat) (most : Option Nat) (pieces : List Span) : List Span :=
  most.elim pieces fun most => limitPieces size most pieces

/-- Pieces and separators by turns. -/
def alternate : (pieces separators : List Span) → List Span
  | piece :: pieces, separator :: separators =>
      piece :: separator :: alternate pieces separators
  | pieces, [] => pieces
  | [], separators => separators

section Pieces

variable {size start : Nat} {spans : List Span}

theorem keptMatches_sublist (stop : Option Nat) (spans : List Span) :
    (keptMatches stop spans).Sublist spans := by
  fun_induction keptMatches stop spans with
  | case1 => exact .slnil
  | case2 stop span later skipped induction => exact induction.cons span
  | case3 stop span later kept induction => exact induction.cons_cons span

theorem separators_sublist (stop : Option Nat) (spans : List Span) :
    (separators size stop spans).Sublist spans :=
  List.filter_sublist.trans (keptMatches_sublist stop spans)

theorem length_piecesFrom (size start : Nat) (spans : List Span) :
    (piecesFrom size start spans).length = spans.length + 1 := by
  induction spans generalizing start with
  | nil => rfl
  | cons span later induction => rw [piecesFrom, List.length_cons, induction, List.length_cons]

theorem exists_piecesFrom_eq_cons (size start : Nat) (spans : List Span) :
    ∃ stop behind, piecesFrom size start spans = ⟨start, stop⟩ :: behind
      ∧ (behind = [] → stop = size) := by
  cases spans with
  | nil => exact ⟨size, [], rfl, fun _ => rfl⟩
  | cons span later =>
      refine ⟨span.start, piecesFrom size span.stop later, rfl, fun nothing => ?_⟩
      have length := length_piecesFrom size span.stop later
      rw [nothing] at length
      cases length

theorem limitPieces_of_length_le {most : Nat} {pieces : List Span} (le : pieces.length ≤ most) :
    limitPieces size most pieces = pieces := if_pos le

theorem wantedPieces_of_room {most : Option Nat} {pieces : Array Span} {piece : Span}
    (room : ∀ limit ∈ most, pieces.size < limit) :
    wantedPieces size most (pieces.toList ++ [piece]) = pieces.toList ++ [piece] := by
  cases most with
  | none => rfl
  | some limit =>
      apply limitPieces_of_length_le
      rw [List.length_append, Array.length_toList]
      exact room limit rfl

theorem limitPieces_append (size start : Nat) (front spans : List Span) :
    limitPieces size (front.length + 1) (front ++ piecesFrom size start spans) =
      front ++ [⟨start, size⟩] := by
  rcases exists_piecesFrom_eq_cons size start spans with ⟨stop, behind, shape, only⟩
  rw [limitPieces, shape]
  split
  · rename_i few
    have nothing : behind = [] := by
      rw [List.length_append, List.length_cons] at few
      exact List.length_eq_zero_iff.mp (by omega)
    rw [nothing, only nothing]
  · rw [Nat.add_sub_cancel, List.take_left, List.getElem?_append_right (Nat.le_refl _),
      Nat.sub_self]
    rfl

theorem Chained.of_le {start' stop : Nat} (chained : Chained start spans stop)
    (before : start' ≤ start) : Chained start' spans stop := by
  cases chained with
  | nil le => exact .nil (Nat.le_trans before le)
  | cons from_ ordered later => exact .cons (Nat.le_trans before from_) ordered later

theorem Chained.sublist {stop : Nat} {part : List Span} (chained : Chained start spans stop)
    (sublist : part.Sublist spans) : Chained start part stop := by
  induction chained generalizing part with
  | nil le =>
      rw [List.sublist_nil.mp sublist]
      exact .nil le
  | @cons start stop span later from_ ordered _ induction =>
      cases sublist with
      | cons _ rest => exact (induction rest).of_le (Nat.le_trans from_ ordered)
      | cons_cons _ rest => exact .cons from_ ordered (induction rest)

theorem mem_alternate {pieces separators : List Span} {span : Span}
    (member : span ∈ alternate pieces separators) : span ∈ pieces ∨ span ∈ separators := by
  fun_induction alternate pieces separators with
  | case1 piece pieces separator separators induction =>
      rcases List.mem_cons.mp member with rfl | member
      · exact .inl List.mem_cons_self
      rcases List.mem_cons.mp member with rfl | member
      · exact .inr List.mem_cons_self
      exact (induction member).imp (List.mem_cons_of_mem piece) (List.mem_cons_of_mem separator)
  | case2 pieces => exact .inl member
  | case3 separators => exact .inr member

theorem flatMap_bytes_alternate {subject : Array UInt8}
    (chained : Chained start spans subject.size) :
    (alternate (piecesFrom subject.size start spans) spans).flatMap (·.bytes subject) =
      Span.bytes ⟨start, subject.size⟩ subject := by
  generalize size : subject.size = stop at chained
  induction chained with
  | nil => exact List.append_nil _
  | cons from_ ordered later induction =>
      rw [piecesFrom, alternate, List.flatMap_cons, List.flatMap_cons, induction size,
        Span.bytes_append ordered later.le,
        Span.bytes_append from_ (Nat.le_trans ordered later.le)]

end Pieces

/-! ## Splitting at one match -/

namespace Splitting

/-- The state behind a match that splits, or leaves out an empty first piece. -/
def splitBehind (splitting : Splitting) (span : Span) : Splitting where
  pieces :=
    if span.stop = 0 then splitting.pieces
    else splitting.pieces.push ⟨splitting.pieceStart, span.start⟩
  pieceStart := span.stop
  pieceStop := span.start
  matchStop := some span.stop

variable {splitting : Splitting} {most : Option Nat} {span : Span}

theorem splitAt_of_skipped
    (skipped : (span.isEmpty && splitting.matchStop == some span.start) = true) :
    splitting.splitAt most span = .yield splitting := if_pos skipped

theorem splitAt_of_full
    (kept : ¬ (span.isEmpty && splitting.matchStop == some span.start) = true)
    (full : most = some (splitting.pieces.size + 1)) :
    splitting.splitAt most span = .done splitting := by
  rw [splitAt, if_neg kept, if_pos (beq_iff_eq.mpr full)]

theorem splitAt_of_room
    (kept : ¬ (span.isEmpty && splitting.matchStop == some span.start) = true)
    (room : most ≠ some (splitting.pieces.size + 1)) :
    splitting.splitAt most span = .yield (splitting.splitBehind span) := by
  rw [splitAt, if_neg kept, if_neg (fun full => room (beq_iff_eq.mp full))]
  rfl

theorem room_splitBehind (splitting : Splitting)
    (room : ∀ limit ∈ most, splitting.pieces.size < limit)
    (notFull : most ≠ some (splitting.pieces.size + 1)) :
    ∀ limit ∈ most, (splitting.splitBehind span).pieces.size < limit := by
  intro limit wanted
  have below := room limit wanted
  have other : limit ≠ splitting.pieces.size + 1 := by
    rintro rfl
    exact notFull wanted
  rw [splitBehind]
  split
  · exact below
  · rw [Array.size_push]
    omega

theorem finish_of_lt {subject : Array UInt8} (before : splitting.pieceStop < subject.size) :
    splitting.finish subject =
      splitting.pieces.toList ++ [⟨splitting.pieceStart, subject.size⟩] := by
  rw [finish, if_neg (Nat.ne_of_lt before), Array.toList_push]

end Splitting

/-! ## Splitting at all matches -/

/-- A subject that has been split up to some point, with the matches that come then. The end of the
subject has not been reached, and only the last match can begin there. -/
structure Splitting.Ready (splitting : Splitting) (size : Nat) (spans : List Span) : Prop where
  chained : Chained splitting.pieceStart spans size
  increasing : spans.Pairwise fun earlier later => earlier.start < later.start
  before : splitting.pieceStop < size

namespace Splitting.Ready

variable {splitting : Splitting} {size : Nat} {span : Span} {later : List Span}

theorem skip (ready : splitting.Ready size (span :: later)) : splitting.Ready size later where
  chained := ready.chained.sublist (List.sublist_cons_self span later)
  increasing := ready.increasing.of_cons
  before := ready.before

theorem splitBehind (ready : splitting.Ready size (span :: later)) (before : span.start < size) :
    (splitting.splitBehind span).Ready size later where
  chained := by
    cases ready.chained with
    | cons _ _ chained => exact chained
  increasing := ready.increasing.of_cons
  before := before

theorem start_le (ready : splitting.Ready size (span :: later)) : span.start ≤ size := by
  cases ready.chained with
  | cons _ ordered chained => exact Nat.le_trans ordered chained.le

theorem last (ready : splitting.Ready size (span :: later)) (atEnd : span.start = size) :
    span.stop = size ∧ later = [] := by
  cases ready.chained with
  | cons _ ordered chained =>
      have inside := chained.le
      refine ⟨by omega, ?_⟩
      cases later with
      | nil => rfl
      | cons next later =>
          have beyond := List.rel_of_pairwise_cons ready.increasing List.mem_cons_self
          cases chained with
          | cons _ nextOrdered chained =>
              have nextInside := chained.le
              omega

/-- What a match that is kept adds: a piece in front of it, if it separates. -/
theorem pieces_splitBehind (ready : splitting.Ready size (span :: later))
    (before : span.start < size) (separators : List Span) :
    (splitting.splitBehind span).pieces.toList
        ++ piecesFrom size (splitting.splitBehind span).pieceStart separators =
      splitting.pieces.toList ++ piecesFrom size splitting.pieceStart
        (if separates size span then span :: separators else separators) := by
  cases ready.chained with
  | cons from_ ordered chained =>
      by_cases front : span.stop = 0
      · have start : span.start = 0 := by omega
        have pieceStart : splitting.pieceStart = 0 := by omega
        have joins : separates size span = false := by
          simp [separates, Span.isEmpty, start, front]
        simp [Splitting.splitBehind, joins, front, pieceStart]
      · have parts : separates size span = true := by
          simp only [separates, Span.isEmpty, Bool.not_eq_true', Bool.and_eq_false_iff,
            Bool.or_eq_false_iff, beq_eq_false_iff_ne]
          omega
        rw [parts, if_pos rfl, piecesFrom, Splitting.splitBehind]
        simp [front]

theorem separates_of_last (ready : splitting.Ready size (span :: later))
    (atEnd : span.start = size) :
    separates size span = false := by
  simp [separates, Span.isEmpty, atEnd, (ready.last atEnd).1]

theorem finish_splitBehind {subject : Array UInt8}
    (ready : splitting.Ready subject.size (span :: later)) (atEnd : span.start = subject.size) :
    (splitting.splitBehind span).finish subject =
      splitting.pieces.toList ++ [⟨splitting.pieceStart, subject.size⟩] := by
  have stop := (ready.last atEnd).1
  have positive : span.stop ≠ 0 := by
    have before := ready.before
    omega
  rw [Splitting.finish, Splitting.splitBehind, if_pos atEnd, if_neg positive, atEnd,
    Array.toList_push]

end Splitting.Ready

namespace Regex

variable {subject : Array UInt8}

/-- Visiting all matches gives all pieces, or as many of them as are wanted. -/
theorem finish_visitMatches_splitAt {most : Option Nat} {found : List ScannedMatch}
    {splitting : Splitting} (ready : splitting.Ready subject.size (found.map (·.span)))
    (room : ∀ limit ∈ most, splitting.pieces.size < limit) :
    (visitMatches (fun (splitting : Splitting) span _ => splitting.splitAt most span)
        found splitting).value.finish subject =
      wantedPieces subject.size most (splitting.pieces.toList
        ++ piecesFrom subject.size splitting.pieceStart
          (separators subject.size splitting.matchStop (found.map (·.span)))) := by
  induction found generalizing splitting with
  | nil =>
      change splitting.finish subject = _
      rw [Splitting.finish_of_lt ready.before]
      exact (wantedPieces_of_room room).symm
  | cons here later induction =>
      rw [List.map_cons] at ready ⊢
      rw [visitMatches]
      by_cases kept : (here.span.isEmpty && splitting.matchStop == some here.span.start) = true
      · rw [Splitting.splitAt_of_skipped kept, separators, keptMatches, if_pos kept]
        exact induction ready.skip room
      -- The visit ends in front of the first match there is no room for, and what has not been
      -- split off yet is the last piece.
      by_cases full : most = some (splitting.pieces.size + 1)
      · rw [Splitting.splitAt_of_full kept full]
        change splitting.finish subject = _
        rw [Splitting.finish_of_lt ready.before, full]
        exact (limitPieces_append _ _ splitting.pieces.toList _).symm
      rw [Splitting.splitAt_of_room kept full, separators, keptMatches, if_neg kept,
        List.filter_cons]
      -- An empty match at the end adds what would have been added behind all matches.
      rcases Nat.lt_or_ge here.span.start subject.size with before | beyond
      · rw [← ready.pieces_splitBehind before]
        exact induction (ready.splitBehind before) (splitting.room_splitBehind room full)
      · have atEnd := Nat.le_antisymm ready.start_le beyond
        have nothing := List.map_eq_nil_iff.mp (ready.last atEnd).2
        rw [nothing, ready.separates_of_last atEnd]
        change (splitting.splitBehind here.span).finish subject = _
        rw [ready.finish_splitBehind atEnd]
        exact (wantedPieces_of_room room).symm

section Scanning

variable {regex : Regex} {options : MatchOptions} {offset : Nat} {found : List ScannedMatch}

theorem Scans.increasing (made : regex.Made) {error : Option ExecError}
    (scans : Scans regex subject options offset found error) :
    (found.map (·.span)).Pairwise fun earlier later => earlier.start < later.start := by
  induction scans with
  | finished | unmatched | failed => exact .nil
  | @found offset next captures span later error _ matched whole resumes scans induction =>
      rcases made.follows matched with ⟨other, first, follows⟩
      rw [whole] at first
      cases first
      have onward := (resumes.beyond follows.ordered).1
      have inOrder := scans.inOrder made
      refine .cons (fun other member => ?_) induction
      rcases List.mem_map.mp member with ⟨here, listed, rfl⟩
      have searched := (inOrder.offsets here listed).1
      have from_ := (inOrder.follows here listed).from_
      exact Nat.lt_of_lt_of_le onward (Nat.le_trans searched from_)

/-- All pieces of a subject. Where there is neither a pattern nor a subject, there are none. -/
def allPieces (regex : Regex) (subject : Array UInt8) (spans : List Span) : List Span :=
  if regex.source = "" ∧ subject.size = 0 then []
  else piecesFrom subject.size 0 (separators subject.size none spans)

theorem Scans.eq_nil_of_empty {error : Option ExecError}
    (scans : Scans regex subject options offset found error) (empty : subject.size = 0) :
    found = [] := by
  cases scans with
  | finished | unmatched | failed => rfl
  | found inside => omega

theorem Scans.foldMatches_eq_value (made : regex.Made)
    (scans : Scans regex subject options 0 found none) (visit : σ → Span → Captures → ForInStep σ)
    (initial : σ) :
    regex.foldMatches subject options visit initial =
      .ok (visitMatches visit found initial).value := by
  rw [scans.foldMatches_eq made, scanResult]
  cases visitMatches visit found initial <;> rfl

theorem Scans.split_eq (made : regex.Made) (scans : Scans regex subject options 0 found none)
    {limit : Int} (wanted : limit ≠ 0) :
    regex.split subject limit options =
      .ok (wantedPieces subject.size (if limit < 0 then none else some limit.toNat)
        (regex.allPieces subject (found.map (·.span)))) := by
  have room : ∀ most ∈ if limit < 0 then none else some limit.toNat,
      Splitting.start.pieces.size < most := by
    intro most given
    split at given
    · cases given
    · injection given with same
      change 0 < most
      omega
  rw [split, if_neg wanted]
  dsimp only
  generalize (if limit < 0 then none else some limit.toNat) = most at room ⊢
  rw [scans.foldMatches_eq_value made]
  rcases Nat.eq_zero_or_pos subject.size with empty | nonempty
  · rw [scans.eq_nil_of_empty empty, allPieces]
    by_cases unnamed : regex.source = ""
    · rw [if_neg (by simp [unnamed]), if_pos ⟨unnamed, empty⟩]
      change Except.ok (Splitting.start.finish subject) = _
      rw [Splitting.finish, empty]
      cases most <;> rfl
    · rw [if_pos (by simp [unnamed, Array.isEmpty, empty]), if_neg (by simp [unnamed]), empty]
      exact congrArg Except.ok (wantedPieces_of_room room).symm
  · rw [if_neg (by simp [Array.isEmpty, Nat.ne_of_gt nonempty])]
    have ready : Splitting.start.Ready subject.size (found.map (·.span)) :=
      ⟨scans.chained made (Nat.le_refl 0) (Nat.zero_le _), scans.increasing made, nonempty⟩
    change Except.ok (Splitting.finish _ subject) = _
    rw [finish_visitMatches_splitAt ready room, allPieces, if_neg (by omega)]
    rfl

/-- A subject is split into pieces around separators. -/
structure SplitsInto (regex : Regex) (subject : Array UInt8) (options : MatchOptions)
    (separators pieces : List Span) : Prop where
  all : ∀ limit < 0, regex.split subject limit options = .ok pieces
  /-- As many pieces as are wanted are all pieces up to the last of them, and that one is the rest
  of the subject from where it begins. -/
  limited : ∀ most : Nat, 0 < most →
    regex.split subject most options = .ok (limitPieces subject.size most pieces)
  nothing : regex.split subject 0 options = .ok []
  /-- There is one more piece than there are separators, unless there is nothing to split. -/
  count : pieces.length = separators.length + 1
    ∨ regex.source = "" ∧ subject.size = 0 ∧ pieces = []
  whole : (alternate pieces separators).flatMap (·.bytes subject) = subject.toList

theorem Scans.splitsInto (made : regex.Made) (scans : Scans regex subject options 0 found none) :
    SplitsInto regex subject options (separators subject.size none (found.map (·.span)))
      (regex.allPieces subject (found.map (·.span))) := by
  have chained : Chained 0 (separators subject.size none (found.map (·.span))) subject.size :=
    (scans.chained made (Nat.le_refl 0) (Nat.zero_le _)).sublist (separators_sublist _ _)
  constructor
  case all =>
    intro limit negative
    rw [scans.split_eq made (by omega), if_pos negative]
    rfl
  case limited =>
    intro most positive
    rw [scans.split_eq made (by omega), if_neg (by omega), Int.toNat_natCast]
    rfl
  case nothing => rfl
  case count =>
    unfold allPieces
    split
    · rename_i nothing
      exact .inr ⟨nothing.1, nothing.2, rfl⟩
    · exact .inl (length_piecesFrom _ _ _)
  case whole =>
    unfold allPieces
    split
    · rename_i nothing
      rw [scans.eq_nil_of_empty nothing.2]
      exact (Array.toList_eq_nil_iff.mpr (Array.eq_empty_of_size_eq_zero nothing.2)).symm
    · rw [flatMap_bytes_alternate chained, Span.bytes_whole]

/-! ## Texts -/

theorem Made.runsBetween (made : regex.Made) (utf8 : regex.options.utf8 = true)
    (valid : Utf8.isValid subject.toList = true) (options : MatchOptions) :
    regex.RunsBetween subject options := by
  rcases regex with ⟨program, plan, limits⟩
  cases program with
  | none => cases utf8
  | some program => exact runsBetween_of_compiled (made.compiledProgram rfl) utf8 valid options

end Scanning

def textAt (subject : Array UInt8) (span : Span) : String := Utf8.lossyText (span.bytes subject)

/-- In UTF-8 mode splitting a text loses nothing of it. The pieces and the matches between them make
up the text, where of empty matches right behind another one and of those at an end of the text
nothing is seen. A limit keeps the first of the pieces, and the rest of the text in one. No
character is cut in two, so the texts of pieces are just their bytes. -/
theorem split_lossless (made : regex.Made) (utf8 : regex.options.utf8 = true) (text : String)
    (options : MatchOptions) :
    let subject := (Utf8.ofText text).toArray
    ∀ spans, regex.findAll subject options = .ok spans →
      let separators := separators subject.size none spans
      ∃ pieces, SplitsInto regex subject options separators pieces
        ∧ String.join ((alternate pieces separators).map (textAt subject)) = text
        ∧ ∀ limit parts, regex.split subject limit options = .ok parts →
          regex.splitText subject limit options = .ok (parts.map (textAt subject))
            ∧ ∀ part ∈ parts, Utf8.ofText (textAt subject part) = part.bytes subject := by
  intro subject spans scanned separators
  have stored : subject.toList = Utf8.ofText text := rfl
  have runs := made.runsBetween utf8 (stored ▸ (Utf8.wellFormed_ofText text).isValid) options
  rcases @exists_scans regex subject options made 0 with ⟨found, failure, scans⟩
  have collects := scans.findAll_eq made
  rw [scanned] at collects
  cases failure with
  | some failure => cases collects
  | none =>
      injection collects with collects
      have splits := scans.splitsInto made
      rw [← collects] at splits
      refine ⟨_, splits, ?_, ?_⟩
      · have read : ∀ part ∈ (alternate (regex.allPieces subject spans) separators).map
            (·.bytes subject), Utf8.ReadExactly part := by
          intro part member
          rcases List.mem_map.mp member with ⟨span, listed, rfl⟩
          rcases mem_alternate listed with piece | separator
          · exact runs.readExactly_of_split (splits.all (-1) (by decide)) span piece
          · exact runs.readExactly_of_findAll scanned span
              ((separators_sublist none spans).subset separator)
        have joined := Utf8.join_lossyText read
        rw [List.map_map, ← List.flatMap_def, splits.whole, stored, Utf8.lossyText_ofText] at joined
        exact joined
      · intro limit parts parted
        refine ⟨?_, runs.readExactly_of_split parted⟩
        rw [splitText, parted]
        rfl

/-- `a*` on `baaéab` has an empty match at its start and two right behind other matches. It splits
off `b`, `é` and `b`, and at most two pieces are `b` and `éab`. -/
theorem split_lossless_adjacent :
    ∃ regex, compile "a*".toUTF8.toList { utf8 := true } = .ok regex
      ∧ SplitsInto regex (Utf8.ofText "baaéab").toArray {} [⟨1, 3⟩, ⟨5, 6⟩]
        [⟨0, 1⟩, ⟨3, 5⟩, ⟨6, 7⟩]
      ∧ regex.splitText (Utf8.ofText "baaéab").toArray (-1) {} = .ok ["b", "é", "b"]
      ∧ regex.splitText (Utf8.ofText "baaéab").toArray 2 {} = .ok ["b", "éab"] := by
  have evaluated : ∃ program, Program.compile "a*".toUTF8.toList { utf8 := true } = .ok program
      ∧ (options ⟨some program, none, {}⟩).utf8 = true
      ∧ findAll ⟨some program, none, {}⟩ (Utf8.ofText "baaéab").toArray {} =
        .ok [⟨0, 0⟩, ⟨1, 3⟩, ⟨3, 3⟩, ⟨5, 6⟩, ⟨6, 6⟩]
      ∧ split ⟨some program, none, {}⟩ (Utf8.ofText "baaéab").toArray (-1) {} =
        .ok [⟨0, 1⟩, ⟨3, 5⟩, ⟨6, 7⟩] :=
    exists_compiled (by decide +kernel)
  rcases evaluated with ⟨program, compiled, utf8, found, evaluated⟩
  have made := compile_of_program compiled
  rcases split_lossless (.compiled made) utf8 "baaéab" {} _ found with ⟨pieces, splits, _, texts⟩
  have all := splits.all (-1) (by decide)
  rw [evaluated] at all
  cases all
  refine ⟨_, made, splits, ?_, ?_⟩
  · exact (texts _ _ (splits.all (-1) (by decide))).1.trans (by decide +kernel)
  · exact (texts _ _ (splits.limited 2 (by decide))).1.trans (by decide +kernel)

end Regex

end PerlRegex
