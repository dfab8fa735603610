import PerlRegex.Regex
namespace PerlRegex.Regex

/-! Scanning a subject for all its matches. Each search resumes where the match before it ended, or
one character further on if that match was empty, so no two matches overlap and none is reported
twice. A scan ends at the end of the subject or with the first search that finds no full match. -/

def resumeOffset (regex : Regex) (subject : Array UInt8) (span : Span) : Nat :=
  if !span.isEmpty then span.stop
  else if regex.options.utf8 then
    span.stop + (Utf8.decodeAt subject span.stop).elim 1 (·.2)
  else span.stop + 1

def foldMatchesFrom (regex : Regex) (subject : Array UInt8) (options : MatchOptions)
    (visit : σ → Span → Captures → ForInStep σ) :
    (budget offset : Nat) → σ → Except ExecError σ
  | 0, _, state => .ok state
  | budget + 1, offset, state =>
      if subject.size ≤ offset then .ok state
      else match regex.run subject offset options with
        | .error error => .error error
        | .ok (.matched captures) =>
            match captures.head?.join with
            | none => .ok state
            | some span =>
                match visit state span captures with
                | .done state => .ok state
                | .yield state =>
                    regex.foldMatchesFrom subject options visit budget
                      (regex.resumeOffset subject span) state
        | .ok _ => .ok state

/-- Visit the matches of a subject in order until the visitor is done. Every match moves the offset
on, so there are no more of them than bytes. An error of any search is the result of the scan. -/
def foldMatches (regex : Regex) (subject : Array UInt8) (options : MatchOptions)
    (visit : σ → Span → Captures → ForInStep σ) (initial : σ) : Except ExecError σ :=
  regex.foldMatchesFrom subject options visit subject.size 0 initial

def findAll (regex : Regex) (subject : Array UInt8) (options : MatchOptions) :
    Except ExecError (List Span) := do
  return (← regex.foldMatches subject options
    (fun found span _ => .yield (found.push span)) #[]).toList

def capturesAll (regex : Regex) (subject : Array UInt8) (options : MatchOptions) :
    Except ExecError (List Captures) := do
  return (← regex.foldMatches subject options
    (fun found _ captures => .yield (found.push captures)) #[]).toList

end PerlRegex.Regex
