import PerlRegex.Report.Record
namespace PerlRegex.Report

/-! The forms of the records for people to read. -/

def lines (texts : List String) : String := String.join (texts.map (· ++ "\n"))

def located (text : String) (start stop : Nat) : String :=
  "\"" ++ text ++ "\" [" ++ toString start ++ ".." ++ toString stop ++ "]"

def GroupRecord.line (record : GroupRecord) : String :=
  "  Group " ++ toString record.group ++ record.name.elim "" (fun name => " (" ++ name ++ ")")
    ++ ": " ++ located record.text record.start record.stop

def MatchRecord.lines (index : Nat) (record : MatchRecord) : List String :=
  ("Match " ++ toString (index + 1) ++ ": " ++ located record.text record.start record.stop)
    :: record.captures.map GroupRecord.line

def counted (count : Nat) (noun ending : String) : String :=
  toString count ++ " " ++ noun ++ if count = 1 then "" else ending

def TestRecord.readable (record : TestRecord) : String :=
  lines <|
    ["Pattern: " ++ record.pattern,
      "Groups:  " ++ toString record.groups ++ if record.studied then " (studied)" else "",
      ""]
    ++ if record.matched then
      (record.found.mapIdx MatchRecord.lines).flatten
        ++ ["", counted record.matchCount "match" "es" ++ " found in "
          ++ toString record.elapsedMicroseconds ++ "\u03bcs"]
    else ["No matches found"]

def ExecRecord.spanLines (record : ExecRecord) : List String :=
  match record.span, record.text with
  | some (start, stop), some text => ["Span:    " ++ located text start stop]
  | _, _ => []

def ExecRecord.readable (record : ExecRecord) : String :=
  lines <|
    ["Pattern: " ++ record.pattern,
      "State:   " ++ record.state ++ " (" ++ toString record.code ++ ")"]
    ++ record.spanLines ++ record.captures.map GroupRecord.line

def ReplaceRecord.readable (record : ReplaceRecord) : String :=
  lines [
    "Pattern:     " ++ record.pattern,
    "Replacement: " ++ record.replacement,
    "",
    "Original: " ++ record.subject,
    "Result:   " ++ record.result,
    "",
    counted record.replacementsMade "replacement" "s" ++ " made"]

def ValidateRecord.readable (record : ValidateRecord) : String :=
  lines <| ("Pattern: " ++ record.pattern) ::
    match record.fault with
    | some fault => [
        "Invalid: " ++ fault.message,
        "  at offset " ++ toString fault.position ++ " (" ++ fault.kind ++ ")"]
    | none =>
        ["Valid"]
        ++ (record.groups.map fun groups => "Groups:  " ++ toString groups).toList
        ++ (if record.names.isEmpty then []
          else ["Names:   " ++ String.intercalate ", " record.names])
        ++ (record.literalText.map fun text => "Prefix:  \"" ++ text ++ "\"").toList

end PerlRegex.Report
