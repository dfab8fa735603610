import PerlRegex.Report.Document
namespace PerlRegex.Report

/-! The records that the commands report, each with its fields in the order in which they are
written. -/

structure GroupRecord where
  group : Nat
  name : Option String
  text : String
  start : Nat
  stop : Nat

structure MatchRecord where
  text : String
  start : Nat
  stop : Nat
  captures : List GroupRecord

structure TestRecord where
  pattern : String
  studied : Bool
  groups : Nat
  inputLength : Nat
  matched : Bool
  matchCount : Nat
  found : List MatchRecord
  elapsedMicroseconds : Nat

structure ExecRecord where
  pattern : String
  state : String
  code : Int
  span : Option (Nat × Nat)
  text : Option String
  captures : List GroupRecord

structure ReplaceRecord where
  pattern : String
  replacement : String
  template : Bool
  subject : String
  result : String
  replacementsMade : Nat

structure PatternFault where
  kind : String
  position : Nat
  message : String

structure ValidateRecord where
  pattern : String
  valid : Bool
  groups : Option Nat
  names : List String
  literalText : Option String
  fault : Option PatternFault

structure ErrorRecord where
  code : String
  message : String
  position : Option Nat

/-! ## Documents -/

def GroupRecord.document (record : GroupRecord) : Document :=
  .record [
    ("group", some (.count record.group)),
    ("name", record.name.map .text),
    ("text", some (.text record.text)),
    ("start", some (.count record.start)),
    ("end", some (.count record.stop))]

def MatchRecord.document (record : MatchRecord) : Document :=
  .record [
    ("text", some (.text record.text)),
    ("start", some (.count record.start)),
    ("end", some (.count record.stop)),
    ("captures", some (.listOf (record.captures.map GroupRecord.document)))]

def TestRecord.document (record : TestRecord) : Document :=
  .record [
    ("pattern", some (.text record.pattern)),
    ("studied", some (.flag record.studied)),
    ("groups", some (.count record.groups)),
    ("input_length", some (.count record.inputLength)),
    ("matched", some (.flag record.matched)),
    ("match_count", some (.count record.matchCount)),
    ("matches", some (.listOf (record.found.map MatchRecord.document))),
    ("elapsed_us", some (.count record.elapsedMicroseconds))]

def ExecRecord.document (record : ExecRecord) : Document :=
  .record [
    ("pattern", some (.text record.pattern)),
    ("state", some (.text record.state)),
    ("code", some (.number record.code)),
    ("span", record.span.map fun (start, stop) => .listOf [.count start, .count stop]),
    ("text", record.text.map .text),
    ("captures", some (.listOf (record.captures.map GroupRecord.document)))]

def ReplaceRecord.document (record : ReplaceRecord) : Document :=
  .record [
    ("pattern", some (.text record.pattern)),
    ("replacement", some (.text record.replacement)),
    ("template", some (.flag record.template)),
    ("original", some (.text record.subject)),
    ("result", some (.text record.result)),
    ("replacements_made", some (.count record.replacementsMade))]

def PatternFault.document (record : PatternFault) : Document :=
  .record [
    ("kind", some (.text record.kind)),
    ("position", some (.count record.position)),
    ("message", some (.text record.message))]

def ValidateRecord.document (record : ValidateRecord) : Document :=
  .record [
    ("pattern", some (.text record.pattern)),
    ("valid", some (.flag record.valid)),
    ("groups", record.groups.map .count),
    ("names",
      if record.names.isEmpty then none else some (.listOf (record.names.map .text))),
    ("literal_prefix", record.literalText.map .text),
    ("error", record.fault.map PatternFault.document)]

def ErrorRecord.document (record : ErrorRecord) : Document :=
  .record [
    ("error", some (.flag true)),
    ("code", some (.text record.code)),
    ("message", some (.text record.message)),
    ("position", record.position.map .count)]

end PerlRegex.Report
