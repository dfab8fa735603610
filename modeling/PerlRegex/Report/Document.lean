namespace PerlRegex

/-! Documents are what reports are made of before they are written as JSON. The keys of a map may
be any documents, but JSON has a form only for maps whose keys are texts. -/

mutual
inductive Document where
  | flag (value : Bool)
  | number (value : Int)
  | text (value : String)
  | list (items : Documents)
  | map (entries : Entries)

inductive Documents where
  | nil
  | cons (head : Document) (tail : Documents)

inductive Entries where
  | nil
  | cons (key value : Document) (tail : Entries)
end

namespace Documents

def ofList : List Document → Documents
  | [] => .nil
  | head :: tail => .cons head (ofList tail)

end Documents

namespace Entries

def ofList : List (Document × Document) → Entries
  | [] => .nil
  | (key, value) :: tail => .cons key value (ofList tail)

end Entries

namespace Document

def listOf (items : List Document) : Document := .list (.ofList items)

def record (fields : List (String × Option Document)) : Document :=
  .map (.ofList (fields.filterMap fun (name, value) => value.map fun value => (.text name, value)))

def count (value : Nat) : Document := .number value

end Document

/-! ## JSON -/

inductive Layout where
  | pretty
  | line
  deriving DecidableEq, Repr

namespace Layout

def itemBreak (layout : Layout) (level : Nat) : String :=
  match layout with
  | .pretty => "\n" ++ String.ofList (List.replicate (2 * level) ' ')
  | .line => ""

def keyMark : Layout → String
  | .pretty => ": "
  | .line => ":"

def bracketed (layout : Layout) (level : Nat) (opening closing : String) (items : List String) :
    String :=
  if items.isEmpty then opening ++ closing
  else
    opening ++ layout.itemBreak (level + 1)
      ++ String.intercalate ("," ++ layout.itemBreak (level + 1)) items
      ++ layout.itemBreak level ++ closing

end Layout

namespace Json

def hexDigit (value : Nat) : Char :=
  if value < 10 then Char.ofNat (0x30 + value) else Char.ofNat (0x61 + (value - 10))

def escapeCharacter (character : Char) : List Char :=
  match character.toNat with
  | 0x22 => ['\\', character]
  | 0x5C => ['\\', character]
  | 0x08 => ['\\', 'b']
  | 0x09 => ['\\', 't']
  | 0x0A => ['\\', 'n']
  | 0x0C => ['\\', 'f']
  | 0x0D => ['\\', 'r']
  | codePoint =>
      if codePoint < 0x20 then
        ['\\', 'u', '0', '0', hexDigit (codePoint / 16), hexDigit (codePoint % 16)]
      else [character]

def quoted (text : String) : String :=
  "\"" ++ String.ofList (text.toList.flatMap escapeCharacter) ++ "\""

end Json

mutual
def Document.json? (layout : Layout) (level : Nat) : Document → Option String
  | .flag value => some (if value then "true" else "false")
  | .number value => some (toString value)
  | .text value => some (Json.quoted value)
  | .list items =>
      (items.json? layout (level + 1)).map (layout.bracketed level "[" "]")
  | .map entries =>
      (entries.json? layout (level + 1)).map (layout.bracketed level "\x7b" "\x7d")

def Documents.json? (layout : Layout) (level : Nat) : Documents → Option (List String)
  | .nil => some []
  | .cons head tail => do
      return (← head.json? layout level) :: (← tail.json? layout level)

def Entries.json? (layout : Layout) (level : Nat) : Entries → Option (List String)
  | .nil => some []
  | .cons (.text key) value tail => do
      return (Json.quoted key ++ layout.keyMark ++ (← value.json? layout level))
        :: (← tail.json? layout level)
  | .cons _ _ _ => none
end

namespace Document

/-- What is written in the place of a document that has no JSON form. -/
def notSerializable : Document :=
  record [
    ("code", some (.text "SERIALIZATION_ERROR")),
    ("error", some (.flag true)),
    ("message", some (.text "key must be a string"))]

def render (document : Document) (layout : Layout) : String :=
  (document.json? layout 0 <|> notSerializable.json? .line 0).getD ""

end Document

end PerlRegex
