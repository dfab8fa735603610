import PerlRegex.Ascii
namespace PerlRegex

/-! Quoting turns a text into a pattern, with a backslash before every character that could mean
something else. -/

def quoteCharacter (character : Char) : List Char :=
  let codePoint := character.toNat
  if codePoint = 0 then ['\\', 'x', '0', '0']
  else if codePoint < 0x80 && !Ascii.isWord codePoint then ['\\', character]
  else [character]

def quote (text : String) : String := String.ofList (text.toList.flatMap quoteCharacter)

end PerlRegex
