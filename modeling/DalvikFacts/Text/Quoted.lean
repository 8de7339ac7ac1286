import DalvikFacts.Text.Printable

/-!
# Quoted text in messages

A text between quotation marks, with escapes for whatever would not show by itself.  A single
quotation mark needs no escape.
-/

namespace DalvikFacts.Text

/-- The hexadecimal digits of a code point, in lower case and without leading zeros. -/
def hexCode (c : Char) : String :=
  String.ofList (Nat.toDigits 16 c.toNat)

/-- A character inside quotation marks. -/
def escapeChar (c : Char) : String :=
  if c = '\x00' then "\\0"
  else if c = '\t' then "\\t"
  else if c = '\n' then "\\n"
  else if c = '\r' then "\\r"
  else if c = '\\' then "\\\\"
  else if c = '"' then "\\\""
  else if standsAlone c then c.toString
  else "\\u\x7b" ++ hexCode c ++ "\x7d"

/-- A text between quotation marks. -/
def quoted (text : String) : String :=
  "\"" ++ String.join (text.toList.map escapeChar) ++ "\""

end DalvikFacts.Text
