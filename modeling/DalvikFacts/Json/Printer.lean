import DalvikFacts.Json.Basic

/-!
# Printing JSON values

Two layouts: one line without spaces, and one item a line with an indentation of two spaces.
Characters beyond the control characters, quotation marks and backslashes stand for themselves.
A text that holds no valid string is printed empty.
-/

namespace DalvikFacts.Json

/-- A hexadecimal digit. -/
def hexDigit (value : Nat) : Char :=
  Nat.digitChar value

/-- A character inside a quoted string. -/
def quoteChar (c : Char) : String :=
  if c = '"' then "\\\""
  else if c = '\\' then "\\\\"
  else if c = '\n' then "\\n"
  else if c = '\r' then "\\r"
  else if c = '\t' then "\\t"
  else if c = '\x08' then "\\b"
  else if c = '\x0c' then "\\f"
  else if c < ' ' then
    String.ofList ['\\', 'u', '0', '0', hexDigit (c.toNat / 16), hexDigit (c.toNat % 16)]
  else c.toString

/-- A quoted string. -/
def quote (text : String) : String :=
  "\"" ++ String.join (text.toList.map quoteChar) ++ "\""

/-- The text of an exponent, with its sign and at least two digits. -/
def exponentText (exponent : Int) : String :=
  (if exponent < 0 then "e-" else "e+") ++ (if exponent.natAbs < 10 then "0" else "") ++
    toString exponent.natAbs

/-- The text of a numeral. -/
def numeralText (numeral : Numeral) : String :=
  let digits (ds : List Nat) := String.ofList (ds.map Nat.digitChar)
  (if numeral.negative then "-" else "") ++ digits numeral.whole ++
    (if numeral.fraction.isEmpty then "" else "." ++ digits numeral.fraction) ++
    (match numeral.exponent with
    | none => ""
    | some exponent => exponentText exponent)

mutual

/-- Puts the pieces of a value, printed on one line, behind what is already printed. -/
def append (done : Array String) : Json → Array String
  | .null => done.push "null"
  | .bool value => done.push (if value then "true" else "false")
  | .number numeral => done.push (numeralText numeral)
  | .string text => done.push (quote (text.getD ""))
  | .array items => (appendItems (done.push "[") items true).push "]"
  | .object members => (appendMembers (done.push "\x7b") members true).push "\x7d"

/-- Puts the items of an array behind what is already printed. -/
def appendItems (done : Array String) : List Json → Bool → Array String
  | [], _ => done
  | item :: items, first =>
    appendItems (append (if first then done else done.push ",") item) items false

/-- Puts the members of an object behind what is already printed. -/
def appendMembers (done : Array String) : List (Option String × Json) → Bool → Array String
  | [], _ => done
  | (key, value) :: members, first =>
    let done := (if first then done else done.push ",").push (quote (key.getD "") ++ ":")
    appendMembers (append done value) members false

end

/-- The text of a value on one line. -/
def compact (json : Json) : String :=
  String.join (append #[] json).toList

/-- A line break and the indentation of a level. -/
def newLine (level : Nat) : String :=
  "\n" ++ String.ofList (List.replicate (2 * level) ' ')

mutual

/-- The text of a value at a level of indentation, one item or member a line. -/
def prettyAt (level : Nat) : Json → String
  | .array [] => "[]"
  | .array items => "[" ++ prettyItems (level + 1) items true ++ newLine level ++ "]"
  | .object [] => "\x7b\x7d"
  | .object members =>
    "\x7b" ++ prettyMembers (level + 1) members true ++ newLine level ++ "\x7d"
  | .null => "null"
  | .bool value => if value then "true" else "false"
  | .number numeral => numeralText numeral
  | .string text => quote (text.getD "")

/-- The items of an array, each on a line of its own. -/
def prettyItems (level : Nat) : List Json → Bool → String
  | [], _ => ""
  | item :: items, first =>
    (if first then "" else ",") ++ newLine level ++ prettyAt level item ++
      prettyItems level items false

/-- The members of an object, each on a line of its own. -/
def prettyMembers (level : Nat) : List (Option String × Json) → Bool → String
  | [], _ => ""
  | (key, value) :: members, first =>
    (if first then "" else ",") ++ newLine level ++ quote (key.getD "") ++ ": " ++
      prettyAt level value ++ prettyMembers level members false

end

/-- The text of a value over several lines. -/
def pretty (json : Json) : String :=
  prettyAt 0 json

end DalvikFacts.Json
