import DalvikFacts.Json.Basic

/-!
# JSON tokens

The words of a JSON text.  Between tokens there may be spaces, tabulations and line breaks, and
nothing else.  `Token.scan?` refuses a text that holds anything which is no token: a raw control
character inside a string, an unknown escape, a number with a leading zero or without digits
after its point.
-/

namespace DalvikFacts.Json

/-- A word of a JSON text. -/
inductive Token
  | openBracket
  | closeBracket
  | openBrace
  | closeBrace
  | comma
  | colon
  | null
  | bool (value : Bool)
  | number (numeral : Numeral)
  | string (text : Option String)

/-- A part of a string between quotation marks: a character, or half of a surrogate pair. -/
inductive Piece
  | char (value : Char)
  | high (unit : Nat)
  | low (unit : Nat)

namespace Piece

/-- The piece named by a four digit escape. -/
def ofUnit (unit : Nat) : Piece :=
  if 0xD800 ≤ unit ∧ unit ≤ 0xDBFF then .high unit
  else if 0xDC00 ≤ unit ∧ unit ≤ 0xDFFF then .low unit
  else .char (Char.ofNat unit)

/-- The characters of a string, absent when half of a surrogate pair stands alone. -/
def join? : List Piece → Option (List Char)
  | [] => some []
  | .char c :: rest => (join? rest).map (c :: ·)
  | .high unit :: .low unit' :: rest =>
    let code := 0x10000 + (unit - 0xD800) * 0x400 + (unit' - 0xDC00)
    (join? rest).map (Char.ofNat code :: ·)
  | .high _ :: _ => none
  | .low _ :: _ => none

end Piece

namespace Token

/-- The value of a hexadecimal digit. -/
def hexDigit? (c : Char) : Option Nat :=
  if '0' ≤ c ∧ c ≤ '9' then some (c.toNat - '0'.toNat)
  else if 'a' ≤ c ∧ c ≤ 'f' then some (c.toNat - 'a'.toNat + 10)
  else if 'A' ≤ c ∧ c ≤ 'F' then some (c.toNat - 'A'.toNat + 10)
  else none

/-- The code unit written by four hexadecimal digits. -/
def hexUnit? (a b c d : Char) : Option Nat := do
  return (((← hexDigit? a) * 16 + (← hexDigit? b)) * 16 + (← hexDigit? c)) * 16 + (← hexDigit? d)

/-- The character named by a backslash and one letter. -/
def shortEscape? : Char → Option Char
  | '"' => some '"'
  | '\\' => some '\\'
  | '/' => some '/'
  | 'b' => some '\x08'
  | 'f' => some '\x0c'
  | 'n' => some '\n'
  | 'r' => some '\r'
  | 't' => some '\t'
  | _ => none

/-- The pieces of a string up to its closing mark, and the text after the mark. -/
def scanString? (done : List Piece) : List Char → Option (List Piece × List Char)
  | [] => none
  | '"' :: rest => some (done.reverse, rest)
  | '\\' :: 'u' :: a :: b :: c :: d :: rest =>
    match hexUnit? a b c d with
    | some unit => scanString? (.ofUnit unit :: done) rest
    | none => none
  | '\\' :: c :: rest =>
    match shortEscape? c with
    | some meant => scanString? (.char meant :: done) rest
    | none => none
  | c :: rest => if c < ' ' ∨ c = '\\' then none else scanString? (.char c :: done) rest

/-- The leading decimal digits of a text, and the rest. -/
def spanDigits (text : List Char) : List Nat × List Char :=
  let (digits, rest) := text.span Char.isDigit
  (digits.map fun digit => digit.toNat - '0'.toNat, rest)

/-- The digits before the point: a single zero, or digits without a leading zero. -/
def scanWhole? : List Char → Option (List Nat × List Char)
  | '0' :: rest => some ([0], rest)
  | text =>
    match spanDigits text with
    | ([], _) => none
    | (digits, rest) => some (digits, rest)

/-- The digits after the point, none when there is no point. -/
def scanFraction? : List Char → Option (List Nat × List Char)
  | '.' :: rest =>
    match spanDigits rest with
    | ([], _) => none
    | (digits, rest) => some (digits, rest)
  | rest => some ([], rest)

/-- The signed digits of an exponent. -/
def scanExponentDigits? (negative : Bool) (text : List Char) : Option (Option Int × List Char) :=
  match spanDigits text with
  | ([], _) => none
  | (digits, rest) =>
    let magnitude : Int := Numeral.ofDigits digits
    some (some (if negative then -magnitude else magnitude), rest)

/-- The exponent of a number, if it has one. -/
def scanExponent? : List Char → Option (Option Int × List Char)
  | 'e' :: '-' :: rest | 'E' :: '-' :: rest => scanExponentDigits? true rest
  | 'e' :: '+' :: rest | 'E' :: '+' :: rest => scanExponentDigits? false rest
  | 'e' :: rest | 'E' :: rest => scanExponentDigits? false rest
  | rest => some (none, rest)

/-- A number without its sign, and the text after it. -/
def scanNumber? (negative : Bool) (text : List Char) : Option (Numeral × List Char) := do
  let (whole, text) ← scanWhole? text
  let (fraction, text) ← scanFraction? text
  let (exponent, text) ← scanExponent? text
  return ({ negative, whole, fraction, exponent }, text)

/-- The token a text starts with, and the text after it. -/
def scanOne? : List Char → Option (Token × List Char)
  | '[' :: rest => some (.openBracket, rest)
  | ']' :: rest => some (.closeBracket, rest)
  | '\x7b' :: rest => some (.openBrace, rest)
  | '\x7d' :: rest => some (.closeBrace, rest)
  | ',' :: rest => some (.comma, rest)
  | ':' :: rest => some (.colon, rest)
  | 'n' :: 'u' :: 'l' :: 'l' :: rest => some (.null, rest)
  | 't' :: 'r' :: 'u' :: 'e' :: rest => some (.bool true, rest)
  | 'f' :: 'a' :: 'l' :: 's' :: 'e' :: rest => some (.bool false, rest)
  | '"' :: rest => do
    let (pieces, rest) ← scanString? [] rest
    return (.string ((Piece.join? pieces).map String.ofList), rest)
  | '-' :: rest => do
    let (numeral, rest) ← scanNumber? true rest
    return (.number numeral, rest)
  | text => do
    let (numeral, rest) ← scanNumber? false text
    return (.number numeral, rest)

/-- Whether a character may stand between tokens. -/
def isSpace (c : Char) : Bool :=
  c == ' ' || c == '\n' || c == '\t' || c == '\r'

/-- The tokens of a text.  Each step drops a character, so the length of the text is enough fuel. -/
def scanLoop? : Nat → List Token → List Char → Option (List Token)
  | _, done, [] => some done.reverse
  | 0, _, _ :: _ => none
  | fuel + 1, done, c :: rest =>
    if isSpace c then scanLoop? fuel done rest
    else
      match scanOne? (c :: rest) with
      | some (token, rest) => scanLoop? fuel (token :: done) rest
      | none => none

/-- The tokens of a text, absent when some part of it is no token. -/
def scan? (text : List Char) : Option (List Token) :=
  scanLoop? text.length [] text

end Token
end DalvikFacts.Json
