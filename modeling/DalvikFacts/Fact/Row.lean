/-!
# Rows of fact files

A row is a line of columns separated by tabulations.  The characters that would break a line or a
column, and the quotation mark, are written as a backslash and a letter, so every list of columns
can be told from its line.
-/

namespace DalvikFacts.Row

/-- Whether a character has an escape. -/
def isEscaped (c : Char) : Bool :=
  c == '\\' || c == '"' || c == '\t' || c == '\n' || c == '\r'

/-- The characters written for one character of a column. -/
def escapeChar (c : Char) : List Char :=
  if c = '\\' then ['\\', '\\']
  else if c = '"' then ['\\', '"']
  else if c = '\t' then ['\\', 't']
  else if c = '\n' then ['\\', 'n']
  else if c = '\r' then ['\\', 'r']
  else [c]

/-- The text of a column.  A column without escaped characters is its own text. -/
def escape (column : String) : String :=
  if column.toList.any isEscaped then String.ofList (column.toList.flatMap escapeChar)
  else column

/-- A text under construction, with a count of the bytes added to it. -/
structure Written where
  text : String
  size : Nat

namespace Written

/-- Adds a piece. -/
def add (written : Written) (piece : String) : Written :=
  ⟨written.text ++ piece, written.size + piece.utf8ByteSize⟩

/-- Adds the columns after the first one, each behind a tabulation. -/
def addColumns (written : Written) : List String → Written
  | [] => written
  | column :: rest => addColumns ((written.add "\t").add (escape column)) rest

end Written

/-- Writes a row behind a text, and tells how many bytes it takes. -/
def write (text : String) (columns : List String) : Written :=
  let start : Written := ⟨text, 0⟩
  match columns with
  | [] => start.add "\n"
  | column :: rest => ((start.add (escape column)).addColumns rest).add "\n"

end DalvikFacts.Row
