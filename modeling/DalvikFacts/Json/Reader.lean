import DalvikFacts.Json.Token

/-!
# Reading JSON texts

A text is read token by token by a machine with a stack of the arrays and objects that are still
open, so nesting has no limit.  A text is a single value: what follows it may only be spaces.
-/

namespace DalvikFacts.Json

/-- An array or object that is still open, with what it holds so far, last first. -/
inductive Frame
  | items (done : List Json)
  | members (done : List (Option String × Json)) (key : Option String)

/-- What the next token may be. -/
inductive Phase
  /-- A value. -/
  | value
  /-- The first item of an array, or its end. -/
  | firstItem
  /-- The first key of an object, or its end. -/
  | firstKey
  /-- A key, after the members already read. -/
  | key (done : List (Option String × Json))
  /-- The colon after a key. -/
  | colon (done : List (Option String × Json)) (key : Option String)
  /-- What follows a complete value. -/
  | after (value : Json)

/-- A reader: what it expects, and the arrays and objects it is in, innermost first. -/
structure Reader where
  phase : Phase
  frames : List Frame

namespace Reader

/-- Reads the first token of a value. -/
def openValue (frames : List Frame) : Token → Option Reader
  | .null => some ⟨.after .null, frames⟩
  | .bool value => some ⟨.after (.bool value), frames⟩
  | .number numeral => some ⟨.after (.number numeral), frames⟩
  | .string text => some ⟨.after (.string text), frames⟩
  | .openBracket => some ⟨.firstItem, .items [] :: frames⟩
  | .openBrace => some ⟨.firstKey, frames⟩
  | _ => none

/-- Reads the token after a value: a comma, or the end of what holds the value. -/
def closeValue (value : Json) : List Frame → Token → Option Reader
  | .items done :: frames, .comma => some ⟨.value, .items (value :: done) :: frames⟩
  | .items done :: frames, .closeBracket =>
    some ⟨.after (.array (value :: done).reverse), frames⟩
  | .members done key :: frames, .comma => some ⟨.key ((key, value) :: done), frames⟩
  | .members done key :: frames, .closeBrace =>
    some ⟨.after (.object ((key, value) :: done).reverse), frames⟩
  | _, _ => none

/-- Reads one token. -/
def step (reader : Reader) (token : Token) : Option Reader :=
  match reader.phase, reader.frames, token with
  | .firstItem, .items [] :: frames, .closeBracket => some ⟨.after (.array []), frames⟩
  | .firstItem, frames, token | .value, frames, token => openValue frames token
  | .firstKey, frames, .closeBrace => some ⟨.after (.object []), frames⟩
  | .firstKey, frames, .string key => some ⟨.colon [] key, frames⟩
  | .key done, frames, .string key => some ⟨.colon done key, frames⟩
  | .colon done key, frames, .colon => some ⟨.value, .members done key :: frames⟩
  | .after value, frames, token => closeValue value frames token
  | _, _, _ => none

/-- Reads all tokens of a value. -/
def run? (tokens : List Token) : Option Json :=
  match tokens.foldlM step ⟨.value, []⟩ with
  | some ⟨.after value, []⟩ => some value
  | _ => none

end Reader

/-- The value of a JSON text, absent when the text breaks the grammar. -/
def parse? (text : String) : Option Json := do
  Reader.run? (← Token.scan? text.toList)

end DalvikFacts.Json
