import DalvikFacts.Json.Number

/-!
# Decoding JSON values

A decoder reads one kind of domain value from a JSON value.  It is given how many arrays and
objects may still be opened; that depth also bounds recursion on nested values.  Parts that no
decoder asks for are never looked at, so they may be nested without limit.

The rules shared by all structures are stated here once: a structure is an object with known
keys, in any order and each at most once, other keys being ignored, or an array of its leading
fields; and a variant is its name alone, or an object with the name as its only key.
-/

namespace DalvikFacts

/-- Reads a value at a given remaining depth, absent when the JSON value has another form. -/
abbrev Decoder (α : Type) := Nat → Json → Option α

namespace Decoder

/-- How many arrays and objects a document may nest. -/
def documentDepth : Nat := 127

/-- Reads a whole document. -/
def decode? {α : Type} (decoder : Decoder α) (json : Json) : Option α :=
  decoder documentDepth json

/-- A converted value. -/
def map {α β : Type} (f : α → β) (decoder : Decoder α) : Decoder β :=
  fun depth json => (decoder depth json).map f

/-- A converted value, refused where the conversion has no result. -/
def filterMap {α β : Type} (f : α → Option β) (decoder : Decoder α) : Decoder β :=
  fun depth json => (decoder depth json).bind f

/-- Valid text. -/
def text : Decoder String
  | _, .string text => text
  | _, _ => none

/-- True or false. -/
def bool : Decoder Bool
  | _, .bool value => some value
  | _, _ => none

/-- Nothing but null. -/
def unit : Decoder Unit
  | _, .null => some ()
  | _, _ => none

/-- An integer between two bounds. -/
def integer (low high : Int) : Decoder Int
  | _, .number numeral => numeral.toInt?.filter fun value => low ≤ value ∧ value ≤ high
  | _, _ => none

/-- An integer in two's complement of the given width. -/
def signed (bits : Nat) : Decoder Int :=
  let limit : Nat := 1 <<< (bits - 1)
  integer (-limit) (limit - 1)

/-- A natural number of the given width. -/
def unsigned (bits : Nat) : Decoder Nat :=
  let limit : Nat := 1 <<< bits
  (integer 0 (limit - 1)).map Int.toNat

/-- A double. -/
def double : Decoder Float
  | _, .number numeral => numeral.toFloat?
  | _, _ => none

/-- A single precision number. -/
def single : Decoder Float32
  | _, .number numeral => numeral.toFloat32?
  | _, _ => none

/-- A value or null. -/
def option {α : Type} (decoder : Decoder α) : Decoder (Option α)
  | _, .null => some none
  | depth, json => (decoder depth json).map some

/-- An array of values of one kind. -/
def list {α : Type} (decoder : Decoder α) : Decoder (List α)
  | depth + 1, .array items => items.mapM (decoder depth)
  | _, _ => none

/-- An array of exactly two parts. -/
def pair {α β γ : Type} (make : α → β → γ) (first : Decoder α) (second : Decoder β) : Decoder γ
  | depth + 1, .array [a, b] => do return make (← first depth a) (← second depth b)
  | _, _ => none

/-- An array of exactly three parts. -/
def triple {α β γ δ : Type} (make : α → β → γ → δ) (first : Decoder α) (second : Decoder β)
    (third : Decoder γ) : Decoder δ
  | depth + 1, .array [a, b, c] => do
    return make (← first depth a) (← second depth b) (← third depth c)
  | _, _ => none

/-- Whether no key is given twice. -/
def distinct (keys : List String) : Bool :=
  keys.eraseDups.length == keys.length

/-- The members of an object, absent when one of its keys is no valid text. -/
def members? (members : List (Option String × Json)) : Option (List (String × Json)) :=
  members.mapM fun (key, value) => key.map (·, value)

/-- The fields found of a structure, with the depth left for their values. -/
structure Fields where
  depth : Nat
  found : List (String × Json)

namespace Fields

/-- The value of a field that has to be there. -/
def required {α : Type} (fields : Fields) (name : String) (decoder : Decoder α) : Option α := do
  decoder fields.depth (← fields.found.lookup name)

/-- The value of a field that may be missing. -/
def orElse {α : Type} (fields : Fields) (name : String) (decoder : Decoder α) (fallback : α) :
    Option α :=
  match fields.found.lookup name with
  | none => some fallback
  | some json => decoder fields.depth json

/-- The fields of a structure given by members; those of unknown name are ignored. -/
def ofMembers? (names : List String) (depth : Nat) (members : List (String × Json)) :
    Option Fields :=
  let found := members.filter fun member => names.contains member.1
  if distinct (found.map Prod.fst) then some ⟨depth, found⟩ else none

/-- The fields of a structure given in order; there may be fewer, but not more. -/
def ofItems? (names : List String) (depth : Nat) (items : List Json) : Option Fields :=
  if items.length ≤ names.length then some ⟨depth, names.zip items⟩ else none

end Fields

/-- A structure with the given fields, as an object or as an array. -/
def record {α : Type} (names : List String) (build : Fields → Option α) : Decoder α
  | depth + 1, .object members => do
    build (← Fields.ofMembers? names depth (← members? members))
  | depth + 1, .array items => do build (← Fields.ofItems? names depth items)
  | _, _ => none

/-- A variant: its name, and the content given to it, with the depth left for the content. -/
structure Variant where
  name : String
  depth : Nat
  content : Option Json

namespace Variant

/-- The variant has no content. -/
def empty {α : Type} (variant : Variant) (value : α) : Option α :=
  match variant.content with
  | none | some .null => some value
  | some _ => none

/-- The variant has content of one kind. -/
def holding {α : Type} (variant : Variant) (decoder : Decoder α) : Option α := do
  decoder variant.depth (← variant.content)

end Variant

/-- A variant, as its name or as an object with its name as only key. -/
def variant {α : Type} (build : Variant → Option α) : Decoder α
  | depth, .string (some name) => build ⟨name, depth, none⟩
  | depth + 1, .object [(some name, content)] => build ⟨name, depth, some content⟩
  | _, _ => none

/-- A variant without content, one of the given names. -/
def named {α : Type} (choices : List (String × α)) : Decoder α :=
  variant fun v => do v.empty (← choices.lookup v.name)

/--
Whether a value that is set aside before its meaning is known can be kept: all of its texts must
be valid, its numbers in range and its nesting within the depth left.
-/
def keepable : Nat → Json → Bool
  | _, .null | _, .bool _ => true
  | _, .number numeral => numeral.toFloat?.isSome
  | _, .string text => text.isSome
  | depth + 1, .array items => items.all (keepable depth)
  | depth + 1, .object members =>
    members.all fun member => member.1.isSome && keepable depth member.2
  | 0, .array _ | 0, .object _ => false

end Decoder
end DalvikFacts
