import DalvikFacts.Descriptor

/-!
# Texts of descriptors

Which texts are descriptors, told by their characters: `V`, or up to 255 brackets before a letter or
before a class name between `L` and `;`.  A descriptor is read as the one type that is written with
it, and a bracket more is a dimension more.
-/

namespace DalvikFacts

theorem Primitive.ofLetter?_eq_some_iff {letter : Char} {kind : Primitive} :
    ofLetter? letter = some kind ↔ letter = kind.letter := by
  constructor
  · intro found
    unfold ofLetter? at found
    split at found <;> cases found <;> rfl
  · rintro rfl
    exact ofLetter?_letter kind

theorem Primitive.letter_ne_bracket (kind : Primitive) : kind.letter ≠ '[' := by
  cases kind <;> decide

namespace Descriptor

/-! ## Shapes of types -/

/-- The number of brackets before the scalar of a type. -/
def dimensions : Descriptor → Nat
  | array element => element.dimensions + 1
  | _ => 0

/-- What is left of a type without its brackets. -/
def scalar : Descriptor → Descriptor
  | array element => element.scalar
  | type => type

/-- A type that may stand behind brackets: a primitive type, or a class with a name. -/
def IsScalar : Descriptor → Prop
  | primitive _ => True
  | object name => name ≠ ""
  | void | array _ => False

/-- A type that has a descriptor. -/
def WellFormed (type : Descriptor) : Prop :=
  type = void ∨ type.dimensions ≤ maxDimensions ∧ type.scalar.IsScalar

/-- A text of a type without brackets: the letter of a primitive type, or a class name. -/
def ScalarText (text : List Char) : Prop :=
  (∃ letter ∈ ['Z', 'B', 'S', 'C', 'I', 'J', 'F', 'D'], text = [letter]) ∨
    ∃ name ≠ [], text = 'L' :: (name ++ [';'])

/-- A text of a type. -/
def IsText (text : String) : Prop :=
  text = "V" ∨ ∃ dimensions ≤ 255, ∃ scalar, ScalarText scalar ∧
    text.toList = List.replicate dimensions '[' ++ scalar

variable {type : Descriptor} {text : List Char}

/-! ## Writing -/

theorem toChars_eq (type : Descriptor) :
    type.toChars = List.replicate type.dimensions '[' ++ type.scalar.toChars := by
  induction type with
  | array element induction =>
    rw [toChars, induction, dimensions, scalar, List.replicate_succ, List.cons_append]
  | _ => rfl

theorem exists_array_of_toChars {rest : List Char} (starts : type.toChars = '[' :: rest) :
    ∃ element, type = array element ∧ element.toChars = rest := by
  cases type with
  | array element => exact ⟨element, rfl, (List.cons.inj starts).2⟩
  | primitive kind => exact absurd (List.cons.inj starts).1 kind.letter_ne_bracket
  | void | object => exact absurd (List.cons.inj starts).1 (by decide)

theorem scalarText_iff : ScalarText text ↔ ∃ type : Descriptor, type.IsScalar ∧
    text = type.toChars := by
  constructor
  · rintro (⟨letter, letter_mem, rfl⟩ | ⟨name, named, rfl⟩)
    · have found : ∀ letter ∈ ['Z', 'B', 'S', 'C', 'I', 'J', 'F', 'D'],
          (Primitive.ofLetter? letter).isSome := by
        simp [Primitive.ofLetter?]
      obtain ⟨kind, kind_eq⟩ := Option.isSome_iff_exists.1 (found letter letter_mem)
      rw [Primitive.ofLetter?_eq_some_iff.1 kind_eq]
      exact ⟨primitive kind, trivial, rfl⟩
    · refine ⟨object (String.ofList name), ?_, by rw [toChars, String.toList_ofList]⟩
      exact fun empty => named (String.ofList_eq_empty_iff.1 empty)
  · rintro ⟨type, isScalar, rfl⟩
    cases type with
    | primitive kind =>
      refine .inl ⟨kind.letter, ?_, rfl⟩
      cases kind <;> decide
    | object name =>
      exact .inr ⟨name.toList, fun empty => isScalar (String.toList_eq_nil_iff.1 empty), rfl⟩
    | void | array => exact isScalar.elim

/-! ## Reading -/

theorem scalarOfChars?_eq_some_iff :
    scalarOfChars? text = some type ↔ text = type.toChars ∧ type.IsScalar := by
  unfold scalarOfChars?
  split
  next letter =>
    rw [Option.map_eq_some_iff]
    constructor
    · rintro ⟨kind, kind_eq, rfl⟩
      rw [Primitive.ofLetter?_eq_some_iff.1 kind_eq]
      exact ⟨rfl, trivial⟩
    · rintro ⟨letter_eq, isScalar⟩
      cases type with
      | primitive kind =>
        exact ⟨kind, Primitive.ofLetter?_eq_some_iff.2 (List.cons.inj letter_eq).1, rfl⟩
      | object name => simp [toChars] at letter_eq
      | void | array => exact isScalar.elim
  next rest _ =>
    constructor
    · intro read
      split at read
      next closed =>
        cases read
        obtain ⟨last_eq, named⟩ := closed
        obtain ⟨name, rfl⟩ := List.getLast?_eq_some_iff.1 last_eq
        rw [List.dropLast_concat] at named ⊢
        refine ⟨by rw [toChars, String.toList_ofList], ?_⟩
        exact fun empty => named (String.ofList_eq_empty_iff.1 empty)
      next => cases read
    · rintro ⟨text_eq, isScalar⟩
      cases type with
      | object name =>
        have rest_eq : rest = name.toList ++ [';'] := (List.cons.inj text_eq).2
        have named : name.toList ≠ [] := fun empty =>
          isScalar (String.toList_eq_nil_iff.1 empty)
        simp [rest_eq, named]
      | primitive kind =>
        have letter_eq := (List.cons.inj text_eq).1
        cases kind <;> exact absurd letter_eq (by decide)
      | void | array => exact isScalar.elim
  next not_letter not_class =>
    refine iff_of_false (fun read => by cases read) ?_
    rintro ⟨rfl, isScalar⟩
    cases type with
    | primitive kind => exact not_letter _ rfl
    | object name => exact not_class _ rfl
    | void | array => exact isScalar.elim

/-- With at most so many brackets, exactly the types of at most so many dimensions are read. -/
theorem ofCharsWithin?_eq_some_iff (bound : Nat) :
    ofCharsWithin? bound text = some type ↔
      text = type.toChars ∧ type.dimensions ≤ bound ∧ type.scalar.IsScalar := by
  fun_induction ofCharsWithin? bound text generalizing type with
  | case1 bound rest induction =>
    rw [Option.map_eq_some_iff]
    constructor
    · rintro ⟨element, read, rfl⟩
      obtain ⟨rfl, within, isScalar⟩ := induction.1 read
      exact ⟨rfl, Nat.succ_le_succ within, isScalar⟩
    · rintro ⟨rest_eq, within, isScalar⟩
      obtain ⟨element, rfl, rfl⟩ := exists_array_of_toChars rest_eq.symm
      exact ⟨element, induction.2 ⟨rfl, Nat.le_of_succ_le_succ within, isScalar⟩, rfl⟩
  | case2 bound text unbracketed =>
    rw [scalarOfChars?_eq_some_iff]
    constructor
    · rintro ⟨text_eq, isScalar⟩
      cases type with
      | primitive | object => exact ⟨text_eq, Nat.zero_le _, isScalar⟩
      | void | array => exact isScalar.elim
    · rintro ⟨text_eq, within, isScalar⟩
      cases type with
      | array element =>
        -- a bracket is left unread only where none is allowed
        cases bound with
        | zero => cases within
        | succ bound => exact absurd text_eq (unbracketed bound _ rfl)
      | _ => exact ⟨text_eq, isScalar⟩

theorem toChars_eq_void_iff : type.toChars = ['V'] ↔ type = void := by
  refine ⟨fun letters => ?_, fun same => by rw [same]; rfl⟩
  cases type with
  | void => rfl
  | primitive kind => cases kind <;> exact absurd (List.cons.inj letters).1 (by decide)
  | object | array => exact absurd (List.cons.inj letters).1 (by decide)

theorem toList_toString (type : Descriptor) : (toString type).toList = type.toChars :=
  String.toList_ofList

theorem parse_eq_ok_iff {text : String} :
    parse text = .ok type ↔ toString type = text ∧ type.WellFormed := by
  have written_iff : toString type = text ↔ text.toList = type.toChars := by
    rw [← String.toList_inj, toList_toString, eq_comm]
  have read_iff : parse text = .ok type ↔ ofChars? text.toList = some type := by
    unfold parse ofString?
    cases ofChars? text.toList <;> simp
  rw [read_iff, written_iff, ofChars?]
  split
  next is_void =>
    rw [is_void, Option.some_inj, eq_comm (a := void), eq_comm (a := ['V']), toChars_eq_void_iff]
    exact ⟨fun same => ⟨same, .inl same⟩, And.left⟩
  next not_void =>
    rw [ofCharsWithin?_eq_some_iff]
    refine and_congr_right fun text_eq => (or_iff_right ?_).symm
    exact fun same => not_void (text_eq.trans (toChars_eq_void_iff.2 same))

theorem exists_nested {type : Descriptor} (isScalar : type.IsScalar) (count : Nat) :
    ∃ nested : Descriptor, nested.dimensions = count ∧ nested.scalar = type := by
  induction count with
  | zero =>
    refine ⟨type, ?_⟩
    cases type with
    | array => exact isScalar.elim
    | _ => exact ⟨rfl, rfl⟩
  | succ count induction =>
    obtain ⟨element, dimensions_eq, scalar_eq⟩ := induction
    exact ⟨array element, congrArg (· + 1) dimensions_eq, scalar_eq⟩

theorem exists_parse_iff {text : String} : (∃ type, parse text = .ok type) ↔ IsText text := by
  simp only [parse_eq_ok_iff]
  constructor
  · rintro ⟨type, rfl, rfl | ⟨within, isScalar⟩⟩
    · exact .inl rfl
    · refine .inr ⟨type.dimensions, within, type.scalar.toChars,
        scalarText_iff.2 ⟨_, isScalar, rfl⟩, ?_⟩
      rw [← toChars_eq, toList_toString]
  · rintro (rfl | ⟨count, within, letters, scalar_text, text_eq⟩)
    · exact ⟨void, rfl, .inl rfl⟩
    · obtain ⟨type, isScalar, rfl⟩ := scalarText_iff.1 scalar_text
      obtain ⟨nested, rfl, rfl⟩ := exists_nested isScalar count
      refine ⟨nested, ?_, .inr ⟨within, isScalar⟩⟩
      rw [← String.toList_inj, text_eq, ← toChars_eq, toList_toString]

theorem exists_element_of_parse {rest : String} (read : parse ("[" ++ rest) = .ok type) :
    ∃ element, type = array element ∧ parse rest = .ok element := by
  obtain ⟨text_eq, wellFormed⟩ := parse_eq_ok_iff.1 read
  have letters : type.toChars = '[' :: rest.toList := by
    rw [← toList_toString, text_eq, String.toList_append]
    rfl
  obtain ⟨element, rfl, rest_eq⟩ := exists_array_of_toChars letters
  refine ⟨element, rfl, parse_eq_ok_iff.2 ⟨?_, ?_⟩⟩
  · rw [← String.toList_inj, toList_toString, rest_eq]
  · rcases wellFormed with is_void | ⟨within, isScalar⟩
    · cases is_void
    · exact .inr ⟨Nat.le_of_succ_le within, isScalar⟩

end Descriptor

/-- Descriptors of types.  The texts that are read are those of the grammar, and a text is read as
the one well-formed type that is written with it; every other text is refused.  One bracket in front
makes the type of arrays of what is behind it, also in the source name, and no other type has
components. -/
theorem descriptor_texts :
    (∀ text, (∃ type, Descriptor.parse text = .ok type) ↔ Descriptor.IsText text) ∧
    (∀ text, ¬ Descriptor.IsText text → Descriptor.parse text = .error (.malformed text)) ∧
    (∀ text type, Descriptor.parse text = .ok type → toString type = text) ∧
    (∀ type : Descriptor, Descriptor.parse (toString type) = .ok type ↔ type.WellFormed) ∧
    (∀ text type, Descriptor.parse text = .ok type →
      Descriptor.parse (toString type) = .ok type) ∧
    (∀ rest type, Descriptor.parse ("[" ++ rest) = .ok type → ∃ element,
      Descriptor.parse rest = .ok element ∧ type.component? = some element ∧
      type.sourceName = element.sourceName ++ "[]") ∧
    ∀ text type, Descriptor.parse text = .ok type → text.toList.head? ≠ some '[' →
      type.component? = none := by
  refine ⟨fun _ => Descriptor.exists_parse_iff, fun text refused => ?_, fun text type read => ?_,
    fun type => ?_, fun text type read => ?_, fun rest type read => ?_,
    fun text type read unbracketed => ?_⟩
  · have unread : ∀ type, Descriptor.parse text ≠ .ok type := fun type read =>
      refused (Descriptor.exists_parse_iff.1 ⟨type, read⟩)
    unfold Descriptor.parse at unread ⊢
    cases found_eq : Descriptor.ofString? text with
    | none => rfl
    | some type => exact absurd (by rw [found_eq]) (unread type)
  · exact (Descriptor.parse_eq_ok_iff.1 read).1
  · rw [Descriptor.parse_eq_ok_iff]
    exact and_iff_right rfl
  · exact (Descriptor.parse_eq_ok_iff.1 read).1 ▸ read
  · obtain ⟨element, rfl, element_read⟩ := Descriptor.exists_element_of_parse read
    exact ⟨element, element_read, rfl, rfl⟩
  · cases type with
    | array element =>
      have text_eq := (Descriptor.parse_eq_ok_iff.1 read).1
      rw [← text_eq, Descriptor.toList_toString] at unbracketed
      exact absurd rfl unbracketed
    | _ => rfl

/-- The elements of an array of arrays are arrays, also in their source names; and a class whose
name holds brackets has no components. -/
theorem descriptor_texts_table :
    (∃ element, Descriptor.parse "[La/B;" = .ok element ∧
      (Descriptor.array (.array (.object "a/B"))).component? = some element ∧
      "a.B[][]" = element.sourceName ++ "[]") ∧
    (Descriptor.object "a[]").component? = none := by
  obtain ⟨-, -, -, -, -, bracketed, unbracketed⟩ := descriptor_texts
  have nested_read : Descriptor.parse ("[" ++ "[La/B;") =
      .ok (.array (.array (.object "a/B"))) := by
    cbv
  have class_read : Descriptor.parse "La[];" = .ok (.object "a[]") := by
    cbv
  have name_eq : (Descriptor.array (.array (.object "a/B"))).sourceName = "a.B[][]" := by
    cbv
  exact ⟨name_eq ▸ bracketed _ _ nested_read, unbracketed _ _ class_read (by decide)⟩

end DalvikFacts
