import DalvikFacts.Fact.Emit
import Mathlib.Data.List.Basic

/-!
# Identifiers of string constants

The raw form of a constant has no white space at its ends, and is its own raw form; the identifier
has these properties too, and is short.  The marks that protect white space are themselves a text
that a constant may have, so two constants share a short raw form when one of them is the other
between marks.
-/

namespace DalvikFacts

namespace Text

/-- A text that is not empty and has no white space at its ends. -/
structure Trim (text : String) : Prop where
  nonempty : text ≠ ""
  head : ∀ c ∈ text.toList.head?, isBlank c = false
  last : ∀ c ∈ text.toList.getLast?, isBlank c = false

theorem trim_iff {text : String} : Trim text ↔ text ≠ "" ∧ isTrimmed text := by
  have trimmed_iff : isTrimmed text ↔ (∀ c ∈ text.toList.head?, isBlank c = false) ∧
      ∀ c ∈ text.toList.getLast?, isBlank c = false := by
    simp [isTrimmed, Option.any_eq_false]
  rw [trimmed_iff]
  exact ⟨fun trim => ⟨trim.nonempty, trim.head, trim.last⟩, fun ⟨nonempty, head, last⟩ =>
    ⟨nonempty, head, last⟩⟩

theorem Trim.of_ends {text : String} {first last : Char} {middle : List Char}
    (text_eq : text.toList = first :: (middle ++ [last])) (first_shows : isBlank first = false)
    (last_shows : isBlank last = false) : Trim text where
  nonempty := by
    rintro rfl
    cases text_eq
  head := by
    intro c member
    rw [text_eq] at member
    cases member
    exact first_shows
  last := by
    intro c member
    rw [text_eq, ← List.cons_append, List.getLast?_concat] at member
    cases member
    exact last_shows

theorem length_units_le (text : String) : (units text).length ≤ 2 * text.length := by
  have units_le : ∀ c, (charUnits c).length ≤ 2 := by
    intro c
    unfold charUnits
    split <;> simp
  rw [← String.length_toList, units]
  induction text.toList with
  | nil => exact Nat.le_refl 0
  | cons c rest induction =>
    have first_le := units_le c
    rw [List.flatMap_cons, List.length_append, List.length_cons]
    omega

/-- A signed number of 32 bits. -/
def Signed32 (number : Int) : Prop :=
  -0x80000000 ≤ number ∧ number < 0x80000000

theorem signed32_foldl {values : List Int} {hash : Int} (start : Signed32 hash) :
    Signed32 (values.foldl (fun hash unit => (hash * 31 + unit).bmod 0x100000000) hash) := by
  induction values generalizing hash with
  | nil => exact start
  | cons value rest induction =>
    exact induction ⟨Int.le_bmod (by decide), Int.bmod_lt (by decide)⟩

theorem signed32_polynomialHash (text : String) : Signed32 (polynomialHash text) :=
  signed32_foldl ⟨by decide, by decide⟩

theorem Signed32.length_toString_le {number : Int} (signed : Signed32 number) :
    (toString number).length ≤ 11 := by
  obtain ⟨low, high⟩ := signed
  cases number with
  | ofNat count =>
    have small : count < 0x80000000 := Int.ofNat_lt.1 high
    have digits : count.repr.length ≤ 10 := (Nat.length_repr_le_iff (by decide)).2 (by omega)
    exact Nat.le_succ_of_le digits
  | negSucc count =>
    have digits : (count + 1).repr.length ≤ 10 :=
      (Nat.length_repr_le_iff (by decide)).2 (by omega)
    change ("-" ++ (count + 1).repr).length ≤ 11
    rw [String.length_append, Nat.add_comm]
    exact Nat.succ_le_succ digits

end Text

namespace StringConstant

open Text

variable {constant first second raw : String}

/-! ## Raw forms -/

/-- A text between the marks that protect white space. -/
def marked (constant : String) : String :=
  "<<\"" ++ constant ++ "\">>"

theorem encode_of_trim (trim : Trim constant) : encode constant = constant :=
  if_pos (trim_iff.1 trim)

theorem encode_of_not_trim (loose : ¬ Trim constant) : encode constant = marked constant :=
  if_neg (mt trim_iff.2 loose)

theorem toList_marked (constant : String) :
    (marked constant).toList = '<' :: (('<' :: '"' :: constant.toList ++ ['"', '>']) ++ ['>']) := by
  simp [marked, String.toList_append]

theorem trim_marked (constant : String) : Trim (marked constant) :=
  .of_ends (toList_marked constant) (by decide) (by decide)

theorem marked_inj : marked first = marked second ↔ first = second := by
  rw [marked, marked, String.append_left_inj, String.append_right_inj]

theorem trim_encode (constant : String) : Trim (encode constant) := by
  by_cases trim : Trim constant
  · rwa [encode_of_trim trim]
  · rw [encode_of_not_trim trim]
    exact trim_marked constant

theorem encode_eq_iff : encode first = encode second ↔
    first = second ∨ (¬ Trim first ∧ second = marked first) ∨
      (¬ Trim second ∧ first = marked second) := by
  by_cases first_trim : Trim first <;> by_cases second_trim : Trim second
  · rw [encode_of_trim first_trim, encode_of_trim second_trim]
    simp [first_trim, second_trim]
  · rw [encode_of_trim first_trim, encode_of_not_trim second_trim]
    have distinct : first ≠ second := fun same => second_trim (same ▸ first_trim)
    simp [first_trim, second_trim, distinct]
  · rw [encode_of_not_trim first_trim, encode_of_trim second_trim]
    have distinct : first ≠ second := fun same => first_trim (same ▸ second_trim)
    simp [first_trim, second_trim, distinct, eq_comm]
  · rw [encode_of_not_trim first_trim, encode_of_not_trim second_trim, marked_inj]
    have first_apart : second ≠ marked first := fun same => second_trim (same ▸ trim_marked first)
    have second_apart : first ≠ marked second := fun same => first_trim (same ▸ trim_marked second)
    simp [first_apart, second_apart]

/-! ## Identifiers -/

/-- The identifier of a raw form that is too long. -/
def hashed (raw : String) : String :=
  "<<HASH:" ++ toString (polynomialHash raw) ++ ">>"

theorem identifier_of_le (short : (units raw).length ≤ maxUnits) : identifier raw = raw :=
  if_pos short

theorem identifier_of_lt (long : maxUnits < (units raw).length) : identifier raw = hashed raw :=
  if_neg (Nat.not_le.2 long)

theorem toList_hashed (raw : String) : (hashed raw).toList =
    '<' :: (("<HASH:".toList ++ (toString (polynomialHash raw)).toList ++ ['>']) ++ ['>']) := by
  simp [hashed, String.toList_append]

theorem trim_hashed (raw : String) : Trim (hashed raw) :=
  .of_ends (toList_hashed raw) (by decide) (by decide)

theorem length_units_hashed (raw : String) : (units (hashed raw)).length ≤ maxUnits := by
  have digits := (signed32_polynomialHash raw).length_toString_le
  have marks : "<<HASH:".length = 7 ∧ ">>".length = 2 := ⟨rfl, rfl⟩
  calc (units (hashed raw)).length
    _ ≤ 2 * (hashed raw).length := length_units_le _
    _ ≤ maxUnits := by
      rw [hashed, String.length_append, String.length_append, marks.1, marks.2, maxUnits]
      omega

theorem length_units_identifier (raw : String) : (units (identifier raw)).length ≤ maxUnits := by
  by_cases short : (units raw).length ≤ maxUnits
  · rwa [identifier_of_le short]
  · rw [identifier_of_lt (Nat.lt_of_not_le short)]
    exact length_units_hashed raw

theorem identifier_ne_iff : identifier raw ≠ raw ↔ maxUnits < (units raw).length := by
  constructor
  · exact fun changed => Nat.lt_of_not_le fun short => changed (identifier_of_le short)
  · intro long same
    exact Nat.not_le.2 long (same ▸ length_units_identifier raw)

theorem trim_identifier (trim : Trim raw) : Trim (identifier raw) := by
  by_cases short : (units raw).length ≤ maxUnits
  · rwa [identifier_of_le short]
  · rw [identifier_of_lt (Nat.lt_of_not_le short)]
    exact trim_hashed raw

/-! ## Constants -/

/-- What becomes of a constant: its rows give its identifier and its raw form.  Neither has white
space at its ends, and each is its own raw form or identifier.  The identifier has 256 code units at
most, and is the raw form itself unless that has more; then it holds the hash of the raw form. -/
theorem constant_forms {σ : Type} (constant : String) (state : σ) :
    let raw := encode constant
    let id := identifier raw
    (Emit.stringConstant constant).run state =
        ⟨id, state, [.fact ⟨.stringRaw, [id, raw]⟩, .fact ⟨.stringConstant, [id]⟩]⟩ ∧
      Trim raw ∧ encode raw = raw ∧
      Trim id ∧ (units id).length ≤ 256 ∧ identifier id = id ∧
      (id ≠ raw ↔ 256 < (units raw).length) ∧
      (id ≠ raw → id = "<<HASH:" ++ toString (polynomialHash raw) ++ ">>") := by
  intro raw id
  have raw_trim : Trim raw := trim_encode constant
  have id_short : (units id).length ≤ maxUnits := length_units_identifier raw
  refine ⟨rfl, raw_trim, encode_of_trim raw_trim, trim_identifier raw_trim, id_short,
    identifier_of_le id_short, identifier_ne_iff, fun changed => ?_⟩
  exact identifier_of_lt (identifier_ne_iff.1 changed)

/-- Marks take six code units, and the character behind the blank counts twice. -/
example : (units (encode " 😀")).length = 9 := by
  decide +kernel

/-- Two constants with short raw forms have one identifier exactly when they are equal, or when one
of them is empty or has white space at an end, and the other is that text between marks. -/
theorem constants_share_id_iff {σ : Type} (state later : σ)
    (first_short : (units (encode first)).length ≤ 256)
    (second_short : (units (encode second)).length ≤ 256) :
    ((Emit.stringConstant first).run state).value = ((Emit.stringConstant second).run later).value ↔
      first = second ∨ (¬ Trim first ∧ second = "<<\"" ++ first ++ "\">>") ∨
        (¬ Trim second ∧ first = "<<\"" ++ second ++ "\">>") := by
  change identifier (encode first) = identifier (encode second) ↔ _
  rw [identifier_of_le first_short, identifier_of_le second_short]
  exact encode_eq_iff

/-- A text between marks is told from the text itself, if that has no white space at its ends. -/
theorem constants_share_id_iff_trim :
    let first := "😀"
    let second := "<<\"😀\">>"
    (units (encode first)).length ≤ 256 ∧ (units (encode second)).length ≤ 256 ∧
      ((Emit.stringConstant first).run ()).value ≠ ((Emit.stringConstant second).run ()).value := by
  intro first second
  have first_short : (units (encode first)).length ≤ 256 := by decide +kernel
  have second_short : (units (encode second)).length ≤ 256 := by decide +kernel
  refine ⟨first_short, second_short, fun same => ?_⟩
  rcases (constants_share_id_iff () () first_short second_short).1 same with
    equal | ⟨loose, -⟩ | ⟨loose, -⟩
  · exact absurd equal (by decide)
  · exact loose (trim_iff.2 (by decide))
  · exact loose (trim_iff.2 (by decide))

/-- The empty constant and the marks around nothing are different, and have one short identifier. -/
theorem constants_share_id_blank :
    ¬ ∀ first second : String, (units (encode first)).length ≤ 256 →
      (units (encode second)).length ≤ 256 →
      ((Emit.stringConstant first : Emit Unit String).run ()).value =
        ((Emit.stringConstant second : Emit Unit String).run ()).value → first = second := by
  intro distinct
  have merged : "" = "<<\"\">>" := distinct "" "<<\"\">>" (by decide) (by decide) (by decide)
  exact absurd merged (by decide)

end StringConstant

end DalvikFacts
