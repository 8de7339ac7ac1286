import Mathlib.Data.List.Basic

/-!
# Reading texts back

A text of lines is cut at its line breaks, and a decimal number is read up to its last digit.
-/

namespace DalvikFacts
namespace Text

/-! ## Lines -/

/-- A text without line breaks. -/
def Unbroken (text : String) : Prop :=
  '\n' ∉ text.toList

instance (text : String) : Decidable (Unbroken text) :=
  inferInstanceAs (Decidable ('\n' ∉ text.toList))

@[simp]
theorem unbroken_append {first second : String} :
    Unbroken (first ++ second) ↔ Unbroken first ∧ Unbroken second := by
  simp [Unbroken, not_or]

@[simp]
theorem unbroken_ofList {text : List Char} : Unbroken (String.ofList text) ↔ '\n' ∉ text := by
  rw [Unbroken, String.toList_ofList]

theorem isDigit_of_mem_toString {number : Nat} {c : Char}
    (member : c ∈ (toString number).toList) : c.isDigit = true := by
  rw [Nat.toString_eq_repr, Nat.toList_repr] at member
  exact Nat.isDigit_of_mem_toDigits (by decide) (by decide) member

theorem unbroken_toString (number : Nat) : Unbroken (toString number) :=
  fun member => absurd (isDigit_of_mem_toString member) (by decide)

/-- The lines of a text that ends each of them in a line break. -/
def lines? (text : String) : Option (List (List Char)) :=
  let pieces := text.toList.splitOn '\n'
  if pieces.getLast? = some [] then some pieces.dropLast else none

theorem toList_join_lines (lines : List String) :
    (String.join (lines.map (· ++ "\n"))).toList =
      ['\n'].intercalate (lines.map String.toList ++ [[]]) := by
  induction lines with
  | nil => rfl
  | cons line lines induction =>
    rw [List.map_cons, String.join_cons, String.toList_append, induction, List.map_cons,
      List.cons_append, List.intercalate_cons_of_ne_nil (by simp), String.toList_append]
    rfl

/-- Lines without line breaks of their own are read back. -/
theorem lines?_join {lines : List String} (unbroken : ∀ line ∈ lines, Unbroken line) :
    lines? (String.join (lines.map (· ++ "\n"))) = some (lines.map String.toList) := by
  have pieces : (String.join (lines.map (· ++ "\n"))).toList.splitOn '\n' =
      lines.map String.toList ++ [[]] := by
    rw [toList_join_lines]
    refine List.splitOn_intercalate '\n' ?_ (by simp)
    intro piece member
    rcases List.mem_append.1 member with inside | last
    · obtain ⟨line, line_mem, rfl⟩ := List.mem_map.1 inside
      exact unbroken line line_mem
    · rw [List.mem_singleton.1 last]
      exact List.not_mem_nil
  dsimp only [lines?]
  rw [pieces, List.getLast?_concat, if_pos rfl, List.dropLast_concat]

/-! ## Numbers -/

/-- The decimal number in front of a text, and what is behind its digits. -/
def number? (text : List Char) : Option (Nat × List Char) :=
  match text.takeWhile Char.isDigit with
  | [] => none
  | digits => some (Nat.ofDigitChars 10 digits 0, text.dropWhile Char.isDigit)

theorem number?_append {digits rest : List Char} (filled : digits ≠ [])
    (numeric : ∀ c ∈ digits, c.isDigit = true) (stops : rest.head?.all fun c => !c.isDigit) :
    number? (digits ++ rest) = some (Nat.ofDigitChars 10 digits 0, rest) := by
  have none_more : rest.takeWhile Char.isDigit = [] ∧ rest.dropWhile Char.isDigit = rest := by
    cases rest with
    | nil => exact ⟨rfl, rfl⟩
    | cons c rest => simp_all
  unfold number?
  rw [List.takeWhile_append_of_pos numeric, List.dropWhile_append_of_pos numeric, none_more.1,
    none_more.2, List.append_nil]
  cases digits with
  | nil => exact absurd rfl filled
  | cons c digits => rfl

/-- Zeros in front of a number do not change it. -/
theorem number?_zeros (count number : Nat) {rest : List Char}
    (stops : rest.head?.all fun c => !c.isDigit) :
    number? (List.replicate count '0' ++ (toString number).toList ++ rest) =
      some (number, rest) := by
  rw [number?_append ?_ ?_ stops]
  · rw [Nat.ofDigitChars_append, Nat.ofDigitChars_replicate_zero, Nat.mul_zero,
      Nat.toString_eq_repr, Nat.toList_repr, Nat.ofDigitChars_ten_toDigits]
  · simp [Nat.toString_eq_repr, Nat.toList_repr, Nat.toDigits_ne_nil]
  · intro c member
    rcases List.mem_append.1 member with zero | digit
    · rw [List.eq_of_mem_replicate zero]
      rfl
    · exact isDigit_of_mem_toString digit

/-- Blanks in front of a number are skipped. -/
theorem number?_blanks (count number : Nat) {rest : List Char}
    (stops : rest.head?.all fun c => !c.isDigit) :
    number? ((List.replicate count ' ' ++ (toString number).toList ++ rest).dropWhile (· == ' ')) =
      some (number, rest) := by
  have blank : ∀ c ∈ List.replicate count ' ', (c == ' ') = true := by
    intro c member
    rw [List.eq_of_mem_replicate member]
    rfl
  have visible : ((toString number).toList ++ rest).dropWhile (· == ' ') =
      (toString number).toList ++ rest := by
    cases digits_eq : (toString number).toList with
    | nil => simp [Nat.toString_eq_repr, Nat.toList_repr, Nat.toDigits_ne_nil] at digits_eq
    | cons c digits =>
      refine List.dropWhile_cons_of_neg fun same => ?_
      have digit := isDigit_of_mem_toString (digits_eq ▸ List.mem_cons_self)
      rw [beq_iff_eq.1 same] at digit
      cases digit
  rw [List.append_assoc, List.dropWhile_append_of_pos blank, visible]
  exact number?_zeros 0 number stops

end Text
end DalvikFacts
