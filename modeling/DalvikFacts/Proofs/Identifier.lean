import DalvikFacts.Identifier
import DalvikFacts.Proofs.Reading
import Std.Data.String.ToNat

/-!
# Identifiers told apart

The identifier of an instruction ends with its number, so it tells the kind, whatever texts the kind
is made of.  A number of a kind is given out once.
-/

namespace DalvikFacts

/-- What stands behind the last separator tells what stands before it. -/
theorem append_cons_inj_of_not_mem {α : Type} {front other back rest : List α} {separator : α}
    (back_free : separator ∉ back) (rest_free : separator ∉ rest)
    (same : front ++ separator :: back = other ++ separator :: rest) :
    front = other ∧ back = rest := by
  rcases List.append_eq_append_iff.1 same with ⟨mid, rfl, cons_eq⟩ | ⟨mid, rfl, cons_eq⟩
  · cases mid with
    | nil => exact ⟨(List.append_nil _).symm, (List.cons.inj cons_eq).2⟩
    | cons first mid =>
      obtain ⟨-, back_eq⟩ := List.cons.inj cons_eq
      exact absurd (back_eq ▸ by simp) back_free
  · cases mid with
    | nil => exact ⟨List.append_nil _, (List.cons.inj cons_eq).2.symm⟩
    | cons first mid =>
      obtain ⟨-, rest_eq⟩ := List.cons.inj cons_eq
      exact absurd (rest_eq ▸ by simp) rest_free

/-- What stands before the first separator tells what stands behind it. -/
theorem append_cons_inj_of_not_mem_left {α : Type} {front other back rest : List α} {separator : α}
    (front_free : separator ∉ front) (other_free : separator ∉ other)
    (same : front ++ separator :: back = other ++ separator :: rest) :
    front = other ∧ back = rest := by
  have reversed := congrArg List.reverse same
  simp only [List.reverse_append, List.reverse_cons, List.append_assoc, List.singleton_append]
    at reversed
  obtain ⟨back_eq, front_eq⟩ := append_cons_inj_of_not_mem
    (fun member => front_free (List.mem_reverse.1 member))
    (fun member => other_free (List.mem_reverse.1 member)) reversed
  exact ⟨List.reverse_inj.1 front_eq, List.reverse_inj.1 back_eq⟩

/-- Joined texts are made of what stands in the separator and in the texts. -/
theorem mem_toList_intercalate {separator : String} {texts : List String} {c : Char}
    (member : c ∈ (separator.intercalate texts).toList) :
    c ∈ separator.toList ∨ ∃ text ∈ texts, c ∈ text.toList := by
  induction texts with
  | nil => exact absurd member List.not_mem_nil
  | cons text texts induction =>
    by_cases alone : texts = []
    · subst alone
      rw [String.intercalate_singleton] at member
      exact .inr ⟨text, List.mem_cons_self, member⟩
    · rw [String.intercalate_cons_of_ne_nil alone, String.toList_append, String.toList_append,
        List.mem_append, List.mem_append] at member
      rcases member with (in_text | in_separator) | in_texts
      · exact .inr ⟨text, List.mem_cons_self, in_text⟩
      · exact .inl in_separator
      · refine (induction in_texts).imp_right ?_
        rintro ⟨other, other_mem, in_other⟩
        exact ⟨other, List.mem_cons_of_mem _ other_mem, in_other⟩

namespace Identifier

theorem slash_not_mem_toString (number : Nat) : '/' ∉ (toString number).toList :=
  fun member => absurd (Text.isDigit_of_mem_toString member) (by decide)

/-- The identifier of an instruction tells its kind and its number. -/
theorem instruction_eq_iff {method kind other : String} {number count : Nat} :
    instruction method kind number = instruction method other count ↔
      kind = other ∧ number = count := by
  constructor
  · intro same
    have letters := congrArg String.toList same
    simp only [instruction, String.toList_append, List.append_assoc,
      List.append_cancel_left_eq] at letters
    obtain ⟨kind_eq, number_eq⟩ := append_cons_inj_of_not_mem
      (slash_not_mem_toString number) (slash_not_mem_toString count) letters
    exact ⟨String.toList_inj.1 kind_eq, Nat.repr_injective (String.toList_inj.1 number_eq)⟩
  · rintro ⟨rfl, rfl⟩
    rfl

end Identifier

namespace Counters

@[simp]
theorem peek_empty (kind : String) : empty.peek kind = 0 := by
  simp [peek, empty]

variable (counters : Counters)

theorem peek_advance (kind other : String) :
    (counters.advance kind).peek other =
      if kind = other then counters.peek kind + 1 else counters.peek other := by
  unfold peek advance
  rw [Std.HashMap.getD_insert]
  simp [beq_iff_eq, peek]

theorem peek_advance_self (kind : String) :
    (counters.advance kind).peek kind = counters.peek kind + 1 := by
  rw [peek_advance, if_pos rfl]

theorem peek_le_peek_advance (kind other : String) :
    counters.peek other ≤ (counters.advance kind).peek other := by
  rw [peek_advance]
  split
  next same => exact same ▸ Nat.le_succ _
  next => exact Nat.le_refl _

end Counters

end DalvikFacts
