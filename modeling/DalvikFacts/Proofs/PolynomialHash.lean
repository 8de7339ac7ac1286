import DalvikFacts.Proofs.StringConstant
import Mathlib.Algebra.BigOperators.Fin
import Mathlib.Tactic.Ring

/-!
# The hash of a text as a polynomial

The hash of a text is the value at 31 of the polynomial that has the code units of the text as
coefficients, the last one constant, in 32 bits with a sign.  Wrapping around at every step or once
at the end is the same, so texts that are put together have hashes that are put together.
-/

namespace DalvikFacts.Text

/-! ## Code units -/

/-- The UTF-16 form of characters: a character up to U+FFFF is a unit of its own, and one beyond is
a high and a low surrogate, which carry ten bits each of what exceeds U+FFFF. -/
inductive Encodes : List Char → List Nat → Prop
  | nil : Encodes [] []
  | unit {c : Char} {rest : List Char} {behind : List Nat} (basic : c.toNat < 0x10000)
      (later : Encodes rest behind) : Encodes (c :: rest) (c.toNat :: behind)
  | pair {c : Char} {rest : List Char} {behind : List Nat} {high low : Nat}
      (high_lt : high < 0x400) (low_lt : low < 0x400)
      (c_eq : c.toNat = 0x10000 + high * 0x400 + low) (later : Encodes rest behind) :
      Encodes (c :: rest) ((0xD800 + high) :: (0xDC00 + low) :: behind)

theorem charUnits_of_lt {c : Char} (basic : c.toNat < 0x10000) : charUnits c = [c.toNat] :=
  if_pos basic

theorem charUnits_of_pair {c : Char} {high low : Nat} (low_lt : low < 0x400)
    (c_eq : c.toNat = 0x10000 + high * 0x400 + low) :
    charUnits c = [0xD800 + high, 0xDC00 + low] := by
  have exceeding : c.toNat - 0x10000 = high * 0x400 + low := by omega
  have high_eq : (high * 0x400 + low) / 0x400 = high := by omega
  have low_eq : (high * 0x400 + low) % 0x400 = low := by omega
  rw [charUnits, if_neg (by omega), exceeding, high_eq, low_eq]

/-- The code units are the UTF-16 form of the characters, which have no other one. -/
theorem encodes_iff {letters : List Char} {form : List Nat} :
    Encodes letters form ↔ form = letters.flatMap charUnits := by
  constructor
  · intro encodes
    induction encodes with
    | nil => rfl
    | unit basic _ induction => rw [List.flatMap_cons, charUnits_of_lt basic, induction]; rfl
    | pair _ low_lt c_eq _ induction =>
      rw [List.flatMap_cons, charUnits_of_pair low_lt c_eq, induction]
      rfl
  · rintro rfl
    induction letters with
    | nil => exact .nil
    | cons c rest induction =>
      rw [List.flatMap_cons]
      by_cases basic : c.toNat < 0x10000
      · rw [charUnits_of_lt basic]
        exact .unit basic induction
      · have in_range : c.toNat < 0x110000 :=
          c.valid.elim (fun below => Nat.lt_trans below (by decide)) And.right
        have c_eq : c.toNat =
            0x10000 + (c.toNat - 0x10000) / 0x400 * 0x400 + (c.toNat - 0x10000) % 0x400 := by omega
        rw [charUnits_of_pair (by omega) c_eq]
        exact .pair (by omega) (by omega) c_eq induction

theorem units_append (first second : String) :
    units (first ++ second) = units first ++ units second := by
  rw [units, String.toList_append, List.flatMap_append]
  rfl

/-! ## Polynomials -/

/-- The value at 31 of the polynomial with the given coefficients, the last of them constant. -/
def polynomialValue (coefficients : List Nat) : Nat :=
  ∑ position : Fin coefficients.length,
    coefficients[position] * 31 ^ (coefficients.length - (position + 1))

theorem polynomialValue_nil : polynomialValue [] = 0 :=
  rfl

theorem polynomialValue_cons (first : Nat) (rest : List Nat) :
    polynomialValue (first :: rest) = first * 31 ^ rest.length + polynomialValue rest := by
  unfold polynomialValue
  change ∑ position : Fin (rest.length + 1), _ = _
  rw [Fin.sum_univ_succ]
  simp

theorem bmod_foldl_eq (hash : Int) (coefficients : List Nat) :
    ((coefficients.map Int.ofNat).foldl
        (fun hash unit => (hash * 31 + unit).bmod 0x100000000) hash).bmod 0x100000000 =
      (hash * 31 ^ coefficients.length + polynomialValue coefficients).bmod 0x100000000 := by
  induction coefficients generalizing hash with
  | nil => simp [polynomialValue_nil]
  | cons first rest induction =>
    -- The rest starts from a hash that is wrapped already, which does not show once all is wrapped.
    rw [List.map_cons, List.foldl_cons, induction, ← Int.bmod_add_bmod, Int.bmod_mul_bmod,
      Int.bmod_add_bmod, polynomialValue_cons, List.length_cons, Int.ofNat_eq_natCast]
    congr 1
    push_cast
    ring

theorem bmod_polynomialHash (text : String) :
    (polynomialHash text).bmod 0x100000000 = polynomialHash text := by
  obtain ⟨low, high⟩ := signed32_polynomialHash text
  exact Int.bmod_eq_of_le low high

theorem polynomialHash_eq_bmod (text : String) :
    polynomialHash text = (polynomialValue (units text) : Int).bmod 0x100000000 := by
  rw [← bmod_polynomialHash, polynomialHash, bmod_foldl_eq, Int.zero_mul, Int.zero_add]

theorem polynomialHash_append (text other : String) :
    polynomialHash (text ++ other) =
      (polynomialHash text * 31 ^ (units other).length + polynomialHash other).bmod
        0x100000000 := by
  rw [← bmod_polynomialHash (text ++ other), polynomialHash_eq_bmod other, Int.add_bmod_bmod,
    ← bmod_foldl_eq, polynomialHash, units_append, List.map_append, List.foldl_append]
  rfl

/-- The hash of a text is a polynomial of the code units in its UTF-16 form, as a number of 32 bits
with a sign.  The hash of two texts put together is that of the first one, raised by the length of
the second, and that of the second one. -/
theorem polynomialHash_eq_sum (text other : String) :
    let form := units text
    (∀ coefficients, Encodes text.toList coefficients ↔ coefficients = form) ∧
    polynomialHash text = (BitVec.ofNat 32 (∑ position : Fin form.length,
      form[position] * 31 ^ (form.length - (position + 1)))).toInt ∧
    polynomialHash (text ++ other) = (BitVec.ofInt 32
      (polynomialHash text * 31 ^ (units other).length + polynomialHash other)).toInt := by
  intro form
  refine ⟨fun _ => encodes_iff, ?_, ?_⟩
  · rw [polynomialHash_eq_bmod, BitVec.toInt_ofNat']
    rfl
  · rw [polynomialHash_append, BitVec.toInt_ofInt]

/-- The polynomial leaves 32 bits long before the last code unit. -/
example : polynomialHash "polygenelubricants" = -0x80000000 := by
  decide +kernel

end DalvikFacts.Text
