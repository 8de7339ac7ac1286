import DalvikFacts.Signature

/-!
# Objects in a memo

What a memo keeps stays, and a key that is added behind the others gets the next place.  So objects
of different keys have different places.
-/

namespace DalvikFacts

namespace Memo

variable {κ α : Type} [BEq κ] [Hashable κ]

/-- Different keys have different places, which lie below the number of keys. -/
structure Numbered (memo : Memo κ α) : Prop where
  below : ∀ {key shared}, memo.find? key = some shared → shared.slot < memo.size
  injective : ∀ {key other shared twin}, memo.find? key = some shared →
    memo.find? other = some twin → shared.slot = twin.slot → key = other

/-- All values kept are good for their keys. -/
def Keeps (good : κ → α → Prop) (memo : Memo κ α) : Prop :=
  ∀ key shared, memo.find? key = some shared → good key shared.value

variable {memo : Memo κ α} {good : κ → α → Prop} {key other : κ} {value : α} {shared : Shared α}

theorem findOrAdd_of_found (found : memo.find? key = some shared) :
    memo.findOrAdd key value = (shared, memo) := by
  rw [findOrAdd, found]

theorem findOrAdd_of_absent (absent : memo.find? key = none) :
    memo.findOrAdd key value =
      (⟨memo.size, value⟩, ⟨memo.entries.insert key ⟨memo.size, value⟩⟩) := by
  rw [findOrAdd, absent]

theorem find?_empty : (empty : Memo κ α).find? key = none :=
  Std.HashMap.getElem?_empty

theorem numbered_empty : (empty : Memo κ α).Numbered where
  below found := by rw [find?_empty] at found; cases found
  injective found := by rw [find?_empty] at found; cases found

theorem keeps_empty : (empty : Memo κ α).Keeps good := by
  intro key shared found
  rw [find?_empty] at found
  cases found

variable [LawfulBEq κ]

theorem mem_entries_iff : key ∈ memo.entries ↔ ∃ shared, memo.find? key = some shared := by
  rw [Std.HashMap.mem_iff_isSome_getElem?, Option.isSome_iff_exists]
  rfl

/-- What is kept besides what was kept before. -/
theorem find?_findOrAdd_eq_some_iff :
    (memo.findOrAdd key value).2.find? other = some shared ↔
      memo.find? other = some shared ∨ key = other ∧ (memo.findOrAdd key value).1 = shared := by
  cases found_eq : memo.find? key with
  | some found =>
    rw [findOrAdd_of_found found_eq]
    refine ⟨.inl, ?_⟩
    rintro (kept | ⟨rfl, rfl⟩)
    · exact kept
    · exact found_eq
  | none =>
    rw [findOrAdd_of_absent found_eq, find?, Std.HashMap.getElem?_insert]
    by_cases same : key = other
    · subst same
      simp [found_eq]
    · simp [same, find?]

theorem size_findOrAdd_of_absent (absent : memo.find? key = none) :
    (memo.findOrAdd key value).2.size = memo.size + 1 := by
  rw [findOrAdd_of_absent absent, size, Std.HashMap.size_insert, if_neg]
  · rfl
  · rw [mem_entries_iff, absent]
    rintro ⟨shared, found⟩
    cases found

/-- A value that is good for its key may be added. -/
theorem Keeps.findOrAdd (keeps : memo.Keeps good) (holds : good key value) :
    good key (memo.findOrAdd key value).1.value ∧ (memo.findOrAdd key value).2.Keeps good := by
  have got : good key (memo.findOrAdd key value).1.value := by
    cases found_eq : memo.find? key with
    | some found =>
      rw [findOrAdd_of_found found_eq]
      exact keeps key found found_eq
    | none =>
      rw [findOrAdd_of_absent found_eq]
      exact holds
  refine ⟨got, fun other shared found => ?_⟩
  rcases find?_findOrAdd_eq_some_iff.1 found with old | ⟨rfl, rfl⟩
  · exact keeps other shared old
  · exact got

/-- A new key gets a place that no other one has. -/
theorem Numbered.findOrAdd (numbered : memo.Numbered) :
    (memo.findOrAdd key value).2.Numbered := by
  cases found_eq : memo.find? key with
  | some found => rwa [findOrAdd_of_found found_eq]
  | none =>
    have added : memo.findOrAdd key value = _ := findOrAdd_of_absent found_eq
    constructor
    case below =>
      intro other shared kept
      rw [size_findOrAdd_of_absent found_eq]
      rcases find?_findOrAdd_eq_some_iff.1 kept with old | ⟨rfl, rfl⟩
      · exact Nat.lt_succ_of_lt (numbered.below old)
      · rw [added]
        exact Nat.lt_succ_self _
    case injective =>
      intro first second shared twin first_kept second_kept slot_eq
      rcases find?_findOrAdd_eq_some_iff.1 first_kept with old | ⟨rfl, rfl⟩ <;>
        rcases find?_findOrAdd_eq_some_iff.1 second_kept with older | ⟨rfl, rfl⟩
      · exact numbered.injective old older slot_eq
      · rw [added] at slot_eq
        exact absurd slot_eq (Nat.ne_of_lt (numbered.below old))
      · rw [added] at slot_eq
        exact absurd slot_eq.symm (Nat.ne_of_lt (numbered.below older))
      · rfl

end Memo

end DalvikFacts
