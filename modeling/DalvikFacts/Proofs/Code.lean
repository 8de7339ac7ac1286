import DalvikFacts.Code
import Mathlib.Algebra.Group.Nat.Defs

/-!
# Places of instructions

Instructions are located one after the other: each has the index behind that of the one before it,
and the address behind its end, which may wrap around.
-/

namespace DalvikFacts

/-- Among results that tell the key of their item, those with the key of one item are its own. -/
theorem filter_filterMap_eq {α β κ : Type} {items : List α} {key : α → κ} {result : α → Option β}
    {selected : β → Bool} {item : α} (keys_nodup : (items.map key).Nodup) (member : item ∈ items)
    (tells : ∀ other ∈ items, ∀ value, result other = some value →
      (selected value = true ↔ key other = key item)) :
    (items.filterMap result).filter selected = (result item).toList := by
  have others_nil : ∀ rest : List α, (∀ other ∈ rest, other ∈ items ∧ key other ≠ key item) →
      (rest.filterMap result).filter selected = [] := by
    intro rest distinct
    rw [List.filter_eq_nil_iff]
    intro value value_mem
    obtain ⟨other, other_mem, value_eq⟩ := List.mem_filterMap.1 value_mem
    obtain ⟨inside, key_ne⟩ := distinct other other_mem
    exact fun chosen => key_ne ((tells other inside value value_eq).1 chosen)
  obtain ⟨front, back, rfl⟩ := List.append_of_mem member
  rw [List.map_append, List.map_cons, List.nodup_append, List.nodup_cons] at keys_nodup
  obtain ⟨-, ⟨not_back, -⟩, not_front⟩ := keys_nodup
  have front_nil := others_nil front fun other other_mem =>
    ⟨by simp [other_mem], not_front _ (List.mem_map_of_mem other_mem) _ List.mem_cons_self⟩
  have back_nil := others_nil back fun other other_mem =>
    ⟨by simp [other_mem], fun key_eq => not_back (key_eq ▸ List.mem_map_of_mem other_mem)⟩
  rw [List.filterMap_append, List.filter_append, front_nil, List.filterMap_cons, List.nil_append]
  cases value_eq : result item with
  | none => exact back_nil
  | some value =>
    rw [List.filter_cons_of_pos ((tells item (by simp) value value_eq).2 rfl), back_nil]
    rfl

/-- Among results that tell whether their item was chosen, the selected ones are those of the chosen
items. -/
theorem filter_flatMap_eq {α β : Type} {items : List α} {results : α → List β}
    {selected : β → Bool} {chosen : α → Bool}
    (tells : ∀ item ∈ items, ∀ value ∈ results item, selected value = chosen item) :
    (items.flatMap results).filter selected = (items.filter chosen).flatMap results := by
  induction items with
  | nil => rfl
  | cons item rest induction =>
    have here := tells item List.mem_cons_self
    have tail := induction fun other member => tells other (List.mem_cons_of_mem _ member)
    rw [List.flatMap_cons, List.filter_append, tail]
    cases chosen_eq : chosen item with
    | true =>
      have all_selected : (results item).filter selected = results item :=
        List.filter_eq_self.2 fun value member => (here value member).trans chosen_eq
      rw [List.filter_cons_of_pos chosen_eq, all_selected, List.flatMap_cons]
    | false =>
      have none_selected : (results item).filter selected = [] :=
        List.filter_eq_nil_iff.2 fun value member => by simp [here value member, chosen_eq]
      rw [List.filter_cons_of_neg (by simp [chosen_eq]), none_selected, List.nil_append]

/-- The items of a list, each with the item before it. -/
def withPrevious {α : Type} (previous : Option α) : List α → List (Option α × α)
  | [] => []
  | item :: rest => (previous, item) :: withPrevious (some item) rest

theorem map_snd_withPrevious {α : Type} (previous : Option α) (items : List α) :
    (withPrevious previous items).map Prod.snd = items := by
  induction items generalizing previous with
  | nil => rfl
  | cons item rest induction => rw [withPrevious, List.map_cons, induction]

/-- An item comes with the one right before it. -/
theorem mem_withPrevious_iff {α : Type} {previous : Option α} {items : List α} {first second : α} :
    (some first, second) ∈ withPrevious previous items ↔
      ∃ front back, previous.toList ++ items = front ++ first :: second :: back := by
  induction items generalizing previous with
  | nil =>
    refine iff_of_false List.not_mem_nil ?_
    rintro ⟨front, back, same⟩
    have lengths := congrArg List.length same
    cases previous <;> simp at lengths
    omega
  | cons item rest induction =>
    rw [withPrevious, List.mem_cons, induction]
    constructor
    · rintro (here | ⟨front, back, same⟩)
      · cases here
        exact ⟨[], rest, rfl⟩
      · exact ⟨previous.toList ++ front, back, by
          rw [List.append_assoc, ← same]
          rfl⟩
    · rintro ⟨front, back, same⟩
      cases previous with
      | none => exact .inr ⟨front, back, same⟩
      | some earlier =>
        cases front with
        | nil =>
          cases same
          exact .inl rfl
        | cons head front =>
          obtain ⟨-, rest_eq⟩ := List.cons.inj same
          exact .inr ⟨front, back, rest_eq⟩

theorem getLast?_mem_withPrevious {α : Type} (previous : Option α) (front back : List α)
    (item : α) :
    (front.getLast?.or previous, item) ∈ withPrevious previous (front ++ item :: back) := by
  induction front generalizing previous with
  | nil => exact List.mem_cons_self
  | cons head rest induction =>
    have last_eq : (head :: rest).getLast?.or previous = rest.getLast?.or (some head) := by
      rw [List.getLast?_cons]
      cases rest.getLast? <;> rfl
    rw [last_eq]
    exact List.mem_cons_of_mem _ (induction (some head))

namespace Address

theorem toNat_advance (base : Address) (units : Nat) :
    (base.advance units).toNat = (base.toNat + units) % 2 ^ 64 := by
  simp [advance]

theorem toNat_advance_of_lt {base : Address} {units : Nat} (fits : base.toNat + units < 2 ^ 64) :
    (base.advance units).toNat = base.toNat + units := by
  rw [toNat_advance, Nat.mod_eq_of_lt fits]

end Address

theorem totalSize_append (front back : List Instr) :
    totalSize (front ++ back) = totalSize front + totalSize back := by
  induction front with
  | nil => simp [totalSize]
  | cons instr rest induction => simp [totalSize, induction, Nat.add_assoc]

theorem totalSize_take_succ {instrs : List Instr} {count : Nat} (inside : count < instrs.length) :
    totalSize (instrs.take (count + 1)) = totalSize (instrs.take count) + instrs[count].size := by
  rw [List.take_add_one, List.getElem?_eq_getElem inside, totalSize_append]
  simp [totalSize]

theorem totalSize_take_mono (instrs : List Instr) {few many : Nat} (le : few ≤ many) :
    totalSize (instrs.take few) ≤ totalSize (instrs.take many) := by
  obtain ⟨more, rfl⟩ := Nat.exists_eq_add_of_le le
  rw [List.take_add, totalSize_append]
  exact Nat.le_add_right _ _

theorem getElem?_locateFrom (index : Nat) (address : Address) (instrs : List Instr) (count : Nat) :
    (locateFrom index address instrs)[count]? = instrs[count]?.map fun instr =>
      ⟨index + count, address.advance (totalSize (instrs.take count)), instr⟩ := by
  induction instrs generalizing index address count with
  | nil => rfl
  | cons instr rest induction =>
    cases count with
    | zero => simp [locateFrom, totalSize]
    | succ count =>
      rw [locateFrom, List.getElem?_cons_succ, induction, List.getElem?_cons_succ,
        List.take_succ_cons, totalSize, Address.advance_advance, Nat.add_assoc, Nat.add_comm 1]

theorem locateFrom_append (index : Nat) (address : Address) (front back : List Instr) :
    locateFrom index address (front ++ back) = locateFrom index address front ++
      locateFrom (index + front.length) (address.advance (totalSize front)) back := by
  induction front generalizing index address with
  | nil => simp [locateFrom, totalSize]
  | cons instr rest induction =>
    rw [List.cons_append, locateFrom, induction, locateFrom, List.cons_append, List.length_cons,
      totalSize, Address.advance_advance, Nat.add_assoc, Nat.add_comm 1]

@[simp]
theorem length_locateFrom (index : Nat) (address : Address) (instrs : List Instr) :
    (locateFrom index address instrs).length = instrs.length := by
  induction instrs generalizing index address with
  | nil => rfl
  | cons instr rest induction => simp [locateFrom, induction]

theorem le_of_mem_locateFrom {index : Nat} {address : Address} {instrs : List Instr}
    {here : LocatedInstr} (member : here ∈ locateFrom index address instrs) :
    index ≤ here.index := by
  induction instrs generalizing index address with
  | nil => cases member
  | cons instr rest induction =>
    rcases List.mem_cons.1 member with rfl | behind
    · exact Nat.le_refl _
    · exact Nat.le_of_succ_le (induction behind)

theorem pairwise_locateFrom (index : Nat) (address : Address) (instrs : List Instr) :
    (locateFrom index address instrs).Pairwise fun first second => first.index < second.index := by
  induction instrs generalizing index address with
  | nil => exact .nil
  | cons instr rest induction =>
    exact .cons (fun second member => le_of_mem_locateFrom member) (induction _ _)

/-- The part of a list of located instructions before one of them. -/
theorem eq_of_locateFrom_eq {instrs : List Instr} {start : Address} {here : LocatedInstr}
    {before after : List LocatedInstr}
    (located_eq : locateFrom 1 start instrs = before ++ here :: after) :
    ∃ front back, instrs = front ++ here.instr :: back ∧ before = locateFrom 1 start front ∧
      here = ⟨front.length + 1, start.advance (totalSize front), here.instr⟩ := by
  have length_eq := congrArg List.length located_eq
  rw [length_locateFrom, List.length_append, List.length_cons] at length_eq
  have inside : before.length < instrs.length := by omega
  have split_eq : instrs = instrs.take before.length ++
      instrs[before.length] :: instrs.drop (before.length + 1) := by simp
  rw [split_eq, locateFrom_append] at located_eq
  obtain ⟨before_eq, rest_eq⟩ := List.append_inj located_eq (by simp; omega)
  rw [locateFrom] at rest_eq
  obtain ⟨here_eq, -⟩ := List.cons.inj rest_eq
  have instr_eq : here.instr = instrs[before.length] := by rw [← here_eq]
  refine ⟨instrs.take before.length, instrs.drop (before.length + 1), ?_, before_eq.symm, ?_⟩
  · rw [instr_eq]
    exact split_eq
  · rw [instr_eq, ← here_eq, Nat.add_comm]

namespace CodeItem

/-- The address of the instruction at an index counted from one; the index past the last one is
that of the end. -/
def addressAt (code : CodeItem) (index : Nat) : Address :=
  code.startAddress.advance (totalSize (code.instructions.take (index - 1)))

/-- The addresses of a body do not wrap around. -/
def Fits (code : CodeItem) : Prop :=
  code.startAddress.toNat + totalSize code.instructions < 2 ^ 64

variable (code : CodeItem)

theorem getElem?_located (count : Nat) :
    code.located[count]? = code.instructions[count]?.map fun instr =>
      ⟨count + 1, code.addressAt (count + 1), instr⟩ := by
  rw [located, getElem?_locateFrom, Nat.add_comm 1]
  rfl

theorem located_marks :
    code.located.map (fun here => (here.address, here.index)) =
      (List.range' 1 code.instructions.length).map fun index => (code.addressAt index, index) := by
  refine List.ext_getElem? fun count => ?_
  rw [List.getElem?_map, getElem?_located, List.getElem?_map]
  by_cases inside : count < code.instructions.length
  · simp [inside, Nat.add_comm 1]
  · simp [inside]

theorem mem_located_iff {here : LocatedInstr} :
    here ∈ code.located ↔ ∃ count, code.instructions[count]? = some here.instr ∧
      here.index = count + 1 ∧ here.address = code.addressAt (count + 1) := by
  rw [List.mem_iff_getElem?]
  refine exists_congr fun count => ?_
  rw [getElem?_located, Option.map_eq_some_iff]
  constructor
  · rintro ⟨instr, instr_eq, rfl⟩
    exact ⟨instr_eq, rfl, rfl⟩
  · rintro ⟨instr_eq, index_eq, address_eq⟩
    rw [← address_eq, ← index_eq]
    exact ⟨here.instr, instr_eq, rfl⟩

theorem pairwise_located :
    code.located.Pairwise fun first second => first.index < second.index :=
  pairwise_locateFrom 1 code.startAddress code.instructions

/-- Of two instructions of a body, the one with the smaller index stands first. -/
theorem exists_between {first second : LocatedInstr} (first_mem : first ∈ code.located)
    (second_mem : second ∈ code.located) (behind : first.index < second.index) :
    ∃ early between late, code.located = early ++ first :: (between ++ second :: late) := by
  have sorted := code.pairwise_located
  obtain ⟨early, rest, located_eq⟩ := List.append_of_mem first_mem
  rw [located_eq] at second_mem sorted
  obtain ⟨-, -, early_before⟩ := List.pairwise_append.1 sorted
  rcases List.mem_append.1 second_mem with ahead | here
  · have order := early_before second ahead first List.mem_cons_self
    omega
  · rcases List.mem_cons.1 here with rfl | later
    · omega
    · obtain ⟨between, late, rfl⟩ := List.append_of_mem later
      exact ⟨early, between, late, located_eq⟩

/-- Between two instructions of a body stand those with indices between theirs. -/
theorem mem_between_iff {code : CodeItem} {first second next : LocatedInstr}
    {early between late : List LocatedInstr}
    (located_eq : code.located = early ++ first :: (between ++ second :: late))
    (next_mem : next ∈ code.located) :
    next ∈ between ↔ first.index < next.index ∧ next.index < second.index := by
  have sorted := code.pairwise_located
  rw [located_eq] at next_mem sorted
  obtain ⟨-, rest_sorted, early_before⟩ := List.pairwise_append.1 sorted
  obtain ⟨first_before, later_sorted⟩ := List.pairwise_cons.1 rest_sorted
  obtain ⟨-, second_sorted, between_before⟩ := List.pairwise_append.1 later_sorted
  obtain ⟨second_before, -⟩ := List.pairwise_cons.1 second_sorted
  constructor
  · intro member
    exact ⟨first_before next (by simp [member]),
      between_before next member second List.mem_cons_self⟩
  · rintro ⟨behind, ahead⟩
    simp only [List.mem_append, List.mem_cons] at next_mem
    rcases next_mem with member | rfl | member | rfl | member
    · have order := early_before next member first List.mem_cons_self
      omega
    · omega
    · exact member
    · omega
    · have order := second_before next member
      omega

theorem located_index_nodup :
    (code.located.map LocatedInstr.index).Nodup := by
  have indices_eq := congrArg (List.map Prod.snd) code.located_marks
  simp only [List.map_map, Function.comp_def, List.map_id'] at indices_eq
  rw [indices_eq]
  exact List.nodup_range'

theorem addressAt_end :
    code.addressAt (code.instructions.length + 1) = code.endAddress := by
  simp [addressAt, endAddress]

theorem totalSize_take_le (count : Nat) :
    totalSize (code.instructions.take count) ≤ totalSize code.instructions := by
  have le := totalSize_take_mono code.instructions (Nat.le_max_left count code.instructions.length)
  rwa [List.take_of_length_le (Nat.le_max_right _ _)] at le

theorem addressAt_succ {index : Nat} (positive : 1 ≤ index)
    (inside : index - 1 < code.instructions.length) :
    code.addressAt (index + 1) =
      (code.addressAt index).advance code.instructions[index - 1].size := by
  obtain ⟨count, rfl⟩ : ∃ count, index = count + 1 := ⟨index - 1, by omega⟩
  simp only [addressAt, Nat.add_sub_cancel] at inside ⊢
  rw [totalSize_take_succ inside, Address.advance_advance]

variable {code}

theorem Fits.toNat_addressAt (fits : code.Fits) (index : Nat) :
    (code.addressAt index).toNat =
      code.startAddress.toNat + totalSize (code.instructions.take (index - 1)) := by
  have le := code.totalSize_take_le (index - 1)
  exact Address.toNat_advance_of_lt (by unfold Fits at fits; omega)

theorem Fits.addressAt_mono (fits : code.Fits) {early late : Nat} (le : early ≤ late) :
    code.addressAt early ≤ code.addressAt late := by
  rw [UInt64.le_iff_toNat_le, fits.toNat_addressAt, fits.toNat_addressAt]
  exact Nat.add_le_add_left (totalSize_take_mono _ (by omega)) _

/-- A body of fewer code units than there are words has one address for each distance from its
start, wrapped around or not. -/
theorem addressAt_eq_iff (narrow : totalSize code.instructions < 2 ^ 64) {first second : Nat} :
    code.addressAt first = code.addressAt second ↔
      totalSize (code.instructions.take (first - 1)) =
        totalSize (code.instructions.take (second - 1)) := by
  have first_le := code.totalSize_take_le (first - 1)
  have second_le := code.totalSize_take_le (second - 1)
  constructor
  · intro same
    have nat_eq := congrArg UInt64.toNat same
    rw [addressAt, addressAt, Address.toNat_advance, Address.toNat_advance] at nat_eq
    omega
  · intro same
    rw [addressAt, same, addressAt]

/-- The instruction behind one that takes room is elsewhere. -/
theorem addressAt_ne (narrow : totalSize code.instructions < 2 ^ 64) {count later : Nat}
    {instr : Instr} (instr_eq : code.instructions[count]? = some instr) (room : instr.size ≠ 0)
    (behind : count < later) : code.addressAt (count + 1) ≠ code.addressAt (later + 1) := by
  intro same
  obtain ⟨inside, rfl⟩ := List.getElem?_eq_some_iff.1 instr_eq
  have sizes_eq := (addressAt_eq_iff narrow).1 same
  have next_le := totalSize_take_mono code.instructions (show count + 1 ≤ later from behind)
  rw [totalSize_take_succ inside] at next_le
  simp only [Nat.add_sub_cancel] at sizes_eq
  omega

variable (code)

theorem located_of_append {front back : List Instr} {instr : Instr}
    (instrs_eq : code.instructions = front ++ instr :: back) :
    ∃ later, code.located = locateFrom 1 code.startAddress front ++
      ⟨front.length + 1, code.startAddress.advance (totalSize front), instr⟩ :: later := by
  refine ⟨locateFrom (front.length + 2)
    ((code.startAddress.advance (totalSize front)).advance instr.size) back, ?_⟩
  rw [located, instrs_eq, locateFrom_append, locateFrom, Nat.add_comm 1]

end CodeItem

end DalvikFacts
