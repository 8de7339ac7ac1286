import DalvikFacts.Proofs.Code
import DalvikFacts.Proofs.Pending

/-!
# Payloads behind instructions

Some instructions wait for a payload, by its address, and are served when it is reached.  So an
instruction gets what stands at that address behind itself, and nothing when the payload stands
before it.  This holds in the same way for every table of pending references.
-/

namespace DalvikFacts

open Pending

variable {ι α : Type}

namespace CodeItem

/-- What can be read from the instruction at an address, if it stands behind an index. -/
def readBehind? (code : CodeItem) (read : Instr → Option ι) (index : Nat) (address : Address) :
    Option ι :=
  code.located.findSome? fun later =>
    if index < later.index ∧ later.address = address then read later.instr else none

/-- An instruction is the one that is read at its address behind an index.  In a body so long that
its addresses come round to the same one again, that is the first of them. -/
structure Reads (code : CodeItem) (read : Instr → Option ι) (index : Nat) (later : LocatedInstr) :
    Prop where
  located : later ∈ code.located
  behind : index < later.index
  first : ∀ earlier ∈ code.located, index < earlier.index → earlier.index < later.index →
    earlier.address = later.address → read earlier.instr = none

theorem readBehind?_eq_some_iff {code : CodeItem} {read : Instr → Option ι} {index : Nat}
    {address : Address} {value : ι} :
    code.readBehind? read index address = some value ↔
      ∃ later, code.Reads read index later ∧ later.address = address ∧
        read later.instr = some value := by
  have sorted := code.pairwise_located
  unfold readBehind?
  rw [List.findSome?_eq_some_iff]
  constructor
  · rintro ⟨before, later, after, located_eq, read_eq, before_none⟩
    split at read_eq
    next here =>
      have later_mem : later ∈ code.located := by simp [located_eq]
      refine ⟨later, ⟨later_mem, here.1, fun earlier member behind ahead address_eq => ?_⟩,
        here.2, read_eq⟩
      rw [located_eq] at member sorted
      obtain ⟨-, later_sorted, -⟩ := List.pairwise_append.1 sorted
      rcases List.mem_append.1 member with inside | rest
      · have nothing := before_none earlier inside
        rwa [if_pos ⟨behind, address_eq.trans here.2⟩] at nothing
      · rcases List.mem_cons.1 rest with rfl | later_on
        · omega
        · have order := (List.pairwise_cons.1 later_sorted).1 earlier later_on
          omega
    next => cases read_eq
  · rintro ⟨later, reads, address_eq, read_eq⟩
    obtain ⟨before, after, located_eq⟩ := List.append_of_mem reads.located
    refine ⟨before, later, after, located_eq, ?_, fun earlier member => ?_⟩
    · rw [if_pos ⟨reads.behind, address_eq⟩, read_eq]
    · rw [located_eq] at sorted
      obtain ⟨-, -, ahead⟩ := List.pairwise_append.1 sorted
      split
      next here =>
        exact reads.first earlier (by simp [located_eq, member]) here.1
          (ahead earlier member later List.mem_cons_self) (here.2.trans address_eq.symm)
      next => rfl

/-- Where only instructions that take room are read, there is just one to read at an address. -/
theorem reads_of_narrow {code : CodeItem} (narrow : totalSize code.instructions < 2 ^ 64)
    {read : Instr → Option ι} (sized : ∀ instr value, read instr = some value → instr.size ≠ 0)
    {index : Nat} {later : LocatedInstr} (member : later ∈ code.located)
    (behind : index < later.index) : code.Reads read index later := by
  refine ⟨member, behind, fun earlier earlier_mem _ ahead address_eq => ?_⟩
  obtain ⟨count, instr_eq, index_eq, earlier_address⟩ := code.mem_located_iff.1 earlier_mem
  obtain ⟨last, -, last_eq, later_address⟩ := code.mem_located_iff.1 member
  rw [Option.eq_none_iff_forall_ne_some]
  intro value read_eq
  have elsewhere := addressAt_ne narrow instr_eq (sized _ _ read_eq) (show count < last by omega)
  exact elsewhere (earlier_address.symm.trans (address_eq.trans later_address))

end CodeItem

/-- How instructions wait for payloads, and payloads are handed out to them: what each instruction
does to the table of pending references, and what a payload hands out. -/
structure Delivery (ι α : Type) where
  operation? : LocatedInstr → Option (Operation ι α)
  read : Instr → Option ι
  /-- The index of the instruction that an entry belongs to. -/
  index : α → Nat
  takes : ∀ here address, (operation? here).bind (·.takerOf? address) =
    if here.address = address then read here.instr else none
  index_eq : ∀ here entry, (operation? here).bind (·.registered?) = some entry →
    index entry = here.index

namespace Delivery

variable (delivery : Delivery ι α)

/-- What instructions do to the table. -/
def operations (instrs : List LocatedInstr) : List (Operation ι α) :=
  instrs.filterMap delivery.operation?

theorem operations_cons (here : LocatedInstr) (rest : List LocatedInstr) :
    delivery.operations (here :: rest) =
      (delivery.operation? here).toList ++ delivery.operations rest := by
  unfold operations
  rw [List.filterMap_cons]
  cases delivery.operation? here <;> rfl

/-- The entry of an instruction, with what stands behind it at the address that it waits for. -/
def fate? (code : CodeItem) (here : LocatedInstr) : Option (Option ι × α) :=
  match delivery.operation? here with
  | some (.register address entry) =>
    some (code.readBehind? delivery.read here.index address, entry)
  | _ => none

variable (code : CodeItem)

/-- The first later taker of an address is what stands there behind the instruction. -/
theorem firstTaker?_eq {code : CodeItem} {before after : List LocatedInstr} {here : LocatedInstr}
    (located_eq : code.located = before ++ here :: after) (address : Address) :
    firstTaker? address (delivery.operations after) =
      code.readBehind? delivery.read here.index address := by
  have sorted := code.pairwise_located
  rw [located_eq, List.pairwise_append, List.pairwise_cons] at sorted
  obtain ⟨-, ⟨behind, -⟩, ahead⟩ := sorted
  let reads (later : LocatedInstr) : Option ι :=
    if here.index < later.index ∧ later.address = address then delivery.read later.instr else none
  have before_none : before.findSome? reads = none := by
    rw [List.findSome?_eq_none_iff]
    intro earlier member
    have order := ahead earlier member here List.mem_cons_self
    exact if_neg fun both => Nat.lt_asymm order both.1
  have here_none : reads here = none := if_neg fun both => Nat.lt_irrefl _ both.1
  have taken : ∀ rest : List LocatedInstr, (∀ later ∈ rest, here.index < later.index) →
      firstTaker? address (delivery.operations rest) = rest.findSome? reads := by
    intro rest rest_behind
    induction rest with
    | nil => rfl
    | cons later rest induction =>
      have later_behind := rest_behind later List.mem_cons_self
      have reads_eq : reads later =
          (delivery.operation? later).bind (·.takerOf? address) := by
        rw [delivery.takes]
        simp [reads, later_behind]
      have tail := induction fun next member => rest_behind next (List.mem_cons_of_mem _ member)
      rw [List.findSome?_cons, reads_eq, ← tail]
      unfold operations
      rw [List.filterMap_cons]
      cases delivery.operation? later <;> rfl
  have whole : code.readBehind? delivery.read here.index address = after.findSome? reads := by
    change code.located.findSome? reads = _
    rw [located_eq, List.findSome?_append, before_none, Option.none_or, List.findSome?_cons,
      here_none]
  rw [whole]
  exact taken after behind

theorem fates_operations (before : List LocatedInstr) {after : List LocatedInstr}
    (located_eq : code.located = before ++ after) :
    fates (delivery.operations after) = after.filterMap (delivery.fate? code) := by
  induction after generalizing before with
  | nil => rfl
  | cons here rest induction =>
    have tail := induction (before ++ [here]) (by simp [located_eq])
    have first := delivery.firstTaker?_eq located_eq
    unfold operations at tail first ⊢
    rw [List.filterMap_cons, List.filterMap_cons, ← tail, fate?]
    cases operation_eq : delivery.operation? here with
    | none => rfl
    | some operation =>
      cases operation with
      | register address entry => simp only [fates, first]
      | take address taker => rfl

theorem fates_located : fates (delivery.operations code.located) =
    code.located.filterMap (delivery.fate? code) :=
  delivery.fates_operations code [] rfl

theorem index_of_fate?_eq {code : CodeItem} {here : LocatedInstr} {fate : Option ι × α}
    (fate_eq : delivery.fate? code here = some fate) : delivery.index fate.2 = here.index := by
  unfold fate? at fate_eq
  split at fate_eq
  next address entry operation_eq =>
    cases fate_eq
    exact delivery.index_eq here entry (by rw [operation_eq]; rfl)
  next => cases fate_eq

theorem filter_handOut {here : LocatedInstr} (member : here ∈ code.located) :
    (handOut [] (delivery.operations code.located)).filter
        (fun given => delivery.index given.2 == here.index) =
      ((delivery.fate? code here).bind fun fate => fate.1.map (·, fate.2)).toList := by
  have perm := (handOut_perm [] (delivery.operations code.located)).filter
    fun given => delivery.index given.2 == here.index
  rw [fatesOf, List.map_nil, List.nil_append, delivery.fates_located code,
    List.filterMap_filterMap, filter_filterMap_eq code.located_index_nodup member] at perm
  · generalize ((delivery.fate? code here).bind fun fate => fate.1.map (·, fate.2)) = own at perm ⊢
    cases own with
    | none => exact perm.eq_nil
    | some given => exact List.perm_singleton.1 perm
  · intro other _ given given_eq
    obtain ⟨fate, fate_eq, taken_eq⟩ := Option.bind_eq_some_iff.1 given_eq
    obtain ⟨taker, -, rfl⟩ := Option.map_eq_some_iff.1 taken_eq
    rw [beq_iff_eq, delivery.index_of_fate?_eq fate_eq]

/-- What is handed out goes to an instruction behind which it stands. -/
theorem exists_of_mem_handOut {given : ι × α}
    (member : given ∈ handOut [] (delivery.operations code.located)) :
    ∃ here ∈ code.located, delivery.fate? code here = some (some given.1, given.2) := by
  have perm := handOut_perm [] (delivery.operations code.located)
  rw [fatesOf, List.map_nil, List.nil_append, delivery.fates_located code,
    List.filterMap_filterMap] at perm
  obtain ⟨here, here_mem, fate_eq⟩ := List.mem_filterMap.1 (perm.mem_iff.1 member)
  obtain ⟨fate, own, taken_eq⟩ := Option.bind_eq_some_iff.1 fate_eq
  obtain ⟨taker, taker_eq, rfl⟩ := Option.map_eq_some_iff.1 taken_eq
  exact ⟨here, here_mem, own.trans (congrArg some (Prod.ext taker_eq rfl))⟩

/-- The entries that wait at the end are those of the instructions with nothing to read behind them
at the address that they wait for. -/
theorem length_remaining :
    (remaining [] (delivery.operations code.located)).length =
      code.located.countP fun here => (delivery.fate? code here).any (·.1.isNone) := by
  have lengths := (remaining_perm [] (delivery.operations code.located)).length_eq
  rw [List.length_map, List.length_map, fatesOf, List.map_nil, List.nil_append,
    ← List.countP_eq_length_filter, delivery.fates_located code,
    List.countP_filterMap] at lengths
  rw [lengths]
  refine List.countP_congr fun here _ => ?_
  cases delivery.fate? code here <;> simp

end Delivery

end DalvikFacts
