import DalvikFacts.Method.Handler
import DalvikFacts.Proofs.Code

/-!
# Moved bodies

A body may start at another address than the entry: a prologue end marker moves it.  When its line
numbers, try blocks and handlers move with it, every instruction has the line that it had, and every
handler the place behind the start that it had, as long as no address wraps around on the way.
-/

namespace DalvikFacts

/-- A line number moved by a distance.  Other items tell no lines, and stay where they are. -/
def DebugItem.relocate (distance : Address) : DebugItem → DebugItem
  | lineNumber address line => lineNumber (address + distance) line
  | item => item

/-- A handler moved by a distance. -/
def CatchHandler.relocate (distance : Address) (handler : CatchHandler) : CatchHandler :=
  { handler with address := handler.address + distance }

/-- A try block moved by a distance, with its handlers. -/
def TryBlock.relocate (distance : Address) (block : TryBlock) : TryBlock :=
  { block with
    start := block.start + distance
    handlers := block.handlers.map (·.relocate distance) }

/-- An instruction moved by a distance. -/
def LocatedInstr.relocate (distance : Address) (here : LocatedInstr) : LocatedInstr :=
  { here with address := here.address + distance }

/-- A body moved by a distance: a marker among its debug items, behind some number of them, tells
where it starts. -/
def CodeItem.relocate (distance : Address) (place : Nat) (code : CodeItem) : CodeItem where
  registers := code.registers
  instructions := code.instructions
  tries := code.tries.map (·.relocate distance)
  debugItems := (code.debugItems.take place).map (·.relocate distance) ++
    .prologueEnd distance :: (code.debugItems.drop place).map (·.relocate distance)

/-- Whether a body starts at the entry for want of a marker that moves it. -/
def CodeItem.Unmoved (code : CodeItem) : Prop :=
  ∀ item ∈ code.debugItems, item.movedEntry? = none

/-! ## Addresses -/

/-- An address moves by a distance without wrapping around. -/
def Address.Clear (address distance : Address) : Prop :=
  address.toNat + distance.toNat < 2 ^ 64

namespace Address

variable {distance address : Address}

theorem Clear.toNat_add (clear : address.Clear distance) :
    (address + distance).toNat = address.toNat + distance.toNat := by
  rw [UInt64.toNat_add, Nat.mod_eq_of_lt clear]

theorem Clear.le_add (clear : address.Clear distance) : distance ≤ address + distance := by
  rw [UInt64.le_iff_toNat_le, clear.toNat_add]
  exact Nat.le_add_left _ _

theorem Clear.add_le_add_iff {other : Address} (clear : address.Clear distance)
    (other_clear : other.Clear distance) :
    address + distance ≤ other + distance ↔ address ≤ other := by
  rw [UInt64.le_iff_toNat_le, UInt64.le_iff_toNat_le, clear.toNat_add, other_clear.toNat_add]
  exact Nat.add_le_add_iff_right

theorem Clear.add_lt_add_iff {other : Address} (clear : address.Clear distance)
    (other_clear : other.Clear distance) :
    address + distance < other + distance ↔ address < other := by
  rw [← UInt64.not_le, ← UInt64.not_le, other_clear.add_le_add_iff clear]

theorem add_lt_of_not_clear (wraps : ¬ address.Clear distance) : address + distance < distance := by
  have address_lt := address.toNat_lt
  have distance_lt := distance.toNat_lt
  unfold Clear at wraps
  rw [UInt64.lt_iff_toNat_lt, UInt64.toNat_add]
  omega

theorem add_right_comm (base first second : Address) :
    base + first + second = base + second + first := by
  rw [UInt64.add_assoc, UInt64.add_comm first, UInt64.add_assoc]

/-- What an offset leads to before and after a move: to the same place, or from before the entry to
before the moved start. -/
inductive Moves (distance : Address) : Option Address → Option Address → Prop
  | along (target : Address) : Moves distance (some target) (some (target + distance))
  | missing : Moves distance none none
  | before {target : Address} (before : target < distance) : Moves distance none (some target)

theorem moves_offset? (clear : address.Clear distance) (offset : Int) :
    Moves distance (offset? address offset) (offset? (address + distance) offset) := by
  have moved_nat := clear.toNat_add
  by_cases backward : offset < 0
  · rw [offset?, offset?, if_pos backward, if_pos backward, moved_nat]
    by_cases inside : offset.natAbs ≤ address.toNat
    · have same : address + distance - UInt64.ofNat offset.natAbs =
          address - UInt64.ofNat offset.natAbs + distance := by
        rw [UInt64.sub_eq_add_neg, UInt64.sub_eq_add_neg, add_right_comm]
      rw [if_pos inside, if_pos (Nat.le_add_right_of_le inside), same]
      exact .along _
    · rw [if_neg inside]
      by_cases reached : offset.natAbs ≤ address.toNat + distance.toNat
      · rw [if_pos reached]
        have small : offset.natAbs < 2 ^ 64 := Nat.lt_of_le_of_lt reached clear
        have units_eq : (UInt64.ofNat offset.natAbs).toNat = offset.natAbs :=
          UInt64.toNat_ofNat_of_lt small
        have units_le : UInt64.ofNat offset.natAbs ≤ address + distance := by
          rwa [UInt64.le_iff_toNat_le, units_eq, moved_nat]
        refine .before ?_
        rw [UInt64.lt_iff_toNat_lt, UInt64.toNat_sub_of_le _ _ units_le, units_eq, moved_nat]
        omega
      · rw [if_neg reached]
        exact .missing
  · rw [offset?, offset?, if_neg backward, if_neg backward, advance, advance, add_right_comm]
    exact .along _

end Address

theorem locateFrom_add (index : Nat) (address distance : Address) (instrs : List Instr) :
    locateFrom index (address + distance) instrs =
      (locateFrom index address instrs).map (·.relocate distance) := by
  induction instrs generalizing index address with
  | nil => rfl
  | cons instr rest induction =>
    rw [locateFrom, locateFrom, List.map_cons, ← induction, Address.advance,
      Address.add_right_comm]
    rfl

/-! ## Starts of bodies -/

theorem DebugItem.movedEntry?_relocate (distance : Address) (item : DebugItem) :
    DebugItem.movedEntry? (item.relocate distance) = item.movedEntry? := by
  cases item <;> rfl

theorem DebugItem.movedEntry?_prologueEnd {address : Address} (positive : 0 < address) :
    DebugItem.movedEntry? (prologueEnd address) = some address :=
  if_neg (UInt64.ne_of_lt positive).symm

namespace CodeItem

variable {code : CodeItem} (unmoved : code.Unmoved) {distance : Address}

include unmoved

theorem Unmoved.startAddress_eq : code.startAddress = Address.entry := by
  rw [startAddress, List.filterMap_eq_nil_iff.2 unmoved]
  rfl

theorem Unmoved.filterMap_relocate {items : List DebugItem} (inside : items ⊆ code.debugItems) :
    (items.map (·.relocate distance)).filterMap DebugItem.movedEntry? = [] := by
  rw [List.filterMap_eq_nil_iff]
  intro item member
  obtain ⟨before, before_mem, rfl⟩ := List.mem_map.1 member
  rw [DebugItem.movedEntry?_relocate, unmoved before (inside before_mem)]

theorem Unmoved.startAddress_relocate (positive : 0 < distance) (place : Nat) :
    (code.relocate distance place).startAddress = code.startAddress + distance := by
  have moved_eq : (code.relocate distance place).debugItems.filterMap DebugItem.movedEntry? =
      [distance] := by
    rw [relocate, List.filterMap_append, List.filterMap_cons,
      DebugItem.movedEntry?_prologueEnd positive,
      unmoved.filterMap_relocate (List.take_subset _ _),
      unmoved.filterMap_relocate (List.drop_subset _ _)]
    rfl
  rw [unmoved.startAddress_eq, startAddress, moved_eq]
  exact (UInt64.zero_add distance).symm

theorem Unmoved.located_relocate (positive : 0 < distance) (place : Nat) :
    (code.relocate distance place).located = code.located.map (·.relocate distance) := by
  rw [located, unmoved.startAddress_relocate positive, locateFrom_add]
  rfl

theorem Unmoved.endAddress_relocate (positive : 0 < distance) (place : Nat) :
    (code.relocate distance place).endAddress = code.endAddress + distance := by
  rw [endAddress, unmoved.startAddress_relocate positive, Address.advance, Address.add_right_comm]
  rfl

end CodeItem

/-! ## Lines -/

/-- The address of a line number moves without wrapping around. -/
def DebugItem.Clear (item : DebugItem) (distance : Address) : Prop :=
  match item with
  | lineNumber address _ => address.Clear distance
  | _ => True

section Lines

variable {distance address : Address} (clear : address.Clear distance)

include clear

/-- The better of two items moves along. -/
theorem closer_relocate {best : Option (Address × Nat)}
    (best_clear : ∀ found, best = some found → found.1.Clear distance) {item : DebugItem}
    (item_clear : item.Clear distance) :
    lineAt?.closer (address + distance)
        (best.map fun found => (found.1 + distance, found.2)) (item.relocate distance) =
      (lineAt?.closer address best item).map fun found => (found.1 + distance, found.2) := by
  cases item with
  | lineNumber position line =>
    have position_clear : position.Clear distance := item_clear
    have nearer_iff : position + distance ≤ address + distance ∧
          (best.map fun found => (found.1 + distance, found.2)).all (·.1 ≤ position + distance) ↔
        position ≤ address ∧ best.all (·.1 ≤ position) := by
      rw [position_clear.add_le_add_iff clear]
      cases best with
      | none => rfl
      | some found => simp [(best_clear found rfl).add_le_add_iff position_clear]
    unfold DebugItem.relocate lineAt?.closer
    simp only [nearer_iff]
    split <;> rfl
  | _ => rfl

omit clear in
theorem clear_of_closer {best : Option (Address × Nat)}
    (best_clear : ∀ found, best = some found → found.1.Clear distance) {item : DebugItem}
    (item_clear : item.Clear distance) :
    ∀ found, lineAt?.closer address best item = some found → found.1.Clear distance := by
  intro found found_eq
  unfold lineAt?.closer at found_eq
  split at found_eq
  · split at found_eq
    · cases found_eq
      exact item_clear
    · exact best_clear found found_eq
  · exact best_clear found found_eq

theorem foldl_closer_relocate {items : List DebugItem} {best : Option (Address × Nat)}
    (items_clear : ∀ item ∈ items, item.Clear distance)
    (best_clear : ∀ found, best = some found → found.1.Clear distance) :
    (items.map (·.relocate distance)).foldl (lineAt?.closer (address + distance))
        (best.map fun found => (found.1 + distance, found.2)) =
      (items.foldl (lineAt?.closer address) best).map
        fun found => (found.1 + distance, found.2) := by
  induction items generalizing best with
  | nil => rfl
  | cons item rest induction =>
    have item_clear := items_clear item List.mem_cons_self
    rw [List.map_cons, List.foldl_cons, closer_relocate clear best_clear item_clear,
      induction (fun other member => items_clear other (List.mem_cons_of_mem _ member))
        (clear_of_closer best_clear item_clear), List.foldl_cons]

theorem lineAt?_relocate {code : CodeItem}
    (items_clear : ∀ item ∈ code.debugItems, item.Clear distance) (place : Nat) :
    lineAt? (code.relocate distance place).debugItems (address + distance) =
      lineAt? code.debugItems address := by
  have none_clear : ∀ found : Address × Nat, none = some found → found.1.Clear distance := nofun
  have whole := foldl_closer_relocate clear items_clear none_clear
  -- the marker is no line number, so the search passes over it
  have passed : (code.relocate distance place).debugItems.foldl
      (lineAt?.closer (address + distance)) none =
        (code.debugItems.map (·.relocate distance)).foldl
          (lineAt?.closer (address + distance)) none := by
    rw [CodeItem.relocate, List.foldl_append, List.foldl_cons]
    change List.foldl _ (List.foldl _ _ _) _ = _
    rw [← List.foldl_append, ← List.map_append, List.take_append_drop]
  rw [lineAt?, passed]
  refine (congrArg (Option.map Prod.snd) whole).trans ?_
  rw [Option.map_map]
  rfl

end Lines

/-! ## Handlers -/

theorem TryBlock.sortedHandlers_relocate {distance : Address} {block : TryBlock}
    (clear : ∀ handler ∈ block.handlers, handler.address.Clear distance) :
    (block.relocate distance).sortedHandlers =
      block.sortedHandlers.map (·.relocate distance) := by
  rw [sortedHandlers]
  refine (List.map_mergeSort fun first first_mem second second_mem => ?_).symm
  exact decide_eq_decide.2 ((clear first first_mem).add_le_add_iff (clear second second_mem)).symm

theorem TryBlock.stop_relocate (distance : Address) (block : TryBlock) :
    (block.relocate distance).stop = block.stop + distance :=
  Address.add_right_comm _ _ _

/-! ## Moved bodies -/

/-- No address of a body that starts at the entry wraps around when it is moved by a distance: those
of its instructions, its line numbers and its handlers. -/
structure CodeItem.Clears (distance : Address) (code : CodeItem) : Prop where
  body : totalSize code.instructions + distance.toNat < 2 ^ 64
  lines : ∀ item ∈ code.debugItems, item.Clear distance
  handlers : ∀ block ∈ code.tries, ∀ handler ∈ block.handlers, handler.address.Clear distance

/-- What a body shares with the same body moved by a distance. -/
structure CodeItem.MovesTo (distance : Address) (code moved : CodeItem) : Prop where
  registers_eq : moved.registers = code.registers
  instructions_eq : moved.instructions = code.instructions
  tries_eq : moved.tries = code.tries.map (·.relocate distance)
  located_eq : moved.located = code.located.map (·.relocate distance)
  located_clear : ∀ here ∈ code.located, here.address.Clear distance
  endAddress_eq : moved.endAddress = code.endAddress + distance
  end_clear : code.endAddress.Clear distance
  handlers_clear : ∀ block ∈ code.tries, ∀ handler ∈ block.handlers,
    handler.address.Clear distance
  lineAt?_eq : ∀ address : Address, address.Clear distance →
    lineAt? moved.debugItems (address + distance) = lineAt? code.debugItems address

theorem CodeItem.Clears.addressAt {distance : Address} {code : CodeItem}
    (clears : code.Clears distance) (unmoved : code.Unmoved) (index : Nat) :
    (code.addressAt index).Clear distance := by
  have body := clears.body
  have start_eq : code.startAddress.toNat = 0 := by
    rw [unmoved.startAddress_eq]
    rfl
  have fits : code.Fits := by
    unfold Fits
    omega
  have le := code.totalSize_take_le (index - 1)
  unfold Address.Clear
  rw [fits.toNat_addressAt]
  omega

theorem CodeItem.Unmoved.movesTo {code : CodeItem} (unmoved : code.Unmoved) {distance : Address}
    (positive : 0 < distance) (clears : code.Clears distance) (place : Nat) :
    code.MovesTo distance (code.relocate distance place) where
  registers_eq := rfl
  instructions_eq := rfl
  tries_eq := rfl
  located_eq := unmoved.located_relocate positive place
  located_clear here member := by
    obtain ⟨count, -, -, address_eq⟩ := code.mem_located_iff.1 member
    rw [address_eq]
    exact clears.addressAt unmoved (count + 1)
  endAddress_eq := unmoved.endAddress_relocate positive place
  end_clear := by
    rw [← code.addressAt_end]
    exact clears.addressAt unmoved _
  handlers_clear := clears.handlers
  lineAt?_eq _ clear := lineAt?_relocate clear clears.lines place

end DalvikFacts
