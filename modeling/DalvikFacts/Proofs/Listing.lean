import DalvikFacts.Proofs.Method.Addresses
import DalvikFacts.Proofs.Reading
import DalvikFacts.Tool.Listing
import Std.Data.String.ToNat

/-!
# Listings against address maps

The listing of a body walks its instructions, and the rows of its address map come from a sorted map
that is written at the end.  When all instructions take room, both number them alike, and in the
same order unless addresses wrap around.
-/

namespace DalvikFacts

/-! ## Texts of instructions -/

open Text (Unbroken)

section Words

@[simp]
theorem MoveKind.unbroken_suffix (kind : MoveKind) : Unbroken kind.suffix := by
  cases kind <;> decide

@[simp]
theorem MoveForm.unbroken_suffix (form : MoveForm) : Unbroken form.suffix := by
  cases form <;> decide

@[simp]
theorem NarrowForm.unbroken_mnemonic (form : NarrowForm) : Unbroken form.mnemonic := by
  cases form <;> decide

@[simp]
theorem WideForm.unbroken_mnemonic (form : WideForm) : Unbroken form.mnemonic := by
  cases form <;> decide

@[simp]
theorem unbroken_stringMnemonic (jumbo : Bool) : Unbroken (stringMnemonic jumbo) := by
  cases jumbo <;> decide

@[simp]
theorem MonitorAction.unbroken_mnemonic (action : MonitorAction) : Unbroken action.mnemonic := by
  cases action <;> decide

@[simp]
theorem GotoForm.unbroken_mnemonic (form : GotoForm) : Unbroken form.mnemonic := by
  cases form <;> decide

@[simp]
theorem SwitchKind.unbroken_mnemonic (kind : SwitchKind) : Unbroken kind.mnemonic := by
  cases kind <;> decide

@[simp]
theorem CompareOp.unbroken_mnemonic (op : CompareOp) : Unbroken op.mnemonic := by
  cases op <;> decide

@[simp]
theorem TestOp.unbroken_mnemonic (test : TestOp) : Unbroken test.mnemonic := by
  cases test <;> decide

@[simp]
theorem Access.unbroken_verb (access : Access) : Unbroken access.verb := by
  cases access <;> decide

@[simp]
theorem SlotKind.unbroken_suffix (kind : SlotKind) : Unbroken kind.suffix := by
  cases kind <;> decide

@[simp]
theorem InvokeKind.unbroken_mnemonic (kind : InvokeKind) : Unbroken kind.mnemonic := by
  cases kind <;> decide

@[simp]
theorem Operands.unbroken_suffix (operands : Operands) : Unbroken operands.suffix := by
  cases operands with
  | list _ => exact (by decide : Unbroken "")
  | range _ => exact (by decide : Unbroken "/range")

@[simp]
theorem Unop.unbroken_mnemonic (op : Unop) : Unbroken op.mnemonic := by
  cases op <;> decide

@[simp]
theorem Binop.unbroken_mnemonic (op : Binop) : Unbroken op.mnemonic := by
  cases op with
  | int op => cases op <;> decide
  | long op => cases op <;> decide
  | float op => cases op <;> decide
  | double op => cases op <;> decide

@[simp]
theorem LiteralOp.unbroken_mnemonic (op : LiteralOp) : Unbroken op.mnemonic := by
  cases op <;> decide

@[simp]
theorem SmallLiteralOp.unbroken_mnemonic (op : SmallLiteralOp) : Unbroken op.mnemonic := by
  cases op with
  | common op => cases op <;> decide
  | shift op => cases op <;> decide

end Words

namespace Instr

theorem unbroken_mnemonic (instr : Instr) : Unbroken instr.mnemonic := by
  -- the equations of all names at once are slow to make
  delta mnemonic
  cases instr <;>
    simp [TestOp.zeroMnemonic, Access.arrayMnemonic, Access.instanceMnemonic,
      Access.staticMnemonic, Binop.inPlaceMnemonic]
  all_goals decide

theorem unbroken_byteText (byte : Nat) : Unbroken (byteText byte) := by
  refine Text.unbroken_append.2 ⟨by decide, Text.unbroken_ofList.2 fun member => ?_⟩
  rcases List.mem_pair.1 member with high | low
  · exact Nat.digitChar_ne '\n' (by decide) high.symm
  · exact Nat.digitChar_ne '\n' (by decide) low.symm

/-- The text of an instruction fits on a line. -/
theorem unbroken_toString (instr : Instr) : Unbroken instr.toString := by
  have coded : ∀ opcode, Unbroken (instr.mnemonic ++ " (" ++ byteText opcode ++ ")") := by
    intro opcode
    have opening : Unbroken " (" := by decide
    have closing : Unbroken ")" := by decide
    simp [instr.unbroken_mnemonic, unbroken_byteText, opening, closing]
  cases instr with
  | optimized opcode _ => exact coded opcode
  | unknown opcode _ => exact coded opcode
  | _ => exact unbroken_mnemonic _

end Instr

/-! ## Reading listings -/

namespace Listing

/-- What a line tells. -/
structure Entry where
  index : Nat
  address : Nat
  text : String
  deriving DecidableEq

/-- What the line of an instruction should tell. -/
def Entry.ofLocated (here : LocatedInstr) : Entry :=
  ⟨here.index, here.address.toNat, toString here.instr⟩

/-- The index and the address in front of a line, and the rest of it. -/
def entry? (line : List Char) : Option Entry := do
  let (index, colon) ← Text.number? (line.dropWhile (· == ' '))
  let (address, space) ← Text.number? (← colon.dropPrefix? [':', ' '])
  let text ← space.dropPrefix? [' ']
  return ⟨index, address, String.ofList text⟩

/-- A plain line without its line break. -/
def lineText (here : LocatedInstr) : String :=
  "    " ++ padded ' ' 4 here.index ++ ": " ++ padded '0' 4 here.address.toNat ++
    " " ++ here.instr.toString

theorem instrText_false (instr : Instr) : instrText false instr = instr.toString := by
  cases instr <;> rfl

theorem line_false (here : LocatedInstr) : line false here = lineText here ++ "\n" := by
  rw [line, instrText_false, lineText]

theorem body_false (code : CodeItem) :
    body false code = String.join ((code.located.map lineText).map (· ++ "\n")) := by
  rw [body, List.map_map]
  exact congrArg String.join (List.map_congr_left fun here _ => line_false here)

theorem unbroken_padded {fill : Char} (visible : fill ≠ '\n') (width number : Nat) :
    Unbroken (padded fill width number) := by
  refine Text.unbroken_append.2 ⟨Text.unbroken_ofList.2 fun member => ?_,
    Text.unbroken_toString number⟩
  exact visible (List.eq_of_mem_replicate member).symm

theorem unbroken_lineText (here : LocatedInstr) : Unbroken (lineText here) := by
  have literals : Unbroken "    " ∧ Unbroken ": " ∧ Unbroken " " := by decide
  simp [lineText, literals, unbroken_padded, here.instr.unbroken_toString]

theorem toList_padded (fill : Char) (width number : Nat) :
    (padded fill width number).toList =
      List.replicate (width - (toString number).length) fill ++ (toString number).toList := by
  rw [padded, String.toList_append, String.toList_ofList]

theorem entry?_eq {line behind text : List Char} {index address : Nat}
    (index_eq : Text.number? (line.dropWhile (· == ' ')) = some (index, [':', ' '] ++ behind))
    (address_eq : Text.number? behind = some (address, [' '] ++ text)) :
    entry? line = some ⟨index, address, String.ofList text⟩ := by
  unfold entry?
  rw [index_eq]
  change (([':', ' '] ++ behind).dropPrefix? [':', ' '] >>= _) = _
  rw [List.dropPrefix?_append_of_beq behind (by decide)]
  change (Text.number? behind >>= _) = _
  rw [address_eq]
  change (([' '] ++ text).dropPrefix? [' '] >>= _) = _
  rw [List.dropPrefix?_append_of_beq text (by decide)]
  rfl

/-- A line tells where its instruction is located, however wide the numbers are, and its text. -/
theorem entry?_lineText (here : LocatedInstr) :
    entry? (lineText here).toList = some (.ofLocated here) := by
  obtain ⟨behind, behind_eq⟩ : ∃ behind, behind =
      (padded '0' 4 here.address.toNat).toList ++ ([' '] ++ here.instr.toString.toList) := ⟨_, rfl⟩
  have line_eq : (lineText here).toList =
      List.replicate (4 + (4 - (toString here.index).length)) ' ' ++ (toString here.index).toList ++
        ([':', ' '] ++ behind) := by
    rw [behind_eq]
    simp only [lineText, String.toList_append, toList_padded, ← List.replicate_append_replicate,
      List.append_assoc]
    rfl
  have index_eq : Text.number? ((lineText here).toList.dropWhile (· == ' ')) =
      some (here.index, [':', ' '] ++ behind) := by
    rw [line_eq]
    exact Text.number?_blanks _ _ rfl
  have address_eq : Text.number? behind =
      some (here.address.toNat, [' '] ++ here.instr.toString.toList) := by
    rw [behind_eq, toList_padded]
    exact Text.number?_zeros _ _ rfl
  rw [entry?_eq index_eq address_eq, String.ofList_toList]
  rfl

theorem lines?_body (code : CodeItem) :
    ∃ lines, Text.lines? (body false code) = some lines ∧
      lines.map entry? = (code.located.map Entry.ofLocated).map some := by
  have unbroken : ∀ line ∈ code.located.map lineText, Unbroken line := by
    intro line member
    obtain ⟨here, -, rfl⟩ := List.mem_map.1 member
    exact unbroken_lineText here
  refine ⟨_, by rw [body_false, Text.lines?_join unbroken], ?_⟩
  simp only [List.map_map]
  exact List.map_congr_left fun here _ => entry?_lineText here

end Listing

theorem map_instr_locateFrom (index : Nat) (address : Address) (instrs : List Instr) :
    (locateFrom index address instrs).map LocatedInstr.instr = instrs := by
  induction instrs generalizing index address with
  | nil => rfl
  | cons instr rest induction => rw [locateFrom, List.map_cons, induction]

/-! ## Rows of address maps -/

namespace CodeItem

variable {code : CodeItem} {entries : List (Address × Nat)}

/-- The indices of a body at their addresses, up to that of the end. -/
def marks (code : CodeItem) : List (Address × Nat) :=
  (List.range' 1 (code.instructions.length + 1)).map fun index => (code.addressAt index, index)

theorem marks_eq (code : CodeItem) :
    code.marks = code.located.map (fun here => (here.address, here.index)) ++
      [(code.endAddress, code.instructions.length + 1)] := by
  rw [marks, List.range'_concat, List.map_append, code.located_marks, Nat.one_mul,
    Nat.add_comm 1, List.map_singleton, code.addressAt_end]

theorem map_snd_marks (code : CodeItem) :
    code.marks.map Prod.snd = List.range' 1 (code.instructions.length + 1) := by
  simp [marks, Function.comp_def]

namespace Entries

theorem eq_marks (map : code.Entries entries)
    (indices_eq : entries.map Prod.snd = List.range' 1 (code.instructions.length + 1)) :
    entries = code.marks := by
  rw [marks, ← indices_eq, List.map_map]
  refine (List.map_id _).symm.trans (List.map_congr_left fun entry member => ?_)
  obtain ⟨-, -, address_eq, -⟩ := (map.mem_iff _ _).1 member
  exact Prod.ext address_eq.symm rfl

theorem perm_marks (map : code.Entries entries) (narrow : totalSize code.instructions < 2 ^ 64)
    (sizes : ∀ instr ∈ code.instructions, instr.size ≠ 0) : entries.Perm code.marks := by
  have marks_nodup : (code.marks.map Prod.snd).Nodup := by
    rw [map_snd_marks]
    exact List.nodup_range'
  refine (List.perm_ext_iff_of_nodup map.nodup_indices.of_map marks_nodup.of_map).2 ?_
  rintro ⟨address, index⟩
  rw [map.mem_iff, marks, List.mem_map]
  constructor
  · rintro ⟨positive, le, address_eq, -⟩
    refine ⟨index, ?_, Prod.ext address_eq rfl⟩
    rw [List.mem_range'_1]
    omega
  · rintro ⟨other, inside, same⟩
    cases same
    rw [List.mem_range'_1] at inside
    exact isLastAt_of_sizes narrow sizes inside.1 (by omega)

theorem indices_eq_of_take (map : code.Entries entries)
    (narrow : totalSize code.instructions < 2 ^ 64)
    (sizes : ∀ instr ∈ code.instructions, instr.size ≠ 0)
    (take_eq : (entries.take code.instructions.length).map Prod.snd =
      List.range' 1 code.instructions.length) :
    entries.map Prod.snd = List.range' 1 (code.instructions.length + 1) := by
  have perm := (map.perm_marks narrow sizes).map Prod.snd
  rw [map_snd_marks] at perm
  have split_eq : entries.map Prod.snd = List.range' 1 code.instructions.length ++
      (entries.drop code.instructions.length).map Prod.snd := by
    rw [← take_eq, ← List.map_append, List.take_append_drop]
  rw [split_eq, List.range'_concat] at perm ⊢
  rw [List.perm_singleton.1 ((List.perm_append_left_iff _).1 perm)]

end Entries

end CodeItem

namespace Listing

/-- The row of the address map that a line should agree with. -/
def Entry.row (method : String) (entry : Entry) : List String :=
  [method, toString entry.index, toString entry.address]

theorem map_row_ofLocated (code : CodeItem) (method : String) :
    (code.located.map Entry.ofLocated).map (Entry.row method) ++
        [[method, toString (code.instructions.length + 1), toString code.endAddress]] =
      code.marks.map fun mark => [method, toString mark.2, toString mark.1] := by
  rw [code.marks_eq, List.map_append, List.map_map, List.map_map]
  rfl

end Listing

/-- The plain listing of a body has one line for each instruction.  What is read back from a line is
the index and the address of the instruction, and its text.  When all instructions take room and
nothing fails, the rows of the address map are those of the lines and one for the end; those of the
lines are the first ones, in this order, exactly when no address wraps around. -/
theorem listing_agrees {container : Container} {definition : MethodDef} {code : CodeItem}
    {cache : SignatureCache} {extracted : ExtractedMethod} (code_eq : definition.code = some code)
    (sizes : ∀ instr ∈ code.instructions, instr.size ≠ 0)
    (value_eq : ((definition.extract container).run cache).value = .ok extracted) :
    ∃ (lines : List (List Char)) (entries : List Listing.Entry),
      let rows := rowsOf .dexInstructionAddressMap ((definition.extract container).run cache).events
      Text.lines? (Listing.body false code) = some lines ∧
      lines.length = code.instructions.length ∧
      lines.map Listing.entry? = entries.map some ∧
      entries.map Listing.Entry.index = List.range' 1 code.instructions.length ∧
      entries.map Listing.Entry.text = code.instructions.map toString ∧
      (totalSize code.instructions < 2 ^ 64 →
        rows.Perm (entries.map (Listing.Entry.row extracted.id) ++
          [[extracted.id, toString (code.instructions.length + 1), toString code.endAddress]]) ∧
        (rows.take code.instructions.length = entries.map (Listing.Entry.row extracted.id) ↔
          code.Fits)) := by
  obtain ⟨lines, lines_eq, read⟩ := Listing.lines?_body code
  obtain ⟨entries, map, rows_eq⟩ := definition.exists_entries code_eq value_eq
  have length_eq := congrArg List.length read
  have indices_eq := congrArg (List.map Prod.snd) code.located_marks
  simp only [List.length_map, CodeItem.located, length_locateFrom] at length_eq
  simp only [List.map_map, Function.comp_def, List.map_id'] at indices_eq
  refine ⟨lines, code.located.map .ofLocated, lines_eq, length_eq, read, ?_, ?_, fun narrow =>
    ⟨?_, ?_⟩⟩
  · rw [List.map_map]
    exact indices_eq
  · rw [List.map_map, ← map_instr_locateFrom 1 code.startAddress code.instructions, List.map_map]
    rfl
  · rw [rows_eq, Listing.map_row_ofLocated]
    exact (map.perm_marks narrow sizes).map _
  · rw [rows_eq, ← List.map_take]
    constructor
    · intro rows_agree
      have columns_eq := congrArg (List.map fun row : List String => row[1]?) rows_agree
      have texts_eq : ((entries.take code.instructions.length).map Prod.snd).map
            (fun index => some (toString index)) =
          (code.located.map LocatedInstr.index).map fun index => some (toString index) := by
        simp only [List.map_map] at columns_eq ⊢
        exact columns_eq
      have take_eq := List.map_injective_iff.2
        (fun _ _ same => Nat.repr_injective (Option.some.inj same)) texts_eq
      have complete := map.indices_eq_of_take narrow sizes (take_eq.trans indices_eq)
      exact ((map.indices_eq_iff narrow).1 complete).1
    · intro fits
      rw [map.eq_marks ((map.indices_eq_iff narrow).2 ⟨fits, sizes⟩), List.map_take,
        ← Listing.map_row_ofLocated]
      exact List.take_left' (by simp [CodeItem.located])

/-- The lines of a body come in its own order, and the rows of its address map in that of the
addresses. -/
theorem listing_disagrees_overrun :
    ∃ (extracted : ExtractedMethod) (lines : List (List Char)),
      let outcome :=
        ({ loneMethod [] with code := some overrun }.extract loneContainer).run .empty
      outcome.value = .ok extracted ∧
      Text.lines? (Listing.body false overrun) = some lines ∧
      lines.map Listing.entry? =
        [some ⟨1, 18446744073709551615, "nop"⟩, some ⟨2, 0, "nop"⟩] ∧
      (rowsOf .dexInstructionAddressMap outcome.events).take 2 =
        [[extracted.id, "2", "0"], [extracted.id, "3", "1"]] := by
  obtain ⟨extracted, value_eq⟩ := exists_extract_overrun
  obtain ⟨lines, lines_eq, read⟩ := Listing.lines?_body overrun
  obtain ⟨entries, map, rows_eq⟩ := MethodDef.exists_entries rfl value_eq
  rw [map.unique entries_overrun] at rows_eq
  refine ⟨extracted, lines, value_eq, lines_eq, read.trans (by decide), ?_⟩
  dsimp only
  rw [rows_eq]
  rfl

/-- A method whose body starts behind a marker, at an address that is wider than its column. -/
def shifted : MethodDef :=
  { loneMethod [] with
    code := some
      { registers := 1
        instructions := [.nop, .optimized 227 2, .returnVoid]
        tries := []
        debugItems := [.prologueEnd 65534] } }

theorem exists_extract_shifted :
    ∃ extracted, ((shifted.extract loneContainer).run .empty).value = .ok extracted :=
  MethodDef.exists_extract_sound rfl rfl (by decide)

theorem listing_agrees_shifted :
    ∃ (code : CodeItem) (extracted : ExtractedMethod) (lines : List (List Char))
        (entries : List Listing.Entry),
      shifted.code = some code ∧ (∀ instr ∈ code.instructions, instr.size ≠ 0) ∧ code.Fits ∧
      Text.lines? (Listing.body false code) = some lines ∧ lines.length = 3 ∧
      lines.map Listing.entry? = entries.map some ∧
      (rowsOf .dexInstructionAddressMap
        ((shifted.extract loneContainer).run .empty).events).take 3 =
          entries.map (Listing.Entry.row extracted.id) := by
  obtain ⟨extracted, value_eq⟩ := exists_extract_shifted
  have sizes : ∀ instr ∈ [Instr.nop, .optimized 227 2, .returnVoid], instr.size ≠ 0 := by decide
  obtain ⟨lines, entries, lines_eq, length_eq, read, -, -, agree⟩ :=
    listing_agrees rfl sizes value_eq
  have fits : CodeItem.Fits ⟨1, [.nop, .optimized 227 2, .returnVoid], [], [.prologueEnd 65534]⟩ :=
    show _ < _ by decide
  obtain ⟨-, take_iff⟩ := agree (by decide)
  exact ⟨_, extracted, lines, entries, rfl, sizes, fits, lines_eq, length_eq, read,
    take_iff.2 fits⟩

end DalvikFacts
