import DalvikFacts.Proofs.Method.Failure
import DalvikFacts.Proofs.Method.Mirrors

/-!
# Ranges written out

Operands are given one by one or as a range of consecutive registers.  An instruction with a range
is as wide as the same one with the registers of the range, is planned alike and does the same.  So
a body may have some of its ranges written out: step by step, its method is extracted in the same
way.
-/

namespace DalvikFacts

/-! ## Ranges -/

/-- The registers of a range, told by their numbers: as many as it counts from its first one on, as
far as there are registers. -/
def RegRange.Lists (range : RegRange) (regs : List Reg) : Prop :=
  regs.map (·.number.toNat) =
    List.range' range.first.number.toNat
      (min range.count.toNat (65536 - range.first.number.toNat))

theorem Reg.number_injective : Function.Injective fun reg : Reg => reg.number.toNat := by
  rintro ⟨first⟩ ⟨second⟩ same
  exact congrArg Reg.mk (UInt16.toNat_inj.1 same)

theorem Reg.map_ofNat? (number : Nat) :
    (Reg.ofNat? number).map (·.number.toNat) = if number < 65536 then some number else none := by
  unfold Reg.ofNat?
  split
  next inside => exact congrArg some (UInt16.toNat_ofNat_of_lt inside)
  next => rfl

theorem RegRange.lists_registers (range : RegRange) : range.Lists range.registers := by
  obtain ⟨⟨first⟩, count⟩ := range
  -- the numbers that are kept are those below the bound, which come first
  have kept : ∀ count, (List.range count).filterMap
        (fun i => if first.toNat + i < 65536 then some (first.toNat + i) else none) =
      List.range' first.toNat (min count (65536 - first.toNat)) := by
    intro count
    induction count with
    | zero => rfl
    | succ count induction =>
      rw [List.range_succ, List.filterMap_append, induction]
      by_cases inside : first.toNat + count < 65536
      · have shorter : min count (65536 - first.toNat) = count := by omega
        have longer : min (count + 1) (65536 - first.toNat) = count + 1 := by omega
        rw [shorter, longer, List.range'_1_concat]
        simp [inside]
      · have same : min (count + 1) (65536 - first.toNat) = min count (65536 - first.toNat) := by
          omega
        rw [same]
        simp [inside]
  unfold Lists registers
  rw [List.map_filterMap]
  simp only [Reg.map_ofNat?]
  exact kept _

theorem RegRange.Lists.registers_eq {range : RegRange} {regs : List Reg}
    (lists : range.Lists regs) : range.registers = regs :=
  Reg.number_injective.list_map (range.lists_registers.trans lists.symm)

/-! ## Instructions -/

/-- An instruction and the instruction that stands for it: the same one, or the same operation with
its range of operands written out. -/
inductive Instr.Unrolls : Instr → Instr → Prop
  | same (instr : Instr) : Unrolls instr instr
  | invoke {range : RegRange} {regs : List Reg} (lists : range.Lists regs) (kind : InvokeKind)
      (method : Nat) :
      Unrolls (.invoke kind (.range range) method) (.invoke kind (.list regs) method)
  | invokePolymorphic {range : RegRange} {regs : List Reg} (lists : range.Lists regs)
      (method proto : Nat) :
      Unrolls (.invokePolymorphic (.range range) method proto)
        (.invokePolymorphic (.list regs) method proto)
  | invokeCustom {range : RegRange} {regs : List Reg} (lists : range.Lists regs) (callSite : Nat) :
      Unrolls (.invokeCustom (.range range) callSite) (.invokeCustom (.list regs) callSite)
  | filledNewArray {range : RegRange} {regs : List Reg} (lists : range.Lists regs) (type : Nat) :
      Unrolls (.filledNewArray (.range range) type) (.filledNewArray (.list regs) type)

theorem Instr.Unrolls.size_eq {instr unrolled : Instr} (unrolls : instr.Unrolls unrolled) :
    unrolled.size = instr.size := by
  cases unrolls <;> rfl

theorem totalSize_unrolled {instrs unrolled : List Instr}
    (unrolls : List.Forall₂ Instr.Unrolls instrs unrolled) :
    totalSize unrolled = totalSize instrs := by
  induction unrolls with
  | nil => rfl
  | cons alike _ induction => rw [totalSize, totalSize, alike.size_eq, induction]

/-- A body with other instructions. -/
def CodeItem.withInstructions (code : CodeItem) (instructions : List Instr) : CodeItem :=
  { code with instructions }

theorem CodeItem.endAddress_unrolled {code : CodeItem} {unrolled : List Instr}
    (unrolls : List.Forall₂ Instr.Unrolls code.instructions unrolled) :
    (code.withInstructions unrolled).endAddress = code.endAddress := by
  rw [endAddress, endAddress]
  exact congrArg code.startAddress.advance (totalSize_unrolled unrolls)

namespace MethodContext

variable (cx : MethodContext) (code : CodeItem) {unrolled : List Instr}

/-! ## Contexts with another body -/

theorem use_withCode (reg : Reg) : (cx.withCode code).use reg = cx.use reg :=
  rfl

theorem writeBinop_withCode (here : LocatedInstr) (dst left right : Reg) :
    (cx.withCode code).writeBinop here dst left right = cx.writeBinop here dst left right := by
  simp only [writeBinop, use_withCode]
  rfl

theorem writeArrayAccess_withCode (here : LocatedInstr) (access : Access)
    (value array position : Reg) :
    (cx.withCode code).writeArrayAccess here access value array position =
      cx.writeArrayAccess here access value array position := by
  simp only [writeArrayAccess, use_withCode]
  rfl

theorem writeFieldAccess_withCode (here : LocatedInstr) (access : Access) (value : Reg)
    (object : Option Reg) (field : FieldSig) :
    (cx.withCode code).writeFieldAccess here access value object field =
      cx.writeFieldAccess here access value object field :=
  rfl

theorem fieldSig_withCode (index : Nat) : (cx.withCode code).fieldSig index = cx.fieldSig index :=
  rfl

theorem writeTries_withCode (tries : List TryBlock) :
    (cx.withCode code).writeTries tries = cx.writeTries tries := by
  have handlers_eq : ∀ block handlers previous,
      (cx.withCode code).writeHandlers block handlers previous =
        cx.writeHandlers block handlers previous := by
    intro block handlers
    induction handlers with
    | nil => exact fun _ => rfl
    | cons handler rest induction =>
      intro previous
      rw [writeHandlers, writeHandlers]
      simp only [induction]
      rfl
  induction tries with
  | nil => rfl
  | cons block rest induction => rw [writeTries, writeTries, handlers_eq, induction]

theorem writeExceptions_withCode (tries : List TryBlock) :
    (cx.withCode code).writeExceptions tries = cx.writeExceptions tries := by
  rw [writeExceptions, writeExceptions, writeTries_withCode]
  rfl

theorem plan_withInstructions (instrs : List Instr) (here : LocatedInstr)
    (result : Option PendingResult) :
    (cx.withCode (code.withInstructions instrs)).plan here result =
      (cx.withCode code).plan here result := by
  obtain ⟨index, address, instr⟩ := here
  cases instr with
  | compare | binop | binopInPlace => simp only [plan, writeBinop_withCode]
  | arrayAccess => simp only [plan, writeArrayAccess_withCode]
  | instanceField => simp only [plan, writeFieldAccess_withCode, fieldSig_withCode]
  | _ => rfl

/-! ## Bodies with ranges written out -/

theorem plan_unrolled {instr other : Instr} (unrolls : instr.Unrolls other) (index : Nat)
    (address : Address) (result : Option PendingResult) :
    cx.plan ⟨index, address, other⟩ result = cx.plan ⟨index, address, instr⟩ result := by
  cases unrolls with
  | same => rfl
  | invoke lists | invokePolymorphic lists | invokeCustom lists | filledNewArray lists =>
    obtain rfl := lists.registers_eq
    rfl

theorem extractInstrs_unrolled {instrs : List Instr}
    (unrolls : List.Forall₂ Instr.Unrolls instrs unrolled) (others : List Instr) (index : Nat)
    (address : Address) (state : MethodState) :
    (cx.withCode (code.withInstructions others)).extractInstrs
        (locateFrom index address unrolled) state =
      (cx.withCode code).extractInstrs (locateFrom index address instrs) state := by
  induction unrolls generalizing index address state with
  | nil => rfl
  | cons alike _ induction =>
    rw [locateFrom, locateFrom, extractInstrs, extractInstrs, alike.size_eq]
    simp only [plan_withInstructions, plan_unrolled _ alike, induction]

section Bodies

variable (unrolls : List.Forall₂ Instr.Unrolls code.instructions unrolled)

include unrolls

theorem finish_unrolled :
    (cx.withCode (code.withInstructions unrolled)).finish (code.withInstructions unrolled) =
      (cx.withCode code).finish code := by
  have count_eq : (code.withInstructions unrolled).instructions.length =
      code.instructions.length := unrolls.length_eq.symm
  unfold finish concludeBody
  rw [CodeItem.endAddress_unrolled unrolls, count_eq]
  simp only [writeExceptions_withCode]
  rfl

theorem extractCode_unrolled (state : MethodState) :
    (cx.withCode (code.withInstructions unrolled)).extractCode (code.withInstructions unrolled)
        state =
      (cx.withCode code).extractCode code state := by
  have located_eq : (code.withInstructions unrolled).located =
      locateFrom 1 code.startAddress unrolled := rfl
  unfold extractCode
  rw [located_eq, finish_unrolled cx code unrolls]
  simp only [extractInstrs_unrolled cx code unrolls]
  rfl

theorem extract_withInstructions :
    (cx.withCode (code.withInstructions unrolled)).extract = (cx.withCode code).extract := by
  have unrolled_code : (cx.withCode (code.withInstructions unrolled)).definition.code =
      some (code.withInstructions unrolled) := rfl
  have code_eq : (cx.withCode code).definition.code = some code := rfl
  have count_eq : (code.withInstructions unrolled).instructions.length =
      code.instructions.length := unrolls.length_eq.symm
  unfold extract
  rw [unrolled_code, code_eq]
  dsimp only
  rw [count_eq]
  simp only [extractCode_unrolled cx code unrolls]
  rfl

end Bodies

theorem ofSig_withCode (container : Container) (definition : MethodDef) (sig : MethodSig)
    {code other : CodeItem} (registers_eq : other.registers = code.registers) :
    ofSig container { definition with code := some other } sig =
      (·.withCode other) <$> ofSig container { definition with code := some code } sig := by
  have width_eq : parameterWidth { definition with code := some other } sig =
      parameterWidth { definition with code := some code } sig := rfl
  unfold ofSig
  dsimp only
  rw [registers_eq, width_eq]
  split
  · rw [map_bind]
    rfl
  · rfl

end MethodContext

/-- A method is extracted in the same steps when some ranges of its body are written out: whatever
was looked up before and whoever looks up signatures in between, it comes to the same result with
the same field accesses, and emits the same rows and notices in the same order. -/
theorem MethodDef.extract_unrolled (container : Container) (definition : MethodDef)
    (code : CodeItem) {unrolled : List Instr}
    (unrolls : List.Forall₂ Instr.Unrolls code.instructions unrolled) :
    MethodDef.extract container
        { definition with code := some (code.withInstructions unrolled) } =
      MethodDef.extract container { definition with code := some code } := by
  have contexts : ∀ (sig : MethodSig) (other : CodeItem), other.registers = code.registers →
      (MethodContext.ofSig container { definition with code := some other } sig >>=
          MethodContext.extract) =
        (MethodContext.ofSig container { definition with code := some code } sig >>= fun cx =>
          (cx.withCode other).extract) := by
    intro sig other registers_eq
    rw [MethodContext.ofSig_withCode container definition sig registers_eq, bind_map_left]
  unfold MethodDef.extract MethodContext.create
  rw [bind_assoc, bind_assoc]
  refine bind_congr fun found => ?_
  refine (contexts found.value (code.withInstructions unrolled) rfl).trans ?_
  refine Eq.trans ?_ (contexts found.value code rfl).symm
  exact bind_congr fun cx => cx.extract_withInstructions code unrolls

/-- A static method that takes a pair of registers and another one. -/
def pairedContainer : Container :=
  { loneContainer with
    types := #[.array (.primitive .int)]
    methods := #[⟨.object "Lone", "put", [.primitive .long, .primitive .int], .void⟩] }

/-- Two calls with ranges, and an array filled with a range of which only the first register
exists. -/
def rangedCalls : CodeItem where
  registers := 4
  instructions :=
    [.invoke .static (.range ⟨⟨1⟩, 3⟩) 0, .invoke .static (.range ⟨⟨1⟩, 3⟩) 0,
      .filledNewArray (.range ⟨⟨65535⟩, 2⟩) 0, .moveResult .object ⟨0⟩, .returnVoid]
  tries := []
  debugItems := []

/-- The range of one call may stay while the others are written out. -/
theorem extract_unrolled_rangedCalls :
    let unrolled : List Instr :=
      [.invoke .static (.list [⟨1⟩, ⟨2⟩, ⟨3⟩]) 0, .invoke .static (.range ⟨⟨1⟩, 3⟩) 0,
        .filledNewArray (.list [⟨65535⟩]) 0, .moveResult .object ⟨0⟩, .returnVoid]
    List.Forall₂ Instr.Unrolls rangedCalls.instructions unrolled ∧
      MethodDef.extract pairedContainer
          { loneMethod [] with code := some (rangedCalls.withInstructions unrolled) } =
        MethodDef.extract pairedContainer { loneMethod [] with code := some rangedCalls } := by
  have call : (⟨⟨1⟩, 3⟩ : RegRange).Lists [⟨1⟩, ⟨2⟩, ⟨3⟩] := by
    unfold RegRange.Lists
    decide
  have cut : (⟨⟨65535⟩, 2⟩ : RegRange).Lists [⟨65535⟩] := by
    unfold RegRange.Lists
    decide
  have unrolls : List.Forall₂ Instr.Unrolls rangedCalls.instructions _ :=
    .cons (.invoke call .static 0) (.cons (.same _) (.cons (.filledNewArray cut 0)
      (.cons (.same _) (.cons (.same _) .nil))))
  exact ⟨unrolls, MethodDef.extract_unrolled pairedContainer (loneMethod []) rangedCalls unrolls⟩

end DalvikFacts
