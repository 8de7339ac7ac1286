import DalvikFacts.Proofs.Method.Writes

/-!
# Planned actions

What a successful plan is a plan of: the action of each instruction, for some entries of the
tables that it refers to.  From it follows what an instruction may touch when it is done.
-/

namespace DalvikFacts

/-- Whenever a look-up succeeds, whatever is in the signature cache, its value has a property. -/
def Lookup.Yields {α : Type} (lookup : Lookup α) (good : α → Prop) : Prop :=
  ∀ cache value, (lookup.run.run.run cache).1 = .ok value → good value

namespace Lookup.Yields

variable {α β : Type} {good : α → Prop}

theorem trivial (lookup : Lookup α) : lookup.Yields fun _ => True :=
  fun _ _ _ => True.intro

theorem pure {value : α} (holds : good value) : (Pure.pure value : Lookup α).Yields good := by
  intro cache found found_eq
  cases found_eq
  exact holds

theorem entry (found : Except MissingEntry α) :
    (Lookup.entry found).Yields fun value => found = .ok value := by
  intro cache value value_eq
  cases found with
  | error missing => cases value_eq
  | ok inner =>
    cases value_eq
    rfl

theorem throw (error : ExtractionError) : (MonadExcept.throw error : Lookup α).Yields good := by
  intro cache found found_eq
  cases found_eq

theorem bind {lookup : Lookup β} {mid : β → Prop} {next : β → Lookup α}
    (first : lookup.Yields mid) (rest : ∀ value, mid value → (next value).Yields good) :
    (lookup >>= next).Yields good := by
  intro cache found found_eq
  rw [Lookup.run_bind] at found_eq
  generalize outcome_eq : lookup.run.run.run cache = outcome at found_eq
  rcases outcome with ⟨error | value, later⟩
  · cases found_eq
  · exact rest value (first cache value (congrArg Prod.fst outcome_eq)) later found found_eq

/-- Registers are split into a receiver exactly where there has to be one. -/
theorem ofSplit (method : String) (regs : List Reg) (params : List Descriptor)
    (hasReceiver : Bool) :
    (Lookup.ofExcept (Arguments.split method regs params hasReceiver)).Yields fun arguments =>
      arguments.receiver.isSome = hasReceiver := by
  intro cache arguments arguments_eq
  have received : ∀ receiver slots,
      Arguments.ofSlots method receiver slots params = .ok arguments →
        arguments.receiver = receiver := by
    intro receiver slots split_eq
    unfold Arguments.ofSlots at split_eq
    split at split_eq <;> cases split_eq
    rfl
  cases split_eq : Arguments.split method regs params hasReceiver with
  | error error =>
    rw [split_eq] at arguments_eq
    cases arguments_eq
  | ok found =>
    rw [split_eq] at arguments_eq
    cases arguments_eq
    unfold Arguments.split at split_eq
    cases hasReceiver with
    | false => rw [received none regs split_eq, Option.isSome_none]
    | true =>
      cases regs with
      | nil => cases split_eq
      | cons receiver slots => rw [received (some receiver) slots split_eq, Option.isSome_some]

end Lookup.Yields

/-- A call has a receiver exactly when its kind asks for one. -/
def Call.WellFormed (call : Call) : Prop :=
  call.arguments.receiver.isSome = call.kind.hasReceiver

namespace MethodContext

/-- The action of an instruction, given the result that waits to be moved out, for the types,
strings and prototypes that it refers to and some signatures of the methods and fields. -/
def Planned (cx : MethodContext) (here : LocatedInstr) (result : Option PendingResult)
    (action : MethodEmit Unit) : Prop :=
  match here.instr with
  | .nop => action = pure ()
  | .move _ _ dst src => action = cx.writeMove here dst src
  | .moveResult _ dst =>
    ∃ pending, result = some pending ∧ pending.index + 1 = here.index ∧
      action = cx.writeResult here dst pending.producer
  | .moveException dst => action = writeCatch here dst
  | .returnVoid => action = cx.writeReturnVoid here
  | .returnValue _ src => action = cx.writeReturn here src
  | .const form dst literal => action = cx.writeNarrowNumber here dst (form.value literal)
  | .constWide form dst literal => action = cx.writeNumber here dst (form.value literal)
  | .constString _ dst string =>
    ∃ text, cx.container.stringAt string = .ok text ∧ action = cx.writeString here dst text
  | .constClass dst type =>
    ∃ found, cx.container.typeAt type = .ok found ∧
      action = cx.writeClass here dst found.sourceName
  | .monitor half object => action = cx.writeMonitor here half object
  | .checkCast object type =>
    ∃ found, cx.container.typeAt type = .ok found ∧
      action = cx.writeCast here object found.sourceName
  | .instanceOf dst object type =>
    ∃ found, cx.container.typeAt type = .ok found ∧
      action = cx.writeInstanceOf here dst object found.sourceName
  | .arrayLength dst array => action = cx.writeUnop here dst array
  | .newInstance dst type =>
    ∃ found, cx.container.typeAt type = .ok found ∧
      action = cx.writeNewInstance here dst found.sourceName
  | .newArray dst size type =>
    ∃ found, cx.container.typeAt type = .ok found ∧ action = cx.writeNewArray here dst size found
  | .filledNewArray elements type =>
    ∃ found, cx.container.typeAt type = .ok found ∧
      action = writeFilledArray here elements.registers found
  | .fillArrayData array offset => action = cx.writeFillArray here array offset
  | .throw exception => action = cx.writeThrow here exception
  | .goto _ _ => action = cx.writeGoto here
  | .switch kind key offset => action = cx.writeSwitch here kind key offset
  | .compare _ dst left right => action = cx.writeBinop here dst left right
  | .branch test left right _ => action = cx.writeBranch here test left (some right)
  | .branchZero test left _ => action = cx.writeBranch here test left none
  | .arrayAccess access _ value array index =>
    action = cx.writeArrayAccess here access value array index
  | .instanceField access _ value object _ =>
    ∃ field, action = cx.writeFieldAccess here access value (some object) field
  | .staticField access _ value _ =>
    ∃ field, action = cx.writeFieldAccess here access value none field
  | .invoke kind _ _ =>
    ∃ call : Call, call.kind = .ofInvoke kind ∧ call.WellFormed ∧
      action = do let _ ← cx.writeCall here call
  | .unop _ dst src => action = cx.writeUnop here dst src
  | .binop _ dst left right => action = cx.writeBinop here dst left right
  | .binopInPlace _ dst right => action = cx.writeBinop here dst dst right
  | .binopLiteral _ dst left _ => action = cx.writeBinopLiteral here dst left
  | .binopSmallLiteral _ dst left _ => action = cx.writeBinopLiteral here dst left
  | .invokePolymorphic _ _ _ =>
    ∃ call : Call, call.kind = .virtual ∧ call.WellFormed ∧
      action = cx.writePolymorphicCall here call
  | .invokeCustom _ _ => ∃ call, action = cx.writeCustomCall here call
  | .constMethodHandle dst _ =>
    (∃ sig, action = cx.writeMethodHandle here dst sig) ∨
      ∃ sig, action = cx.writeFieldHandle here dst sig
  | .constMethodType dst proto =>
    ∃ found, cx.container.protoAt proto = .ok found ∧ action = cx.writeMethodType here dst found
  | .packedSwitchPayload firstKey targets =>
    action =
      cx.writeSwitchPayload here .packed ((packedKeys firstKey targets.length).zip targets)
  | .sparseSwitchPayload keys targets =>
    action = cx.writeSwitchPayload here .sparse (keys.zip targets)
  | .arrayPayload width values => action = cx.writeArrayPayload here width values
  | .optimized opcode _ => action = cx.notice (.optimizedOpcode opcode here.index)
  | .unknown .. => False

variable (cx : MethodContext) (here : LocatedInstr)

theorem yields_planCall (kind : CallKind) (args : Operands) (method : Nat) :
    (cx.planCall kind args method).Yields fun call => call.kind = kind ∧ call.WellFormed :=
  .bind (.trivial _) fun _ _ => .bind (.ofSplit _ _ _ _) fun _ received => .pure ⟨rfl, received⟩

theorem yields_planPolymorphicCall (args : Operands) (method proto : Nat) :
    (cx.planPolymorphicCall args method proto).Yields fun call =>
      call.kind = .virtual ∧ call.WellFormed :=
  .bind (.trivial _) fun _ _ => .bind (.trivial _) fun _ _ =>
    .bind (.ofSplit _ _ _ _) fun _ received => .pure ⟨rfl, received⟩

theorem yields_planMethodHandle (dst : Reg) (handle : Nat) :
    (cx.planMethodHandle here dst handle).Yields fun action =>
      (∃ sig, action = cx.writeMethodHandle here dst sig) ∨
        ∃ sig, action = cx.writeFieldHandle here dst sig := by
  refine .bind (.trivial _) fun found _ => ?_
  split
  · exact .bind (.trivial _) fun sig _ => .pure (.inl ⟨sig, rfl⟩)
  · exact .bind (.trivial _) fun sig _ => .pure (.inr ⟨sig, rfl⟩)

theorem yields_planResult (dst : Reg) (result : Option PendingResult) :
    (cx.planResult here dst result).Yields fun action =>
      ∃ pending, result = some pending ∧ pending.index + 1 = here.index ∧
        action = cx.writeResult here dst pending.producer := by
  cases result with
  | none => exact .throw _
  | some pending =>
    unfold planResult
    dsimp only
    split
    next next_to => exact .pure ⟨pending, rfl, next_to, rfl⟩
    next => exact .throw _

/-- A plan that succeeds is that of the action of its instruction. -/
theorem yields_plan (result : Option PendingResult) :
    (cx.plan here result).Yields (cx.Planned here result) := by
  unfold plan Planned
  generalize here.instr = instr
  cases instr with
  | moveResult kind dst => exact yields_planResult cx here dst result
  | constMethodHandle dst handle => exact yields_planMethodHandle cx here dst handle
  | invoke kind args method =>
    exact .bind (yields_planCall cx _ args method) fun call ⟨kind_eq, received⟩ =>
      .pure ⟨call, kind_eq, received, rfl⟩
  | invokePolymorphic args method proto =>
    exact .bind (yields_planPolymorphicCall cx args method proto) fun call ⟨kind_eq, received⟩ =>
      .pure ⟨call, kind_eq, received, rfl⟩
  | unknown opcode units => exact .throw _
  | constString | constClass | checkCast | instanceOf | newInstance | newArray | filledNewArray
  | constMethodType =>
    exact .bind (.entry _) fun found found_eq => .pure ⟨found, found_eq, rfl⟩
  | instanceField | staticField | invokeCustom =>
    exact .bind (.trivial _) fun found _ => .pure ⟨_, rfl⟩
  | _ => exact .pure rfl

end MethodContext

namespace Instr

/-- The parts of the state of a method that an instruction may change. -/
def parts : Instr → List MethodPart
  | nop | returnVoid | optimized .. | unknown .. => []
  | const .. => [.declared, .zeroed]
  | moveResult .. | invoke .. | invokePolymorphic .. | invokeCustom .. =>
    [.declared, .counters, .result]
  | filledNewArray .. => [.result]
  | moveException _ => [.catches]
  | newInstance .. | throw _ => [.declared, .counters]
  | newArray .. => [.declared, .counters, .zeroed, .newArray]
  | fillArrayData .. => [.newArray, .fills]
  | arrayPayload .. => [.declared, .fills]
  | goto .. => [.edges]
  | branch .. | branchZero .. => [.declared, .edges]
  | switch .. => [.declared, .switches]
  | packedSwitchPayload .. | sparseSwitchPayload .. => [.edges, .switches]
  | instanceField .. | staticField .. => [.declared, .counters, .accesses]
  | _ => [.declared]

/-- The relations that an instruction may write to when it is done. -/
def relations : Instr → List Relation
  | nop | moveException _ | fillArrayData .. | goto .. | packedSwitchPayload ..
  | sparseSwitchPayload .. | optimized .. | unknown .. => []
  | move .. => [.varDeclaringMethod, .assignLocal, .statementType]
  | moveResult .. => MethodContext.resultRelations
  | returnVoid => [.returnVoid]
  | returnValue .. => [.varDeclaringMethod, .returnValue]
  | const .. | constWide .. => [.varDeclaringMethod, .assignNumConstant, .statementType]
  | constString .. => [.varDeclaringMethod, .assignHeapAllocation, .stringRaw, .stringConstant]
  | constClass .. => [.varDeclaringMethod, .assignHeapAllocation, .classHeap]
  | monitor .. => [.varDeclaringMethod, .enterMonitor, .exitMonitor]
  | checkCast .. => [.varDeclaringMethod, .assignCast]
  | instanceOf .. => [.varDeclaringMethod, .assignInstanceOf]
  | newInstance .. => [.varDeclaringMethod, .normalHeap, .assignHeapAllocation, .emptyArray]
  | newArray .. =>
    [.varDeclaringMethod, .arrayType, .componentType, .normalHeap, .assignHeapAllocation,
      .emptyArray]
  | filledNewArray .. => [.arrayType, .componentType]
  | throw _ => [.varDeclaringMethod, .throw]
  | switch .. => [.varDeclaringMethod, .tableSwitch, .lookupSwitch]
  | branch .. | branchZero .. => [.varDeclaringMethod, .ifVar, .operatorAt]
  | arrayAccess .. => [.varDeclaringMethod, .loadArrayIndex, .storeArrayIndex, .arrayInsnIndex]
  | instanceField .. | staticField .. => [.varDeclaringMethod]
  | invoke .. | invokePolymorphic .. => MethodContext.callRelations
  | invokeCustom .. =>
    [.varDeclaringMethod, .actualParam, .dynamicMethodInvocation,
      .dynamicMethodInvocationParamType, .stringRaw, .stringConstant]
  | arrayLength .. | unop .. =>
    [.varDeclaringMethod, .assignUnop, .assignOperFrom, .statementType]
  | compare .. | binop .. | binopInPlace .. | binopLiteral .. | binopSmallLiteral .. =>
    [.varDeclaringMethod, .assignBinop, .assignOperFrom, .statementType]
  | constMethodHandle .. => [.varDeclaringMethod, .assignHeapAllocation, .methodHandleConstant]
  | constMethodType .. =>
    [.varDeclaringMethod, .assignHeapAllocation, .methodTypeConstantParam, .methodTypeConstant]
  | arrayPayload .. => [.varDeclaringMethod, .numConstantRaw, .arrayInitialValueFromConst]

end Instr

namespace MethodContext

/-- The action of an instruction touches what the instruction may touch. -/
theorem Planned.footprint {cx : MethodContext} {here : LocatedInstr}
    {result : Option PendingResult} {action : MethodEmit Unit}
    (planned : cx.Planned here result action) :
    Footprint here.instr.parts here.instr.relations action := by
  unfold Planned at planned
  generalize here.instr = instr at planned ⊢
  cases instr with
  | nop => subst planned; exact .pure ()
  | move => subst planned; exact footprint_writeMove ..
  | moveResult => obtain ⟨_, -, -, rfl⟩ := planned; exact footprint_writeResult ..
  | moveException => subst planned; exact footprint_writeCatch ..
  | returnVoid => subst planned; exact footprint_writeReturnVoid ..
  | returnValue => subst planned; exact footprint_writeReturn ..
  | const => subst planned; exact footprint_writeNarrowNumber ..
  | constWide => subst planned; exact footprint_writeNumber _ _ _ _ (by simp [Instr.parts])
  | constString => obtain ⟨_, -, rfl⟩ := planned; exact footprint_writeString ..
  | constClass => obtain ⟨_, -, rfl⟩ := planned; exact footprint_writeClass ..
  | monitor => subst planned; exact footprint_writeMonitor ..
  | checkCast => obtain ⟨_, -, rfl⟩ := planned; exact footprint_writeCast ..
  | instanceOf => obtain ⟨_, -, rfl⟩ := planned; exact footprint_writeInstanceOf ..
  | arrayLength => subst planned; exact footprint_writeUnop ..
  | newInstance => obtain ⟨_, -, rfl⟩ := planned; exact footprint_writeNewInstance ..
  | newArray => obtain ⟨_, -, rfl⟩ := planned; exact footprint_writeNewArray ..
  | filledNewArray => obtain ⟨_, -, rfl⟩ := planned; exact footprint_writeFilledArray ..
  | fillArrayData => subst planned; exact footprint_writeFillArray ..
  | throw => subst planned; exact footprint_writeThrow ..
  | goto => subst planned; exact footprint_writeGoto ..
  | switch => subst planned; exact footprint_writeSwitch ..
  | compare => subst planned; exact footprint_writeBinop ..
  | branch => subst planned; exact footprint_writeBranch ..
  | branchZero => subst planned; exact footprint_writeBranch ..
  | arrayAccess => subst planned; exact footprint_writeArrayAccess ..
  | instanceField => obtain ⟨_, rfl⟩ := planned; exact footprint_writeFieldAccess ..
  | staticField => obtain ⟨_, rfl⟩ := planned; exact footprint_writeFieldAccess ..
  | invoke =>
    obtain ⟨call, -, -, rfl⟩ := planned
    exact (footprint_writeCall _ _ call).bind fun _ => .pure ()
  | unop => subst planned; exact footprint_writeUnop ..
  | binop => subst planned; exact footprint_writeBinop ..
  | binopInPlace => subst planned; exact footprint_writeBinop ..
  | binopLiteral => subst planned; exact footprint_writeBinopLiteral ..
  | binopSmallLiteral => subst planned; exact footprint_writeBinopLiteral ..
  | invokePolymorphic =>
    obtain ⟨_, -, -, rfl⟩ := planned
    exact footprint_writePolymorphicCall ..
  | invokeCustom => obtain ⟨_, rfl⟩ := planned; exact footprint_writeCustomCall ..
  | constMethodHandle =>
    rcases planned with ⟨_, rfl⟩ | ⟨_, rfl⟩
    · exact footprint_writeMethodHandle ..
    · exact footprint_writeFieldHandle ..
  | constMethodType => obtain ⟨_, -, rfl⟩ := planned; exact footprint_writeMethodType ..
  | packedSwitchPayload => subst planned; exact footprint_writeSwitchPayload ..
  | sparseSwitchPayload => subst planned; exact footprint_writeSwitchPayload ..
  | arrayPayload => subst planned; exact footprint_writeArrayPayload ..
  | optimized => subst planned; exact .notice cx rfl
  | unknown => exact planned.elim

end MethodContext

end DalvikFacts
