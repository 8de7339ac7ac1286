import DalvikFacts.Proofs.Signature

/-!
# Faults of instructions

What makes an instruction fail: an unknown opcode, a result that nothing has just made, an entry
that a table does not have, or an invocation with too few registers.  A plan fails exactly with the
fault of its instruction.
-/

namespace DalvikFacts

namespace Container

/-- The number of entries of a table. -/
def tableSize (container : Container) : Table → Nat
  | .type => container.types.size
  | .string => container.strings.size
  | .field => container.fields.size
  | .method => container.methods.size
  | .proto => container.protos.size
  | .methodHandle => container.methodHandles.size
  | .callSite => container.callSites.size

/-- Whether a position is beyond the end of its table. -/
def lacks (container : Container) (entry : MissingEntry) : Bool :=
  container.tableSize entry.table ≤ entry.index

/-- The position of the target of a method handle. -/
def targetEntry (handle : MethodHandle) : MissingEntry :=
  match handle.target with
  | .method index => ⟨.method, index⟩
  | .field index => ⟨.field, index⟩

/-- The positions that a use of a method handle refers to. -/
def handleNeeds (container : Container) (handle : Nat) : List MissingEntry :=
  ⟨.methodHandle, handle⟩ :: (container.methodHandles[handle]?.map targetEntry).toList

/-- The positions that a use of a call site refers to. -/
def callSiteNeeds (container : Container) (callSite : Nat) : List MissingEntry :=
  ⟨.callSite, callSite⟩ ::
    match container.callSites[callSite]? with
    | some site => ⟨.proto, site.proto⟩ :: container.handleNeeds site.bootstrap
    | none => []

/-- The positions in tables that an instruction refers to, in the order of their look-ups. -/
def needs (container : Container) : Instr → List MissingEntry
  | .constString _ _ string => [⟨.string, string⟩]
  | .constClass _ type | .checkCast _ type | .instanceOf _ _ type | .newInstance _ type
  | .newArray _ _ type | .filledNewArray _ type => [⟨.type, type⟩]
  | .instanceField _ _ _ _ field | .staticField _ _ _ field => [⟨.field, field⟩]
  | .invoke _ _ method => [⟨.method, method⟩]
  | .invokePolymorphic _ method proto => [⟨.method, method⟩, ⟨.proto, proto⟩]
  | .invokeCustom _ callSite => container.callSiteNeeds callSite
  | .constMethodHandle _ handle => container.handleNeeds handle
  | .constMethodType _ proto => [⟨.proto, proto⟩]
  | _ => []

end Container

/-- The registers of an invocation, and the parameters that they are walked with. -/
structure ArgumentShape where
  registers : List Reg
  params : List Descriptor
  hasReceiver : Bool

namespace ArgumentShape

/-- The number of registers behind the receiver. -/
def slots (shape : ArgumentShape) : Nat :=
  shape.registers.length - if shape.hasReceiver then 1 else 0

/-- The receiver, and the first register of each parameter. -/
def arguments (shape : ArgumentShape) : Arguments where
  receiver := if shape.hasReceiver then shape.registers.head? else none
  params :=
    Arguments.firstRegisters (shape.registers.drop (if shape.hasReceiver then 1 else 0))
      shape.params

/-- Whether there is no register for the receiver. -/
def lacksReceiver (shape : ArgumentShape) : Prop :=
  shape.hasReceiver = true ∧ shape.registers = []

/-- Whether there are fewer registers than the parameters take. -/
def lacksArguments (shape : ArgumentShape) : Prop :=
  shape.slots < Descriptor.totalWidth shape.params

instance (shape : ArgumentShape) : Decidable shape.lacksReceiver :=
  inferInstanceAs (Decidable (_ ∧ _))

instance (shape : ArgumentShape) : Decidable shape.lacksArguments :=
  inferInstanceAs (Decidable (_ < _))

/-- The failure for lack of registers. -/
def shortage? (shape : ArgumentShape) (method : String) : Option ExtractionError :=
  if shape.lacksReceiver then some (.missingReceiver method)
  else if shape.lacksArguments then
    some (.missingArguments method (Descriptor.totalWidth shape.params) shape.slots)
  else none

end ArgumentShape

/-- The registers and parameters of an invocation whose entries exist. -/
def Container.argumentShape? (container : Container) : Instr → Option ArgumentShape
  | .invoke kind args method =>
    container.methods[method]?.map fun ref =>
      ⟨args.registers, ref.params, (CallKind.ofInvoke kind).hasReceiver⟩
  | .invokePolymorphic args _ proto =>
    container.protos[proto]?.map fun proto => ⟨args.registers, proto.params, true⟩
  | .invokeCustom args callSite =>
    container.callSites[callSite]?.bind fun site =>
      container.protos[site.proto]?.map fun proto => ⟨args.registers, proto.params, false⟩
  | _ => none

namespace MethodContext

/-- The failure of an instruction that moves a result out, given the index of the one that waits. -/
def resultFault? (cx : MethodContext) (index : Nat) : Option Nat → Option ExtractionError
  | none => some (.missingResult cx.id index)
  | some producer =>
    if producer + 1 = index then none else some (.staleResult cx.id index producer)

/-- The failure of an instruction, given the index of the result that waits. -/
def fault? (cx : MethodContext) (here : LocatedInstr) (pending : Option Nat) :
    Option ExtractionError :=
  match here.instr with
  | .unknown .. =>
    some (.unknownOpcode cx.id here.instr.toString (Identifier.lineText (cx.line? here)))
  | .moveResult .. => cx.resultFault? here.index pending
  | instr =>
    (((cx.container.needs instr).find? cx.container.lacks).map .missingEntry).or
      ((cx.container.argumentShape? instr).bind (·.shortage? cx.id))

end MethodContext

/-- Whatever others look up meanwhile, the look-up fails with the error, if there is one, and gives
a certain value if there is none. -/
def Lookup.FailsWith {α : Type} (container : Container) (lookup : Lookup α)
    (fault : Option ExtractionError) : Prop :=
  match fault with
  | some error => lookup.SettlesTo container (.error error)
  | none => ∃ value, lookup.SettlesTo container (.ok value)

/-! ## Look-ups -/

/-- A position is in its table or beyond its end. -/
theorem Container.entry_cases {α : Type} (table : Table) (entries : Array α) (index : Nat) :
    (∃ found, entries[index]? = some found ∧ Container.entry table entries index = .ok found ∧
      index < entries.size) ∨
    (entries[index]? = none ∧ Container.entry table entries index = .error ⟨table, index⟩ ∧
      entries.size ≤ index) := by
  unfold entry
  by_cases inside : index < entries.size
  · exact .inl ⟨entries[index], by simp [inside], by simp [inside], inside⟩
  · have absent : entries[index]? = none := by simp; omega
    exact .inr ⟨absent, by rw [absent], by omega⟩

/-- Registers are split unless there are too few of them. -/
theorem ArgumentShape.split_eq (shape : ArgumentShape) (method : String) :
    Arguments.split method shape.registers shape.params shape.hasReceiver =
      match shape.shortage? method with
      | some error => .error error
      | none => .ok shape.arguments := by
  obtain ⟨registers, params, hasReceiver⟩ := shape
  cases hasReceiver with
  | false =>
    by_cases few : registers.length < Descriptor.totalWidth params <;>
      simp [shortage?, lacksReceiver, lacksArguments, slots, arguments, Arguments.split,
        Arguments.ofSlots, few]
  | true =>
    cases registers with
    | nil => simp [shortage?, lacksReceiver, Arguments.split]
    | cons receiver slots =>
      by_cases few : slots.length < Descriptor.totalWidth params <;>
        simp [shortage?, lacksReceiver, lacksArguments, ArgumentShape.slots, arguments,
          Arguments.split, Arguments.ofSlots, few]

namespace Lookup.FailsWith

variable {α β : Type} {container : Container} {lookup : Lookup α} {next : α → Lookup β}
  {fault : Option ExtractionError}

theorem map (fails : lookup.FailsWith container fault) (change : α → β) :
    (lookup >>= fun value => pure (change value)).FailsWith container fault := by
  cases fault with
  | some error => exact .bind_error fails
  | none =>
    obtain ⟨value, settles⟩ := fails
    exact ⟨change value, .bind_ok settles (.pure _)⟩

theorem bind_ok {value : α} (first : lookup.SettlesTo container (.ok value))
    (rest : (next value).FailsWith container fault) :
    (lookup >>= next).FailsWith container fault := by
  cases fault with
  | some error => exact .bind_ok first rest
  | none =>
    obtain ⟨last, settles⟩ := rest
    exact ⟨last, .bind_ok first settles⟩

theorem or_none (fails : lookup.FailsWith container fault) :
    lookup.FailsWith container (fault.or none) := by
  rwa [Option.or_none]

theorem ofSplit (method : String) (shape : ArgumentShape) :
    (Lookup.ofExcept
      (Arguments.split method shape.registers shape.params shape.hasReceiver)).FailsWith container
        (shape.shortage? method) := by
  rw [shape.split_eq]
  cases shape.shortage? method with
  | some error => exact .throw error
  | none => exact ⟨_, .pure _⟩

end Lookup.FailsWith

namespace Container

variable {container : Container}

theorem find_lacks_cons_of_lt {table : Table} {index : Nat} (rest : List MissingEntry)
    (inside : index < container.tableSize table) :
    (⟨table, index⟩ :: rest).find? container.lacks = rest.find? container.lacks := by
  simp [lacks, inside]

theorem find_lacks_cons_of_le {table : Table} {index : Nat} (rest : List MissingEntry)
    (beyond : container.tableSize table ≤ index) :
    (⟨table, index⟩ :: rest).find? container.lacks = some ⟨table, index⟩ := by
  simp [lacks, beyond]

end Container

namespace MethodContext

variable (cx : MethodContext) (here : LocatedInstr)

/-- The failure for want of one of several entries. -/
def missingFault? (entries : List MissingEntry) : Option ExtractionError :=
  (entries.find? cx.container.lacks).map .missingEntry

theorem failsWith_entry {α : Type} {table : Table} {entries : Array α} {index : Nat}
    (size_eq : cx.container.tableSize table = entries.size) :
    (Lookup.entry (Container.entry table entries index)).FailsWith cx.container
      (cx.missingFault? [⟨table, index⟩]) := by
  unfold missingFault?
  rcases Container.entry_cases table entries index with
    ⟨found, -, found_eq, inside⟩ | ⟨-, missing_eq, beyond⟩
  · rw [Container.find_lacks_cons_of_lt _ (size_eq ▸ inside)]
    exact ⟨found, .entry_ok found_eq⟩
  · rw [Container.find_lacks_cons_of_le _ (size_eq ▸ beyond)]
    exact .entry_error missing_eq

theorem failsWith_fieldSig (index : Nat) :
    (cx.fieldSig index).FailsWith cx.container (cx.missingFault? [⟨.field, index⟩]) := by
  unfold missingFault?
  rcases Container.entry_cases .field cx.container.fields index with
    ⟨ref, -, ref_eq, inside⟩ | ⟨-, missing_eq, beyond⟩
  · rw [Container.find_lacks_cons_of_lt _ inside]
    exact ⟨_, cx.settlesTo_fieldSig ref_eq⟩
  · rw [Container.find_lacks_cons_of_le _ beyond]
    exact SignatureCache.settlesTo_field_missing missing_eq

theorem failsWith_methodSig (index : Nat) :
    (cx.methodSig index).FailsWith cx.container (cx.missingFault? [⟨.method, index⟩]) := by
  unfold missingFault?
  rcases Container.entry_cases .method cx.container.methods index with
    ⟨ref, -, ref_eq, inside⟩ | ⟨-, missing_eq, beyond⟩
  · rw [Container.find_lacks_cons_of_lt _ inside]
    exact ⟨_, cx.settlesTo_methodSig ref_eq⟩
  · rw [Container.find_lacks_cons_of_le _ beyond]
    exact SignatureCache.settlesTo_method_missing missing_eq

theorem failsWith_handleTarget (handle : MethodHandle) :
    (cx.handleTarget handle).FailsWith cx.container
      (cx.missingFault? [Container.targetEntry handle]) := by
  unfold handleTarget Container.targetEntry
  cases handle.target with
  | method index => exact (cx.failsWith_methodSig index).map _
  | field index => exact (cx.failsWith_fieldSig index).map _

theorem failsWith_planMethodHandle (dst : Reg) (handle : Nat) :
    (cx.planMethodHandle here dst handle).FailsWith cx.container
      (cx.missingFault? (cx.container.handleNeeds handle)) := by
  unfold Container.handleNeeds planMethodHandle
  rcases Container.entry_cases .methodHandle cx.container.methodHandles handle with
    ⟨found, get_eq, found_eq, inside⟩ | ⟨get_eq, missing_eq, beyond⟩
  · rw [get_eq, missingFault?, Container.find_lacks_cons_of_lt _ inside]
    refine .bind_ok (.entry_ok found_eq) ?_
    rw [Option.map_some, Option.toList_some]
    unfold Container.targetEntry
    cases found.target with
    | method index => exact (cx.failsWith_methodSig index).map _
    | field index => exact (cx.failsWith_fieldSig index).map _
  · rw [missingFault?, Container.find_lacks_cons_of_le _ beyond]
    exact .bind_error (.entry_error missing_eq)

theorem failsWith_planCall (kind : CallKind) (args : Operands) (method : Nat) :
    (cx.planCall kind args method).FailsWith cx.container
      ((cx.missingFault? [⟨.method, method⟩]).or
        ((cx.container.methods[method]?.map fun ref =>
          (⟨args.registers, ref.params, kind.hasReceiver⟩ : ArgumentShape)).bind
            (·.shortage? cx.id))) := by
  unfold planCall missingFault?
  rcases Container.entry_cases .method cx.container.methods method with
    ⟨ref, get_eq, ref_eq, inside⟩ | ⟨-, missing_eq, beyond⟩
  · rw [Container.find_lacks_cons_of_lt _ inside, get_eq]
    exact .bind_ok (cx.settlesTo_methodSig ref_eq)
      ((Lookup.FailsWith.ofSplit cx.id ⟨args.registers, ref.params, kind.hasReceiver⟩).map _)
  · rw [Container.find_lacks_cons_of_le _ beyond]
    exact .bind_error (SignatureCache.settlesTo_method_missing missing_eq)

theorem failsWith_planPolymorphicCall (args : Operands) (method proto : Nat) :
    (cx.planPolymorphicCall args method proto).FailsWith cx.container
      ((cx.missingFault? [⟨.method, method⟩, ⟨.proto, proto⟩]).or
        ((cx.container.protos[proto]?.map fun proto =>
          (⟨args.registers, proto.params, true⟩ : ArgumentShape)).bind (·.shortage? cx.id))) := by
  unfold planPolymorphicCall missingFault?
  rcases Container.entry_cases .method cx.container.methods method with
    ⟨ref, -, ref_eq, inside⟩ | ⟨-, missing_eq, beyond⟩
  · rw [Container.find_lacks_cons_of_lt _ inside]
    refine .bind_ok (cx.settlesTo_methodSig ref_eq) ?_
    rcases Container.entry_cases .proto cx.container.protos proto with
      ⟨found, get_eq, found_eq, inside⟩ | ⟨-, missing_eq, beyond⟩
    · rw [Container.find_lacks_cons_of_lt _ inside, get_eq]
      exact .bind_ok (.entry_ok found_eq)
        ((Lookup.FailsWith.ofSplit cx.id ⟨args.registers, found.params, true⟩).map _)
    · rw [Container.find_lacks_cons_of_le _ beyond]
      exact .bind_error (.entry_error missing_eq)
  · rw [Container.find_lacks_cons_of_le _ beyond]
    exact .bind_error (SignatureCache.settlesTo_method_missing missing_eq)

theorem failsWith_planCustomCall (args : Operands) (callSite : Nat) :
    (cx.planCustomCall args callSite).FailsWith cx.container
      ((cx.missingFault? (cx.container.callSiteNeeds callSite)).or
        ((cx.container.callSites[callSite]?.bind fun site =>
          cx.container.protos[site.proto]?.map fun proto =>
            (⟨args.registers, proto.params, false⟩ : ArgumentShape)).bind
              (·.shortage? cx.id))) := by
  unfold planCustomCall missingFault? Container.callSiteNeeds
  rcases Container.entry_cases .callSite cx.container.callSites callSite with
    ⟨site, site_get, site_eq, inside⟩ | ⟨-, missing_eq, beyond⟩
  · rw [Container.find_lacks_cons_of_lt _ inside, site_get]
    refine .bind_ok (.entry_ok site_eq) ?_
    dsimp only
    rcases Container.entry_cases .proto cx.container.protos site.proto with
      ⟨proto, proto_get, proto_eq, inside⟩ | ⟨-, missing_eq, beyond⟩
    · rw [Container.find_lacks_cons_of_lt _ inside, Option.bind_some, proto_get]
      refine .bind_ok (.entry_ok proto_eq) ?_
      unfold Container.handleNeeds
      rcases Container.entry_cases .methodHandle cx.container.methodHandles site.bootstrap with
        ⟨handle, handle_get, handle_eq, inside⟩ | ⟨-, missing_eq, beyond⟩
      · rw [Container.find_lacks_cons_of_lt _ inside, handle_get]
        refine .bind_ok (.entry_ok handle_eq) ?_
        have target := cx.failsWith_handleTarget handle
        unfold missingFault? at target
        rw [Option.map_some, Option.toList_some]
        cases lacks_eq : [Container.targetEntry handle].find? cx.container.lacks with
        | some entry =>
          rw [lacks_eq] at target
          exact .bind_error target
        | none =>
          rw [lacks_eq] at target
          obtain ⟨bootstrap, settles⟩ := target
          exact .bind_ok settles
            ((Lookup.FailsWith.ofSplit cx.id ⟨args.registers, proto.params, false⟩).map _)
      · rw [Container.find_lacks_cons_of_le _ beyond]
        exact .bind_error (.entry_error missing_eq)
    · rw [Container.find_lacks_cons_of_le _ beyond]
      exact .bind_error (.entry_error missing_eq)
  · rw [Container.find_lacks_cons_of_le _ beyond]
    exact .bind_error (.entry_error missing_eq)

theorem failsWith_planResult (dst : Reg) (result : Option PendingResult) :
    (cx.planResult here dst result).FailsWith cx.container
      (cx.resultFault? here.index (result.map PendingResult.index)) := by
  unfold planResult
  cases result with
  | none => exact .throw _
  | some pending =>
    rw [Option.map_some, resultFault?]
    dsimp only
    split
    · exact ⟨_, .pure _⟩
    · exact .throw _

/-- A plan fails exactly with the fault of its instruction. -/
theorem failsWith_plan (result : Option PendingResult) :
    (cx.plan here result).FailsWith cx.container
      (cx.fault? here (result.map PendingResult.index)) := by
  unfold plan fault?
  cases instr_eq : here.instr with
  | unknown opcode units => exact .throw _
  | moveResult kind dst => exact cx.failsWith_planResult here dst result
  | invoke kind args method => exact (cx.failsWith_planCall _ args method).map _
  | invokePolymorphic args method proto =>
    exact (cx.failsWith_planPolymorphicCall args method proto).map _
  | invokeCustom args callSite => exact (cx.failsWith_planCustomCall args callSite).map _
  | constMethodHandle dst handle => exact (cx.failsWith_planMethodHandle here dst handle).or_none
  | instanceField access kind value object field =>
    exact ((cx.failsWith_fieldSig field).map _).or_none
  | staticField access kind value field => exact ((cx.failsWith_fieldSig field).map _).or_none
  | constString | constClass | checkCast | instanceOf | newInstance | newArray | filledNewArray
  | constMethodType => exact ((cx.failsWith_entry rfl).map _).or_none
  | _ => exact ⟨_, .pure _⟩

end MethodContext

end DalvikFacts
