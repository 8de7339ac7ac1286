import DalvikFacts.Proofs.Method.CallingConvention

/-!
# Registers of parameters

The receiver and the parameters of a method stand in the last registers of its body, at their slots.
The header names their variables by these slots, and the body names the variable of a register by
its number, once the method knows how many registers stand below the parameters.
-/

namespace DalvikFacts

namespace Identifier

variable {method : String} {number other : Nat}

theorem localVariable_inj :
    localVariable method number = localVariable method other ↔ number = other := by
  constructor
  · intro same
    have letters := congrArg String.toList same
    simp only [localVariable, String.toList_append, List.append_cancel_left_eq] at letters
    exact Nat.repr_injective (String.toList_inj.1 letters)
  · exact congrArg _

theorem parameter_inj : parameter method number = parameter method other ↔ number = other := by
  constructor
  · intro same
    have letters := congrArg String.toList same
    simp only [parameter, String.toList_append, List.append_cancel_left_eq] at letters
    exact Nat.repr_injective (String.toList_inj.1 letters)
  · exact congrArg _

theorem localVariable_ne_parameter : localVariable method number ≠ parameter method other := by
  intro same
  have letters := congrArg String.toList same
  simp [localVariable, parameter] at letters

end Identifier

namespace MethodContext

variable {cx : MethodContext}

/-! ## Variables of registers -/

/-- The body gives a variable to a register when an instruction that uses the register, in whatever
state, has this variable for it. -/
def Gives (cx : MethodContext) (reg : Reg) (var : String) : Prop :=
  ∃ state, ((cx.use reg).run state).value = var

theorem value_use (reg : Reg) (state : MethodState) :
    ((cx.use reg).run state).value = cx.variableOf reg := by
  rw [(Says.use reg).run]

theorem gives_iff {reg : Reg} {var : String} : cx.Gives reg var ↔ cx.variableOf reg = var := by
  constructor
  · rintro ⟨state, given⟩
    rw [← given, value_use]
  · intro own
    exact ⟨.start, by rw [value_use, own]⟩

theorem variableOf_eq_parameter_iff {reg : Reg} {slot : Nat} :
    cx.variableOf reg = Identifier.parameter cx.id slot ↔
      reg.number.toNat = cx.localCount + slot := by
  unfold variableOf
  split
  next below => exact iff_of_false Identifier.localVariable_ne_parameter (by omega)
  next above =>
    rw [Identifier.parameter_inj]
    omega

theorem variableOf_injective : Function.Injective cx.variableOf := by
  intro reg other same
  have number_eq : reg.number.toNat = other.number.toNat := by
    by_cases below : reg.number.toNat < cx.localCount
    · by_cases other_below : other.number.toNat < cx.localCount
      · rw [variableOf, variableOf, if_pos below, if_pos other_below] at same
        exact Identifier.localVariable_inj.1 same
      · rw [variableOf, variableOf, if_pos below, if_neg other_below] at same
        exact absurd same Identifier.localVariable_ne_parameter
    · have named : cx.variableOf reg =
          Identifier.parameter cx.id (reg.number.toNat - cx.localCount) := if_neg below
      rw [same, variableOf_eq_parameter_iff] at named
      omega
  obtain ⟨number⟩ := reg
  obtain ⟨count⟩ := other
  exact congrArg Reg.mk (UInt16.toNat_inj.1 number_eq)

/-! ## Variables of the header -/

theorem thisRows_headerOutputs :
    rowsIn .thisVar (factsAmong cx.headerOutputs) =
      if cx.definition.isStatic then [] else [[cx.id, Identifier.receiver cx.id]] := by
  have parameters : ∀ parameter,
      rowsIn .thisVar (factsAmong (cx.parameterOutputs parameter)) = [] := by
    intro parameter
    rw [parameterOutputs, factsAmong_append, rowsIn_append, factsAmong_map_row, rowsIn_map]
    simp
  have receiver : rowsIn .thisVar (factsAmong cx.thisOutputs) =
      [[cx.id, Identifier.receiver cx.id]] := by
    simp [thisOutputs]
  rw [rowsIn_headerOutputs (by decide), receiver,
    List.flatMap_eq_nil_iff.2 fun parameter _ => parameters parameter, List.nil_append]

theorem rowsOf_thisVar_extract (cache : SignatureCache) :
    rowsOf .thisVar (cx.extract.run.perform cache).events =
      if cx.definition.isStatic then [] else [[cx.id, Identifier.receiver cx.id]] := by
  rw [rowsOf_extract_eq_header (by decide) (by decide), thisRows_headerOutputs]

/-! ## Registers below the parameters -/

/-- Below the parameters stand the registers that the body has beyond their width. -/
theorem localCount_of_create {container : Container} {definition : MethodDef} {ref : MethodRef}
    {code : CodeItem} {cache : SignatureCache}
    (created : ((create container definition).run.perform cache).value = .ok cx)
    (sig_eq : cx.sig = .ofRef ref) (code_eq : definition.code = some code) :
    cx.localCount = code.registers -
      (receiverSlots (!definition.isStatic) + Descriptor.totalWidth ref.params) := by
  obtain ⟨found, -, rest_eq, -⟩ := Extract.exists_of_bind_ok cache created
  have built : cx = ⟨container, definition, found.value,
      code.registers - parameterWidth definition found.value⟩ := by
    unfold ofSig at rest_eq
    simp only [code_eq] at rest_eq
    split at rest_eq
    · rw [Extract.perform_emit_bind] at rest_eq
      exact (Except.ok.inj rest_eq).symm
    · exact (Except.ok.inj rest_eq).symm
  have width_eq : parameterWidth definition cx.sig =
      receiverSlots (!definition.isStatic) + Descriptor.totalWidth ref.params := by
    rw [sig_eq, parameterWidth, receiverSlots, Nat.add_comm]
    cases definition.isStatic <;> rfl
  rw [← width_eq, built]

end MethodContext

/-! ## Methods -/

/-- Parameters stand in registers.  In the body of a method each register has a variable of its own.
Let `first` be the first register behind those below the parameters.  The variable that the header
gives to a parameter is that of the one register at the slot of the parameter behind `first`, and
the variable of the receiver is that of `first` itself.  So no register below has a variable that
the header gives out.  A body with too few registers has none below the parameters. -/
theorem parameter_registers {container : Container} {definition : MethodDef} {ref : MethodRef}
    {code : CodeItem} {cache : SignatureCache} (knows : cache.Knows container)
    (ref_eq : container.methodAt definition.method = .ok ref)
    (code_eq : definition.code = some code) :
    let width := receiverSlots (!definition.isStatic) + Descriptor.totalWidth ref.params
    let first := code.registers - width
    let events := ((definition.extract container).run cache).events
    ∃ (cx : MethodContext) (formal : Nat → String) (this : String),
      ((MethodContext.create container definition).run cache).value = .ok cx ∧
      (∀ reg, ∃ var, ∀ state, ((cx.use reg).run state).value = var) ∧
      (∀ reg other var, cx.Gives reg var → cx.Gives other var → reg = other) ∧
      rowsOf .formalParam events = ((List.range ref.params.length).map fun position =>
        [toString position, cx.id, formal position]) ∧
      rowsOf .thisVar events = (if definition.isStatic then [] else [[cx.id, this]]) ∧
      (∀ position < ref.params.length, ∀ reg, cx.Gives reg (formal position) ↔
        reg.number.toNat = first + receiverSlots (!definition.isStatic) +
          Descriptor.totalWidth (ref.params.take position)) ∧
      (∀ reg, cx.Gives reg this ↔ reg.number.toNat = first) ∧
      ∀ reg var, reg.number.toNat < first → cx.Gives reg var →
        ∀ row ∈ rowsOf .formalParam events ++ rowsOf .thisVar events, row.getLast? ≠ some var := by
  intro width first events
  obtain ⟨cx, create_eq, later_knows, container_eq, definition_eq, sig_eq⟩ :=
    MethodContext.exists_create knows ref_eq
  have count_eq : cx.localCount = first :=
    MethodContext.localCount_of_create create_eq sig_eq code_eq
  have behind : ∀ relation, rowsOf relation events = rowsOf relation
      (cx.extract.run.perform
        ((MethodContext.create container definition).run.perform cache).state).events := by
    intro relation
    have events_eq : events = _ :=
      congrArg Emitted.events (Extract.perform_bind_of_ok cache create_eq)
    obtain ⟨-, -, quiet, -⟩ := cx.create_outcome create_eq
    rw [events_eq, rowsOf_append, quiet.rowsOf_eq_nil List.not_mem_nil, List.nil_append]
  have formal_rows : rowsOf .formalParam events =
      MethodContext.formalRows cx.id (!definition.isStatic) ref.params := by
    rw [behind, MethodContext.rowsOf_formalParam_extract sig_eq, definition_eq]
  have this_rows : rowsOf .thisVar events =
      if definition.isStatic then [] else [[cx.id, Identifier.receiver cx.id]] := by
    rw [behind, MethodContext.rowsOf_thisVar_extract, definition_eq]
  have gives_parameter : ∀ reg slot, cx.Gives reg (Identifier.parameter cx.id slot) ↔
      reg.number.toNat = first + slot := by
    intro reg slot
    rw [MethodContext.gives_iff, MethodContext.variableOf_eq_parameter_iff, count_eq]
  refine ⟨cx, fun position => Identifier.parameter cx.id
      (argumentSlot (!definition.isStatic) ref.params position), Identifier.receiver cx.id,
    create_eq, fun reg => ⟨cx.variableOf reg, MethodContext.value_use reg⟩,
    fun reg other var given others => ?_, formal_rows, this_rows, fun position _ reg => ?_,
    fun reg => gives_parameter reg 0, fun reg var below given row member last => ?_⟩
  · rw [MethodContext.gives_iff] at given others
    exact MethodContext.variableOf_injective (given.trans others.symm)
  · rw [gives_parameter, argumentSlot, Nat.add_assoc]
  · -- every such row ends with the variable of a slot, and slots stand behind `first`
    have slotted : ∃ slot, var = Identifier.parameter cx.id slot := by
      rw [formal_rows, this_rows, List.mem_append] at member
      rcases member with formal | receiver
      · obtain ⟨position, -, rfl⟩ := List.mem_map.1 formal
        exact ⟨_, (Option.some.inj last).symm⟩
      · split at receiver
        · cases receiver
        · cases List.mem_singleton.1 receiver
          exact ⟨0, (Option.some.inj last).symm⟩
    obtain ⟨slot, rfl⟩ := slotted
    rw [gives_parameter] at given
    omega

/-- A method with a receiver, a wide parameter and a narrow one, and two registers below them. -/
def spacious : MethodDef :=
  { loneMethod [] with
    flags := ⟨1⟩
    code := some { registers := 6, instructions := [.returnVoid], tries := [], debugItems := [] } }

/-- Behind two registers stand the receiver, the two registers of the wide parameter, and the
register of the other one. -/
theorem parameter_registers_spacious :
    let var := Identifier.parameter "<Lone: void put(long,int)>"
    ∃ cx : MethodContext,
      ((MethodContext.create pairedContainer spacious).run .empty).value = .ok cx ∧
      cx.Gives ⟨2⟩ (var 0) ∧ cx.Gives ⟨3⟩ (var 1) ∧ cx.Gives ⟨5⟩ (var 3) ∧
      ∀ var, cx.Gives ⟨1⟩ var → ∀ row ∈
        rowsOf .thisVar ((spacious.extract pairedContainer).run .empty).events,
          row.getLast? ≠ some var := by
  have created : ((MethodContext.create pairedContainer spacious).run .empty).value =
      .ok ⟨pairedContainer, spacious,
        .ofRef ⟨.object "Lone", "put", [.primitive .long, .primitive .int], .void⟩, 2⟩ := by
    cbv
  have formal_rows_eq : rowsOf .formalParam
      ((spacious.extract pairedContainer).run .empty).events =
      let id := "<Lone: void put(long,int)>"
      [["0", id, Identifier.parameter id 1], ["1", id, Identifier.parameter id 3]] := by
    cbv
  have this_rows_eq : rowsOf .thisVar ((spacious.extract pairedContainer).run .empty).events =
      let id := "<Lone: void put(long,int)>"
      [[id, Identifier.parameter id 0]] := by
    cbv
  obtain ⟨cx, formal, this, create_eq, -, -, formal_rows, this_rows, formals, receiver, below⟩ :=
    @parameter_registers pairedContainer spacious _ _ _ SignatureCache.knows_empty rfl rfl
  intro var
  cases create_eq.symm.trans created
  have wide_eq : formal 0 = var 1 := Option.some.inj <|
    congrArg (·.head?.bind List.getLast?) (formal_rows.symm.trans formal_rows_eq)
  have narrow_eq : formal 1 = var 3 := Option.some.inj <|
    congrArg (·.getLast?.bind List.getLast?) (formal_rows.symm.trans formal_rows_eq)
  have own_eq : this = var 0 := Option.some.inj <|
    congrArg (·.head?.bind List.getLast?) (this_rows.symm.trans this_rows_eq)
  refine ⟨_, created, own_eq ▸ (receiver _).2 rfl, wide_eq ▸ (formals 0 (by decide) _).2 rfl,
    narrow_eq ▸ (formals 1 (by decide) _).2 rfl, fun lower given row member => ?_⟩
  exact below ⟨1⟩ lower (by decide) given row (List.mem_append_right _ member)

end DalvikFacts
