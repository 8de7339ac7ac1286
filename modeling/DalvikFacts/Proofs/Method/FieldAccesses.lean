import DalvikFacts.Proofs.Method.Recital

/-!
# Field accesses of methods

The field accesses that the extraction of a method leaves are those of its field instructions: each
goes to the field that its instruction names in the container, whatever was looked up before.
-/

namespace DalvikFacts

/-- The relation of the rows of a field instruction, and the position of the field that it names. -/
def Instr.fieldUse? : Instr → Option (Relation × Nat)
  | .instanceField access _ _ _ field => some (MethodContext.fieldRelation access true, field)
  | .staticField access _ _ field => some (MethodContext.fieldRelation access false, field)
  | _ => none

/-- A field access is that of an instruction of a method, to the field that the instruction
names. -/
structure FieldAccess.IsOf (container : Container) (method : String) (here : LocatedInstr)
    (access : FieldAccess) : Prop where
  method_eq : access.method = method
  index_eq : access.index = here.index
  names : ∃ position ref, here.instr.fieldUse? = some (access.relation, position) ∧
    container.fieldAt position = .ok ref ∧ access.field = .ofRef ref

namespace MethodContext

variable {cx : MethodContext} {here : LocatedInstr} {cache : SignatureCache}
  (knows : cache.Knows cx.container)

include knows

theorem exists_ref_of_fieldSig {index : Nat} {sig : FieldSig}
    (sig_eq : ((cx.fieldSig index).run.run.run cache).1 = .ok sig) :
    ∃ ref, cx.container.fieldAt index = .ok ref ∧ sig = .ofRef ref := by
  cases ref_eq : cx.container.fieldAt index with
  | ok ref =>
    have found := ((cx.settlesTo_fieldSig ref_eq).run knows).1
    exact ⟨ref, rfl, Except.ok.inj (sig_eq.symm.trans found)⟩
  | error missing =>
    have settles : (cx.fieldSig index).SettlesTo cx.container (.error (.missingEntry missing)) :=
      SignatureCache.settlesTo_field_missing ref_eq
    cases sig_eq.symm.trans (settles.run knows).1

theorem exists_ref_of_plan {index : Nat} {write : FieldSig → MethodEmit Unit}
    {action : MethodEmit Unit}
    (plan_eq : ((do return write (← cx.fieldSig index) : Lookup _).run.run.run cache).1 =
      .ok action) :
    ∃ ref, cx.container.fieldAt index = .ok ref ∧ action = write (.ofRef ref) := by
  rw [Lookup.run_bind] at plan_eq
  generalize outcome_eq : (cx.fieldSig index).run.run.run cache = outcome at plan_eq
  rcases outcome with ⟨error | sig, later⟩
  · cases plan_eq
  · obtain ⟨ref, ref_eq, rfl⟩ := exists_ref_of_fieldSig knows (congrArg Prod.fst outcome_eq)
    cases plan_eq
    exact ⟨ref, ref_eq, rfl⟩

omit knows in
theorem mem_accesses_writeFieldAccess {access : Access} {value : Reg} {object : Option Reg}
    {field : FieldSig} {state : MethodState} {found : FieldAccess}
    (member : found ∈
      ((cx.writeFieldAccess here access value object field).run state).state.accesses) :
    found ∈ state.accesses ∨ found.method = cx.id ∧ found.index = here.index ∧
      found.relation = fieldRelation access object.isSome ∧ found.field = field := by
  rw [(cx.says_writeFieldAccess here state access value object field).run] at member
  rcases Array.mem_push.1 member with early | rfl
  · exact .inl early
  · exact .inr ⟨rfl, rfl, rfl, rfl⟩

/-- One instruction leaves no field access but one to the field that it names. -/
theorem mem_accesses_of_plan {result : Option PendingResult} {action : MethodEmit Unit}
    (plan_eq : ((cx.plan here result).run.run.run cache).1 = .ok action) {state : MethodState}
    {access : FieldAccess} (member : access ∈ (action.run state).state.accesses) :
    access ∈ state.accesses ∨ access.IsOf cx.container cx.id here := by
  have planned := yields_plan cx here result cache action plan_eq
  have kept : .accesses ∉ here.instr.parts → access ∈ state.accesses := by
    intro untouched
    have same := planned.footprint.frame state .accesses untouched
    rwa [show (action.run state).state.accesses = state.accesses from same] at member
  unfold plan at plan_eq
  cases instr_eq : here.instr with
  | instanceField kind width value object index =>
    rw [instr_eq] at plan_eq
    obtain ⟨ref, ref_eq, rfl⟩ := exists_ref_of_plan knows plan_eq
    refine (mem_accesses_writeFieldAccess member).imp_right ?_
    rintro ⟨method_eq, index_eq, relation_eq, field_eq⟩
    exact ⟨method_eq, index_eq, index, ref, by rw [instr_eq, relation_eq]; rfl, ref_eq, field_eq⟩
  | staticField kind width value index =>
    rw [instr_eq] at plan_eq
    obtain ⟨ref, ref_eq, rfl⟩ := exists_ref_of_plan knows plan_eq
    refine (mem_accesses_writeFieldAccess member).imp_right ?_
    rintro ⟨method_eq, index_eq, relation_eq, field_eq⟩
    exact ⟨method_eq, index_eq, index, ref, by rw [instr_eq, relation_eq]; rfl, ref_eq, field_eq⟩
  | _ => exact .inl (kept (by simp [instr_eq, Instr.parts]))

theorem knows_of_plan (here : LocatedInstr) (result : Option PendingResult) :
    ((cx.plan here result).run.run.run cache).2.Knows cx.container := by
  have decided := cx.failsWith_plan here result
  cases fault_eq : cx.fault? here (result.map PendingResult.index) with
  | some error =>
    rw [fault_eq] at decided
    exact (Lookup.SettlesTo.run decided knows).2
  | none =>
    rw [fault_eq] at decided
    obtain ⟨action, settles⟩ := decided
    exact (settles.run knows).2

theorem mem_accesses_of_extractInstrs {instrs : List LocatedInstr} {state final : MethodState}
    (value_eq : ((cx.extractInstrs instrs state).run.perform cache).value = .ok final)
    {access : FieldAccess} (member : access ∈ final.accesses) :
    access ∈ state.accesses ∨ ∃ here ∈ instrs, access.IsOf cx.container cx.id here := by
  induction instrs generalizing state cache with
  | nil =>
    cases value_eq
    exact .inl member
  | cons here rest induction =>
    obtain ⟨action, plan_eq, rest_eq, -⟩ := Extract.exists_of_bind_ok cache value_eq
    rw [Extract.perform_within_bind] at rest_eq
    rw [Extract.perform_lookup] at plan_eq rest_eq
    rcases induction (knows_of_plan knows here _) rest_eq with early | ⟨next, next_mem, made⟩
    · exact (mem_accesses_of_plan knows plan_eq early).imp_right fun made =>
        ⟨here, List.mem_cons_self, made⟩
    · exact .inr ⟨next, List.mem_cons_of_mem _ next_mem, made⟩

theorem mem_accesses_of_extract {extracted : ExtractedMethod}
    (value_eq : (cx.extract.run.perform cache).value = .ok extracted) {access : FieldAccess}
    (member : access ∈ extracted.accesses) :
    ∃ here ∈ cx.definition.located, access.IsOf cx.container cx.id here := by
  have entered : cx.entryState.accesses = #[] := cx.entryState_same .accesses (by simp)
  cases code_eq : cx.definition.code with
  | none =>
    rw [cx.extract_of_none code_eq] at value_eq
    cases value_eq
    cases member
  | some code =>
    cases decode_eq : ((cx.extractInstrs code.located cx.entryState).run.perform cache).value with
    | error error =>
      rw [extract_of_error code_eq decode_eq] at value_eq
      cases value_eq
    | ok final =>
      rw [extract_of_ok code_eq decode_eq, (cx.says_finish code final).run] at value_eq
      cases value_eq
      have located_eq : cx.definition.located = code.located := by
        rw [MethodDef.located, code_eq]
        rfl
      rw [located_eq]
      rcases mem_accesses_of_extractInstrs knows decode_eq (Array.mem_toList_iff.1 member) with
        early | made
      · rw [entered] at early
        exact absurd early (Array.not_mem_empty access)
      · exact made

end MethodContext

/-- The field accesses that a method leaves are those of its instructions, to the fields that these
name. -/
theorem MethodDef.accesses_named {container : Container} {definition : MethodDef}
    {cache : SignatureCache} (knows : cache.Knows container) {extracted : ExtractedMethod}
    (value_eq : ((definition.extract container).run.perform cache).value = .ok extracted) :
    ∃ ref, container.methodAt definition.method = .ok ref ∧
      ∀ access ∈ extracted.accesses, ∃ here ∈ definition.located,
        access.IsOf container (MethodSig.ofRef ref).id here := by
  obtain ⟨cx, create_eq, extract_eq, -⟩ := Extract.exists_of_bind_ok cache value_eq
  obtain ⟨outcome, events, settles, -, created⟩ :=
    MethodContext.decided_create container definition
  obtain ⟨outcome_eq, later_knows, -⟩ := settles.perform knows
  obtain ⟨rfl, rfl, ref, ref_eq, sig_eq⟩ := created cx (outcome_eq.symm.trans create_eq)
  refine ⟨ref, ref_eq, fun access member => ?_⟩
  rw [← sig_eq]
  exact MethodContext.mem_accesses_of_extract later_knows extract_eq member

end DalvikFacts
