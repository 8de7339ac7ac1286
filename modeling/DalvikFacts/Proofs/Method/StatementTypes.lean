import DalvikFacts.Proofs.Identifier
import DalvikFacts.Proofs.Method.CaughtExceptions
import DalvikFacts.Proofs.Method.Recital
import Mathlib.Data.List.Permutation

/-!
# Statement types

Moves, numbers, operations and conversions have a statement type, and other instructions have none.
The types are kept in a table beside the actions that carry instructions out, and the two agree:
the row of an assignment of these families is followed by the row of its type before the next
instruction is read, no other instruction has a row of either sort, and no type is ever missing.
This holds up to the instruction that fails, if one does.
-/

namespace DalvikFacts

/-- The relations of assignments with a statement type. -/
def typedRelations : List Relation :=
  [.assignLocal, .assignNumConstant, .assignUnop, .assignBinop]

/-- The relation of the assignment of an instruction, if it is one with a statement type. -/
def Instr.typedRelation? : Instr → Option Relation
  | move .. => some .assignLocal
  | const .. | constWide .. => some .assignNumConstant
  | arrayLength .. | unop .. => some .assignUnop
  | compare .. | binop .. | binopInPlace .. | binopLiteral .. | binopSmallLiteral .. =>
    some .assignBinop
  | _ => none

/-- The rows of assignments with a statement type among events. -/
def assignmentsOf (events : List Event) : List Fact :=
  (factsOf events).filter (·.relation ∈ typedRelations)

/-- The rows of assignments with a statement type and of statement types among facts. -/
def typingsAmong (facts : List Fact) : List Fact :=
  facts.filter (·.relation ∈ .statementType :: typedRelations)

/-- The rows of one instruction about its type: none, or its assignment and then its type. -/
inductive TypingRows (insn : String) (instr : Instr) : List Fact → Prop
  | untyped (relation_eq : instr.typedRelation? = none) (type_eq : instr.statementType? = none) :
    TypingRows insn instr []
  | typed {relation : Relation} {type : StatementType} {columns : List String}
    (relation_eq : instr.typedRelation? = some relation)
    (type_eq : instr.statementType? = some type) :
    TypingRows insn instr [⟨relation, insn :: columns⟩,
      ⟨.statementType, [insn, type.operand.name, type.result.name]⟩]

theorem Instr.mem_typedRelations {instr : Instr} {relation : Relation}
    (relation_eq : instr.typedRelation? = some relation) : relation ∈ typedRelations := by
  unfold typedRelation? at relation_eq
  split at relation_eq <;> simp_all [typedRelations]

theorem typingsAmong_append (facts others : List Fact) :
    typingsAmong (facts ++ others) = typingsAmong facts ++ typingsAmong others :=
  List.filter_append ..

theorem assignmentsOf_append (events others : List Event) :
    assignmentsOf (events ++ others) = assignmentsOf events ++ assignmentsOf others := by
  rw [assignmentsOf, factsOf_append, List.filter_append]
  rfl

theorem assignmentsOf_eq (events : List Event) :
    assignmentsOf events =
      (typingsAmong (factsOf events)).filter (·.relation ∈ typedRelations) := by
  rw [assignmentsOf, typingsAmong, List.filter_filter]
  refine List.filter_congr fun fact _ => ?_
  by_cases member : fact.relation ∈ typedRelations <;> simp [member]

theorem rowsOf_statementType_eq (events : List Event) :
    rowsOf .statementType events = rowsIn .statementType (typingsAmong (factsOf events)) := by
  rw [rowsOf, rowsIn, typingsAmong, List.filter_filter]
  congr 1
  refine List.filter_congr fun fact _ => ?_
  by_cases same : fact.relation = .statementType <;> simp [same]

/-- The identifier of an instruction with a type. -/
def Instr.typedInsn? (insn : String) (instr : Instr) : Option String :=
  instr.statementType?.map fun _ => insn

namespace TypingRows

variable {insn : String} {instr : Instr} {facts : List Fact}

/-- The assignment with a type bears the identifier of the instruction. -/
theorem assignments (rows : TypingRows insn instr facts) :
    (facts.filter (·.relation ∈ typedRelations)).map (·.columns.head?) =
      (instr.typedInsn? insn).toList.map some := by
  cases rows with
  | untyped relation_eq type_eq => simp [Instr.typedInsn?, type_eq]
  | typed relation_eq type_eq =>
    have typed := Instr.mem_typedRelations relation_eq
    have other : Relation.statementType ∉ typedRelations := by decide
    simp [Instr.typedInsn?, type_eq, typed, other]

/-- The statement type bears the identifier of the instruction. -/
theorem types (rows : TypingRows insn instr facts) :
    (rowsIn .statementType facts).map List.head? = (instr.typedInsn? insn).toList.map some := by
  cases rows with
  | untyped relation_eq type_eq => simp [Instr.typedInsn?, type_eq]
  | @typed relation type columns relation_eq type_eq =>
    have other : relation ≠ .statementType := by
      rintro rfl
      exact absurd (Instr.mem_typedRelations relation_eq) (by decide)
    simp [Instr.typedInsn?, type_eq, other]

end TypingRows

/-- Whether a notice reports an instruction without statement type. -/
def Notice.lacksType : Notice → Bool
  | .method _ (.noStatementType _) => true
  | _ => false

theorem Notice.lacksType_of_isOfInstruction (notice : Notice)
    (own : notice.isOfInstruction = true) : notice.lacksType = false := by
  unfold lacksType
  split
  · cases own
  · rfl

/-- Events about no type: they have none of its rows, and report none that is missing. -/
structure Typeless (events : List Event) : Prop where
  rows : typingsAmong (factsOf events) = []
  reports : ∀ notice ∈ noticesOf events, notice.lacksType = false

namespace Typeless

variable {events others : List Event}

theorem nil : Typeless [] :=
  ⟨rfl, fun _ member => by cases member⟩

theorem append (early : Typeless events) (late : Typeless others) :
    Typeless (events ++ others) where
  rows := by rw [factsOf_append, typingsAmong_append, early.rows, late.rows, List.append_nil]
  reports := by
    rw [noticesOf_append]
    exact List.forall_mem_append.2 ⟨early.reports, late.reports⟩

theorem assignments (typeless : Typeless events) : assignmentsOf events = [] := by
  rw [assignmentsOf_eq, typeless.rows]
  rfl

theorem types (typeless : Typeless events) : rowsOf .statementType events = [] := by
  rw [rowsOf_statementType_eq, typeless.rows]
  rfl

end Typeless

theorem Instr.notMem_relations_of_untyped {instr : Instr} (untyped : instr.statementType? = none) :
    ∀ relation ∈ instr.relations, relation ∉ .statementType :: typedRelations := by
  cases instr <;>
    simp_all [statementType?, relations, typedRelations, MethodContext.callRelations,
      MethodContext.resultRelations]

namespace MethodContext

variable {cx : MethodContext} {here : LocatedInstr} {state next : MethodState}
  {outputs : List Output}

/-! ## One instruction -/

theorem typingRows_of_typing {relation : Relation} {type : StatementType} {columns : List String}
    (front : List Output) (relation_eq : here.instr.typedRelation? = some relation)
    (type_eq : here.instr.statementType? = some type)
    (front_eq : typingsAmong (factsAmong front) =
      [⟨relation, cx.assignInsn here.index :: columns⟩]) :
    TypingRows (cx.assignInsn here.index) here.instr
      (typingsAmong (factsAmong (front ++ [cx.typing here]))) := by
  have typing_eq : typingsAmong (factsAmong [cx.typing here]) = [⟨.statementType,
      [cx.assignInsn here.index, type.operand.name, type.result.name]⟩] := by
    rw [typing, type_eq]
    rfl
  rw [factsAmong_append, typingsAmong_append, front_eq, typing_eq]
  exact .typed relation_eq type_eq

/-- The actions of instructions agree with the table of types: where it has a type, the type is told
behind the assignment, and where it has none, there is no such assignment. -/
theorem Tells.typingRows (told : cx.Tells here state outputs next)
    (within : ∀ fact ∈ factsAmong outputs, fact.relation ∈ here.instr.relations) :
    TypingRows (cx.assignInsn here.index) here.instr (typingsAmong (factsAmong outputs)) := by
  have untyped : here.instr.typedRelation? = none → here.instr.statementType? = none →
      TypingRows (cx.assignInsn here.index) here.instr (typingsAmong (factsAmong outputs)) := by
    intro relation_eq type_eq
    have rows_eq : typingsAmong (factsAmong outputs) = [] := by
      rw [typingsAmong, List.filter_eq_nil_iff]
      intro fact member
      simpa using Instr.notMem_relations_of_untyped type_eq _ (within fact member)
    rw [rows_eq]
    exact .untyped relation_eq type_eq
  cases told with
  | move instr_eq =>
    exact typingRows_of_typing [_, _, _] (by rw [instr_eq]; rfl) (by rw [instr_eq]; rfl) rfl
  | const instr_eq | constWide instr_eq =>
    exact typingRows_of_typing [_, _] (by rw [instr_eq]; rfl) (by rw [instr_eq]; rfl) rfl
  | arrayLength instr_eq | unop instr_eq | binopLiteral instr_eq | binopSmallLiteral instr_eq =>
    exact typingRows_of_typing [_, _, _, _] (by rw [instr_eq]; rfl) (by rw [instr_eq]; rfl) rfl
  | compare instr_eq | binop instr_eq | binopInPlace instr_eq =>
    exact typingRows_of_typing [_, _, _, _, _, _] (by rw [instr_eq]; rfl) (by rw [instr_eq]; rfl)
      rfl
  | _ =>
    -- The remaining instructions are in neither table; their footprints keep the rows away.
    refine untyped ?_ ?_ <;> simp [Instr.typedRelation?, Instr.statementType?, *]

/-- What an instruction gives out while it is decoded: its rows about types, and no report that its
type is missing. -/
structure Section (cx : MethodContext) (here : LocatedInstr) (part : List Event) : Prop where
  decoded : ∃ state known, part = ((cx.extractInstrs [here] state).run known).events
  rows : TypingRows (cx.assignInsn here.index) here.instr (typingsAmong (factsOf part))
  reports : ∀ notice ∈ noticesOf part, notice.lacksType = false

/-- An instruction that can be planned gives out its section. -/
theorem section_of_plan {action : MethodEmit Unit} {cache : SignatureCache}
    (plan_eq : ((Extract.lookup (cx.plan here state.carry.result)).run.perform cache).value =
      .ok action) :
    cx.Section here (action.run (state.reach here.address here.index)).events := by
  have planned : cx.Planned here (state.reach here.address here.index).carry.result action := by
    rw [Extract.perform_lookup] at plan_eq
    exact yields_plan cx here _ _ action plan_eq
  obtain ⟨outputs, next, spoken, told⟩ := planned.tells
  have written := planned.footprint.within (state.reach here.address here.index)
  rw [spoken.run] at written
  have within : ∀ fact ∈ factsAmong outputs, fact.relation ∈ here.instr.relations :=
    fun fact member => written.facts fact ((mem_factsOf _).1 (cx.mem_factsOf_render member _))
  refine ⟨⟨state, cache, ?_⟩, ?_, ?_⟩
  · rw [perform_extractInstrs_of_ok plan_eq]
    exact (List.append_nil _).symm
  · rw [spoken.run, typingsAmong, cx.filter_factsOf_render (· ∈ .statementType :: typedRelations)
      (by decide)]
    exact told.typingRows within
  · rw [spoken.run]
    intro notice member
    rw [noticesOf_render] at member
    exact notice.lacksType_of_isOfInstruction (told.notices notice member)

/-! ## Successive instructions -/

/-- Instructions give out their sections, one after the other, up to the first one that fails. -/
theorem exists_sections (instrs : List LocatedInstr) (state : MethodState)
    (cache : SignatureCache) :
    ∃ (front : List LocatedInstr) (parts : List (List Event)), front <+: instrs ∧
      ((cx.extractInstrs instrs state).run.perform cache).events = parts.flatten ∧
      List.Forall₂ cx.Section front parts ∧
      ∀ final, ((cx.extractInstrs instrs state).run.perform cache).value = .ok final →
        front = instrs := by
  induction instrs generalizing state cache with
  | nil => exact ⟨[], [], List.prefix_refl _, rfl, .nil, fun _ _ => rfl⟩
  | cons here rest induction =>
    cases plan_eq : ((Extract.lookup
        (cx.plan here state.carry.result)).run.perform cache).value with
    | error error =>
      -- An instruction that fails gives nothing out, so the log ends with the one before it.
      rw [perform_extractInstrs_of_error plan_eq]
      exact ⟨[], [], List.nil_prefix, rfl, .nil, fun final value_eq => by cases value_eq⟩
    | ok action =>
      obtain ⟨front, parts, within, events_eq, sections, complete⟩ :=
        induction (action.run (state.reach here.address here.index)).state
          ((Extract.lookup (cx.plan here state.carry.result)).run.perform cache).state
      rw [perform_extractInstrs_of_ok plan_eq]
      refine ⟨here :: front, _ :: parts, ?_, ?_, .cons (section_of_plan plan_eq) sections, ?_⟩
      · exact (List.prefix_cons_inj here).2 within
      · exact congrArg (_ ++ ·) events_eq
      · exact fun final value_eq => congrArg (here :: ·) (complete final value_eq)

/-- The identifiers of the instructions with a type. -/
def typedInsns (cx : MethodContext) (instrs : List LocatedInstr) : List String :=
  instrs.filterMap fun here => here.instr.typedInsn? (cx.assignInsn here.index)

/-- Over successive instructions, assignments with a type and types bear the same identifiers. -/
theorem Section.flatten {front : List LocatedInstr} {parts : List (List Event)}
    (sections : List.Forall₂ cx.Section front parts) :
    (assignmentsOf parts.flatten).map (·.columns.head?) = (cx.typedInsns front).map some ∧
      (rowsOf .statementType parts.flatten).map List.head? = (cx.typedInsns front).map some ∧
      ∀ notice ∈ noticesOf parts.flatten, notice.lacksType = false := by
  induction sections with
  | nil => exact ⟨rfl, rfl, fun notice member => by cases member⟩
  | @cons here part rest others own later induction =>
    obtain ⟨assignments_eq, types_eq, reports⟩ := induction
    have first_assignments := own.rows.assignments
    have first_types := own.rows.types
    rw [← assignmentsOf_eq] at first_assignments
    rw [← rowsOf_statementType_eq] at first_types
    have insns_eq : cx.typedInsns (here :: rest) =
        (here.instr.typedInsn? (cx.assignInsn here.index)).toList ++ cx.typedInsns rest := by
      simp only [typedInsns, List.filterMap_eq_flatMap_toList, List.flatMap_cons]
    rw [List.flatten_cons, insns_eq, List.map_append]
    refine ⟨?_, ?_, ?_⟩
    · rw [assignmentsOf_append, List.map_append, first_assignments, assignments_eq]
    · rw [rowsOf_append, List.map_append, first_types, types_eq]
    · rw [noticesOf_append]
      exact List.forall_mem_append.2 ⟨own.reports, reports⟩

/-- In a log that is cut at the instructions, assignments with a type and types bear the identifiers
of the instructions with a type, and no type is reported missing. -/
theorem Section.log {entry ending : List Event} {front : List LocatedInstr}
    {parts : List (List Event)} (before : Typeless entry) (behind : Typeless ending)
    (sections : List.Forall₂ cx.Section front parts) :
    (assignmentsOf (entry ++ (parts.flatten ++ ending))).map (·.columns.head?) =
        (cx.typedInsns front).map some ∧
      (rowsOf .statementType (entry ++ (parts.flatten ++ ending))).map List.head? =
        (cx.typedInsns front).map some ∧
      ∀ notice ∈ noticesOf (entry ++ (parts.flatten ++ ending)), notice.lacksType = false := by
  obtain ⟨assignments_eq, types_eq, reports⟩ := Section.flatten sections
  refine ⟨?_, ?_, ?_⟩
  · rw [assignmentsOf_append, assignmentsOf_append, before.assignments, behind.assignments,
      List.nil_append, List.append_nil, assignments_eq]
  · rw [rowsOf_append, rowsOf_append, before.types, behind.types, List.nil_append,
      List.append_nil, types_eq]
  · rw [noticesOf_append, noticesOf_append]
    exact List.forall_mem_append.2
      ⟨before.reports, List.forall_mem_append.2 ⟨reports, behind.reports⟩⟩

theorem nodup_typedInsns {instrs : List LocatedInstr}
    (ascending : instrs.Pairwise fun first second => first.index < second.index) :
    (cx.typedInsns instrs).Nodup := by
  refine List.pairwise_filterMap.2 (ascending.imp ?_)
  intro first second behind insn insn_eq other other_eq same
  obtain ⟨-, -, rfl⟩ := Option.map_eq_some_iff.1 insn_eq
  obtain ⟨-, -, rfl⟩ := Option.map_eq_some_iff.1 other_eq
  have index_eq : first.index = second.index := (Identifier.instruction_eq_iff.1 same).2
  exact Nat.lt_irrefl _ (index_eq ▸ behind)

/-! ## Methods -/

theorem typeless_render {outputs : List Output} (declared : Std.HashSet String)
    (apart : ∀ fact ∈ factsAmong outputs, fact.relation ∉ .statementType :: typedRelations)
    (reports : ∀ notice ∈ noticesAmong outputs, notice.lacksType = false) :
    Typeless (cx.render declared outputs) where
  rows := by
    rw [typingsAmong, cx.filter_factsOf_render (· ∈ .statementType :: typedRelations) (by decide),
      List.filter_eq_nil_iff]
    intro fact member
    simpa using apart fact member
  reports := by rwa [noticesOf_render]

theorem typeless_create {container : Container} {definition : MethodDef} {cache : SignatureCache}
    (value_eq : ((create container definition).run.perform cache).value = .ok cx) :
    Typeless ((create container definition).run.perform cache).events := by
  rcases events_create value_eq with events_eq | ⟨id, registers, width, events_eq⟩
  · exact events_eq ▸ .nil
  · rw [events_eq]
    exact ⟨rfl, by simp [noticesOf, Event.notice?, Notice.lacksType]⟩

variable (cx)

theorem typeless_headerOutputs (declared : Std.HashSet String) :
    Typeless (cx.render declared cx.headerOutputs) := by
  refine typeless_render declared (fun fact member => ?_) (by simp)
  have apart : ∀ relation ∈ headerRelations, relation ∉ .statementType :: typedRelations := by
    decide
  exact apart _ (cx.relation_headerOutputs member)

theorem typeless_entryEvents (code : CodeItem) : Typeless (cx.entryEvents code) := by
  have entry_eq := cx.render_entry code []
  rw [List.append_nil, render, List.append_nil, render_append] at entry_eq
  rw [← entry_eq]
  refine (cx.typeless_headerOutputs _).append (typeless_render _ ?_ fun notice member => ?_)
  · simp [factsAmong_movedNotices]
  · rw [movedNotices, noticesAmong_ofEvent, mem_noticesOf] at member
    obtain ⟨address, -, event_eq⟩ := List.mem_map.1 member
    cases event_eq
    rfl

theorem lacksType_caughtOutputs (regions : List HandlerRegion) (caught : CaughtException) :
    ∀ notice ∈ noticesAmong (cx.caughtOutputs regions caught), notice.lacksType = false := by
  have bound : ∀ region,
      ∀ notice ∈ noticesAmong (cx.boundOutputs caught region), notice.lacksType = false := by
    intro region
    unfold boundOutputs
    split <;> simp [Notice.lacksType]
  intro notice member
  rw [caughtOutputs, noticesAmong, List.filterMap_append, List.filterMap_flatMap] at member
  rcases List.mem_append.1 member with joined | stray
  · obtain ⟨region, -, joined⟩ := List.mem_flatMap.1 joined
    exact bound region notice joined
  · split at stray <;> simp at stray
    exact stray ▸ rfl

/-- What is known at the end is given out without a report of a missing type. -/
theorem lacksType_finishOutputs (code : CodeItem) (state : MethodState) :
    ∀ notice ∈ noticesAmong (cx.finishOutputs code state), notice.lacksType = false := by
  have residual : ∀ {α : Type} (pending : Pending α) (what : String),
      ∀ notice ∈ noticesOf (cx.residualEvents pending what), notice.lacksType = false := by
    intro α pending what
    unfold residualEvents
    split <;> simp [noticesOf, Event.notice?, Notice.lacksType]
  intro notice member
  simp only [finishOutputs, exceptionOutputs, List.filterMap_append, noticesAmong_ofEvent,
    List.filterMap_flatMap, waitingEvents, noticesOf_append, List.mem_append,
    List.mem_flatMap] at member
  rcases member with ((fills | switches) | tried | ⟨exception, -, caught⟩) | written | summary
  · exact residual _ _ notice fills
  · exact residual _ _ notice switches
  · obtain ⟨block, handler, previous, given⟩ :=
      cx.exists_handler_of_mem (mem_noticesAmong.1 tried)
    rcases cx.eq_of_mem_handlerOutputs given with
      ⟨_, same⟩ | ⟨_, same⟩ | ⟨_, same⟩ | ⟨_, _, _, _, same⟩ <;> cases same <;> rfl
  · exact cx.lacksType_caughtOutputs _ exception notice caught
  · rw [AddressMap.noticesOf_write] at written
    obtain ⟨edge, -, notice_eq⟩ := List.mem_filterMap.1 written
    split at notice_eq <;> cases notice_eq
    rfl
  · unfold summaryNotices at summary
    split at summary <;> simp at summary
    exact summary ▸ rfl

theorem typeless_finish {code : CodeItem} {final : MethodState}
    (wellFormed : ∀ edge ∈ (closedMap code final).edges.toList, edge.WellFormed) :
    Typeless ((cx.finish code).run final).events := by
  rw [(cx.says_finish code final).run]
  refine typeless_render _ (fun fact member => ?_) (cx.lacksType_finishOutputs code final)
  have apart : ∀ relation ∈ handlerRelations ++ lateRelations,
      relation ∉ .statementType :: typedRelations := by decide
  exact apart _ (List.mem_append.2 (cx.relation_finishOutputs wellFormed member))

/-- A method is given out with the sections of its instructions between events about no type. -/
theorem exists_sections_extract (cache : SignatureCache) :
    ∃ (entry ending : List Event) (front : List LocatedInstr) (parts : List (List Event)),
      (cx.extract.run.perform cache).events = entry ++ (parts.flatten ++ ending) ∧
      Typeless entry ∧ Typeless ending ∧ front <+: cx.definition.located ∧
      (∀ extracted, (cx.extract.run.perform cache).value = .ok extracted →
        front = cx.definition.located) ∧
      List.Forall₂ cx.Section front parts := by
  cases code_eq : cx.definition.code with
  | none =>
    have located_eq : cx.definition.located = [] := by rw [MethodDef.located, code_eq]; rfl
    have header : Typeless (cx.render {} cx.headerOutputs) := cx.typeless_headerOutputs {}
    rw [cx.extract_of_none code_eq, located_eq]
    exact ⟨_, [], [], [], (List.append_nil _).symm, header, .nil, List.prefix_refl _,
      fun _ _ => rfl, .nil⟩
  | some code =>
    have located_eq : cx.definition.located = code.located := by
      rw [MethodDef.located, code_eq]; rfl
    obtain ⟨front, parts, within, events_eq, sections, complete⟩ :=
      cx.exists_sections code.located cx.entryState cache
    rw [located_eq]
    cases value_eq : ((cx.extractInstrs code.located cx.entryState).run.perform cache).value with
    | error error =>
      rw [extract_of_error code_eq value_eq, events_eq]
      exact ⟨_, [], front, parts, by rw [List.append_nil], cx.typeless_entryEvents code, .nil,
        within, fun extracted extracted_eq => (by cases extracted_eq), sections⟩
    | ok final =>
      have queues := (cx.decodes_of_ok value_eq).queues_entry
      rw [extract_of_ok code_eq value_eq, events_eq]
      exact ⟨_, _, front, parts, List.append_assoc .., cx.typeless_entryEvents code,
        cx.typeless_finish queues.wellFormed, within, fun _ _ => complete final value_eq, sections⟩

end MethodContext

/-- Statement types go with assignments.  In the log of any method, also of one that fails, the rows
of statement types and those of moves, numbers, unary and binary operations bear the same
identifiers in the same order, no identifier twice, and no type is reported missing.  The log can be
cut at the instructions: each of them gives out no row of either sort, or one assignment and right
behind it the type that belongs to the instruction; there are no such rows before the first
instruction or behind the last one. -/
theorem statement_types_paired (container : Container) (definition : MethodDef)
    (cache : SignatureCache) :
    let outcome := (definition.extract container).run cache
    (rowsOf .statementType outcome.events).map List.head? =
      (assignmentsOf outcome.events).map (·.columns.head?) ∧
    ((assignmentsOf outcome.events).map (·.columns.head?)).Nodup ∧
    (∀ id instr, Notice.method id (.noStatementType instr) ∉ noticesOf outcome.events) ∧
    ∀ cx, ((MethodContext.create container definition).run cache).value = .ok cx →
      ∃ (entry ending : List Event) (front : List LocatedInstr) (parts : List (List Event)),
        outcome.events = entry ++ (parts.flatten ++ ending) ∧
        Typeless entry ∧ Typeless ending ∧ front <+: definition.located ∧
        (∀ extracted, outcome.value = .ok extracted → front = definition.located) ∧
        List.Forall₂ cx.Section front parts := by
  intro outcome
  cases create_eq : ((MethodContext.create container definition).run.perform cache).value with
  | error error =>
    have run_eq : outcome = _ := Extract.perform_bind_of_error cache create_eq
    have events_eq : outcome.events = [] := by
      rw [run_eq]
      exact MethodContext.events_create_of_error create_eq
    rw [events_eq]
    refine ⟨rfl, .nil, fun _ _ => by simp, fun cx context_eq => ?_⟩
    cases context_eq
  | ok cx =>
    have run_eq : outcome = _ := Extract.perform_bind_of_ok cache create_eq
    obtain ⟨-, rfl, -, -⟩ := cx.create_outcome create_eq
    obtain ⟨entry, ending, front, parts, log_eq, before, behind, within, complete, sections⟩ :=
      cx.exists_sections_extract
        ((MethodContext.create container cx.definition).run.perform cache).state
    have entry_typeless := (MethodContext.typeless_create create_eq).append before
    have events_eq : outcome.events =
        (((MethodContext.create container cx.definition).run.perform cache).events ++ entry) ++
          (parts.flatten ++ ending) := by
      rw [run_eq, log_eq, List.append_assoc]
    obtain ⟨assignments_eq, types_eq, reports⟩ :=
      MethodContext.Section.log entry_typeless behind sections
    rw [← events_eq] at assignments_eq types_eq reports
    refine ⟨types_eq.trans assignments_eq.symm, ?_, fun id instr member => ?_,
      fun other other_eq => ?_⟩
    · obtain ⟨start, located_eq⟩ := cx.definition.exists_located_eq
      have ascending := pairwise_locateFrom 1 start cx.definition.instructions
      rw [← located_eq] at ascending
      rw [assignments_eq]
      exact (cx.nodup_typedInsns (ascending.sublist within.sublist)).map (Option.some_injective _)
    · cases reports _ member
    · cases other_eq
      refine ⟨_, ending, front, parts, events_eq, entry_typeless, behind, within, ?_, sections⟩
      intro extracted value_eq
      rw [run_eq] at value_eq
      exact complete extracted value_eq

/-- Loads a number, negates it, and moves a result that nothing has produced. -/
def interrupted : List Instr :=
  [.const .four ⟨0⟩ 7, .unop .negInt ⟨0⟩ ⟨0⟩, .moveResult .narrow ⟨0⟩, .returnVoid]

/-- The extraction fails at the third instruction, behind the types of the first two. -/
theorem statement_types_paired_interrupted :
    let outcome := ((loneMethod interrupted).extract loneContainer).run .empty
    outcome.value.isOk = false ∧
      (rowsOf .statementType outcome.events).map List.head? =
        [some (Identifier.instruction "<Lone: void go()>" "assign" 1),
          some (Identifier.instruction "<Lone: void go()>" "assign" 2)] := by
  have assignments_eq : (assignmentsOf (((loneMethod interrupted).extract loneContainer).run
      .empty).events).map (·.columns.head?) =
        [some (Identifier.instruction "<Lone: void go()>" "assign" 1),
          some (Identifier.instruction "<Lone: void go()>" "assign" 2)] := by
    cbv
  refine ⟨by cbv, ?_⟩
  rw [← assignments_eq]
  exact (statement_types_paired loneContainer (loneMethod interrupted) .empty).1

end DalvikFacts
