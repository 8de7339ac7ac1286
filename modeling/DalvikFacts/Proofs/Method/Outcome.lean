import DalvikFacts.Proofs.Method.Edges
import DalvikFacts.Proofs.Method.Faults
import DalvikFacts.Proofs.Outcome

/-!
# Outcomes of methods

Whatever other workers look up meanwhile, the extraction of a method comes to the same outcome and
emits the same events.  All of them are plain, and so are the relations of the field accesses that
it leaves.
-/

namespace DalvikFacts

theorem fieldRelation_mem (access : Access) (isInstance : Bool) :
    MethodContext.fieldRelation access isInstance ∈ accessRelations := by
  cases access <;> cases isInstance <;> simp [MethodContext.fieldRelation, accessRelations]

theorem Within.plain {relations : List Relation} {events : List Event}
    (within : Within relations events) (absent : ∀ relation ∈ relations,
      relation ∉ phantomRelations ++ accessRelations) : PlainEvents events where
  facts fact member := absent _ (within.facts fact member)
  notices notice member := by
    obtain ⟨id, about, rfl⟩ := within.notices notice member
    rfl

theorem Instr.plain_relations (instr : Instr) :
    ∀ relation ∈ instr.relations, relation ∉ phantomRelations ++ accessRelations := by
  cases instr <;>
    simp [relations, phantomRelations, accessRelations, MethodContext.callRelations,
      MethodContext.resultRelations]

/-- The index of the result that waits. -/
def MethodState.pending (state : MethodState) : Option Nat :=
  state.carry.result.map PendingResult.index

/-- The field accesses that wait are those of field instructions. -/
def MethodState.Accesses (state : MethodState) : Prop :=
  ∀ access ∈ state.accesses, access.relation ∈ accessRelations

namespace MethodContext

variable {cx : MethodContext} {here : LocatedInstr}

theorem accesses_writeFieldAccess (access : Access) (value : Reg) (object : Option Reg)
    (field : FieldSig) {state : MethodState} (accesses : state.Accesses) :
    ((cx.writeFieldAccess here access value object field).run state).state.Accesses := by
  have numbered : Footprint [.declared, .counters] [.varDeclaringMethod]
      (cx.numberedInsn (fieldKind access field)) :=
    footprint_numberedInsn cx (by simp) _
  have used : ∀ reg, Footprint [.declared, .counters] [.varDeclaringMethod] (cx.use reg) :=
    footprint_use cx (by simp) (by simp)
  have based := Footprint.mapM_option used object
  obtain ⟨before, queued, pushed, before_eq, relation_eq⟩ : ∃ before queued,
      ((cx.writeFieldAccess here access value object field).run state).state.accesses =
        before.push queued ∧ before = state.accesses ∧
      queued.relation = fieldRelation access object.isSome := by
    refine ⟨_, _, rfl, ?_, rfl⟩
    exact (based.frame _ .accesses (by simp)).trans
      (((used value).frame _ .accesses (by simp)).trans (numbered.frame _ .accesses (by simp)))
  intro found member
  rw [pushed, before_eq, Array.mem_push] at member
  rcases member with member | rfl
  · exact accesses found member
  · rw [relation_eq]
    exact fieldRelation_mem access object.isSome

/-- Instructions leave field accesses only. -/
theorem Planned.accesses {result : Option PendingResult} {action : MethodEmit Unit}
    (planned : cx.Planned here result action) {state : MethodState} (accesses : state.Accesses) :
    (action.run state).state.Accesses := by
  have kept : .accesses ∉ here.instr.parts → (action.run state).state.Accesses := by
    intro untouched
    have same := planned.footprint.frame state .accesses untouched
    unfold MethodState.Accesses
    rw [show (action.run state).state.accesses = state.accesses from same]
    exact accesses
  unfold Planned at planned
  generalize here.instr = instr at planned kept
  cases instr with
  | instanceField access kind value object field =>
    obtain ⟨_, rfl⟩ := planned
    exact accesses_writeFieldAccess access value (some object) _ accesses
  | staticField access kind value field =>
    obtain ⟨_, rfl⟩ := planned
    exact accesses_writeFieldAccess access value none _ accesses
  | _ => exact kept (by simp [Instr.parts])

namespace Decodes

variable {instrs : List LocatedInstr} {state final : MethodState} {events : List Event}

theorem accesses (run : cx.Decodes instrs state events final) (accesses : state.Accesses) :
    final.Accesses := by
  induction run with
  | nil => exact accesses
  | cons planned later induction => exact induction (planned.accesses accesses)

theorem plain (run : cx.Decodes instrs state events final) : PlainEvents events := by
  induction run with
  | nil => exact .nil
  | @cons here _ _ _ _ _ planned _ induction =>
    exact ((planned.footprint.within _).plain here.instr.plain_relations).append induction

end Decodes

/-! ## Instructions -/

variable {state : MethodState}

/-- An instruction without fault has a planned action, which is done before the rest goes on. -/
theorem exists_planned_of_no_fault {here : LocatedInstr}
    (no_fault : cx.fault? here state.pending = none) :
    ∃ action, cx.Planned here state.carry.result action ∧ ∀ rest outcome later,
      (cx.extractInstrs rest (action.run (state.reach here.address here.index)).state).SettlesTo
        (SignatureCache.Knows cx.container) outcome later →
      (cx.extractInstrs (here :: rest) state).SettlesTo (SignatureCache.Knows cx.container) outcome
        ((action.run (state.reach here.address here.index)).events ++ later) := by
  have decided := cx.failsWith_plan here state.carry.result
  unfold MethodState.pending at no_fault
  rw [no_fault] at decided
  obtain ⟨action, planned_to⟩ := decided
  refine ⟨action, ?_, fun rest outcome later rest_settles => ?_⟩
  · -- the plan is the same in every cache, so in the empty one
    exact yields_plan cx here _ _ action (planned_to.run SignatureCache.knows_empty).1
  · have done_settles : Extract.SettlesTo (SignatureCache.Knows cx.container)
        (Extract.within action (state.reach here.address here.index) >>= fun done =>
          cx.extractInstrs rest done.2) outcome
        ((action.run (state.reach here.address here.index)).events ++ later) :=
      (Extract.SettlesTo.within action _).bind_ok rest_settles
    rw [← List.nil_append (_ ++ later)]
    exact Extract.SettlesTo.bind_ok planned_to done_settles

theorem settlesTo_of_fault {here : LocatedInstr} {rest : List LocatedInstr}
    {error : ExtractionError} (fault_eq : cx.fault? here state.pending = some error) :
    (cx.extractInstrs (here :: rest) state).SettlesTo (SignatureCache.Knows cx.container)
      (.error error) [] := by
  have decided := cx.failsWith_plan here state.carry.result
  unfold MethodState.pending at fault_eq
  rw [fault_eq] at decided
  exact Extract.SettlesTo.bind_error decided

/-- Whatever others do, successive instructions are done up to the first fault. -/
theorem exists_settlesTo_instrs (cx : MethodContext) (instrs : List LocatedInstr)
    (state : MethodState) :
    ∃ outcome events front reached, (cx.extractInstrs instrs state).SettlesTo
        (SignatureCache.Knows cx.container) outcome events ∧
      cx.Decodes front state events reached ∧ ∀ final, outcome = .ok final → final = reached := by
  induction instrs generalizing state with
  | nil =>
    refine ⟨.ok state, [], [], state, .pure state, .nil state, fun final final_eq => ?_⟩
    cases final_eq
    rfl
  | cons here rest induction =>
    cases fault_eq : cx.fault? here state.pending with
    | some error =>
      exact ⟨.error error, [], [], state, settlesTo_of_fault fault_eq, .nil state,
        fun final final_eq => by cases final_eq⟩
    | none =>
      obtain ⟨action, planned, step⟩ := exists_planned_of_no_fault fault_eq
      obtain ⟨outcome, events, front, reached, settles, run, ends⟩ :=
        induction (action.run (state.reach here.address here.index)).state
      exact ⟨outcome, _, here :: front, reached, step rest outcome events settles,
        .cons planned run, ends⟩

/-! ## Methods -/

theorem plain_addresses (map : AddressMap) (method : String)
    (wellFormed : ∀ edge ∈ map.edges.toList, edge.WellFormed) :
    PlainEvents ((map.write method : Emit Unit Unit).run ()).events where
  facts fact member := by
    have apart : ∀ relation ∈ lateRelations, relation ∉ phantomRelations ++ accessRelations := by
      decide
    exact apart _ (AddressMap.relation_mem_of_write wellFormed member)
  notices notice member := by
    rw [AddressMap.run_write] at member
    rcases List.mem_append.1 member with member | member
    · obtain ⟨entry, -, event_eq⟩ := List.mem_map.1 member
      cases event_eq
    · obtain ⟨edge, -, event_eq⟩ := List.mem_map.1 member
      unfold AddressMap.edgeEvent at event_eq
      split at event_eq
      · cases event_eq
      · cases event_eq
        rfl

theorem accesses_finish (cx : MethodContext) (code : CodeItem) {state : MethodState}
    (accesses : state.Accesses) : ((cx.finish code).run state).state.Accesses := by
  have written : ∀ reached, (cx.writeAddresses.run reached).state = reached := by
    intro reached
    simp only [writeAddresses, Emit.run_bind, Emit.run_get, AddressMap.run_write]
    split <;> rfl
  have concluded := cx.concludeBody_same code
    (state.reach code.endAddress (code.instructions.length + 1)) .accesses (by simp)
  have same : ((cx.finish code).run state).state.accesses = state.accesses := by
    simp only [finish, Emit.run_bind, Emit.run_modify, written]
    exact concluded
  unfold MethodState.Accesses
  rw [same]
  exact accesses

theorem plain_finish (code : CodeItem) {instrs : List LocatedInstr} {events : List Event}
    {final : MethodState} (run : cx.Decodes instrs cx.entryState events final) :
    PlainEvents ((cx.finish code).run final).events := by
  obtain ⟨summary, events_eq, quiet, -⟩ := cx.finish_events code final
  rw [events_eq]
  have waiting_plain : PlainEvents (cx.waitingEvents final) :=
    (cx.within_waitingEvents final).plain (by simp)
  have handled_plain : PlainEvents (cx.handlerEvents code final) :=
    (cx.within_handlerEvents code final).plain (by decide)
  have written_plain := plain_addresses (closedMap code final) cx.id run.queues_entry.wellFormed
  exact ((waiting_plain.append handled_plain).append written_plain).append
    (quiet.plain (by simp))

theorem accesses_entryState (cx : MethodContext) : cx.entryState.Accesses := by
  have same : cx.entryState.accesses = #[] := cx.entryState_same .accesses (by simp)
  unfold MethodState.Accesses
  rw [same]
  simp

/-- Whatever others do, the extraction of a body is decided. -/
theorem decided_extractCode (cx : MethodContext) (code : CodeItem) :
    (cx.extractCode code cx.entryState).Decided cx.container MethodState.Accesses := by
  have moved_eq := cx.run_reportMovedEntries code cx.entryState
  have notices : Footprint [] [] (cx.reportMovedEntries code) := .forM fun _ => .notice cx rfl
  have moved : PlainEvents ((cx.reportMovedEntries code).run cx.entryState).events :=
    (notices.within cx.entryState).plain (by simp)
  have entered : Extract.Succeeds cx.container
      (Extract.within (cx.reportMovedEntries code) cx.entryState)
      fun done => done.2 = cx.entryState :=
    .within moved (by rw [moved_eq])
  have done : (cx.extractInstrs code.located cx.entryState).Decided cx.container fun final =>
      ∃ front events, cx.Decodes front cx.entryState events final := by
    obtain ⟨outcome, events, front, reached, settles, run, ends⟩ :=
      cx.exists_settlesTo_instrs code.located cx.entryState
    refine ⟨outcome, events, settles, run.plain, fun final final_eq => ⟨front, events, ?_⟩⟩
    rw [ends final final_eq]
    exact run
  unfold extractCode
  refine entered.decided.bind fun entry entry_eq => ?_
  dsimp only
  rw [entry_eq]
  refine done.bind fun final ⟨front, events, run⟩ => ?_
  have finished : Extract.Succeeds cx.container (Extract.within (cx.finish code) final)
      fun done => done.2.Accesses := by
    refine .within (plain_finish code run) ?_
    dsimp only
    exact cx.accesses_finish code (run.accesses cx.accesses_entryState)
  exact (finished.bind fun done accesses => .pure accesses).decided

theorem decided_extract (cx : MethodContext) :
    cx.extract.Decided cx.container fun extracted =>
      ∀ access ∈ extracted.accesses, access.relation ∈ accessRelations := by
  have headed : Extract.Succeeds cx.container (Extract.within cx.writeHeader .start)
      fun done => done.2 = cx.entryState :=
    .within ((cx.footprint_writeHeader.within .start).plain (by decide)) rfl
  have listed : ∀ {state : MethodState}, state.Accesses →
      ∀ access ∈ state.accesses.toList, access.relation ∈ accessRelations :=
    fun accesses access member => accesses access (Array.mem_toList_iff.1 member)
  unfold extract
  refine headed.decided.bind fun entry entry_eq => ?_
  dsimp only
  rw [entry_eq]
  cases cx.definition.code with
  | none => exact (Extract.Succeeds.pure (listed cx.accesses_entryState)).decided
  | some code =>
    exact (cx.decided_extractCode code).bind fun final accesses =>
      (Extract.Succeeds.pure (listed accesses)).decided

/-- The context of a method is that of the method. -/
theorem succeeds_ofSig (container : Container) (definition : MethodDef) (sig : MethodSig) :
    (ofSig container definition sig).Succeeds container fun cx =>
      cx.container = container ∧ cx.definition = definition ∧ cx.sig = sig := by
  unfold ofSig
  cases definition.code with
  | none => exact .pure ⟨rfl, rfl, rfl⟩
  | some code =>
    dsimp only
    split
    · refine (Extract.Succeeds.emit (Emit.Plain.notice rfl)).bind fun _ _ => ?_
      exact .pure ⟨rfl, rfl, rfl⟩
    · exact .pure ⟨rfl, rfl, rfl⟩

theorem succeeds_create {container : Container} {definition : MethodDef} {ref : MethodRef}
    (ref_eq : container.methodAt definition.method = .ok ref) :
    (create container definition).Succeeds container fun cx =>
      cx.container = container ∧ cx.definition = definition := by
  obtain ⟨cx, events, settles, plain, container_eq, definition_eq, -⟩ :=
    succeeds_ofSig container definition (.ofRef ref)
  exact ⟨cx, events, SignatureCache.settlesTo_lookup_method ref_eq settles, plain, container_eq,
    definition_eq⟩

theorem decided_create (container : Container) (definition : MethodDef) :
    (create container definition).Decided container fun cx =>
      cx.container = container ∧ cx.definition = definition ∧
        ∃ ref, container.methodAt definition.method = .ok ref ∧ cx.sig = .ofRef ref := by
  refine SignatureCache.decided_method fun ref ref_eq => Extract.Succeeds.decided ?_
  obtain ⟨cx, events, settles, plain, container_eq, definition_eq, sig_eq⟩ :=
    succeeds_ofSig container definition (.ofRef ref)
  exact ⟨cx, events, settles, plain, container_eq, definition_eq, ref, ref_eq, sig_eq⟩

end MethodContext

theorem MethodDef.decided (container : Container) (definition : MethodDef) :
    (definition.extract container).Decided container fun extracted =>
      ∀ access ∈ extracted.accesses, access.relation ∈ accessRelations := by
  refine (MethodContext.decided_create container definition).bind fun cx ⟨container_eq, _⟩ => ?_
  rw [← container_eq]
  exact cx.decided_extract

end DalvikFacts
