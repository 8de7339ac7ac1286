import DalvikFacts.Proofs.Method.Planned
import DalvikFacts.Proofs.Pending

/-!
# Runs through the instructions

A successful extraction of a method with a body, part by part: the header, then one planned action
for each instruction in turn, then what is written at the end.  What every instruction leaves alone
is left alone by the run through all of them.
-/

namespace DalvikFacts

namespace MethodContext

variable {parts : List MethodPart} {relations : List Relation} (cx : MethodContext)

/-! ## Header -/

/-- The relations of method headers. -/
def headerRelations : List Relation :=
  [.method, .methodAnnotations, .methodDeclaresException, .methodModifier, .varDeclaringMethod,
    .formalParam, .varType, .paramAnnotations, .thisVar, .nativeMethodId, .nativeReturnVar]

theorem footprint_writeAnnotationOf (mark : Annotation) :
    Footprint parts headerRelations (cx.writeAnnotationOf mark) :=
  .bind (.row (by simp [headerRelations])) fun _ => .forM fun _ =>
    .row (by simp [headerRelations])

theorem footprint_writeParameter (parameter : Parameter) :
    Footprint [.declared] headerRelations (cx.writeParameter parameter) := by
  refine (footprint_declare cx (by simp) (by simp [headerRelations]) _).bind fun _ =>
    .bind (.row ?_) fun _ => .bind (.row ?_) fun _ => .forM fun _ => .row ?_
  all_goals simp [headerRelations]

theorem footprint_writeThis : Footprint [.declared] headerRelations cx.writeThis := by
  refine (footprint_declare cx (by simp) (by simp [headerRelations]) _).bind fun _ =>
    .bind (.row ?_) fun _ => .row ?_
  all_goals simp [headerRelations]

theorem footprint_writeNative : Footprint [.declared] headerRelations cx.writeNative := by
  refine .bind (.row ?_) fun _ => .ite
    ((footprint_declare cx (by simp) (by simp [headerRelations]) _).bind fun _ =>
      .bind (.row ?_) fun _ => .row ?_) (.pure ())
  all_goals simp [headerRelations]

theorem footprint_writeHeader : Footprint [.declared] headerRelations cx.writeHeader := by
  exact .bind (.row (by simp [headerRelations])) fun _ =>
    (Footprint.forM cx.footprint_writeAnnotationOf).bind fun _ =>
      (Footprint.forM fun _ => .row (by simp [headerRelations])).bind fun _ =>
        (Footprint.forM cx.footprint_writeParameter).bind fun _ =>
          .guarded cx.footprint_writeThis (.ite cx.footprint_writeNative (.pure ()))

/-- The state before the first instruction. -/
def entryState : MethodState :=
  (cx.writeHeader.run .start).state

theorem entryState_same (part : MethodPart) (undeclared : part ≠ .declared) :
    part.Same cx.entryState .start :=
  cx.footprint_writeHeader.frame .start part (by simpa using undeclared)

/-! ## End -/

/-- The relations of exception handlers. -/
def handlerRelations : List Relation :=
  [.exceptionHandler, .exceptionHandlerPrevious, .exceptionHandlerFormalParam,
    .varDeclaringMethod]

theorem footprint_writeHandler (block : TryBlock) (handler : CatchHandler)
    (previous : Option HandlerRegion) :
    Footprint parts handlerRelations (cx.writeHandler block handler previous) := by
  refine .guarded (.notice cx rfl) (Footprint.get.bind fun state => ?_)
  split
  · exact .bind (.notice cx rfl) fun _ => .pure none
  · refine .bind (.row (by simp [handlerRelations])) fun _ => ?_
    split
    · exact .bind (.row (by simp [handlerRelations])) fun _ => .pure _
    · exact .pure _

theorem footprint_writeHandlers (block : TryBlock) (handlers : List CatchHandler)
    (previous : Option HandlerRegion) :
    Footprint parts handlerRelations (cx.writeHandlers block handlers previous) := by
  induction handlers generalizing previous with
  | nil => exact .pure []
  | cons handler rest induction =>
    exact (cx.footprint_writeHandler block handler previous).bind fun region =>
      (induction region).bind fun _ => .pure _

theorem footprint_writeTries (tries : List TryBlock) :
    Footprint parts handlerRelations (cx.writeTries tries) := by
  induction tries with
  | nil => exact .pure []
  | cons block rest induction =>
    exact (cx.footprint_writeHandlers block _ none).bind fun _ => induction.bind fun _ => .pure _

theorem footprint_bindCaught (regions : List HandlerRegion) (caught : CaughtException)
    (may_write : [.exceptionHandlerFormalParam, .varDeclaringMethod] ⊆ relations) :
    Footprint [.declared] relations (cx.bindCaught regions caught) := by
  have bound : ∀ region, Footprint [.declared] relations (cx.bindTo caught region) := by
    intro region
    refine .guarded (.notice cx rfl) ((footprint_use cx ?_ (may_write ?_) _).bind fun _ =>
      .row (may_write ?_))
    all_goals simp
  exact (Footprint.forM bound).bind fun _ => .ite (.notice cx rfl) (.pure ())

theorem footprint_writeExceptions (tries : List TryBlock) :
    Footprint [.declared] handlerRelations (cx.writeExceptions tries) :=
  (cx.footprint_writeTries tries).bind fun regions => Footprint.get.bind fun _ =>
    .forM fun caught => cx.footprint_bindCaught regions caught (by simp [handlerRelations])

/-- What is reported about a table with entries that still wait. -/
def residualEvents {α : Type} (pending : Pending α) (what : String) : List Event :=
  if 0 < pending.residual then
    [.notice (.method cx.id (.residual what pending.residual pending.addresses))]
  else []

theorem run_reportResidual {α : Type} (pending : Pending α) (what : String) (state : MethodState) :
    (pending.reportResidual what cx.id : MethodEmit Nat).run state =
      ⟨pending.residual, state, cx.residualEvents pending what⟩ :=
  pending.run_reportResidual what cx.id state

theorem within_residualEvents {α : Type} (pending : Pending α) (what : String) :
    Within [] (cx.residualEvents pending what) := by
  unfold residualEvents
  split
  · refine ⟨fun fact member => by simp at member, fun notice member => ?_⟩
    rw [List.mem_singleton, Event.notice.injEq] at member
    exact ⟨_, _, member⟩
  · exact .nil

theorem reportsOf_residualEvents {α : Type} (pending : Pending α) (what : String) :
    reportsOf (cx.residualEvents pending what) =
      if 0 < pending.residual then [(cx.id, what, pending.residual)] else [] := by
  unfold residualEvents
  split <;> rfl

/-- What is reported about both tables when all instructions are done. -/
def waitingEvents (state : MethodState) : List Event :=
  cx.residualEvents state.fills "fill-array-data" ++ cx.residualEvents state.switches "switch"

theorem within_waitingEvents (state : MethodState) : Within [] (cx.waitingEvents state) :=
  (cx.within_residualEvents _ _).append (cx.within_residualEvents _ _)

/-- What is emitted about exception handlers when all instructions are done. -/
def handlerEvents (code : CodeItem) (state : MethodState) : List Event :=
  ((cx.writeExceptions code.tries).run
    (state.reach code.endAddress (code.instructions.length + 1))).events

theorem within_handlerEvents (code : CodeItem) (state : MethodState) :
    Within handlerRelations (cx.handlerEvents code state) :=
  (cx.footprint_writeExceptions code.tries).within _

theorem run_concludeBody (code : CodeItem) (state : MethodState) :
    (cx.concludeBody code).run state =
      ⟨(), ((cx.writeExceptions code.tries).run state).state,
        cx.waitingEvents state ++ ((cx.writeExceptions code.tries).run state).events⟩ := by
  unfold concludeBody waitingEvents
  simp only [Emit.run_bind, Emit.run_get, run_reportResidual, List.nil_append, List.append_assoc]

theorem concludeBody_same (code : CodeItem) (state : MethodState) (part : MethodPart)
    (undeclared : part ≠ .declared) :
    part.Same ((cx.concludeBody code).run state).state state := by
  rw [run_concludeBody]
  exact (cx.footprint_writeExceptions code.tries).frame state part (by simpa using undeclared)

/-- The address map of a body: that of the state after the last instruction, with the end. -/
def closedMap (code : CodeItem) (state : MethodState) : AddressMap :=
  state.addresses.insert code.endAddress (code.instructions.length + 1)

theorem writeAddresses_events (state : MethodState) :
    ∃ summary, (cx.writeAddresses.run state).events =
        ((state.addresses.write cx.id : Emit Unit Unit).run ()).events ++ summary ∧
      Within [] summary ∧ reportsOf summary = [] := by
  let reported : MethodEmit Unit :=
    if 0 < state.addresses.unresolved then
      cx.notice (.unresolvedEdges state.addresses.unresolved)
    else pure ()
  have quiet : Footprint [] [] reported := .ite (.notice cx rfl) (.pure ())
  refine ⟨(reported.run state).events, ?_, quiet.within state, quiet.quiet state⟩
  change (((state.addresses.write cx.id : MethodEmit Unit) >>= fun _ => reported).run state).events
    = _
  rw [Emit.run_bind, AddressMap.run_write, AddressMap.run_write]

/-- At the end come the reports about what still waits, the exception handlers, and the address map
with its edges. -/
theorem finish_events (code : CodeItem) (state : MethodState) :
    ∃ summary,
      ((cx.finish code).run state).events = cx.waitingEvents state ++ cx.handlerEvents code state ++
        (((closedMap code state).write cx.id : Emit Unit Unit).run ()).events ++ summary ∧
      Within [] summary ∧ reportsOf summary = [] := by
  generalize reached_eq : state.reach code.endAddress (code.instructions.length + 1) = reached
  have map_eq : ((cx.concludeBody code).run reached).state.addresses = closedMap code state := by
    subst reached_eq
    exact AddressMap.ext (cx.concludeBody_same code _ .indices (by simp))
      (cx.concludeBody_same code _ .edges (by simp))
  obtain ⟨summary, written, quiet⟩ :=
    cx.writeAddresses_events ((cx.concludeBody code).run reached).state
  rw [map_eq] at written
  refine ⟨summary, ?_, quiet⟩
  have concluded : ((cx.concludeBody code).run reached).events =
      cx.waitingEvents state ++ cx.handlerEvents code state := by
    rw [run_concludeBody, handlerEvents, reached_eq, ← reached_eq]
    rfl
  unfold finish
  rw [Emit.run_bind, Emit.run_modify]
  dsimp only
  rw [Emit.run_bind, List.nil_append, reached_eq, List.append_assoc, ← written, ← concluded]

/-! ## Instructions -/

/-- A run through instructions: each in turn is reached, and a planned action of it is done. -/
inductive Decodes (cx : MethodContext) :
    List LocatedInstr → MethodState → List Event → MethodState → Prop
  | nil (state : MethodState) : Decodes cx [] state [] state
  | cons {here : LocatedInstr} {rest : List LocatedInstr} {state final : MethodState}
      {events : List Event} {action : MethodEmit Unit}
      (planned : cx.Planned here state.carry.result action)
      (later : Decodes cx rest (action.run (state.reach here.address here.index)).state events
        final) :
      Decodes cx (here :: rest) state
        ((action.run (state.reach here.address here.index)).events ++ events) final

/-- A successful extraction of instructions is a run through them. -/
theorem decodes_of_ok {instrs : List LocatedInstr} {state final : MethodState}
    {cache : SignatureCache}
    (value_eq : ((cx.extractInstrs instrs state).run.perform cache).value = .ok final) :
    Decodes cx instrs state ((cx.extractInstrs instrs state).run.perform cache).events final := by
  induction instrs generalizing state cache with
  | nil =>
    cases value_eq
    exact .nil _
  | cons here rest induction =>
    obtain ⟨action, plan_eq, rest_eq, events_eq⟩ := Extract.exists_of_bind_ok cache value_eq
    rw [Extract.perform_within_bind] at rest_eq events_eq
    rw [Extract.perform_lookup] at plan_eq rest_eq events_eq
    have planned := yields_plan cx here _ _ action plan_eq
    have later := induction rest_eq
    rw [extractInstrs, events_eq, List.nil_append]
    exact .cons planned later

namespace Decodes

variable {cx : MethodContext} {instrs : List LocatedInstr} {state final : MethodState}
  {events : List Event}

theorem within (run : Decodes cx instrs state events final)
    (known : ∀ here ∈ instrs, here.instr.relations ⊆ relations) : Within relations events := by
  induction run with
  | nil => exact .nil
  | cons planned later induction =>
    refine ((planned.footprint.within _).mono (known _ (by simp))).append (induction ?_)
    intro here member
    exact known here (by simp [member])

theorem quiet (run : Decodes cx instrs state events final) : reportsOf events = [] := by
  induction run with
  | nil => rfl
  | cons planned later induction =>
    rw [reportsOf_append, planned.footprint.quiet, induction, List.append_nil]

/-- What holds of the relations of all instructions holds of all rows that a run writes. -/
theorem relation_of_mem {good : Relation → Prop} (run : Decodes cx instrs state events final)
    (known : ∀ here ∈ instrs, ∀ relation ∈ here.instr.relations, good relation) {fact : Fact}
    (member : .fact fact ∈ events) : good fact.relation := by
  induction run with
  | nil => cases member
  | cons planned later induction =>
    rcases List.mem_append.1 member with member | member
    · exact known _ List.mem_cons_self _ ((planned.footprint.within _).facts fact member)
    · exact induction (fun here here_mem => known here (List.mem_cons_of_mem _ here_mem)) member

/-- A run through instructions leaves alone what each of them leaves alone, apart from the address
map. -/
theorem frame (run : Decodes cx instrs state events final) (part : MethodPart)
    (unmapped : part ≠ .indices) (absent : ∀ here ∈ instrs, part ∉ here.instr.parts) :
    part.Same final state := by
  induction run with
  | nil => exact .refl part _
  | cons planned later induction =>
    refine (induction ?_).trans ((planned.footprint.frame _ part (absent _ (by simp))).trans ?_)
    · intro here member
      exact absent here (by simp [member])
    · cases part with
      | indices => exact absurd rfl unmapped
      | _ => rfl

end Decodes

/-- A run in which the state before each instruction is known by the index of the instruction. -/
inductive Passes (cx : MethodContext) (before : Nat → MethodState) :
    List LocatedInstr → MethodState → List Event → MethodState → Prop
  | nil (state : MethodState) : Passes cx before [] state [] state
  | cons {here : LocatedInstr} {rest : List LocatedInstr} {state final : MethodState}
      {events : List Event} {action : MethodEmit Unit}
      (reached : before here.index = state.reach here.address here.index)
      (planned : cx.Planned here (before here.index).carry.result action)
      (later : Passes cx before rest (action.run (before here.index)).state events final) :
      Passes cx before (here :: rest) state ((action.run (before here.index)).events ++ events)
        final

namespace Passes

variable {cx : MethodContext} {before other : Nat → MethodState} {instrs : List LocatedInstr}
  {state final : MethodState} {events : List Event}

theorem decodes (run : cx.Passes before instrs state events final) :
    cx.Decodes instrs state events final := by
  induction run with
  | nil => exact .nil _
  | cons reached planned later induction =>
    rw [reached] at planned induction ⊢
    exact .cons planned induction

/-- Only the states before the instructions of a run matter. -/
theorem congr (run : cx.Passes before instrs state events final)
    (same : ∀ here ∈ instrs, before here.index = other here.index) :
    cx.Passes other instrs state events final := by
  induction run with
  | nil => exact .nil _
  | @cons here rest state final events action reached planned later induction =>
    have here_same := same here List.mem_cons_self
    have rest_run := induction fun next member => same next (List.mem_cons_of_mem _ member)
    rw [here_same] at reached planned rest_run ⊢
    exact .cons reached planned rest_run

/-- A run through instructions is a run through the first ones and a run through the others. -/
theorem split {front back : List LocatedInstr}
    (run : cx.Passes before (front ++ back) state events final) :
    ∃ middle first second, cx.Passes before front state first middle ∧
      cx.Passes before back middle second final ∧ events = first ++ second := by
  induction front generalizing state events with
  | nil => exact ⟨state, [], events, .nil state, run, rfl⟩
  | cons here rest induction =>
    cases run with
    | cons reached planned later =>
      obtain ⟨middle, first, second, first_run, second_run, rfl⟩ := induction later
      exact ⟨middle, _, second, .cons reached planned first_run, second_run,
        (List.append_assoc ..).symm⟩

/-- What one instruction does in a run, between the instructions before and behind it. -/
theorem isolate {early late : List LocatedInstr} {here : LocatedInstr}
    (run : cx.Passes before (early ++ here :: late) state events final) :
    ∃ action arrived first rest, cx.Planned here (before here.index).carry.result action ∧
      cx.Passes before early state first arrived ∧
      before here.index = arrived.reach here.address here.index ∧
      cx.Passes before late (action.run (before here.index)).state rest final ∧
      events = first ++ ((action.run (before here.index)).events ++ rest) := by
  obtain ⟨arrived, first, second, early_run, here_run, rfl⟩ := run.split
  cases here_run with
  | @cons _ _ _ _ rest action reached planned later =>
    exact ⟨action, arrived, first, rest, planned, early_run, reached, later, rfl⟩

end Passes

/-- The state before each instruction of a run can be told by its index. -/
theorem Decodes.exists_passes {cx : MethodContext} {instrs : List LocatedInstr}
    {state final : MethodState} {events : List Event} (run : cx.Decodes instrs state events final)
    (distinct : (instrs.map LocatedInstr.index).Nodup) :
    ∃ before, cx.Passes before instrs state events final := by
  induction run with
  | nil state => exact ⟨fun _ => state, .nil state⟩
  | @cons here rest state final events action planned later induction =>
    rw [List.map_cons, List.nodup_cons] at distinct
    obtain ⟨fresh, rest_distinct⟩ := distinct
    obtain ⟨before, rest_run⟩ := induction rest_distinct
    let extended (index : Nat) : MethodState :=
      if index = here.index then state.reach here.address here.index else before index
    have here_eq : extended here.index = state.reach here.address here.index := if_pos rfl
    have rest_eq : ∀ next ∈ rest, before next.index = extended next.index := by
      intro next member
      have other : next.index ≠ here.index :=
        fun same => fresh (same ▸ List.mem_map_of_mem member)
      exact (if_neg other).symm
    refine ⟨extended, ?_⟩
    have later_run := rest_run.congr rest_eq
    have planned_there : cx.Planned here (extended here.index).carry.result action := by
      rw [here_eq]
      exact planned
    rw [← here_eq] at later_run ⊢
    exact .cons here_eq planned_there later_run

/-! ## Methods -/

/-- The events before the first instruction. -/
def entryEvents (code : CodeItem) : List Event :=
  (cx.writeHeader.run .start).events ++
    (code.debugItems.filterMap DebugItem.movedEntry?).map fun address =>
      .notice (.method cx.id (.movedEntry address))

theorem within_entryEvents (code : CodeItem) : Within headerRelations (cx.entryEvents code) := by
  refine (cx.footprint_writeHeader.within .start).append ⟨?_, ?_⟩
  · intro fact member
    simp at member
  · intro notice member
    obtain ⟨address, -, notice_eq⟩ := List.mem_map.1 member
    cases notice_eq
    exact ⟨cx.id, _, rfl⟩

theorem reportsOf_entryEvents (code : CodeItem) : reportsOf (cx.entryEvents code) = [] := by
  have moved : ∀ addresses : List Address, reportsOf (addresses.map fun address =>
      .notice (.method cx.id (.movedEntry address))) = [] := by
    intro addresses
    induction addresses with
    | nil => rfl
    | cons address rest induction => exact induction
  rw [entryEvents, reportsOf_append, cx.footprint_writeHeader.quiet, moved, List.nil_append]

theorem run_reportMovedEntries (code : CodeItem) (state : MethodState) :
    (cx.reportMovedEntries code).run state =
      ⟨(), state, (code.debugItems.filterMap DebugItem.movedEntry?).map fun address =>
        .notice (.method cx.id (.movedEntry address))⟩ :=
  Emit.run_forM_event _ _ _

section Outcome

variable {cx} {code : CodeItem} {cache : SignatureCache}
  (code_eq : cx.definition.code = some code)

include code_eq

theorem perform_extract :
    cx.extract.run.perform cache =
      ⟨((cx.extractCode code cx.entryState).run.perform cache).value.map fun state =>
          ⟨cx.id, code.instructions.length, state.accesses.toList⟩,
        ((cx.extractCode code cx.entryState).run.perform cache).state,
        (cx.writeHeader.run .start).events ++
          ((cx.extractCode code cx.entryState).run.perform cache).events⟩ := by
  unfold extract
  rw [Extract.perform_within_bind, code_eq, ← entryState]
  dsimp only
  cases value_eq : ((cx.extractCode code cx.entryState).run.perform cache).value with
  | error error =>
    rw [Extract.perform_bind_of_error cache value_eq]
    rfl
  | ok state =>
    rw [Extract.perform_bind_of_ok cache value_eq]
    simp [Except.map]

/-- When all instructions are done, the end of the body is written. -/
theorem extract_of_ok {final : MethodState}
    (value_eq : ((cx.extractInstrs code.located cx.entryState).run.perform cache).value =
      .ok final) :
    cx.extract.run.perform cache =
      ⟨.ok ⟨cx.id, code.instructions.length, ((cx.finish code).run final).state.accesses.toList⟩,
        ((cx.extractInstrs code.located cx.entryState).run.perform cache).state,
        cx.entryEvents code ++
          ((cx.extractInstrs code.located cx.entryState).run.perform cache).events ++
            ((cx.finish code).run final).events⟩ := by
  rw [perform_extract code_eq]
  unfold extractCode
  rw [Extract.perform_within_bind, run_reportMovedEntries, Extract.perform_bind_of_ok _ value_eq]
  simp [entryEvents, Except.map]

/-- The first instruction that fails ends the extraction. -/
theorem extract_of_error {error : ExtractionError}
    (value_eq : ((cx.extractInstrs code.located cx.entryState).run.perform cache).value =
      .error error) :
    cx.extract.run.perform cache =
      ⟨.error error, ((cx.extractInstrs code.located cx.entryState).run.perform cache).state,
        cx.entryEvents code ++
          ((cx.extractInstrs code.located cx.entryState).run.perform cache).events⟩ := by
  rw [perform_extract code_eq]
  unfold extractCode
  rw [Extract.perform_within_bind, run_reportMovedEntries, Extract.perform_bind_of_error _ value_eq]
  simp [entryEvents, Except.map]

end Outcome

/-- What the start of an extraction gives: the context of the method, and nothing but notices. -/
theorem create_outcome {container : Container} {definition : MethodDef} {cache : SignatureCache}
    (value_eq : ((create container definition).run.perform cache).value = .ok cx) :
    cx.container = container ∧ cx.definition = definition ∧
      Within [] ((create container definition).run.perform cache).events ∧
      reportsOf ((create container definition).run.perform cache).events = [] := by
  obtain ⟨sig, sig_eq, rest_eq, events_eq⟩ := Extract.exists_of_bind_ok cache value_eq
  change ((create container definition).run.perform cache).events = _ at events_eq
  rw [Extract.perform_lookup] at events_eq rest_eq
  rw [events_eq]
  unfold ofSig at rest_eq ⊢
  cases code_eq : definition.code with
  | none =>
    simp only [code_eq, Extract.perform_pure, Except.ok.injEq] at rest_eq ⊢
    subst rest_eq
    exact ⟨rfl, rfl, .nil, rfl⟩
  | some code =>
    simp only [code_eq] at rest_eq ⊢
    split at rest_eq
    next few =>
      rw [if_pos few, Extract.perform_emit_bind]
      rw [Extract.perform_emit_bind] at rest_eq
      cases rest_eq
      refine ⟨rfl, rfl, ⟨?_, ?_⟩, rfl⟩
      · intro fact member
        simp [Emit.notice] at member
      · intro notice member
        simp only [Emit.notice, Emit.run_event, Extract.perform_pure, List.append_nil,
          List.nil_append, List.mem_singleton, Event.notice.injEq] at member
        exact ⟨_, _, member⟩
    next enough =>
      rw [if_neg enough]
      cases rest_eq
      exact ⟨rfl, rfl, .nil, rfl⟩

/-- A successful extraction of a body, phase by phase: the header, the instructions, what is known
at the end, the address map with its edges, and a summary. -/
structure Phases (cx : MethodContext) (code : CodeItem) (events : List Event) where
  early : List Event
  decoded : List Event
  summary : List Event
  final : MethodState
  run : cx.Decodes code.located cx.entryState decoded final
  events_eq : events = early ++ decoded ++
    (cx.waitingEvents final ++ cx.handlerEvents code final) ++
    (((closedMap code final).write cx.id : Emit Unit Unit).run ()).events ++ summary
  early_within : Within headerRelations early
  early_quiet : reportsOf early = []
  summary_within : Within [] summary
  summary_quiet : reportsOf summary = []

end MethodContext

/-- A successful extraction of a method with a body goes through all phases. -/
theorem MethodDef.exists_phases {container : Container} {definition : MethodDef}
    {code : CodeItem} {cache : SignatureCache} {extracted : ExtractedMethod}
    (code_eq : definition.code = some code)
    (value_eq : ((definition.extract container).run.perform cache).value = .ok extracted) :
    ∃ (cx : MethodContext)
      (_ : cx.Phases code ((definition.extract container).run.perform cache).events),
      cx.id = extracted.id ∧
        ((MethodContext.create container definition).run.perform cache).value = .ok cx := by
  obtain ⟨cx, create_eq, extract_eq, events_eq⟩ := Extract.exists_of_bind_ok cache value_eq
  obtain ⟨-, definition_eq, created_within, created_quiet⟩ := cx.create_outcome create_eq
  rw [← definition_eq] at code_eq
  generalize later_eq :
    ((MethodContext.create container definition).run.perform cache).state = later
    at extract_eq events_eq
  cases decode_eq : ((cx.extractInstrs code.located cx.entryState).run.perform later).value with
  | error error =>
    rw [MethodContext.extract_of_error code_eq decode_eq] at extract_eq
    cases extract_eq
  | ok final =>
    rw [MethodContext.extract_of_ok code_eq decode_eq] at extract_eq events_eq
    cases extract_eq
    obtain ⟨summary, finish_eq, summary_within, summary_quiet⟩ := cx.finish_events code final
    refine ⟨cx, ?_, rfl, create_eq⟩
    exact
      { early := ((MethodContext.create container definition).run.perform cache).events ++
          cx.entryEvents code
        decoded := ((cx.extractInstrs code.located cx.entryState).run.perform later).events
        summary
        final
        run := cx.decodes_of_ok decode_eq
        events_eq := by
          rw [extract, events_eq, finish_eq]
          simp only [List.append_assoc]
        early_within :=
          (created_within.mono (List.nil_subset _)).append (cx.within_entryEvents code)
        early_quiet := by
          rw [reportsOf_append, created_quiet, cx.reportsOf_entryEvents, List.nil_append]
        summary_within
        summary_quiet }

end DalvikFacts
