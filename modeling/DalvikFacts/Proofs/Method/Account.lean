import DalvikFacts.Proofs.Method.Decoding
import DalvikFacts.Proofs.Method.Told

/-!
# Outputs of a whole method

What the extraction of a method gives out from its header to the edges between its instructions,
also when an instruction fails: then the instructions before it have been done.
-/

namespace DalvikFacts

/-- Events of an action that looks at no declared variable. -/
theorem MethodContext.Says.ofEvents {cx : MethodContext} {α : Type} {action : MethodEmit α}
    {state : MethodState} {value : α} {events : List Event}
    (run_eq : ∀ declared, action.run (state.withDeclared declared) =
      ⟨value, state.withDeclared declared, events⟩) :
    cx.Says action state value (events.map Output.ofEvent) state := by
  constructor
  intro declared
  obtain ⟨render_eq, declared_eq⟩ := cx.render_ofEvent declared events
  rw [run_eq, render_eq, declared_eq]

namespace MethodContext

variable (cx : MethodContext)

/-! ## Header -/

section Header

variable (state : MethodState)

/-- An annotation of the method. -/
def annotationOutputs (mark : Annotation) : List Output :=
  .row .methodAnnotations [cx.id, mark.type.sourceName] ::
    mark.declaredExceptions.map fun exception =>
      .row .methodDeclaresException [exception.sourceName, cx.id]

theorem says_writeAnnotationOf (mark : Annotation) :
    cx.Says (cx.writeAnnotationOf mark) state () (cx.annotationOutputs mark) state := by
  unfold annotationOutputs
  rw [List.map_eq_flatMap]
  exact (Says.row _ _).bind <| .forM fun _ => .row _ _

/-- A parameter with its type and annotations. -/
def parameterOutputs (parameter : Parameter) : List Output :=
  [.mention (Identifier.parameter cx.id parameter.slot),
    .row .formalParam
      [toString parameter.position, cx.id, Identifier.parameter cx.id parameter.slot],
    .row .varType [Identifier.parameter cx.id parameter.slot, parameter.type]] ++
    (cx.definition.annotationsOf parameter.position).map fun mark =>
      .row .paramAnnotations [cx.id, toString parameter.position, mark.type.sourceName]

theorem says_writeParameter (parameter : Parameter) :
    cx.Says (cx.writeParameter parameter) state () (cx.parameterOutputs parameter) state := by
  unfold parameterOutputs
  rw [List.map_eq_flatMap]
  exact (Says.declare _).bind <| (Says.row _ _).bind <| (Says.row _ _).bind <|
    .forM fun _ => .row _ _

/-- The receiver of the method. -/
def thisOutputs : List Output :=
  [.mention (Identifier.receiver cx.id), .row .thisVar [cx.id, Identifier.receiver cx.id],
    .row .varType [Identifier.receiver cx.id, cx.sig.owner]]

theorem says_writeThis : cx.Says cx.writeThis state () cx.thisOutputs state :=
  (Says.declare _).bind <| (Says.row _ _).bind (.row _ _)

/-- The variable of the result of a native method. -/
def nativeReturnOutputs : List Output :=
  [.mention (Identifier.nativeReturn cx.id),
    .row .nativeReturnVar [Identifier.nativeReturn cx.id, cx.id],
    .row .varType [Identifier.nativeReturn cx.id, cx.sig.returnType]]

/-- The symbol of a native method, and the variable of its result. -/
def nativeOutputs : List Output :=
  .row .nativeMethodId [cx.id, Identifier.nativeSymbol cx.sig.owner cx.sig.name] ::
    if !cx.sig.returnsVoid then cx.nativeReturnOutputs else []

theorem says_writeNative : cx.Says cx.writeNative state () cx.nativeOutputs state := by
  have returned : cx.Says (do
        cx.declare (Identifier.nativeReturn cx.id)
        Emit.row .nativeReturnVar [Identifier.nativeReturn cx.id, cx.id]
        Emit.row .varType [Identifier.nativeReturn cx.id, cx.sig.returnType])
      state () cx.nativeReturnOutputs state :=
    (Says.declare _).bind <| (Says.row _ _).bind (.row _ _)
  exact (Says.row _ _).bind returned.optional

/-- The header of the method. -/
def headerOutputs : List Output :=
  [.row .method
      [cx.id, cx.sig.name, cx.sig.paramList, cx.sig.owner, cx.sig.returnType, cx.sig.descriptor,
        toString cx.sig.arity]] ++
    (cx.definition.annotations.flatMap cx.annotationOutputs ++
      ((cx.definition.flags.modifiers .methods).flatMap (fun modifier =>
          [.row .methodModifier [modifier, cx.id]]) ++
        (cx.parameters.flatMap cx.parameterOutputs ++
          ((if !cx.definition.isStatic then cx.thisOutputs else []) ++
            if cx.definition.isNative then cx.nativeOutputs else []))))

theorem says_writeHeader : cx.Says cx.writeHeader state () cx.headerOutputs state :=
  (Says.row _ _).bind <| (Says.forM (cx.says_writeAnnotationOf state)).bind <|
    (Says.forM fun _ => .row _ _).bind <| (Says.forM (cx.says_writeParameter state)).bind <|
      .guarded (cx.says_writeThis state) (cx.says_writeNative state).optional

end Header

/-! ## Exception handlers -/

section Handlers

variable (state : MethodState) (addresses : AddressMap)

/-- The region of a handler with known addresses. -/
def handlerRegion? (block : TryBlock) (handler : CatchHandler) : Option HandlerRegion :=
  (cx.region? addresses block handler).map Prod.fst

/-- A handler of a block, behind the one before it. -/
def handlerOutputs (block : TryBlock) (handler : CatchHandler) (previous : Option HandlerRegion) :
    List Output :=
  (if handler.exceptionType.isNone then [.notice (.method cx.id (.catchAll handler.address))]
    else []) ++
    match cx.region? addresses block handler with
    | none =>
      [.notice (.method cx.id (.unmappedHandler handler.caughtName handler.address block.start
        block.stop))]
    | some (region, start, stop) =>
      .row .exceptionHandler
          [region.insn, cx.id, toString region.index, handler.caughtName, toString start,
            toString stop] ::
        previous.toList.map fun previous =>
          .row .exceptionHandlerPrevious [region.insn, previous.insn]

theorem says_writeHandler (block : TryBlock) (handler : CatchHandler)
    (previous : Option HandlerRegion) :
    cx.Says (cx.writeHandler block handler previous) state
      (cx.handlerRegion? state.addresses block handler)
      (cx.handlerOutputs state.addresses block handler previous) state := by
  unfold writeHandler handlerOutputs handlerRegion?
  refine .guarded (.notice _) <| .get (fun _ => rfl) ?_
  cases cx.region? state.addresses block handler with
  | none => exact (Says.notice _).bind (.pure _ _)
  | some found =>
    cases previous with
    | none => exact (Says.row _ _).bind (.pure _ _)
    | some previous => exact (Says.row _ _).bind <| (Says.row _ _).bind (.pure _ _)

/-- Successive handlers of a block. -/
def handlersOutputs (block : TryBlock) : List CatchHandler → Option HandlerRegion → List Output
  | [], _ => []
  | handler :: rest, previous =>
    cx.handlerOutputs addresses block handler previous ++
      handlersOutputs block rest (cx.handlerRegion? addresses block handler)

theorem says_writeHandlers (block : TryBlock) (handlers : List CatchHandler)
    (previous : Option HandlerRegion) :
    cx.Says (cx.writeHandlers block handlers previous) state
      (handlers.filterMap (cx.handlerRegion? state.addresses block))
      (cx.handlersOutputs state.addresses block handlers previous) state := by
  induction handlers generalizing previous with
  | nil => exact .pure _ _
  | cons handler rest induction =>
    have regions_eq : (handler :: rest).filterMap (cx.handlerRegion? state.addresses block) =
        (cx.handlerRegion? state.addresses block handler).toList ++
          rest.filterMap (cx.handlerRegion? state.addresses block) := by
      rw [List.filterMap_cons]
      cases cx.handlerRegion? state.addresses block handler <;> rfl
    rw [regions_eq]
    exact (cx.says_writeHandler state block handler previous).bind <|
      (induction _).bind_silent (.pure _ _)

/-- The regions of the handlers of all blocks. -/
def regions (tries : List TryBlock) : List HandlerRegion :=
  tries.flatMap fun block => block.sortedHandlers.filterMap (cx.handlerRegion? addresses block)

/-- The handlers of all blocks. -/
def triesOutputs (tries : List TryBlock) : List Output :=
  tries.flatMap fun block => cx.handlersOutputs addresses block block.sortedHandlers none

theorem says_writeTries (tries : List TryBlock) :
    cx.Says (cx.writeTries tries) state (cx.regions state.addresses tries)
      (cx.triesOutputs state.addresses tries) state := by
  induction tries with
  | nil => exact .pure _ _
  | cons block rest induction =>
    exact (cx.says_writeHandlers state block _ none).bind <| induction.bind_silent (.pure _ _)

/-- A caught exception bound to a handler. -/
def boundOutputs (caught : CaughtException) (region : HandlerRegion) : List Output :=
  (if region.index ≠ caught.index then
      [.notice (.method cx.id (.catchElsewhere caught.index region.index))]
    else []) ++
    [.mention (cx.variableOf caught.reg),
      .row .exceptionHandlerFormalParam [region.insn, cx.variableOf caught.reg]]

theorem says_bindTo (caught : CaughtException) (region : HandlerRegion) :
    cx.Says (cx.bindTo caught region) state () (cx.boundOutputs caught region) state :=
  .guarded (.notice _) <| (Says.use caught.reg).bind (.row _ _)

/-- A caught exception, bound to all handlers that start with it. -/
def caughtOutputs (regions : List HandlerRegion) (caught : CaughtException) : List Output :=
  (regions.filter (·.address == caught.address)).flatMap (cx.boundOutputs caught) ++
    if (regions.filter (·.address == caught.address)).isEmpty then
      [.notice (.method cx.id (.catchOutsideHandler caught.index))]
    else []

theorem says_bindCaught (regions : List HandlerRegion) (caught : CaughtException) :
    cx.Says (cx.bindCaught regions caught) state () (cx.caughtOutputs regions caught) state :=
  (Says.forM (cx.says_bindTo state caught)).bind (Says.notice _).optional

/-- The exception handlers and the exceptions caught in the method. -/
def exceptionOutputs (tries : List TryBlock) (catches : List CaughtException) : List Output :=
  cx.triesOutputs addresses tries ++
    catches.flatMap (cx.caughtOutputs (cx.regions addresses tries))

theorem says_writeExceptions (tries : List TryBlock) :
    cx.Says (cx.writeExceptions tries) state ()
      (cx.exceptionOutputs state.addresses tries state.catches.toList) state :=
  (cx.says_writeTries state tries).bind <| .get (fun _ => rfl) <|
    .forM (cx.says_bindCaught state _)

end Handlers

/-! ## End -/

/-- The state at the end of the body. -/
def ended (code : CodeItem) (state : MethodState) : MethodState :=
  state.reach code.endAddress (code.instructions.length + 1)

/-- What is reported about edges with unknown targets. -/
def summaryNotices (addresses : AddressMap) : List Output :=
  if 0 < addresses.unresolved then
    [.notice (.method cx.id (.unresolvedEdges addresses.unresolved))]
  else []

theorem says_writeAddresses (state : MethodState) :
    cx.Says cx.writeAddresses state ()
      (((state.addresses.write cx.id : Emit Unit Unit).run ()).events.map Output.ofEvent ++
        cx.summaryNotices state.addresses) state := by
  have written : cx.Says (state.addresses.write cx.id) state ()
      (((state.addresses.write cx.id : Emit Unit Unit).run ()).events.map Output.ofEvent) state :=
    .ofEvents fun declared => by rw [AddressMap.run_write, AddressMap.run_write]
  exact .get (fun _ => rfl) <| written.bind (Says.notice _).optional

/-- What is known once all instructions are done. -/
def finishOutputs (code : CodeItem) (state : MethodState) : List Output :=
  ((cx.waitingEvents state).map Output.ofEvent ++
      cx.exceptionOutputs (closedMap code state) code.tries state.catches.toList) ++
    ((((closedMap code state).write cx.id : Emit Unit Unit).run ()).events.map Output.ofEvent ++
      cx.summaryNotices (closedMap code state))

theorem says_concludeBody (code : CodeItem) (state : MethodState) :
    cx.Says (cx.concludeBody code) state ()
      ((cx.waitingEvents state).map Output.ofEvent ++
        cx.exceptionOutputs state.addresses code.tries state.catches.toList) state := by
  have reported : ∀ {α : Type} (pending : Pending α) (what : String),
      cx.Says (pending.reportResidual what cx.id) state pending.residual
        ((cx.residualEvents pending what).map Output.ofEvent) state := by
    intro α pending what
    exact .ofEvents fun declared => cx.run_reportResidual pending what _
  unfold waitingEvents concludeBody
  rw [List.map_append, List.append_assoc]
  refine .get (fun declared => by dsimp only [MethodState.withDeclared]) ?_
  refine (reported state.fills "fill-array-data").bind ?_
  refine .get (fun declared => by dsimp only [MethodState.withDeclared]) ?_
  exact (reported state.switches "switch").bind (cx.says_writeExceptions state code.tries)

theorem says_finish (code : CodeItem) (state : MethodState) :
    cx.Says (cx.finish code) state () (cx.finishOutputs code state) (ended code state) :=
  (Says.modify fun _ => rfl).silent_bind <|
    (cx.says_concludeBody code (ended code state)).bind (cx.says_writeAddresses _)

/-! ## Instructions -/

/-- The outputs of successive instructions.  What is declared between them does not matter. -/
inductive Recites (cx : MethodContext) :
    List LocatedInstr → MethodState → List Output → MethodState → Prop
  | nil (state : MethodState) : Recites cx [] state [] state
  | cons {here : LocatedInstr} {rest : List LocatedInstr} {state next final : MethodState}
      {outputs others : List Output} {declared : Std.HashSet String}
      (told : cx.Tells here (state.reach here.address here.index) outputs next)
      (within : ∀ fact ∈ factsAmong outputs, fact.relation ∈ here.instr.relations)
      (later : Recites cx rest (next.withDeclared declared) others final) :
      Recites cx (here :: rest) state (outputs ++ others) final

variable {cx} {instrs : List LocatedInstr} {state final : MethodState} {events : List Event}

/-- A run through instructions gives out their outputs. -/
theorem Decodes.recites (run : cx.Decodes instrs state events final) :
    ∃ outputs, cx.Recites instrs state outputs final ∧
      events = cx.render state.declared outputs ∧
      final.declared = declaredAfter state.declared outputs := by
  induction run with
  | nil state => exact ⟨[], .nil state, rfl, rfl⟩
  | @cons here rest state final events action planned later induction =>
    let arrived := state.reach here.address here.index
    have planned_there : cx.Planned here arrived.carry.result action := planned
    obtain ⟨outputs, next, spoken, told⟩ := planned_there.tells
    have run_eq := spoken.run
    have written := planned.footprint.within arrived
    obtain ⟨others, recited, events_eq, declared_eq⟩ := induction
    rw [run_eq] at recited events_eq declared_eq written ⊢
    have within : ∀ fact ∈ factsAmong outputs, fact.relation ∈ here.instr.relations :=
      fun fact member => written.facts fact ((mem_factsOf _).1 (cx.mem_factsOf_render member _))
    refine ⟨outputs ++ others, .cons told within recited, ?_, ?_⟩
    · rw [render_append, events_eq]
      rfl
    · rw [declaredAfter_append, declared_eq]
      rfl

section Steps

variable {here : LocatedInstr} {rest : List LocatedInstr} {cache : SignatureCache}

theorem perform_extractInstrs_of_error {error : ExtractionError}
    (plan_eq : ((Extract.lookup (cx.plan here state.carry.result)).run.perform cache).value =
      .error error) :
    (cx.extractInstrs (here :: rest) state).run.perform cache =
      ⟨.error error,
        ((Extract.lookup (cx.plan here state.carry.result)).run.perform cache).state, []⟩ := by
  refine (Extract.perform_bind_of_error cache plan_eq).trans ?_
  rw [Extract.perform_lookup]

/-- A planned instruction is done before the rest goes on. -/
theorem perform_extractInstrs_of_ok {action : MethodEmit Unit}
    (plan_eq : ((Extract.lookup (cx.plan here state.carry.result)).run.perform cache).value =
      .ok action) :
    (cx.extractInstrs (here :: rest) state).run.perform cache =
      let reached := action.run (state.reach here.address here.index)
      let later := (cx.extractInstrs rest reached.state).run.perform
        ((Extract.lookup (cx.plan here state.carry.result)).run.perform cache).state
      ⟨later.value, later.state, reached.events ++ later.events⟩ := by
  refine (Extract.perform_bind_of_ok cache plan_eq).trans ?_
  rw [Extract.perform_within_bind, Extract.perform_lookup, List.nil_append]

end Steps

/-- The extraction of instructions does them up to the first one that fails. -/
theorem exists_decodes_front (instrs : List LocatedInstr) (state : MethodState)
    (cache : SignatureCache) :
    ∃ front back reached, instrs = front ++ back ∧
      cx.Decodes front state ((cx.extractInstrs instrs state).run.perform cache).events reached ∧
      ∀ final, ((cx.extractInstrs instrs state).run.perform cache).value = .ok final →
        back = [] ∧ final = reached := by
  induction instrs generalizing state cache with
  | nil =>
    refine ⟨[], [], state, rfl, .nil state, fun final value_eq => ⟨rfl, ?_⟩⟩
    cases value_eq
    rfl
  | cons here rest induction =>
    let lookup := Extract.lookup (cx.plan here state.carry.result)
    cases plan_eq : (lookup.run.perform cache).value with
    | error error =>
      rw [perform_extractInstrs_of_error plan_eq]
      exact ⟨[], here :: rest, state, rfl, .nil state, fun final value_eq => by cases value_eq⟩
    | ok action =>
      have planned : cx.Planned here state.carry.result action := by
        rw [Extract.perform_lookup] at plan_eq
        exact yields_plan cx here _ _ action plan_eq
      obtain ⟨front, back, reached, rest_eq, run, ends⟩ :=
        induction (action.run (state.reach here.address here.index)).state
          (lookup.run.perform cache).state
      rw [perform_extractInstrs_of_ok plan_eq]
      exact ⟨here :: front, back, reached, by rw [rest_eq, List.cons_append],
        .cons planned run, ends⟩

/-! ## Methods -/

theorem entryState_eq :
    cx.entryState = MethodState.start.withDeclared (declaredAfter {} cx.headerOutputs) := by
  unfold entryState
  rw [(cx.says_writeHeader .start).run]
  rfl

variable (cx)

/-- What is reported about markers that move the entry of the method. -/
def movedNotices (code : CodeItem) : List Output :=
  ((code.debugItems.filterMap DebugItem.movedEntry?).map fun address =>
    Event.notice (.method cx.id (.movedEntry address))).map Output.ofEvent

/-- The events before the first instruction, and those behind. -/
theorem render_entry (code : CodeItem) (outputs : List Output) :
    cx.render {} ((cx.headerOutputs ++ cx.movedNotices code) ++ outputs) =
      cx.entryEvents code ++ cx.render cx.entryState.declared outputs := by
  have declared_eq : declaredAfter {} (cx.headerOutputs ++ cx.movedNotices code) =
      cx.entryState.declared := by
    unfold movedNotices
    rw [declaredAfter_append, (cx.render_ofEvent _ _).2, entryState_eq]
    rfl
  have entry_eq : cx.render {} (cx.headerOutputs ++ cx.movedNotices code) =
      cx.entryEvents code := by
    unfold entryEvents movedNotices
    rw [(cx.says_writeHeader .start).run, render_append, (cx.render_ofEvent _ _).1]
    rfl
  rw [render_append, declared_eq, entry_eq]

theorem relation_headerOutputs {fact : Fact} (member : fact ∈ factsAmong cx.headerOutputs) :
    fact.relation ∈ headerRelations := by
  have within := cx.footprint_writeHeader.within .start
  rw [(cx.says_writeHeader .start).run] at within
  exact within.facts fact ((mem_factsOf _).1 (cx.mem_factsOf_render member _))

theorem factsAmong_movedNotices (code : CodeItem) : factsAmong (cx.movedNotices code) = [] := by
  rw [movedNotices, factsAmong_ofEvent, List.eq_nil_iff_forall_not_mem]
  intro fact member
  simp [mem_factsOf] at member

/-- Behind a header, rows of relations that are none of the header are those of what is behind. -/
theorem filter_factsOf_behind (chosen : Relation → Bool)
    (no_header : ∀ relation ∈ headerRelations, chosen relation = false) {moved : List Output}
    (moved_eq : factsAmong moved = []) (behind : List Output) :
    (factsOf (cx.render {} ((cx.headerOutputs ++ moved) ++ behind))).filter
        (fun fact => chosen fact.relation) =
      (factsAmong behind).filter (fun fact => chosen fact.relation) := by
  have header_nil :
      (factsAmong cx.headerOutputs).filter (fun fact => chosen fact.relation) = [] := by
    rw [List.filter_eq_nil_iff]
    intro fact member
    simp [no_header _ (cx.relation_headerOutputs member)]
  rw [cx.filter_factsOf_render chosen (no_header _ (by decide)), factsAmong_append,
    factsAmong_append, moved_eq, List.append_nil, List.filter_append, header_nil, List.nil_append]

theorem relation_exceptionOutputs {addresses : AddressMap} {tries : List TryBlock}
    {catches : List CaughtException} {fact : Fact}
    (member : fact ∈ factsAmong (cx.exceptionOutputs addresses tries catches)) :
    fact.relation ∈ handlerRelations := by
  let state : MethodState := { MethodState.start with addresses, catches := catches.toArray }
  have within := (cx.footprint_writeExceptions tries).within state
  rw [(cx.says_writeExceptions state tries).run] at within
  exact within.facts fact ((mem_factsOf _).1 (cx.mem_factsOf_render (by simpa using member) _))

/-- At the end come the rows of exception handlers, and those of the address map. -/
theorem factsAmong_finishOutputs (code : CodeItem) (state : MethodState) :
    factsAmong (cx.finishOutputs code state) =
      factsAmong (cx.exceptionOutputs (closedMap code state) code.tries state.catches.toList) ++
        factsOf (((closedMap code state).write cx.id : Emit Unit Unit).run ()).events := by
  have waiting : factsOf (cx.waitingEvents state) = [] :=
    (cx.within_waitingEvents state).factsOf_eq_nil
  have summary : factsAmong (cx.summaryNotices (closedMap code state)) = [] := by
    unfold summaryNotices
    split <;> rfl
  rw [finishOutputs, factsAmong_append, factsAmong_append, factsAmong_append, factsAmong_ofEvent,
    factsAmong_ofEvent, waiting, summary, List.nil_append, List.append_nil]

/-- What the extraction of a method with a body gives out: the header, the instructions up to the
first one that fails, and if none fails, the end. -/
structure Account (code : CodeItem)
    (outcome : Emitted SignatureCache (Except ExtractionError ExtractedMethod)) where
  front : List LocatedInstr
  back : List LocatedInstr
  decoded : List Event
  body : List Output
  ending : List Output
  reached : MethodState
  located_eq : code.located = front ++ back
  decodes : cx.Decodes front cx.entryState decoded reached
  recites : cx.Recites front cx.entryState body reached
  events_eq : outcome.events =
    cx.render {} ((cx.headerOutputs ++ cx.movedNotices code) ++ (body ++ ending))
  ending_eq : ending = [] ∨ ending = cx.finishOutputs code reached
  complete : ∀ extracted, outcome.value = .ok extracted → back = [] ∧
    ending = cx.finishOutputs code reached ∧
    extracted = ⟨cx.id, code.instructions.length, reached.accesses.toList⟩

variable {cx}

theorem exists_account {code : CodeItem} (code_eq : cx.definition.code = some code)
    (cache : SignatureCache) :
    Nonempty (cx.Account code (cx.extract.run.perform cache)) := by
  obtain ⟨front, back, reached, located_eq, run, ends⟩ :=
    cx.exists_decodes_front code.located cx.entryState cache
  obtain ⟨body, recites, events_eq, declared_eq⟩ := run.recites
  cases value_eq : ((cx.extractInstrs code.located cx.entryState).run.perform cache).value with
  | error error =>
    rw [extract_of_error code_eq value_eq]
    refine ⟨⟨front, back, _, body, [], reached, located_eq, run, recites, ?_, .inl rfl, ?_⟩⟩
    · rw [render_entry, events_eq, List.append_nil]
    · intro extracted extracted_eq
      cases extracted_eq
  | ok final =>
    obtain ⟨back_eq, rfl⟩ := ends final value_eq
    have finished := (cx.says_finish code final).run
    rw [extract_of_ok code_eq value_eq, finished]
    refine ⟨⟨front, back, _, body, cx.finishOutputs code final, final, located_eq, run, recites,
      ?_, .inr rfl, ?_⟩⟩
    · rw [render_entry, render_append, events_eq, declared_eq, List.append_assoc]
    · intro extracted extracted_eq
      cases extracted_eq
      exact ⟨back_eq, rfl, rfl⟩

theorem extract_of_none (code_eq : cx.definition.code = none) (cache : SignatureCache) :
    cx.extract.run.perform cache = ⟨.ok ⟨cx.id, 0, []⟩, cache, cx.render {} cx.headerOutputs⟩ := by
  have header := (cx.says_writeHeader .start).run
  unfold extract
  rw [Extract.perform_within_bind, code_eq, header]
  simp [MethodState.start, MethodState.withDeclared]

theorem exists_ofSig (container : Container) (definition : MethodDef) (sig : MethodSig)
    (cache : SignatureCache) :
    ∃ cx, ((ofSig container definition sig).run.perform cache).value = .ok cx := by
  unfold ofSig
  cases definition.code with
  | none => exact ⟨_, rfl⟩
  | some code =>
    dsimp only
    split
    · rw [Extract.perform_emit_bind]
      exact ⟨_, rfl⟩
    · exact ⟨_, rfl⟩

/-- When the start of an extraction fails, nothing is given out. -/
theorem events_create_of_error {container : Container} {definition : MethodDef}
    {cache : SignatureCache} {error : ExtractionError}
    (value_eq : ((create container definition).run.perform cache).value = .error error) :
    ((create container definition).run.perform cache).events = [] := by
  unfold create at value_eq ⊢
  cases found_eq : ((Extract.lookup
      (SignatureCache.method container definition.method)).run.perform cache).value with
  | error missing => rw [Extract.perform_bind_of_error cache found_eq, Extract.perform_lookup]
  | ok found =>
    obtain ⟨cx, created⟩ := exists_ofSig container definition found.value
      ((Extract.lookup (SignatureCache.method container definition.method)).run.perform cache).state
    rw [Extract.perform_bind_of_ok cache found_eq, created] at value_eq
    cases value_eq

end MethodContext

/-- The extraction of a method fails at its start without events, or goes on behind notices. -/
theorem MethodDef.extract_outcome (container : Container) (definition : MethodDef)
    (cache : SignatureCache) :
    (((definition.extract container).run.perform cache).events = [] ∧
      ∃ error, ((definition.extract container).run.perform cache).value = .error error) ∨
    ∃ (cx : MethodContext) (created : List Event) (later : SignatureCache),
      cx.definition = definition ∧ Within [] created ∧
      ((definition.extract container).run.perform cache).value =
        (cx.extract.run.perform later).value ∧
      ((definition.extract container).run.perform cache).events =
        created ++ (cx.extract.run.perform later).events := by
  cases create_eq : ((MethodContext.create container definition).run.perform cache).value with
  | error error =>
    have run_eq : (definition.extract container).run.perform cache = _ :=
      Extract.perform_bind_of_error cache create_eq
    rw [run_eq]
    exact .inl ⟨MethodContext.events_create_of_error create_eq, error, rfl⟩
  | ok cx =>
    have run_eq : (definition.extract container).run.perform cache = _ :=
      Extract.perform_bind_of_ok cache create_eq
    obtain ⟨-, definition_eq, created_within, -⟩ := cx.create_outcome create_eq
    rw [run_eq]
    exact .inr ⟨cx, _, _, definition_eq, created_within, rfl, rfl⟩

end DalvikFacts
