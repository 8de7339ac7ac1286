import DalvikFacts.Proofs.Method.Account
import DalvikFacts.Proofs.Method.HandlerChains

/-!
# Caught exceptions

The exceptions that a body moves into registers are gathered while its instructions are read, and
joined with the handlers that have rows when all of these are known.  The join goes by addresses: an
exception has one row for each handler at its address, and one that finds no handler has none and is
reported instead.
-/

namespace DalvikFacts

/-- The exception that an instruction moves into a register. -/
def LocatedInstr.caught? (here : LocatedInstr) : Option CaughtException :=
  match here.instr with
  | .moveException dst => some ⟨dst, here.address, here.index⟩
  | _ => none

namespace CodeItem

variable (code : CodeItem)

/-- The exceptions that a body moves into registers, in order. -/
def caughtExceptions : List CaughtException :=
  code.located.filterMap LocatedInstr.caught?

/-- The handlers that have rows, given by the rows of the address map: the address of each handler,
and its row. -/
def handlerRows (method : String) (entries : List (Address × Nat)) :
    List (Address × List String) :=
  code.tries.flatMap fun block => block.sortedHandlers.filterMap fun handler =>
    (block.handlerRow? method entries handler).map (handler.address, ·)

/-- The rows of the handlers at an address. -/
def handlersAt (method : String) (entries : List (Address × Nat)) (address : Address) :
    List (List String) :=
  ((code.handlerRows method entries).filter (·.1 == address)).map Prod.snd

theorem map_snd_handlerRows (method : String) (entries : List (Address × Nat)) :
    (code.handlerRows method entries).map Prod.snd = code.tries.flatMap fun block =>
      block.sortedHandlers.filterMap (block.handlerRow? method entries) := by
  simp [handlerRows, List.map_flatMap, List.map_filterMap, Function.comp_def]

end CodeItem

theorem TryBlock.handlerRow?_congr {entries others : List (Address × Nat)}
    (same : ∀ address, entries.lookup address = others.lookup address) (method : String)
    (block : TryBlock) (handler : CatchHandler) :
    block.handlerRow? method entries handler = block.handlerRow? method others handler := by
  simp only [handlerRow?, same]

/-- Whether a notice reports an exception that no handler starts with. -/
def Notice.isStrayCatch : Notice → Bool
  | .method _ (.catchOutsideHandler _) => true
  | _ => false

/-- The reports about exceptions that no handler starts with. -/
def straysOf (events : List Event) : List Notice :=
  (noticesOf events).filter Notice.isStrayCatch

theorem straysOf_append (events others : List Event) :
    straysOf (events ++ others) = straysOf events ++ straysOf others := by
  rw [straysOf, noticesOf_append, List.filter_append]
  rfl

/-- The notice of an output. -/
def Output.notice? : Output → Option Notice
  | notice found => some found
  | _ => none

@[simp]
theorem Output.notice?_mention (var : String) : (Output.mention var).notice? = none :=
  rfl

@[simp]
theorem Output.notice?_notice (found : Notice) : (Output.notice found).notice? = some found :=
  rfl

@[simp]
theorem Output.notice?_row (relation : Relation) (columns : List String) :
    (Output.row relation columns).notice? = none :=
  rfl

/-- The notices among outputs. -/
abbrev noticesAmong (outputs : List Output) : List Notice :=
  outputs.filterMap Output.notice?

theorem mem_noticesAmong {notice : Notice} {outputs : List Output} :
    notice ∈ noticesAmong outputs ↔ .notice notice ∈ outputs := by
  simp only [noticesAmong, List.mem_filterMap]
  constructor
  · rintro ⟨output, member, notice_eq⟩
    cases output with
    | notice => cases notice_eq; exact member
    | _ => cases notice_eq
  · exact fun member => ⟨_, member, rfl⟩

@[simp]
theorem noticesAmong_ofEvent (events : List Event) :
    noticesAmong (events.map Output.ofEvent) = noticesOf events := by
  induction events with
  | nil => rfl
  | cons event rest induction =>
    cases event with
    | fact => exact induction
    | notice notice => exact congrArg (notice :: ·) induction

/-- Whether a notice is one that instructions report while they are done. -/
def Notice.isOfInstruction : Notice → Bool
  | .method _ (.optimizedOpcode ..) | .method _ (.fieldHandle _)
  | .method _ (.fillWithoutArray _) | .method _ (.fillFarFromArray ..)
  | .method _ (.fillBeforeEntry _) | .method _ (.unusedArrayPayload _)
  | .method _ (.unsupportedWidth _) | .method _ (.switchBeforeEntry _)
  | .method _ (.unusedSwitchPayload _) => true
  | _ => false

theorem Notice.isStrayCatch_of_isOfInstruction (notice : Notice)
    (own : notice.isOfInstruction = true) : notice.isStrayCatch = false := by
  unfold isStrayCatch
  split
  · cases own
  · rfl

/-- None of the outputs reports an exception that no handler starts with. -/
def Calm (outputs : List Output) : Prop :=
  ∀ notice ∈ noticesAmong outputs, notice.isStrayCatch = false

/-- Events that neither bind a caught exception nor report it. -/
structure CatchFree (events : List Event) : Prop where
  rows : rowsOf .exceptionHandlerFormalParam events = []
  strays : straysOf events = []

namespace CatchFree

theorem nil : CatchFree [] :=
  ⟨rfl, rfl⟩

theorem append {events others : List Event} (early : CatchFree events) (late : CatchFree others) :
    CatchFree (events ++ others) where
  rows := by rw [rowsOf_append, early.rows, late.rows, List.append_nil]
  strays := by rw [straysOf_append, early.strays, late.strays, List.append_nil]

end CatchFree

namespace MethodContext

variable {cx : MethodContext}

/-- Notices are given out as they are. -/
theorem noticesOf_render (declared : Std.HashSet String) (outputs : List Output) :
    noticesOf (cx.render declared outputs) = noticesAmong outputs := by
  induction outputs generalizing declared with
  | nil => rfl
  | cons output rest induction =>
    cases output with
    | mention var =>
      rw [render]
      split
      · exact induction declared
      · exact induction _
    | fact found => exact induction declared
    | notice notice => exact congrArg (notice :: ·) (induction declared)

theorem catchFree_render {outputs : List Output}
    (unbound : ∀ fact ∈ factsAmong outputs, fact.relation ≠ .exceptionHandlerFormalParam)
    (calm : Calm outputs) (declared : Std.HashSet String) :
    CatchFree (cx.render declared outputs) where
  rows := by
    rw [cx.rowsOf_render (by simp)]
    exact rowsIn_eq_nil unbound
  strays := by
    rw [straysOf, noticesOf_render, List.filter_eq_nil_iff]
    intro notice member
    simp [calm notice member]

theorem exists_render_flatMap {α : Type} (each : α → List Output) (items : List α)
    (declared : Std.HashSet String) :
    ∃ parts : List (List Event), cx.render declared (items.flatMap each) = parts.flatten ∧
      List.Forall₂ (fun item part => ∃ known, part = cx.render known (each item)) items parts := by
  induction items generalizing declared with
  | nil => exact ⟨[], rfl, .nil⟩
  | cons item rest induction =>
    obtain ⟨parts, rest_eq, parts_eq⟩ := induction (declaredAfter declared (each item))
    refine ⟨cx.render declared (each item) :: parts, ?_, .cons ⟨declared, rfl⟩ parts_eq⟩
    rw [List.flatMap_cons, render_append, rest_eq, List.flatten_cons]

variable {here : LocatedInstr} {state next final : MethodState} {outputs : List Output}

/-! ## Instructions -/

/-- An instruction gathers the exception that it moves into a register, and no other. -/
theorem Tells.catches (told : cx.Tells here state outputs next) :
    next.catches.toList = state.catches.toList ++ here.caught?.toList := by
  cases told with
  | moveException instr_eq => simp [LocatedInstr.caught?, instr_eq, caught]
  | moveResult pending instr_eq =>
    cases producer_eq : pending.producer <;>
      simp [LocatedInstr.caught?, instr_eq, resultTaken, MethodState.withCarry, MethodState.count]
  | fillArrayData instr_eq =>
    unfold awaitingFill
    split
    · simp [LocatedInstr.caught?, instr_eq]
    · split <;> simp [LocatedInstr.caught?, instr_eq, MethodState.withCarry]
  | switch instr_eq =>
    unfold awaitingCases
    split <;> simp [LocatedInstr.caught?, instr_eq]
  | _ =>
    have none_eq : here.caught? = none := by simp [LocatedInstr.caught?, *]
    rw [none_eq]
    exact (List.append_nil _).symm

/-- Successive instructions gather the exceptions that they move into registers, in order. -/
theorem Recites.catches {instrs : List LocatedInstr} (run : cx.Recites instrs state outputs final) :
    final.catches.toList = state.catches.toList ++ instrs.filterMap LocatedInstr.caught? := by
  induction run with
  | nil => simp
  | @cons here rest state next final outputs others declared told within later induction =>
    have own : next.catches.toList = state.catches.toList ++ here.caught?.toList := told.catches
    have behind : final.catches.toList = next.catches.toList ++ _ := induction
    rw [behind, own, List.append_assoc, List.filterMap_cons]
    cases here.caught? <;> rfl

/-- What instructions report is about arrays, switches, handles of fields and opcodes left out. -/
theorem Tells.notices (told : cx.Tells here state outputs next) :
    ∀ notice ∈ noticesAmong outputs, notice.isOfInstruction = true := by
  have stored : ∀ heap type var isEmpty,
      noticesAmong (cx.allocated here heap type var isEmpty) = [] := by
    intro heap type var isEmpty
    cases isEmpty <;> rfl
  have called : ∀ insn call, noticesAmong (cx.callOutputs here insn call) = [] := by
    intro insn call
    simp [callOutputs, receiverRows, paramRows, lineRows, List.filterMap_flatMap]
  cases told with
  | move instr_eq | const instr_eq | constWide instr_eq | arrayLength instr_eq | compare instr_eq
    | unop instr_eq | binop instr_eq | binopInPlace instr_eq | binopLiteral instr_eq
    | binopSmallLiteral instr_eq =>
    simp [moveOutputs, numberOutputs, unopOutputs, binopOutputs, binopLiteralOutputs, operand,
      typing, instr_eq, Instr.statementType?]
  | constString | constClass | methodHandle | constMethodType =>
    simp [stringOutputs, classOutputs, methodHandleOutputs, methodTypeOutputs, methodTypeRows,
      positioned, stringRows, constantOutputs, object]
  | fieldHandle | optimized =>
    simp [fieldHandleOutputs, constantOutputs, object, Notice.isOfInstruction]
  | newInstance | newArray | filledNewArray =>
    simp [-List.mem_filterMap, List.filterMap_cons, Function.comp_def, newInstanceOutputs,
      newArrayOutputs, arrayTypeRows, stored]
  | moveResult pending =>
    cases producer_eq : pending.producer with
    | invocation insn => simp [resultOutputs]
    | filledArray type elements =>
      simp [-List.mem_filterMap, List.filterMap_cons, resultOutputs, stored, filledElements,
        List.filterMap_flatMap]
  | invoke | invokePolymorphic | invokeCustom =>
    simp [-List.mem_filterMap, List.filterMap_cons, Function.comp_def, called,
      polymorphicCallOutputs, customCallOutputs, paramRows, positioned, stringRows,
      List.filterMap_flatMap]
  | switch =>
    unfold switchOutputs switchNotices
    split <;> simp [Notice.isOfInstruction]
  | packedSwitchPayload | sparseSwitchPayload =>
    unfold casesNotices
    split <;> simp [Notice.isOfInstruction]
  | fillArrayData =>
    unfold fillNotices
    repeat' split
    all_goals simp [Notice.isOfInstruction]
  | arrayPayload =>
    unfold payloadOutputs
    repeat' split
    all_goals simp [-List.mem_filterMap, List.filterMap_cons, Notice.isOfInstruction, filled,
      List.filterMap_flatMap]
  | _ =>
    simp [returnVoidOutputs, returnOutputs, throwOutputs, monitorOutputs, castOutputs,
      instanceOfOutputs, arrayAccessOutputs, fieldOutputs, testOutputs, testOperand]

theorem Tells.calm (told : cx.Tells here state outputs next) : Calm outputs :=
  fun notice member => notice.isStrayCatch_of_isOfInstruction (told.notices notice member)

theorem Recites.catchFree {instrs : List LocatedInstr} (run : cx.Recites instrs state outputs final)
    (declared : Std.HashSet String) : CatchFree (cx.render declared outputs) := by
  induction run generalizing declared with
  | nil => exact .nil
  | @cons here rest state next final outputs others known told within later induction =>
    rw [render_append]
    refine (catchFree_render (fun fact member => ?_) told.calm declared).append (induction _)
    intro relation_eq
    have ending : fact.relation ∈ endRelations := relation_eq ▸ by decide
    exact here.instr.notMem_endRelations _ (within fact member) ending

theorem events_extractInstrs_of_caught (cx : MethodContext) {caught : CaughtException}
    (caught_eq : here.caught? = some caught) (state : MethodState) (cache : SignatureCache) :
    ((cx.extractInstrs [here] state).run cache).events = [] := by
  obtain ⟨index, address, instr⟩ := here
  cases instr with
  | moveException dst => rfl
  | _ => cases caught_eq

/-! ## Handlers -/

section Handlers

variable (cx) (addresses : AddressMap)

theorem handlerRegion?_eq (block : TryBlock) (handler : CatchHandler) :
    (cx.handlerRegion? addresses block handler).map
        (fun region => (region.address, [region.insn])) =
      (cx.handlerRow? addresses block handler).map fun row => (handler.address, row.take 1) := by
  have address_eq : ∀ region start stop,
      cx.region? addresses block handler = some (region, start, stop) →
        region.address = handler.address := by
    intro region start stop region_eq
    simp only [region?, Option.bind_eq_bind, Option.bind_eq_some_iff, Option.pure_def,
      Option.some_inj, Prod.mk.injEq] at region_eq
    obtain ⟨_, _, _, _, _, _, rfl, _, _⟩ := region_eq
    rfl
  unfold handlerRegion? handlerRow?
  cases region_eq : cx.region? addresses block handler with
  | none => rfl
  | some found =>
    obtain ⟨region, start, stop⟩ := found
    simp [address_eq region start stop region_eq]

variable (code : CodeItem) {entries : List (Address × Nat)}

/-- The handlers at an address are joined with the exceptions there. -/
theorem map_regionsAt (lookup_eq : ∀ address, entries.lookup address = addresses.indexOf? address)
    (address : Address) :
    ((cx.regions addresses code.tries).filter (·.address == address)).map
        (fun region => [region.insn]) =
      (code.handlersAt cx.id entries address).map (·.take 1) := by
  have row_eq : ∀ block handler, cx.handlerRow? addresses block handler =
      block.handlerRow? cx.id entries handler := by
    intro block handler
    rw [cx.handlerRow?_eq]
    refine TryBlock.handlerRow?_congr (fun address => ?_) cx.id block handler
    rw [lookup_eq, addresses.lookup_toList]
  have all_eq : (cx.regions addresses code.tries).map
        (fun region => (region.address, [region.insn])) =
      (code.handlerRows cx.id entries).map fun handler => (handler.1, handler.2.take 1) := by
    simp only [regions, CodeItem.handlerRows, List.map_flatMap, List.map_filterMap,
      cx.handlerRegion?_eq, row_eq, Option.map_map, Function.comp_def]
  have chosen := congrArg (fun pairs => (pairs.filter (·.1 == address)).map Prod.snd) all_eq
  simp only [List.filter_map, List.map_map, Function.comp_def] at chosen
  rw [chosen, CodeItem.handlersAt, List.map_map]
  rfl

variable (lookup_eq : ∀ address, entries.lookup address = addresses.indexOf? address)
  (caught : CaughtException)

include lookup_eq

/-- An exception has one row for each handler at its address. -/
theorem rowsIn_caughtOutputs :
    rowsIn .exceptionHandlerFormalParam
        (factsAmong (cx.caughtOutputs (cx.regions addresses code.tries) caught)) =
      (code.handlersAt cx.id entries caught.address).map
        (·.take 1 ++ [cx.variableOf caught.reg]) := by
  have one : ∀ region, rowsIn .exceptionHandlerFormalParam
      (factsAmong (cx.boundOutputs caught region)) = [[region.insn, cx.variableOf caught.reg]] := by
    intro region
    unfold boundOutputs
    split <;> simp
  have reported : ∀ (alone : Bool) notice,
      factsAmong (if alone then [.notice notice] else []) = [] := by
    intro alone notice
    cases alone <;> rfl
  have joined := congrArg (List.map (· ++ [cx.variableOf caught.reg]))
    (cx.map_regionsAt addresses code lookup_eq caught.address)
  rw [List.map_map, List.map_map] at joined
  rw [caughtOutputs, factsAmong_append, reported, List.append_nil, factsAmong_flatMap,
    rowsIn_flatMap]
  simp only [one]
  rw [← List.map_eq_flatMap]
  exact joined

/-- An exception with a handler at its address is not reported. -/
theorem noticesAmong_caughtOutputs :
    (noticesAmong (cx.caughtOutputs (cx.regions addresses code.tries) caught)).filter
        Notice.isStrayCatch =
      if (code.handlersAt cx.id entries caught.address).isEmpty then
        [.method cx.id (.catchOutsideHandler caught.index)] else [] := by
  have joined := congrArg List.isEmpty (cx.map_regionsAt addresses code lookup_eq caught.address)
  rw [List.isEmpty_map, List.isEmpty_map] at joined
  have bound : ∀ regions : List HandlerRegion,
      (noticesAmong (regions.flatMap (cx.boundOutputs caught))).filter Notice.isStrayCatch =
        [] := by
    intro regions
    rw [List.filter_eq_nil_iff, noticesAmong, List.filterMap_flatMap]
    intro notice member
    obtain ⟨region, -, member⟩ := List.mem_flatMap.1 member
    unfold boundOutputs at member
    split at member
    · simp at member
      simp [member, Notice.isStrayCatch]
    · simp at member
  rw [caughtOutputs, noticesAmong, List.filterMap_append, List.filter_append]
  refine (congrArg (· ++ _) (bound _)).trans ?_
  rw [List.nil_append, joined]
  split <;> rfl

theorem caughtOutputs_eq_singleton
    (alone : code.handlersAt cx.id entries caught.address = []) :
    cx.caughtOutputs (cx.regions addresses code.tries) caught =
      [.notice (.method cx.id (.catchOutsideHandler caught.index))] := by
  have joined := cx.map_regionsAt addresses code lookup_eq caught.address
  rw [alone, List.map_nil, List.map_eq_nil_iff] at joined
  rw [caughtOutputs, joined]
  rfl

end Handlers

/-! ## Methods -/

/-- The handlers of all blocks are given out one by one. -/
theorem exists_handler_of_mem (cx : MethodContext) {addresses : AddressMap} {tries : List TryBlock}
    {output : Output} (member : output ∈ cx.triesOutputs addresses tries) :
    ∃ block handler previous, output ∈ cx.handlerOutputs addresses block handler previous := by
  have chain : ∀ block handlers previous,
      output ∈ cx.handlersOutputs addresses block handlers previous →
        ∃ handler previous, output ∈ cx.handlerOutputs addresses block handler previous := by
    intro block handlers
    induction handlers with
    | nil => exact fun _ none_given => by cases none_given
    | cons handler rest induction =>
      intro previous given
      rcases List.mem_append.1 given with here | later
      · exact ⟨handler, previous, here⟩
      · exact induction _ later
  obtain ⟨block, -, given⟩ := List.mem_flatMap.1 member
  exact ⟨block, chain block _ _ given⟩

/-- A handler is given out with its row and the row of the one before it, or with reports that it
catches everything or has no row. -/
theorem eq_of_mem_handlerOutputs (cx : MethodContext) {addresses : AddressMap} {block : TryBlock}
    {handler : CatchHandler} {previous : Option HandlerRegion} {output : Output}
    (member : output ∈ cx.handlerOutputs addresses block handler previous) :
    (∃ columns, output = .row .exceptionHandler columns) ∨
      (∃ columns, output = .row .exceptionHandlerPrevious columns) ∨
      (∃ address, output = .notice (.method cx.id (.catchAll address))) ∨
      ∃ caught address start stop,
        output = .notice (.method cx.id (.unmappedHandler caught address start stop)) := by
  unfold handlerOutputs at member
  split at member <;> split at member <;> cases previous <;> simp at member <;> grind

theorem catchFree_triesOutputs (cx : MethodContext) (addresses : AddressMap)
    (tries : List TryBlock) (declared : Std.HashSet String) :
    CatchFree (cx.render declared (cx.triesOutputs addresses tries)) := by
  refine catchFree_render (fun fact member => ?_) (fun notice member => ?_) declared
  · obtain ⟨block, handler, previous, given⟩ := cx.exists_handler_of_mem (mem_factsAmong.1 member)
    rcases cx.eq_of_mem_handlerOutputs given with
      ⟨_, same⟩ | ⟨_, same⟩ | ⟨_, same⟩ | ⟨_, _, _, _, same⟩ <;> cases same <;> simp
  · obtain ⟨block, handler, previous, given⟩ :=
      cx.exists_handler_of_mem (mem_noticesAmong.1 member)
    rcases cx.eq_of_mem_handlerOutputs given with
      ⟨_, same⟩ | ⟨_, same⟩ | ⟨_, same⟩ | ⟨_, _, _, _, same⟩ <;> cases same <;> rfl

@[simp]
theorem noticesAmong_headerOutputs (cx : MethodContext) : noticesAmong cx.headerOutputs = [] := by
  have annotated : ∀ mark, noticesAmong (cx.annotationOutputs mark) = [] := by
    intro mark
    simp [annotationOutputs]
  have passed : ∀ parameter, noticesAmong (cx.parameterOutputs parameter) = [] := by
    intro parameter
    simp [parameterOutputs]
  have received : noticesAmong (if cx.definition.isStatic = false then cx.thisOutputs else []) =
      [] := by
    split <;> rfl
  have bridged : noticesAmong (if cx.definition.isNative then cx.nativeOutputs else []) = [] := by
    unfold nativeOutputs
    repeat' split
    all_goals rfl
  simp [-List.filterMap_eq_nil_iff, List.filterMap_cons, headerOutputs, annotated, passed,
    received, bridged, List.filterMap_flatMap]

theorem catchFree_headerOutputs (cx : MethodContext) (declared : Std.HashSet String) :
    CatchFree (cx.render declared cx.headerOutputs) := by
  apply catchFree_render
  · intro fact member relation_eq
    have known := cx.relation_headerOutputs member
    rw [relation_eq] at known
    simp [headerRelations] at known
  · simp [Calm]

/-- The start of an extraction reports at most that a body has too few registers. -/
theorem events_create {container : Container} {definition : MethodDef} {cx : MethodContext}
    {cache : SignatureCache}
    (value_eq : ((create container definition).run.perform cache).value = .ok cx) :
    ((create container definition).run.perform cache).events = [] ∨
      ∃ id registers width, ((create container definition).run.perform cache).events =
        [.notice (.method id (.tooFewRegisters registers width))] := by
  obtain ⟨sig, sig_eq, rest_eq, events_eq⟩ := Extract.exists_of_bind_ok cache value_eq
  change ((create container definition).run.perform cache).events = _ at events_eq
  rw [Extract.perform_lookup] at events_eq rest_eq
  rw [events_eq]
  unfold ofSig
  cases definition.code with
  | none => exact .inl rfl
  | some code =>
    dsimp only
    split
    · rw [Extract.perform_emit_bind]
      exact .inr ⟨_, _, _, rfl⟩
    · exact .inl rfl

theorem catchFree_create {container : Container} {definition : MethodDef} {cx : MethodContext}
    {cache : SignatureCache}
    (value_eq : ((create container definition).run.perform cache).value = .ok cx) :
    CatchFree ((create container definition).run.perform cache).events := by
  rcases events_create value_eq with events_eq | ⟨id, registers, width, events_eq⟩
  · exact events_eq ▸ .nil
  · exact events_eq ▸ ⟨rfl, rfl⟩

theorem catchFree_notices {about : List MethodNotice}
    (other : ∀ notice ∈ about, ∀ index, notice ≠ .catchOutsideHandler index) (id : String) :
    CatchFree (about.map fun notice => .notice (.method id notice)) := by
  induction about with
  | nil => exact .nil
  | cons notice rest induction =>
    have own : CatchFree [.notice (.method id notice)] := by
      refine ⟨rfl, ?_⟩
      rw [straysOf, List.filter_eq_nil_iff]
      cases notice with
      | catchOutsideHandler index => exact absurd rfl (other _ List.mem_cons_self index)
      | _ => simp [noticesOf, Event.notice?, Notice.isStrayCatch]
    exact own.append (induction fun later member => other later (List.mem_cons_of_mem _ member))

theorem catchFree_movedNotices (cx : MethodContext) (code : CodeItem)
    (declared : Std.HashSet String) : CatchFree (cx.render declared (cx.movedNotices code)) := by
  have other : ∀ notice ∈ (code.debugItems.filterMap DebugItem.movedEntry?).map
      MethodNotice.movedEntry, ∀ index, notice ≠ .catchOutsideHandler index := by
    intro notice member index
    obtain ⟨address, -, rfl⟩ := List.mem_map.1 member
    simp
  have moved := catchFree_notices other cx.id
  rw [List.map_map] at moved
  rwa [movedNotices, (cx.render_ofEvent _ _).1]

theorem catchFree_waitingEvents (cx : MethodContext) (state : MethodState) :
    CatchFree (cx.waitingEvents state) := by
  have residual : ∀ {α : Type} (pending : Pending α) (what : String),
      CatchFree (cx.residualEvents pending what) := by
    intro α pending what
    unfold residualEvents
    split
    · exact ⟨rfl, rfl⟩
    · exact .nil
  exact (residual _ _).append (residual _ _)

theorem catchFree_write (cx : MethodContext) {addresses : AddressMap}
    (wellFormed : ∀ edge ∈ addresses.edges.toList, edge.WellFormed) :
    CatchFree ((addresses.write cx.id : Emit Unit Unit).run ()).events where
  rows := by
    apply rowsOf_eq_nil
    intro fact member relation_eq
    have late := AddressMap.relation_mem_of_write wellFormed member
    rw [relation_eq] at late
    exact absurd late (by decide)
  strays := by
    rw [straysOf, AddressMap.noticesOf_write, List.filter_eq_nil_iff]
    intro notice member
    obtain ⟨edge, -, notice_eq⟩ := List.mem_filterMap.1 member
    split at notice_eq <;> cases notice_eq
    simp [Notice.isStrayCatch]

/-- The log of a method with a body: what comes before caught exceptions, these, and what comes
behind them. -/
theorem Account.exists_parts {cx : MethodContext} {code : CodeItem}
    {outcome : Emitted SignatureCache (Except ExtractionError ExtractedMethod)}
    (account : cx.Account code outcome)
    (ending_eq : account.ending = cx.finishOutputs code account.reached) :
    ∃ (early late : List Event) (declared : Std.HashSet String),
      outcome.events = early ++ cx.render declared (account.reached.catches.toList.flatMap
        (cx.caughtOutputs (cx.regions (closedMap code account.reached) code.tries))) ++ late ∧
      CatchFree early ∧ CatchFree late := by
  let written := (((closedMap code account.reached).write cx.id : Emit Unit Unit).run ()).events
  let early := (cx.headerOutputs ++ cx.movedNotices code) ++
    (account.body ++ ((cx.waitingEvents account.reached).map Output.ofEvent ++
      cx.triesOutputs (closedMap code account.reached) code.tries))
  let caught := account.reached.catches.toList.flatMap
    (cx.caughtOutputs (cx.regions (closedMap code account.reached) code.tries))
  let late := written.map Output.ofEvent ++ cx.summaryNotices (closedMap code account.reached)
  have outputs_eq : (cx.headerOutputs ++ cx.movedNotices code) ++ (account.body ++ account.ending) =
      early ++ caught ++ late := by
    simp only [early, caught, late, written, ending_eq, finishOutputs, exceptionOutputs,
      List.append_assoc]
  rw [account.events_eq, outputs_eq, render_append, render_append]
  refine ⟨_, _, _, rfl, ?_, ?_⟩
  · have waiting : ∀ declared, CatchFree
        (cx.render declared ((cx.waitingEvents account.reached).map Output.ofEvent)) := by
      intro declared
      rw [(cx.render_ofEvent _ _).1]
      exact cx.catchFree_waitingEvents account.reached
    simp only [early, render_append]
    exact ((cx.catchFree_headerOutputs _).append (cx.catchFree_movedNotices code _)).append
      ((account.recites.catchFree _).append
        ((waiting _).append (cx.catchFree_triesOutputs _ code.tries _)))
  · have closed : ∀ declared, CatchFree (cx.render declared (written.map Output.ofEvent)) := by
      intro declared
      rw [(cx.render_ofEvent _ _).1]
      exact cx.catchFree_write account.decodes.queues_entry.wellFormed
    have summarized : ∀ declared,
        CatchFree (cx.render declared (cx.summaryNotices (closedMap code account.reached))) := by
      intro declared
      unfold summaryNotices
      split <;> exact ⟨rfl, rfl⟩
    rw [render_append]
    exact (closed _).append (summarized _)

/-- What is given out for a caught exception, given the rows of the handlers at its address. -/
structure Joined (cx : MethodContext) (handlers : List (List String)) (caught : CaughtException)
    (events : List Event) : Prop where
  rows : rowsOf .exceptionHandlerFormalParam events =
    handlers.map (·.take 1 ++ [cx.variableOf caught.reg])
  strays : straysOf events =
    if handlers.isEmpty then [.method cx.id (.catchOutsideHandler caught.index)] else []
  alone : handlers = [] → events = [.notice (.method cx.id (.catchOutsideHandler caught.index))]

theorem joined_render (cx : MethodContext) {addresses : AddressMap} (code : CodeItem)
    {entries : List (Address × Nat)}
    (lookup_eq : ∀ address, entries.lookup address = addresses.indexOf? address)
    (caught : CaughtException) (declared : Std.HashSet String) :
    cx.Joined (code.handlersAt cx.id entries caught.address) caught
      (cx.render declared (cx.caughtOutputs (cx.regions addresses code.tries) caught)) where
  rows := by
    rw [cx.rowsOf_render (by simp)]
    exact cx.rowsIn_caughtOutputs addresses code lookup_eq caught
  strays := by
    rw [straysOf, noticesOf_render]
    exact cx.noticesAmong_caughtOutputs addresses code lookup_eq caught
  alone := by
    intro none_eq
    rw [cx.caughtOutputs_eq_singleton addresses code lookup_eq caught none_eq]
    rfl

/-- A successful extraction gives out what is given out for each caught exception, in order, apart
from what comes before and behind. -/
theorem exists_joined (cx : MethodContext) {code : CodeItem} {cache : SignatureCache}
    {extracted : ExtractedMethod} (code_eq : cx.definition.code = some code)
    (value_eq : (cx.extract.run.perform cache).value = .ok extracted)
    {entries : List (Address × Nat)}
    (located : ∀ address index, entries.lookup address = some index ↔
      code.IsLastAt address index) :
    ∃ (early late : List Event) (joined : List (List Event)),
      (cx.extract.run.perform cache).events = early ++ joined.flatten ++ late ∧
      CatchFree early ∧ CatchFree late ∧
      List.Forall₂ (fun caught own =>
        cx.Joined (code.handlersAt cx.id entries caught.address) caught own)
        code.caughtExceptions joined := by
  obtain ⟨account⟩ := cx.exists_account code_eq cache
  obtain ⟨back_eq, ending_eq, -⟩ := account.complete extracted value_eq
  have front_eq : account.front = code.located := by
    rw [account.located_eq, back_eq, List.append_nil]
  have catches_eq : account.reached.catches.toList = code.caughtExceptions := by
    rw [account.recites.catches, front_eq, cx.entryState_same .catches (by simp)]
    rfl
  have lookup_eq : ∀ address, entries.lookup address =
      (closedMap code account.reached).indexOf? address := by
    intro address
    ext index
    have run : cx.Decodes code.located cx.entryState account.decoded account.reached :=
      front_eq ▸ account.decodes
    rw [located, run.indexOf?_closedMap]
  obtain ⟨early, late, declared, parts_eq, early_free, late_free⟩ := account.exists_parts ending_eq
  obtain ⟨joined, joined_eq, each⟩ := cx.exists_render_flatMap
    (cx.caughtOutputs (cx.regions (closedMap code account.reached) code.tries))
    code.caughtExceptions declared
  rw [catches_eq, joined_eq] at parts_eq
  refine ⟨early, late, joined, parts_eq, early_free, late_free, each.imp ?_⟩
  rintro caught own ⟨known, rfl⟩
  exact cx.joined_render code lookup_eq caught known

/-- The rows and the reports of caught exceptions, from what is given out for each. -/
theorem Joined.flatten {cx : MethodContext} {handlers : CaughtException → List (List String)}
    {catches : List CaughtException} {parts : List (List Event)}
    (joined : List.Forall₂ (fun caught own => cx.Joined (handlers caught) caught own) catches
      parts) :
    rowsOf .exceptionHandlerFormalParam parts.flatten = (catches.flatMap fun caught =>
        (handlers caught).map (·.take 1 ++ [cx.variableOf caught.reg])) ∧
      straysOf parts.flatten = (catches.filter fun caught => (handlers caught).isEmpty).map
        fun caught => .method cx.id (.catchOutsideHandler caught.index) := by
  induction joined with
  | nil => exact ⟨rfl, rfl⟩
  | @cons caught own _ _ first later induction =>
    obtain ⟨rows_eq, strays_eq⟩ := induction
    refine ⟨?_, ?_⟩
    · rw [List.flatten_cons, rowsOf_append, first.rows, rows_eq, List.flatMap_cons]
    · rw [List.flatten_cons, straysOf_append, first.strays, strays_eq, List.filter_cons]
      split <;> rfl

end MethodContext

/-- Exceptions are joined with handlers by address.  The rows that bind them are, for each exception
moved into a register, in order, one for each row of a handler at its address, in order: the
identifier of the handler with the variable of the register.  Where an exception is moved, nothing
is given out; where it is joined and finds no handler, one error is given out and nothing else. -/
theorem caught_exceptions {container : Container} {definition : MethodDef} {code : CodeItem}
    {cache : SignatureCache} {extracted : ExtractedMethod} (code_eq : definition.code = some code)
    (value_eq : ((definition.extract container).run cache).value = .ok extracted) :
    ∃ (cx : MethodContext) (entries : List (Address × Nat)),
      let events := ((definition.extract container).run cache).events
      let handlers := fun caught : CaughtException =>
        code.handlersAt extracted.id entries caught.address
      let report := fun caught : CaughtException =>
        Notice.method extracted.id (.catchOutsideHandler caught.index)
      ((MethodContext.create container definition).run cache).value = .ok cx ∧
      rowsOf .dexInstructionAddressMap events =
        (entries.map fun entry => [extracted.id, toString entry.2, toString entry.1]) ∧
      (∀ address index, entries.lookup address = some index ↔ code.IsLastAt address index) ∧
      rowsOf .exceptionHandler events =
        (code.handlerRows extracted.id entries).map Prod.snd ∧
      rowsOf .exceptionHandlerFormalParam events = (code.caughtExceptions.flatMap fun caught =>
        (handlers caught).map (·.take 1 ++ [cx.variableOf caught.reg])) ∧
      straysOf events =
        (code.caughtExceptions.filter fun caught => (handlers caught).isEmpty).map report ∧
      (∀ caught, (report caught).level = .error) ∧
      (∀ here caught, LocatedInstr.caught? here = some caught → ∀ state known,
        ((cx.extractInstrs [here] state).run known).events = []) ∧
      ∃ (early late : List Event) (joined : List (List Event)),
        events = early ++ joined.flatten ++ late ∧ CatchFree early ∧ CatchFree late ∧
        List.Forall₂ (fun caught own => cx.Joined (handlers caught) caught own)
          code.caughtExceptions joined := by
  obtain ⟨cx, phases, id_eq, create_eq⟩ := definition.exists_phases code_eq value_eq
  obtain ⟨-, definition_eq, -, -⟩ := cx.create_outcome create_eq
  subst definition_eq
  let entries := (MethodContext.closedMap code phases.final).indices.toList
  have located : ∀ address index, entries.lookup address = some index ↔
      code.IsLastAt address index := fun _ _ => phases.lookup_closedMap
  have run_eq : (cx.definition.extract container).run.perform cache = _ :=
    Extract.perform_bind_of_ok cache create_eq
  change ((cx.definition.extract container).run.perform cache).value = .ok extracted at value_eq
  rw [run_eq] at value_eq
  obtain ⟨early, late, joined, parts_eq, early_free, late_free, each_joined⟩ :=
    cx.exists_joined code_eq value_eq located
  have events_eq : ((cx.definition.extract container).run cache).events =
      (((MethodContext.create container cx.definition).run.perform cache).events ++ early) ++
        joined.flatten ++ late := by
    rw [run_eq]
    simp only [parts_eq, List.append_assoc]
  have before : CatchFree
      (((MethodContext.create container cx.definition).run.perform cache).events ++ early) :=
    (MethodContext.catchFree_create create_eq).append early_free
  obtain ⟨rows_eq, strays_eq⟩ := MethodContext.Joined.flatten each_joined
  rw [← id_eq]
  refine ⟨cx, entries, create_eq, ?_, located, ?_, ?_, ?_, fun _ => rfl, ?_, _, late, joined,
    events_eq, before, late_free, each_joined⟩
  · exact (phases.rowsOf_late (by decide)).trans
      (AddressMap.rowsOf_write_indices _ cx.id phases.run.queues_entry.wellFormed)
  · exact phases.rowsOf_handlerRows.trans (code.map_snd_handlerRows cx.id entries).symm
  · rw [events_eq, rowsOf_append, rowsOf_append, before.rows, late_free.rows, rows_eq,
      List.nil_append, List.append_nil]
  · rw [events_eq, straysOf_append, straysOf_append, before.strays, late_free.strays, strays_eq,
      List.nil_append, List.append_nil]
  · intro here caught caught_eq state known
    exact cx.events_extractInstrs_of_caught caught_eq state known

/-- A body that catches one exception where a handler starts, and another one where none does. -/
def stumble : CodeItem :=
  { ladder with tries := [{ start := 0, length := 4, handlers := [⟨some (.object "A"), 0⟩] }] }

theorem exists_extract_stumble :
    ∃ extracted, ((MethodDef.extract loneContainer
      { loneMethod [] with code := some stumble }).run .empty).value = .ok extracted :=
  MethodDef.exists_extract_sound rfl rfl (by decide)

/-- Of the two exceptions, only the second one is reported. -/
theorem caught_exceptions_stumble :
    ∃ extracted : ExtractedMethod, straysOf ((MethodDef.extract loneContainer
        { loneMethod [] with code := some stumble }).run .empty).events =
      [.method extracted.id (.catchOutsideHandler 3)] := by
  obtain ⟨extracted, value_eq⟩ := exists_extract_stumble
  obtain ⟨cx, entries, -, -, located, -, -, strays_eq, -⟩ := caught_exceptions rfl value_eq
  have catches_eq : stumble.caughtExceptions = [⟨⟨0⟩, 0, 1⟩, ⟨⟨0⟩, 3, 3⟩] := rfl
  have narrow : totalSize stumble.instructions < 2 ^ 64 := by decide
  have sizes : ∀ instr ∈ stumble.instructions, instr.size ≠ 0 := by decide
  have start_eq : entries.lookup 0 = some 1 :=
    (located 0 1).2 (CodeItem.isLastAt_of_sizes narrow sizes (by decide) (by decide))
  have stop_eq : entries.lookup 4 = some 4 :=
    (located 4 4).2 (CodeItem.isLastAt_of_sizes narrow sizes (by decide) (by decide))
  refine ⟨extracted, strays_eq.trans ?_⟩
  rw [catches_eq]
  simp [CodeItem.handlersAt, CodeItem.handlerRows, stumble, TryBlock.sortedHandlers,
    TryBlock.handlerRow?, TryBlock.stop, start_eq, stop_eq]

end DalvikFacts
