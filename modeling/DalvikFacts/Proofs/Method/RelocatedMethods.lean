import DalvikFacts.Proofs.Method.Account
import DalvikFacts.Proofs.Method.Addresses
import DalvikFacts.Proofs.Method.Mirrors

/-!
# Moved methods

A method whose body is moved by a distance is extracted like the method itself: with the same
outcome, and the same rows in the same order, but for the addresses in the rows of the address map.
-/

namespace DalvikFacts

/-- The row of a moved method: one of the address map has its address increased, any other is the
same. -/
inductive Fact.Relocates (distance : Address) : Fact → Fact → Prop
  | address (method : String) {address : Address} (clear : address.Clear distance) (index : Nat) :
    Relocates distance (AddressMap.indexFact method address index)
      (AddressMap.indexFact method (address + distance) index)
  | other {fact : Fact} (apart : fact.relation ≠ .dexInstructionAddressMap) :
    Relocates distance fact fact

theorem Fact.Relocates.all_other {distance : Address} {facts : List Fact}
    (apart : ∀ fact ∈ facts, fact.relation ≠ .dexInstructionAddressMap) :
    List.Forall₂ (Fact.Relocates distance) facts facts :=
  List.forall₂_same.2 fun fact member => .other (apart fact member)

theorem Fact.Relocates.filter_eq {distance : Address} {relation : Relation}
    (apart : relation ≠ .dexInstructionAddressMap) {facts others : List Fact}
    (relocated : List.Forall₂ (Fact.Relocates distance) facts others) :
    others.filter (·.relation == relation) = facts.filter (·.relation == relation) := by
  induction relocated with
  | nil => rfl
  | @cons fact other rest more alike relocated induction =>
    cases alike with
    | address method clear index =>
      have dropped : ∀ address, ((AddressMap.indexFact method address index).relation == relation) =
          false := fun _ => beq_eq_false_iff_ne.2 apart.symm
      rw [List.filter_cons, List.filter_cons, dropped, dropped]
      exact induction
    | other =>
      rw [List.filter_cons, List.filter_cons, induction]

/-- The rows of a moved address map. -/
theorem AddressMap.Shifts.relocates_write {distance : Address} {map moved : AddressMap}
    (shifts : map.Shifts distance moved)
    (wellFormed : ∀ edge ∈ map.edges.toList, edge.WellFormed) (method : String) :
    List.Forall₂ (Fact.Relocates distance)
      (factsOf ((map.write method : Emit Unit Unit).run ()).events)
      (factsOf ((moved.write method : Emit Unit Unit).run ()).events) := by
  have entries_eq : ∀ entries : List (Address × Nat),
      factsOf (entries.map fun entry => .fact (indexFact method entry.1 entry.2)) =
        entries.map fun entry => indexFact method entry.1 entry.2 := by
    intro entries
    rw [factsOf, List.filterMap_map, ← List.filterMap_eq_map]
    rfl
  rw [run_write, run_write, shifts.edgeEvents_eq, factsOf_append, factsOf_append, entries_eq,
    entries_eq, shifts.toList_indices]
  apply List.rel_append
  · rw [List.map_map, List.forall₂_map_left_iff, List.forall₂_map_right_iff]
    exact List.forall₂_same.2 fun entry member =>
      .address method (shifts.clear (Std.TreeMap.mem_toList_iff_getElem?_eq_some.1 member)) entry.2
  · apply Fact.Relocates.all_other
    intro fact member relation_eq
    obtain ⟨edge, edge_mem, event_eq⟩ := List.mem_map.1 ((mem_factsOf _).1 member)
    have of_edge := relation_mem_of_edgeEvent (wellFormed edge edge_mem) event_eq
    rw [relation_eq] at of_edge
    revert of_edge
    decide

/-- Two outcomes agree: in their values, in the signatures that were looked up, and in the rows. -/
structure Emitted.Alike {σ ε α β : Type} (related : α → β → Prop)
    (first : Emitted σ (Except ε α)) (second : Emitted σ (Except ε β)) : Prop where
  value : Agree related first.value second.value
  state_eq : second.state = first.state
  facts_eq : factsOf second.events = factsOf first.events

/-! ## Exception handlers -/

/-- A region moved by a distance. -/
def HandlerRegion.relocate (distance : Address) (region : HandlerRegion) : HandlerRegion :=
  { region with address := region.address + distance }

namespace MethodContext

variable (cx : MethodContext) (code : CodeItem) {distance : Address}

section Handlers

variable {map moved : AddressMap} (shifts : map.Shifts distance moved)

include shifts

theorem region?_relocate (block : TryBlock) (handler : CatchHandler) :
    (cx.withCode code).region? moved (block.relocate distance) (handler.relocate distance) =
      (cx.region? map block handler).map fun found =>
        (found.1.relocate distance, found.2.1, found.2.2) := by
  have handler_eq : moved.indexOf? (handler.relocate distance).address =
      map.indexOf? handler.address := shifts.indexOf?_add _
  have start_eq : moved.indexOf? (block.relocate distance).start = map.indexOf? block.start :=
    shifts.indexOf?_add _
  have stop_eq : moved.indexOf? (block.relocate distance).stop = map.indexOf? block.stop := by
    rw [block.stop_relocate, shifts.indexOf?_add]
  rw [region?, region?, handler_eq, start_eq, stop_eq]
  cases map.indexOf? handler.address with
  | none => rfl
  | some index =>
    cases map.indexOf? block.start with
    | none => rfl
    | some start => cases map.indexOf? block.stop <;> rfl

theorem handlerRegion?_relocate (block : TryBlock) (handler : CatchHandler) :
    (cx.withCode code).handlerRegion? moved (block.relocate distance) (handler.relocate distance) =
      (cx.handlerRegion? map block handler).map (·.relocate distance) := by
  rw [handlerRegion?, handlerRegion?, cx.region?_relocate code shifts, Option.map_map,
    Option.map_map]
  rfl

theorem handlerOutputs_relocate (block : TryBlock) (handler : CatchHandler)
    (previous : Option HandlerRegion) :
    withoutNotices ((cx.withCode code).handlerOutputs moved (block.relocate distance)
        (handler.relocate distance) (previous.map (·.relocate distance))) =
      withoutNotices (cx.handlerOutputs map block handler previous) := by
  have type_eq : (handler.relocate distance).exceptionType = handler.exceptionType := rfl
  have silent : ∀ (condition : Prop) [Decidable condition] (notice : Notice),
      withoutNotices (if condition then [.notice notice] else []) = [] := by
    intro condition _ notice
    split <;> rfl
  rw [handlerOutputs, handlerOutputs, withoutNotices_append, withoutNotices_append, silent, silent,
    cx.region?_relocate code shifts]
  cases cx.region? map block handler with
  | none => rfl
  | some found => cases previous <;> rfl

theorem handlersOutputs_relocate (block : TryBlock) (handlers : List CatchHandler)
    (previous : Option HandlerRegion) :
    withoutNotices ((cx.withCode code).handlersOutputs moved (block.relocate distance)
        (handlers.map (·.relocate distance)) (previous.map (·.relocate distance))) =
      withoutNotices (cx.handlersOutputs map block handlers previous) := by
  induction handlers generalizing previous with
  | nil => rfl
  | cons handler rest induction =>
    rw [List.map_cons, handlersOutputs, handlersOutputs, withoutNotices_append,
      withoutNotices_append, cx.handlerOutputs_relocate code shifts,
      cx.handlerRegion?_relocate code shifts, induction]

theorem regions_relocate {tries : List TryBlock} (clear : ∀ block ∈ tries,
    ∀ handler ∈ block.handlers, handler.address.Clear distance) :
    (cx.withCode code).regions moved (tries.map (·.relocate distance)) =
      (cx.regions map tries).map (·.relocate distance) := by
  rw [regions, regions, List.flatMap_map, List.map_flatMap]
  refine List.flatMap_congr fun block member => ?_
  rw [TryBlock.sortedHandlers_relocate (clear block member), List.filterMap_map, List.map_filterMap]
  exact List.filterMap_congr fun handler _ => cx.handlerRegion?_relocate code shifts block handler

theorem triesOutputs_relocate {tries : List TryBlock} (clear : ∀ block ∈ tries,
    ∀ handler ∈ block.handlers, handler.address.Clear distance) :
    withoutNotices ((cx.withCode code).triesOutputs moved (tries.map (·.relocate distance))) =
      withoutNotices (cx.triesOutputs map tries) := by
  induction tries with
  | nil => rfl
  | cons block rest induction =>
    have here := cx.handlersOutputs_relocate code shifts block block.sortedHandlers none
    have later := induction fun other member => clear other (List.mem_cons_of_mem _ member)
    unfold triesOutputs at later ⊢
    rw [List.map_cons, List.flatMap_cons, List.flatMap_cons, withoutNotices_append,
      withoutNotices_append, later,
      TryBlock.sortedHandlers_relocate (clear block List.mem_cons_self)]
    exact congrArg (· ++ _) here

end Handlers

theorem caughtOutputs_relocate (regions : List HandlerRegion) (caught : CaughtException) :
    withoutNotices ((cx.withCode code).caughtOutputs (regions.map (·.relocate distance))
        (caught.relocate distance)) =
      withoutNotices (cx.caughtOutputs regions caught) := by
  have matching_eq : (regions.map (·.relocate distance)).filter
        (·.address == (caught.relocate distance).address) =
      (regions.filter (·.address == caught.address)).map (·.relocate distance) := by
    rw [List.filter_map]
    congr 2
    funext region
    exact Bool.eq_iff_iff.2 (by simp [HandlerRegion.relocate, CaughtException.relocate])
  rw [caughtOutputs, caughtOutputs, matching_eq, List.flatMap_map, withoutNotices_append,
    withoutNotices_append, List.isEmpty_map]
  split <;> rfl

/-- Exception handlers are told alike after the move. -/
theorem mirrors_writeExceptions {tries : List TryBlock} (clear : ∀ block ∈ tries,
    ∀ handler ∈ block.handlers, handler.address.Clear distance) :
    Mirrors distance (cx.writeExceptions tries)
      ((cx.withCode code).writeExceptions (tries.map (·.relocate distance))) := by
  refine .of_told (cx.says_writeExceptions · tries)
    ((cx.withCode code).says_writeExceptions · (tries.map (·.relocate distance)))
    fun state other shifts => ⟨?_, shifts⟩
  have caught_eq : ∀ regions (catches : List CaughtException),
      withoutNotices ((catches.map (·.relocate distance)).flatMap
          ((cx.withCode code).caughtOutputs (regions.map (·.relocate distance)))) =
        withoutNotices (catches.flatMap (cx.caughtOutputs regions)) := by
    intro regions catches
    induction catches with
    | nil => rfl
    | cons caught rest induction =>
      rw [List.map_cons, List.flatMap_cons, List.flatMap_cons, withoutNotices_append,
        withoutNotices_append, induction, cx.caughtOutputs_relocate code]
  rw [exceptionOutputs, exceptionOutputs, withoutNotices_append, withoutNotices_append,
    cx.triesOutputs_relocate code shifts.addresses clear,
    cx.regions_relocate code shifts.addresses clear, shifts.catches_eq, caught_eq]

/-! ## Whole methods -/

theorem factsOf_finish (code : CodeItem) (state : MethodState) :
    factsOf ((cx.finish code).run state).events =
      factsOf (cx.handlerEvents code state) ++
        factsOf (((closedMap code state).write cx.id : Emit Unit Unit).run ()).events := by
  obtain ⟨summary, events_eq, quiet, -⟩ := cx.finish_events code state
  rw [events_eq, factsOf_append, factsOf_append, factsOf_append, quiet.factsOf_eq_nil,
    (cx.within_waitingEvents state).factsOf_eq_nil, List.nil_append, List.append_nil]

theorem finish_accesses (code : CodeItem) (state : MethodState) :
    ((cx.finish code).run state).state.accesses = state.accesses := by
  rw [(cx.says_finish code state).run]
  rfl

variable {cx code}

/-- Successive instructions are done alike after the move: they fail alike, or leave states that
agree. -/
theorem extractInstrs_relocate {instrs : List LocatedInstr}
    (clear : ∀ here ∈ instrs, here.address.Clear distance)
    (same_lines : ∀ here : LocatedInstr, here.address.Clear distance →
      (cx.withCode code).line? (here.relocate distance) = cx.line? here)
    {state other : MethodState} (shifts : state.Shifts distance other) (cache : SignatureCache) :
    Emitted.Alike (MethodState.Shifts distance)
      ((cx.extractInstrs instrs state).run.perform cache)
      (((cx.withCode code).extractInstrs (instrs.map (·.relocate distance)) other).run.perform
        cache) := by
  induction instrs generalizing state other cache with
  | nil => exact ⟨.ok shifts, rfl, rfl⟩
  | cons here rest induction =>
    have here_clear := clear here List.mem_cons_self
    have planned : Lookup.Matches (Mirrors distance) (cx.plan here state.carry.result)
        ((cx.withCode code).plan (here.relocate distance) other.carry.result) := by
      rw [shifts.carry_eq]
      exact matches_plan (same_lines here here_clear) here_clear _
    obtain ⟨agree, cache_eq⟩ := planned.perform cache
    generalize plan_eq :
      ((Extract.lookup (cx.plan here state.carry.result)).run.perform cache).value = first at agree
    generalize moved_eq :
      ((Extract.lookup ((cx.withCode code).plan (here.relocate distance)
        other.carry.result)).run.perform cache).value = second at agree
    rw [List.map_cons]
    cases agree with
    | error error =>
      rw [perform_extractInstrs_of_error plan_eq, perform_extractInstrs_of_error moved_eq]
      exact ⟨.error error, cache_eq, rfl⟩
    | @ok action moved mirrors =>
      obtain ⟨facts_eq, next⟩ := mirrors _ _ (shifts.reach here_clear here.index)
      have later := induction (fun other member => clear other (List.mem_cons_of_mem _ member)) next
        ((Extract.lookup (cx.plan here state.carry.result)).run.perform cache).state
      rw [perform_extractInstrs_of_ok plan_eq, perform_extractInstrs_of_ok moved_eq, cache_eq]
      refine ⟨later.value, later.state_eq, ?_⟩
      change factsOf (_ ++ _) = factsOf (_ ++ _)
      rw [factsOf_append, factsOf_append]
      exact congrArg₂ (· ++ ·) facts_eq later.facts_eq

theorem line?_relocate {code moved : CodeItem} (code_eq : cx.definition.code = some code)
    (moves : code.MovesTo distance moved) (here : LocatedInstr)
    (clear : here.address.Clear distance) :
    (cx.withCode moved).line? (here.relocate distance) = cx.line? here := by
  have moved_eq : (cx.withCode moved).definition.code = some moved := rfl
  rw [line?, line?, moved_eq, code_eq]
  exact moves.lineAt?_eq here.address clear

variable (cx code)

theorem entryState_shifts : cx.entryState.Shifts distance (cx.withCode code).entryState := by
  rw [entryState_eq, entryState_eq]
  exact MethodState.Shifts.start.withDeclared _

theorem factsOf_entryEvents_withCode (other : CodeItem) :
    factsOf ((cx.withCode code).entryEvents code) = factsOf (cx.entryEvents other) := by
  rw [factsOf_entryEvents, factsOf_entryEvents, ((cx.withCode code).says_writeHeader .start).run,
    (cx.says_writeHeader .start).run, render_withCode]
  rfl

theorem within_extractInstrs (instrs : List LocatedInstr) (state : MethodState)
    (cache : SignatureCache) :
    Within earlyRelations ((cx.extractInstrs instrs state).run.perform cache).events := by
  obtain ⟨front, back, reached, -, run, -⟩ := cx.exists_decodes_front instrs state cache
  exact run.within fun here _ => here.instr.relations_subset_early

end MethodContext

theorem Within.relocates {events : List Event} (within : Within earlyRelations events)
    (distance : Address) :
    List.Forall₂ (Fact.Relocates distance) (factsOf events) (factsOf events) := by
  apply Fact.Relocates.all_other
  intro fact member relation_eq
  have early := within.facts fact ((mem_factsOf _).1 member)
  rw [relation_eq] at early
  exact mem_earlyRelations.1 early List.mem_cons_self

/-- The outcome of a method whose body is moved: the same one, but for the addresses of the address
map. -/
structure Emitted.Relocates {α : Type} (distance : Address)
    (plain moved : Emitted SignatureCache α) : Prop where
  value_eq : moved.value = plain.value
  state_eq : moved.state = plain.state
  facts : List.Forall₂ (Fact.Relocates distance) (factsOf plain.events) (factsOf moved.events)

namespace MethodContext

variable {cx : MethodContext} {code moved : CodeItem} {distance : Address}

theorem relocates_finish (moves : code.MovesTo distance moved) {final other : MethodState}
    (shifts : final.Shifts distance other)
    (wellFormed : ∀ edge ∈ final.addresses.edges.toList, edge.WellFormed) :
    List.Forall₂ (Fact.Relocates distance) (factsOf ((cx.finish code).run final).events)
      (factsOf (((cx.withCode moved).finish moved).run other).events) := by
  have reached := shifts.reach moves.end_clear (code.instructions.length + 1)
  have handlers_eq : factsOf ((cx.withCode moved).handlerEvents moved other) =
      factsOf (cx.handlerEvents code final) := by
    rw [handlerEvents, handlerEvents, moves.tries_eq, moves.endAddress_eq, moves.instructions_eq]
    exact (cx.mirrors_writeExceptions moved moves.handlers_clear _ _ reached).1
  have closed : (closedMap code final).Shifts distance (closedMap moved other) := by
    rw [closedMap, closedMap, moves.endAddress_eq, moves.instructions_eq]
    exact shifts.addresses.insert moves.end_clear _
  rw [factsOf_finish, factsOf_finish, handlers_eq]
  apply List.rel_append
  · have handlers_within := (cx.within_handlerEvents code final).mono
      (show handlerRelations ⊆ earlyRelations by decide)
    exact handlers_within.relocates distance
  · exact closed.relocates_write wellFormed cx.id

/-- A method whose body moves is extracted alike, but for the addresses of the address map. -/
theorem perform_extract_relocate (code_eq : cx.definition.code = some code)
    (moves : code.MovesTo distance moved) (cache : SignatureCache) :
    (cx.extract.run.perform cache).Relocates distance
      ((cx.withCode moved).extract.run.perform cache) := by
  have moved_code : (cx.withCode moved).definition.code = some moved := rfl
  have header_within := (cx.within_entryEvents code).mono
    (show headerRelations ⊆ earlyRelations by decide)
  have early_within := header_within.append
    (cx.within_extractInstrs code.located cx.entryState cache)
  have body : Emitted.Alike (MethodState.Shifts distance)
      ((cx.extractInstrs code.located cx.entryState).run.perform cache)
      (((cx.withCode moved).extractInstrs moved.located
        (cx.withCode moved).entryState).run.perform cache) := by
    rw [moves.located_eq]
    exact extractInstrs_relocate moves.located_clear (line?_relocate code_eq moves)
      (cx.entryState_shifts _) cache
  have early_eq := congrArg₂ (· ++ ·)
    (cx.factsOf_entryEvents_withCode moved code) body.facts_eq
  rw [← factsOf_append, ← factsOf_append] at early_eq
  have agree := body.value
  generalize value_eq :
    ((cx.extractInstrs code.located cx.entryState).run.perform cache).value = first at agree
  generalize moved_eq :
    (((cx.withCode moved).extractInstrs moved.located
      (cx.withCode moved).entryState).run.perform cache).value = second at agree
  cases agree with
  | error error =>
    rw [extract_of_error code_eq value_eq, extract_of_error moved_code moved_eq]
    refine ⟨rfl, body.state_eq, ?_⟩
    dsimp only
    rw [early_eq]
    exact early_within.relocates distance
  | @ok final other shifts =>
    have queues := (decodes_of_ok cx value_eq).queues_entry
    rw [extract_of_ok code_eq value_eq, extract_of_ok moved_code moved_eq]
    refine ⟨?_, body.state_eq, ?_⟩
    · dsimp only
      rw [finish_accesses, finish_accesses, moves.instructions_eq, shifts.accesses_eq]
      rfl
    · dsimp only
      rw [factsOf_append (_ ++ _), factsOf_append (_ ++ _), early_eq]
      exact List.rel_append (early_within.relocates distance)
        (relocates_finish moves shifts queues.wellFormed)

/-! ## Contexts -/

theorem perform_ofSig_withCode {container : Container} {definition : MethodDef}
    (code_eq : definition.code = some code) (moves : code.MovesTo distance moved) (sig : MethodSig)
    (cache : SignatureCache) :
    (ofSig container { definition with code := some moved } sig).run.perform cache =
      ⟨((ofSig container definition sig).run.perform cache).value.map (·.withCode moved),
        ((ofSig container definition sig).run.perform cache).state,
        ((ofSig container definition sig).run.perform cache).events⟩ := by
  have width_eq : parameterWidth { definition with code := some moved } sig =
      parameterWidth definition sig := rfl
  rw [ofSig, ofSig, code_eq, width_eq]
  dsimp only
  rw [moves.registers_eq]
  by_cases few : code.registers < parameterWidth definition sig
  · rw [if_pos few, if_pos few, Extract.perform_emit_bind, Extract.perform_emit_bind]
    rfl
  · rw [if_neg few, if_neg few]
    rfl

theorem perform_create_withCode (container : Container) {definition : MethodDef}
    (code_eq : definition.code = some code) (moves : code.MovesTo distance moved)
    (cache : SignatureCache) :
    (create container { definition with code := some moved }).run.perform cache =
      ⟨((create container definition).run.perform cache).value.map (·.withCode moved),
        ((create container definition).run.perform cache).state,
        ((create container definition).run.perform cache).events⟩ := by
  rw [create, create]
  cases found_eq : ((Extract.lookup
      (SignatureCache.method container definition.method)).run.perform cache).value with
  | error error =>
    rw [Extract.perform_bind_of_error cache found_eq, Extract.perform_bind_of_error cache found_eq]
    rfl
  | ok found =>
    rw [Extract.perform_bind_of_ok cache found_eq, Extract.perform_bind_of_ok cache found_eq,
      perform_ofSig_withCode code_eq moves]

end MethodContext

/-- A method whose body is moved by a distance, without an address that wraps around, is extracted
with the same outcome and the same rows in the same order, but for the address column of the address
map. -/
theorem MethodDef.extract_relocate {container : Container} {definition : MethodDef}
    {code : CodeItem} (code_eq : definition.code = some code) (unmoved : code.Unmoved)
    {distance : Address} (positive : 0 < distance) (clears : code.Clears distance) (place : Nat)
    (cache : SignatureCache) :
    let plain := (definition.extract container).run cache
    let moved := (MethodDef.extract container
      { definition with code := some (code.relocate distance place) }).run cache
    moved.value = plain.value ∧ moved.state = plain.state ∧
      List.Forall₂ (Fact.Relocates distance) (factsOf plain.events) (factsOf moved.events) ∧
      ∀ relation, relation ≠ .dexInstructionAddressMap →
        rowsOf relation moved.events = rowsOf relation plain.events := by
  have moves := unmoved.movesTo positive clears place
  have created := MethodContext.perform_create_withCode container code_eq moves cache
  dsimp only
  have relocated : ((definition.extract container).run.perform cache).Relocates distance
      ((MethodDef.extract container
        { definition with code := some (code.relocate distance place) }).run.perform cache) := by
    rw [MethodDef.extract, MethodDef.extract]
    cases value_eq : ((MethodContext.create container definition).run.perform cache).value with
    | error error =>
      rw [value_eq] at created
      rw [Extract.perform_bind_of_error cache value_eq,
        Extract.perform_bind_of_error cache (congrArg Emitted.value created), created,
        MethodContext.events_create_of_error value_eq]
      exact ⟨rfl, rfl, .nil⟩
    | ok cx =>
      obtain ⟨-, definition_eq, quiet, -⟩ := cx.create_outcome value_eq
      rw [value_eq] at created
      rw [Extract.perform_bind_of_ok cache value_eq,
        Extract.perform_bind_of_ok cache (congrArg Emitted.value created), created]
      have later := MethodContext.perform_extract_relocate (definition_eq ▸ code_eq) moves
        ((MethodContext.create container definition).run.perform cache).state
      refine ⟨later.value_eq, later.state_eq, ?_⟩
      dsimp only
      rw [factsOf_append, factsOf_append, quiet.factsOf_eq_nil, List.nil_append, List.nil_append]
      exact later.facts
  exact ⟨relocated.value_eq, relocated.state_eq, relocated.facts, fun relation apart =>
    congrArg (List.map Fact.columns) (Fact.Relocates.filter_eq apart relocated.facts)⟩

/-- A body with a line, a handler, a branch back before the entry, and a marker that moves
nothing. -/
def guarded : CodeItem where
  registers := 1
  instructions := [.moveException ⟨0⟩, .branchZero .eq ⟨0⟩ (-2), .returnVoid]
  tries := [{ start := 1, length := 2, handlers := [{ exceptionType := none, address := 0 }] }]
  debugItems := [.prologueEnd 0, .lineNumber 1 7]

theorem unmoved_guarded : guarded.Unmoved := by
  intro item member
  simp only [guarded, List.mem_cons, List.not_mem_nil, or_false] at member
  rcases member with rfl | rfl <;> rfl

theorem clears_guarded : guarded.Clears 3 where
  body := by decide
  lines item member := by
    simp only [guarded, List.mem_cons, List.not_mem_nil, or_false] at member
    rcases member with rfl | rfl
    · trivial
    · exact show _ < _ by decide
  handlers block block_mem handler handler_mem := by
    cases List.mem_singleton.1 block_mem
    cases List.mem_singleton.1 handler_mem
    exact show _ < _ by decide

theorem exists_extract_guarded :
    ∃ extracted, ((MethodDef.extract loneContainer
      { loneMethod [] with code := some guarded }).run .empty).value = .ok extracted :=
  MethodDef.exists_extract_sound rfl rfl (by decide)

/-- The marker may stand between the debug items that are there. -/
theorem extract_relocate_guarded :
    let definition := { loneMethod [] with code := some guarded }
    let plain := (definition.extract loneContainer).run .empty
    let moved := (MethodDef.extract loneContainer
      { definition with code := some (guarded.relocate 3 1) }).run .empty
    guarded.Unmoved ∧ guarded.Clears 3 ∧ (∃ extracted, plain.value = .ok extracted) ∧
      moved.value = plain.value ∧ moved.state = plain.state ∧
      List.Forall₂ (Fact.Relocates 3) (factsOf plain.events) (factsOf moved.events) ∧
      ∀ relation, relation ≠ .dexInstructionAddressMap →
        rowsOf relation moved.events = rowsOf relation plain.events :=
  ⟨unmoved_guarded, clears_guarded, exists_extract_guarded,
    MethodDef.extract_relocate rfl unmoved_guarded (by decide) clears_guarded 1 .empty⟩

end DalvikFacts
