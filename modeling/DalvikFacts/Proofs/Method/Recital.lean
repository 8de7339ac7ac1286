import DalvikFacts.Proofs.Method.Account
import DalvikFacts.Proofs.Method.Addresses

/-!
# Successful extractions

What a successful extraction of a method gives out, with or without a body: the header, all
instructions, and the end.  What the rows of instructions say is read from their outputs, also when
one of them fails.
-/

namespace DalvikFacts

namespace MethodDef

/-- The instructions of a method, none without a body. -/
def instructions (definition : MethodDef) : List Instr :=
  definition.code.elim [] CodeItem.instructions

/-- The instructions of a method with their places. -/
def located (definition : MethodDef) : List LocatedInstr :=
  definition.code.elim [] CodeItem.located

theorem exists_located_eq (definition : MethodDef) :
    ∃ start, definition.located = locateFrom 1 start definition.instructions := by
  unfold located instructions
  cases definition.code with
  | none => exact ⟨0, rfl⟩
  | some code => exact ⟨code.startAddress, rfl⟩

end MethodDef

/-- What a successful extraction gives out: the header, all instructions, and the end of the body if
there is one. -/
structure MethodContext.Recital (cx : MethodContext) (events : List Event)
    (extracted : ExtractedMethod) where
  created : List Event
  moved : List Output
  body : List Output
  ending : List Output
  final : MethodState
  quiet : Within [] created
  moved_eq : factsAmong moved = []
  recites : cx.Recites cx.definition.located cx.entryState body final
  queues : cx.Queues cx.definition.located final.addresses.edges.toList
  ending_eq : ending = [] ∨ ∃ code, cx.definition.code = some code ∧
    ending = cx.finishOutputs code final
  events_eq : events = created ++ cx.render {} ((cx.headerOutputs ++ moved) ++ (body ++ ending))
  id_eq : extracted.id = cx.id
  accesses_eq : extracted.accesses = final.accesses.toList

/-- A successful extraction that has started in a context is recited there. -/
theorem MethodDef.recital_of_create {container : Container} {definition : MethodDef}
    {cx : MethodContext} {cache : SignatureCache} {extracted : ExtractedMethod}
    (create_eq : ((MethodContext.create container definition).run cache).value = .ok cx)
    (value_eq : ((definition.extract container).run cache).value = .ok extracted) :
    Nonempty (cx.Recital ((definition.extract container).run cache).events extracted) := by
  obtain ⟨-, rfl, quiet, -⟩ := cx.create_outcome create_eq
  have run_eq : (cx.definition.extract container).run.perform cache = _ :=
    Extract.perform_bind_of_ok cache create_eq
  change ((cx.definition.extract container).run.perform cache).value = .ok extracted at value_eq
  change Nonempty
    (cx.Recital ((cx.definition.extract container).run.perform cache).events extracted)
  rw [run_eq] at value_eq ⊢
  cases code_eq : cx.definition.code with
  | none =>
    have located_eq : cx.definition.located = [] := by rw [MethodDef.located, code_eq]; rfl
    have accesses_eq : cx.entryState.accesses = #[] := cx.entryState_same .accesses (by simp)
    have edges_eq : cx.entryState.addresses.edges = #[] := cx.entryState_same .edges (by simp)
    rw [cx.extract_of_none code_eq] at value_eq ⊢
    cases value_eq
    exact ⟨{
      created := _, quiet
      moved := []
      body := []
      ending := []
      final := cx.entryState
      moved_eq := rfl
      recites := located_eq ▸ .nil _
      queues := by rw [located_eq, edges_eq]; exact ⟨rfl, by simp⟩
      ending_eq := .inl rfl
      events_eq := by simp
      id_eq := rfl
      accesses_eq := by rw [accesses_eq] }⟩
  | some code =>
    have located_eq : cx.definition.located = code.located := by
      rw [MethodDef.located, code_eq]; rfl
    obtain ⟨account⟩ := cx.exists_account code_eq
      ((MethodContext.create container cx.definition).run.perform cache).state
    obtain ⟨back_eq, ending_eq, extracted_eq⟩ := account.complete extracted value_eq
    have front_eq : cx.definition.located = account.front := by
      rw [located_eq, account.located_eq, back_eq, List.append_nil]
    exact ⟨{
      created := _, quiet
      moved := cx.movedNotices code
      body := account.body
      ending := account.ending
      final := account.reached
      moved_eq := cx.factsAmong_movedNotices code
      recites := front_eq ▸ account.recites
      queues := front_eq ▸ account.decodes.queues_entry
      ending_eq := .inr ⟨code, code_eq, ending_eq⟩
      events_eq := congrArg (_ ++ ·) account.events_eq
      id_eq := congrArg ExtractedMethod.id extracted_eq
      accesses_eq := congrArg ExtractedMethod.accesses extracted_eq }⟩

theorem MethodDef.exists_recital {container : Container} {definition : MethodDef}
    {cache : SignatureCache} {extracted : ExtractedMethod}
    (value_eq : ((definition.extract container).run cache).value = .ok extracted) :
    ∃ cx : MethodContext, cx.definition = definition ∧
      Nonempty (cx.Recital ((definition.extract container).run cache).events extracted) := by
  obtain ⟨cx, create_eq, -⟩ := Extract.exists_of_bind_ok cache value_eq
  exact ⟨cx, (cx.create_outcome create_eq).2.1, MethodDef.recital_of_create create_eq value_eq⟩

/-- A row of the end is one of exception handlers, one of the address map, or one of an edge. -/
theorem MethodContext.relation_finishOutputs (cx : MethodContext) {code : CodeItem}
    {state : MethodState}
    (wellFormed : ∀ edge ∈ (closedMap code state).edges.toList, edge.WellFormed) {fact : Fact}
    (member : fact ∈ factsAmong (cx.finishOutputs code state)) :
    fact.relation ∈ handlerRelations ∨ fact.relation ∈ lateRelations := by
  rw [factsAmong_finishOutputs] at member
  rcases List.mem_append.1 member with handler | late
  · exact .inl (cx.relation_exceptionOutputs handler)
  · exact .inr (AddressMap.relation_mem_of_write wellFormed ((mem_factsOf _).1 late))

namespace MethodContext.Account

variable {cx : MethodContext} {code : CodeItem}
  {outcome : Emitted SignatureCache (Except ExtractionError ExtractedMethod)}

theorem relation_ending (account : cx.Account code outcome) {fact : Fact}
    (member : fact ∈ factsAmong account.ending) :
    fact.relation ∈ handlerRelations ∨ fact.relation ∈ lateRelations := by
  rcases account.ending_eq with ending_eq | ending_eq
  · rw [ending_eq] at member
    cases member
  · rw [ending_eq] at member
    exact cx.relation_finishOutputs account.decodes.queues_entry.wellFormed member

/-- Rows of relations that are none of the header or of the end are those of the instructions that
have been done. -/
theorem filter_factsOf_body (account : cx.Account code outcome) (chosen : Relation → Bool)
    (apart : ∀ relation ∈ headerRelations ++ (handlerRelations ++ lateRelations),
      chosen relation = false) :
    (factsOf outcome.events).filter (fun fact => chosen fact.relation) =
      (factsAmong account.body).filter (fun fact => chosen fact.relation) := by
  have ending_nil :
      (factsAmong account.ending).filter (fun fact => chosen fact.relation) = [] := by
    rw [List.filter_eq_nil_iff]
    intro fact member
    have outside := List.mem_append.2 (account.relation_ending member)
    simp [apart _ (List.mem_append_right _ outside)]
  have no_header : ∀ relation ∈ headerRelations, chosen relation = false :=
    fun relation member => apart _ (List.mem_append_left _ member)
  rw [account.events_eq,
    cx.filter_factsOf_behind chosen no_header (cx.factsAmong_movedNotices code),
    factsAmong_append, List.filter_append, ending_nil, List.append_nil]

end MethodContext.Account

namespace MethodContext.Recital

variable {cx : MethodContext} {events : List Event} {extracted : ExtractedMethod}

theorem filter_factsOf (recital : cx.Recital events extracted) (chosen : Relation → Bool)
    (no_header : ∀ relation ∈ headerRelations, chosen relation = false) :
    (factsOf events).filter (fun fact => chosen fact.relation) =
      (factsAmong recital.body ++ factsAmong recital.ending).filter
        (fun fact => chosen fact.relation) := by
  rw [congrArg factsOf recital.events_eq, factsOf_append, recital.quiet.factsOf_eq_nil,
    List.nil_append, cx.filter_factsOf_behind chosen no_header recital.moved_eq, factsAmong_append]

theorem relation_ending (recital : cx.Recital events extracted) {fact : Fact}
    (member : fact ∈ factsAmong recital.ending) :
    fact.relation ∈ handlerRelations ∨ fact.relation ∈ lateRelations := by
  rcases recital.ending_eq with ending_eq | ⟨code, -, ending_eq⟩
  · rw [ending_eq] at member
    cases member
  · rw [ending_eq] at member
    exact cx.relation_finishOutputs recital.queues.wellFormed member

/-- Rows of relations that are none of the header or of the end are those of the instructions. -/
theorem filter_factsOf_body (recital : cx.Recital events extracted) (chosen : Relation → Bool)
    (apart : ∀ relation ∈ headerRelations ++ (handlerRelations ++ lateRelations),
      chosen relation = false) :
    (factsOf events).filter (fun fact => chosen fact.relation) =
      (factsAmong recital.body).filter (fun fact => chosen fact.relation) := by
  have ending_nil : (factsAmong recital.ending).filter (fun fact => chosen fact.relation) = [] := by
    rw [List.filter_eq_nil_iff]
    intro fact member
    have outside := List.mem_append.2 (recital.relation_ending member)
    simp [apart _ (List.mem_append_right _ outside)]
  rw [recital.filter_factsOf chosen fun relation member => apart _ (List.mem_append_left _ member),
    List.filter_append, ending_nil, List.append_nil]

end MethodContext.Recital

end DalvikFacts
