import DalvikFacts.Proofs.Method.Numberables

/-!
# Numbering

Successive instructions number what they refer to with the next numbers, so that everything counted
under one text has the numbers from zero on, in the order of the instructions.  The types of objects
and the kinds of instructions share the texts: where a type reads like a kind, both count together.
-/

namespace DalvikFacts

namespace MethodContext

variable {cx : MethodContext} {state : MethodState} {here : LocatedInstr}

/-! ## Runs -/

theorem exists_step_of_ok {cache : SignatureCache} (knows : cache.Knows cx.container)
    {rest : List LocatedInstr} {final : MethodState}
    (value_eq : ((cx.extractInstrs (here :: rest) state).run.perform cache).value = .ok final) :
    let arrived := state.reach here.address here.index
    ∃ (action : MethodEmit Unit) (later : SignatureCache),
      ((cx.plan here arrived.carry.result).run.run.run cache).1 = .ok action ∧
      later.Knows cx.container ∧
      (let reached := action.run arrived
       let behind := (cx.extractInstrs rest reached.state).run.perform later
       behind.value = .ok final ∧
       ((cx.extractInstrs (here :: rest) state).run.perform cache).events =
         reached.events ++ behind.events) := by
  obtain ⟨action, planned, -, -⟩ := Extract.exists_of_bind_ok cache value_eq
  have plan_eq : ((Extract.lookup (cx.plan here state.carry.result)).run.perform cache).value =
      .ok action := planned
  rw [perform_extractInstrs_of_ok plan_eq] at value_eq ⊢
  rw [Extract.perform_lookup] at plan_eq value_eq ⊢
  exact ⟨action, _, plan_eq, knows_of_plan knows here _, value_eq, rfl⟩

theorem exists_numbers {cache : SignatureCache} (knows : cache.Knows cx.container) {index : Nat}
    {address : Address} {previous : Option Instr} {instrs : List Instr} {final : MethodState}
    (value_eq : ((cx.extractInstrs (locateFrom index address instrs) state).run.perform
      cache).value = .ok final)
    (carries : cx.Carries state index previous) :
    ∃ entries, entries.map (fun entry => (entry.here, entry.what)) =
        cx.container.numberables previous (locateFrom index address instrs) ∧
      cx.Numbers state entries (factsOf ((cx.extractInstrs (locateFrom index address instrs)
        state).run.perform cache).events) final := by
  induction instrs generalizing index address previous state cache with
  | nil =>
    cases value_eq
    exact ⟨[], rfl, .silent rfl rfl rfl rfl⟩
  | cons instr rest induction =>
    obtain ⟨action, later, plan_eq, later_knows, rest_eq, events_eq⟩ :=
      exists_step_of_ok knows value_eq
    -- the address map, which is all that reaching changes, is neither carried nor counted
    have arrived : cx.Carries (state.reach address index) index previous := carries
    have planned := yields_plan cx ⟨index, address, instr⟩ _ cache action plan_eq
    have carries_on : cx.Carries (action.run (state.reach address index)).state (index + 1)
        (some instr) :=
      arrived.step planned
    obtain ⟨entries, entries_eq, numbers⟩ := induction later_knows rest_eq carries_on
    refine ⟨nextEntries (state.reach address index) ⟨index, address, instr⟩
      (cx.container.numberable? previous instr) ++ entries, ?_, ?_⟩
    · rw [List.map_append, map_nextEntries, entries_eq]
      rfl
    · rw [locateFrom, events_eq, factsOf_append]
      exact ((numbers_of_plan knows plan_eq arrived).append numbers).of_reach

end MethodContext

/-! ## Methods -/

/-- What a method numbers is what its instructions refer to, in their order.  The numbers under one
text are those from zero on.  The rows of objects, the first columns of the rows of throws and
invocations, and the field accesses that wait are those of the numbered things. -/
structure Numbering (container : Container) (method : String) (instrs : List LocatedInstr)
    (events : List Event) (accesses : List FieldAccess) (entries : List Numbered) : Prop where
  entries_eq : entries.map (fun entry => (entry.here, entry.what)) =
    container.numberables none instrs
  dense : ∀ key, Numbered.numbersOf key entries =
    List.range (Numbered.numbersOf key entries).length
  objects : rowsOf .normalHeap events = entries.filterMap (·.objectRow? method)
  insns : numberedAmong (factsOf events) = entries.filterMap (·.insnRow? method)
  accesses : accesses.map FieldAccess.origin = entries.filterMap (·.access? method)

namespace Numbering

variable {container : Container} {method : String} {instrs : List LocatedInstr}
  {events : List Event} {accesses : List FieldAccess} {entries : List Numbered}

theorem of_quiet {created : List Event} (quiet : Within [] created)
    (numbering : Numbering container method instrs events accesses entries) :
    Numbering container method instrs (created ++ events) accesses entries where
  entries_eq := numbering.entries_eq
  dense := numbering.dense
  objects := by
    rw [rowsOf_append, quiet.rowsOf_eq_nil List.not_mem_nil, List.nil_append, numbering.objects]
  insns := by
    rw [factsOf_append, quiet.factsOf_eq_nil, List.nil_append, numbering.insns]
  accesses := numbering.accesses

theorem length_filter (numbering : Numbering container method instrs events accesses entries)
    (chosen : Numberable → Bool) :
    (entries.filter (chosen ·.what)).length =
      (container.numberables none instrs).countP (chosen ·.2) := by
  rw [← numbering.entries_eq, List.countP_map, ← List.countP_eq_length_filter]
  rfl

/-- Things that are all that a text counts, and are named by their numbers, have dense names. -/
theorem names_eq (numbering : Numbering container method instrs events accesses entries)
    (key : String) (chosen : Numberable → Bool) {name : Nat → String}
    (keyed : ∀ entry ∈ entries, entry.what.key = key ↔ chosen entry.what)
    (named : ∀ entry : Numbered, chosen entry.what → entry.name method = name entry.number) :
    (entries.filter (chosen ·.what)).map (·.name method) =
      (List.range ((container.numberables none instrs).countP (chosen ·.2))).map name := by
  have chosen_eq : entries.filter (·.what.key = key) = entries.filter (chosen ·.what) :=
    List.filter_congr fun entry member =>
      Bool.eq_iff_iff.2 (decide_eq_true_iff.trans (keyed entry member))
  have numbers_eq := numbering.dense key
  rw [Numbered.numbersOf, chosen_eq, List.length_map, numbering.length_filter chosen] at numbers_eq
  rw [← numbers_eq, List.map_map]
  exact List.map_congr_left fun entry member => named entry (List.mem_filter.1 member).2

end Numbering

namespace MethodContext

variable {cx : MethodContext} {cache : SignatureCache} {extracted : ExtractedMethod}

theorem unnumbered_of_apart {events : List Event} {relations : List Relation}
    (apart : ∀ relation ∈ relations, relation ∉ .normalHeap :: numberedRelations)
    (within : ∀ fact ∈ factsOf events, fact.relation ∈ relations) :
    rowsOf .normalHeap events = [] ∧ numberedAmong (factsOf events) = [] := by
  constructor
  · refine rowsOf_eq_nil _ fun fact member same => ?_
    exact apart _ (within fact ((mem_factsOf _).2 member)) (same ▸ List.mem_cons_self)
  · exact readAmong_eq_nil fun fact member known =>
      apart _ (within fact member) (List.mem_cons_of_mem _ known)

theorem exists_numbering (knows : cache.Knows cx.container)
    (value_eq : (cx.extract.run.perform cache).value = .ok extracted) :
    ∃ entries, Numbering cx.container cx.id cx.definition.located
      (cx.extract.run.perform cache).events extracted.accesses entries := by
  have entered : cx.entryState.accesses = #[] := cx.entryState_same .accesses (by simp)
  have header_nil : ∀ {events : List Event}, Within headerRelations events →
      rowsOf .normalHeap events = [] ∧ numberedAmong (factsOf events) = [] :=
    fun within => unnumbered_of_apart (by decide) fun fact member =>
      within.facts fact ((mem_factsOf _).1 member)
  cases code_eq : cx.definition.code with
  | none =>
    have within := cx.footprint_writeHeader.within .start
    rw [(cx.says_writeHeader .start).run] at within
    obtain ⟨no_objects, no_insns⟩ := header_nil within
    have located_eq : cx.definition.located = [] := by rw [MethodDef.located, code_eq]; rfl
    rw [extract_of_none code_eq] at value_eq ⊢
    cases value_eq
    rw [located_eq]
    exact ⟨[], rfl, fun _ => rfl, no_objects, no_insns, rfl⟩
  | some code =>
    obtain ⟨no_objects, no_insns⟩ := header_nil (cx.within_entryEvents code)
    obtain ⟨ending, events_eq, ending_within, finished⟩ := exists_ending code_eq cache
    obtain ⟨final, final_eq⟩ := finished extracted value_eq
    have nothing : cx.Carries cx.entryState 1 none := by
      intro pending waits
      have result_none : cx.entryState.carry.result = none := cx.entryState_same .result (by simp)
      cases result_none.symm.trans waits
    have fresh : ∀ key, cx.entryState.counters.peek key = 0 := by
      intro key
      have counters_eq : cx.entryState.counters = .empty := cx.entryState_same .counters (by simp)
      rw [counters_eq, Counters.peek_empty]
    obtain ⟨entries, entries_eq, numbers⟩ := exists_numbers knows final_eq nothing
    have accesses_eq : extracted.accesses = final.accesses.toList := by
      rw [extract_of_ok code_eq final_eq, (cx.says_finish code final).run] at value_eq
      cases value_eq
      rfl
    have located_eq : cx.definition.located = code.located := by
      rw [MethodDef.located, code_eq]; rfl
    obtain ⟨ending_objects, ending_insns⟩ := unnumbered_of_apart (by decide) ending_within
    refine ⟨entries, entries_eq.trans (located_eq ▸ rfl), fun key => ?_, ?_, ?_, ?_⟩
    · rw [List.range_eq_range', ← fresh key]
      exact numbers.dense key
    · rw [events_eq, rowsOf_append, rowsOf_append, no_objects, ending_objects, List.append_nil,
        List.nil_append]
      exact numbers.objects
    · simp only [events_eq, factsOf_append, readAmong_append, no_insns, ending_insns,
        List.append_nil, List.nil_append]
      exact numbers.insns
    · have counted := numbers.accesses
      rw [entered] at counted
      rw [accesses_eq]
      exact counted

end MethodContext

/-- Numbering is dense.  Everything that a method numbers is numbered from zero on, in the order of
the instructions, together with all that the same text counts.  So the objects of a type are
numbered one after the other if no instruction has a kind of that text, and the instructions of a
kind are if no object has a type of that text, whatever other instructions there are. -/
theorem numbering_dense {container : Container} {definition : MethodDef} {cache : SignatureCache}
    {extracted : ExtractedMethod} (knows : cache.Knows container)
    (value_eq : ((definition.extract container).run cache).value = .ok extracted) :
    let numberables := container.numberables none definition.located
    ∃ ref entries, container.methodAt definition.method = .ok ref ∧
      extracted.id = (MethodSig.ofRef ref).id ∧
      Numbering container extracted.id definition.located
        ((definition.extract container).run cache).events extracted.accesses entries ∧
      (∀ type, (∀ entry ∈ entries, entry.what.kind? ≠ some type) →
        (entries.filter (·.what = .object type)).map (·.name extracted.id) =
          (List.range (numberables.countP (·.2 = .object type))).map
            (Identifier.allocation extracted.id type)) ∧
      ∀ kind, (∀ entry ∈ entries, entry.what ≠ .object kind) →
        (entries.filter (·.what.kind? = some kind)).map (·.name extracted.id) =
          (List.range (numberables.countP (·.2.kind? = some kind))).map
            (Identifier.instruction extracted.id kind) := by
  obtain ⟨cx, create_eq, extract_eq, events_eq⟩ := Extract.exists_of_bind_ok cache value_eq
  obtain ⟨recital⟩ := MethodDef.recital_of_create create_eq value_eq
  obtain ⟨-, -, quiet, -⟩ := cx.create_outcome create_eq
  obtain ⟨outcome, events, settles, -, created⟩ :=
    MethodContext.decided_create container definition
  obtain ⟨outcome_eq, later_knows, -⟩ := settles.perform knows
  obtain ⟨rfl, rfl, ref, ref_eq, sig_eq⟩ := created cx (outcome_eq.symm.trans create_eq)
  obtain ⟨entries, numbering⟩ := MethodContext.exists_numbering later_knows extract_eq
  have whole : Numbering cx.container extracted.id cx.definition.located
      ((cx.definition.extract cx.container).run cache).events extracted.accesses entries := by
    rw [recital.id_eq]
    exact events_eq ▸ numbering.of_quiet quiet
  refine ⟨ref, entries, ref_eq, by rw [recital.id_eq, ← sig_eq]; rfl, whole,
    fun type unnamed => ?_, fun kind unallocated => ?_⟩
  · refine whole.names_eq type (· = .object type) (fun entry member => ?_) fun entry chosen =>
      Numbered.name_of_object (of_decide_eq_true chosen)
    exact (Numberable.key_eq_iff_object (unnamed entry member)).trans decide_eq_true_iff.symm
  · refine whole.names_eq kind (·.kind? = some kind) (fun entry member => ?_) fun entry chosen =>
      Numbered.name_of_kind (of_decide_eq_true chosen)
    exact (Numberable.key_eq_iff_kind (unallocated entry member)).trans decide_eq_true_iff.symm

/-- A container with a class and a method of another class that share their whole name. -/
def homonymContainer : Container :=
  { loneContainer with
    types := #[.object "a/B/run"]
    methods := #[⟨.object "Lone", "go", [], .void⟩, ⟨.object "a/B", "run", [], .void⟩] }

/-- Allocates an object of the class, calls the method, and throws the object. -/
def homonyms : List Instr :=
  [.newInstance ⟨0⟩ 0, .invoke .static (.list []) 1, .throw ⟨0⟩]

theorem exists_extract_homonyms : ∃ extracted,
    (((loneMethod homonyms).extract homonymContainer).run .empty).value = .ok extracted :=
  MethodDef.exists_extract_sound rfl rfl (by decide)

/-- The object and the call count together, so the only call of the method has the number one. -/
theorem invocation_numbered_from_one :
    let outcome := ((loneMethod homonyms).extract homonymContainer).run .empty
    (∃ extracted, outcome.value = .ok extracted) ∧
      (rowsOf .staticMethodInvocation outcome.events).map List.head? ≠
        (List.range 1).map fun number =>
          some (Identifier.instruction "<Lone: void go()>" "a.B.run" number) := by
  have rows_eq : (rowsOf .staticMethodInvocation
      (((loneMethod homonyms).extract homonymContainer).run .empty).events).map List.head? =
        [some (Identifier.instruction "<Lone: void go()>" "a.B.run" 1)] := by
    cbv
  refine ⟨exists_extract_homonyms, fun same => ?_⟩
  have other := (List.cons.inj (rows_eq.symm.trans same)).1
  cases (Identifier.instruction_eq_iff.1 (Option.some.inj other)).2

/-- The object and the call are numbered together, the throw on its own. -/
theorem numbering_dense_homonyms :
    ∃ (extracted : ExtractedMethod) (entries : List Numbered),
      (((loneMethod homonyms).extract homonymContainer).run .empty).value = .ok extracted ∧
      Numbered.numbersOf "a.B.run" entries = [0, 1] ∧
      (entries.filter (·.what.kind? = some "throw v0")).map (·.name extracted.id) =
        [Identifier.instruction extracted.id "throw v0" 0] := by
  obtain ⟨extracted, value_eq⟩ := exists_extract_homonyms
  obtain ⟨ref, entries, -, -, numbering, -, kinds⟩ :=
    numbering_dense SignatureCache.knows_empty value_eq
  have numberables_eq : homonymContainer.numberables none (loneMethod homonyms).located =
      [(⟨1, 0, .newInstance ⟨0⟩ 0⟩, .object "a.B.run"),
        (⟨2, 2, .invoke .static (.list []) 1⟩, .insn "a.B.run"),
        (⟨3, 5, .throw ⟨0⟩⟩, .insn "throw v0")] := by
    cbv
  refine ⟨extracted, entries, value_eq, ?_, ?_⟩
  · have counted := numbering.dense "a.B.run"
    rw [counted, Numbered.numbersOf, List.length_map, numbering.length_filter (·.key = "a.B.run"),
      numberables_eq]
    decide
  · refine (kinds "throw v0" fun entry member allocated => ?_).trans ?_
    · have listed : (entry.here, entry.what) ∈
          homonymContainer.numberables none (loneMethod homonyms).located :=
        numbering.entries_eq ▸ List.mem_map_of_mem member
      rw [numberables_eq, allocated] at listed
      simp at listed
    · rw [numberables_eq]
      rfl

end DalvikFacts
