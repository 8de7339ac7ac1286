import DalvikFacts.Proofs.Identifier
import DalvikFacts.Proofs.Method.HandlerChains
import Mathlib

/-!
# Cycles of exception handlers

A handler is named after the type that it catches and the index where it starts, so clauses of
different blocks that start together and catch one type share a name.  Links lead to clauses at the
same address or before it.  Hence they return to a handler only by way of clauses that start
together, and never where all clauses of each block start apart.
-/

open Relation (TransGen)

namespace DalvikFacts

/-- Where a handler starts, and the name of what it catches. -/
@[ext]
structure Clause where
  address : Address
  type : String

/-- The clause of a handler. -/
def CatchHandler.clause (handler : CatchHandler) : Clause :=
  ⟨handler.address, handler.caughtName⟩

namespace CodeItem

/-- The address map has an address. -/
def Locates (code : CodeItem) (address : Address) : Prop :=
  ∃ index, code.IsLastAt address index

/-- A clause comes right behind another one in a block, and both have rows. -/
def Chained (code : CodeItem) (clause earlier : Clause) : Prop :=
  ∃ block ∈ code.tries, code.Locates block.start ∧ code.Locates block.stop ∧
    code.Locates clause.address ∧ code.Locates earlier.address ∧
    ∃ front first second back, block.sortedHandlers = front ++ first :: second :: back ∧
      second.clause = clause ∧ first.clause = earlier

/-- At an address, a clause for a type comes right behind one for another type. -/
def Follows (code : CodeItem) (address : Address) (type earlier : String) : Prop :=
  code.Chained ⟨address, type⟩ ⟨address, earlier⟩

/-- A clause has a name in a method. -/
def Names (code : CodeItem) (method : String) (clause : Clause) (insn : String) : Prop :=
  ∃ index, code.IsLastAt clause.address index ∧
    insn = Identifier.instruction method (Identifier.handlerKind clause.type) index

variable {code : CodeItem} {method insn : String} {clause earlier : Clause}

theorem Names.clause_eq {other : Clause} (named : code.Names method clause insn)
    (other_named : code.Names method other insn) : clause = other := by
  obtain ⟨index, last, rfl⟩ := named
  obtain ⟨other_index, other_last, insn_eq⟩ := other_named
  obtain ⟨kind_eq, rfl⟩ := Identifier.instruction_eq_iff.1 insn_eq
  obtain ⟨-, -, address_eq, -⟩ := last
  obtain ⟨-, -, other_address_eq, -⟩ := other_last
  have type_eq : clause.type = other.type := (String.append_right_inj _).1 kind_eq
  exact Clause.ext (address_eq.symm.trans other_address_eq) type_eq

theorem Locates.exists_names (located : code.Locates clause.address) (method : String) :
    ∃ insn, code.Names method clause insn := by
  obtain ⟨index, last⟩ := located
  exact ⟨_, index, last, rfl⟩

theorem Chained.address_le (chained : code.Chained clause earlier) :
    earlier.address ≤ clause.address := by
  obtain ⟨block, -, -, -, -, -, front, first, second, back, sorted_eq, rfl, rfl⟩ := chained
  have ordered := block.stablySorted_handlers.ordered
  rw [sorted_eq] at ordered
  exact List.rel_of_pairwise_cons (List.pairwise_append.1 ordered).2.1 List.mem_cons_self

theorem Chained.address_ne (apart : ∀ block ∈ code.tries,
    (block.handlers.map CatchHandler.address).Nodup) (chained : code.Chained clause earlier) :
    earlier.address ≠ clause.address := by
  obtain ⟨block, block_mem, -, -, -, -, front, first, second, back, sorted_eq, rfl, rfl⟩ := chained
  have perm := block.stablySorted_handlers.perm.map CatchHandler.address
  have nodup := List.pairwise_map.1 (perm.nodup_iff.2 (apart block block_mem))
  rw [sorted_eq] at nodup
  exact List.rel_of_pairwise_cons (List.pairwise_append.1 nodup).2.1 List.mem_cons_self

/-- A path of chained clauses leads down the addresses, and goes through clauses at one address when
it stays there. -/
theorem descends_of_transGen (path : TransGen code.Chained clause earlier) :
    earlier.address ≤ clause.address ∧
      (earlier.address = clause.address →
        TransGen (code.Follows clause.address) clause.type earlier.type) := by
  induction path with
  | @single earlier chained =>
    refine ⟨chained.address_le, fun same => .single ?_⟩
    have earlier_eq : ⟨clause.address, earlier.type⟩ = earlier := Clause.ext same.symm rfl
    rw [Follows, earlier_eq]
    exact chained
  | @tail middle earlier path chained induction =>
    obtain ⟨middle_le, middle_path⟩ := induction
    have earlier_le := chained.address_le
    refine ⟨UInt64.le_trans earlier_le middle_le, fun same => ?_⟩
    -- the address of the middle lies between two equal ones
    have middle_same : middle.address = clause.address :=
      UInt64.le_antisymm middle_le (same ▸ earlier_le)
    have middle_eq : ⟨clause.address, middle.type⟩ = middle := Clause.ext middle_same.symm rfl
    have earlier_eq : ⟨clause.address, earlier.type⟩ = earlier := Clause.ext same.symm rfl
    refine (middle_path middle_same).tail ?_
    rw [Follows, middle_eq, earlier_eq]
    exact chained

theorem transGen_chained_self_iff :
    TransGen code.Chained clause clause ↔
      TransGen (code.Follows clause.address) clause.type clause.type := by
  constructor
  · intro cycle
    exact (descends_of_transGen cycle).2 rfl
  · intro cycle
    exact cycle.lift (Clause.mk clause.address) fun _ _ follows => follows

end CodeItem

/-- A handler is linked to another one. -/
def HandlerLinked (events : List Event) (insn previous : String) : Prop :=
  [insn, previous] ∈ rowsOf .exceptionHandlerPrevious events

namespace MethodContext.Phases

variable {cx : MethodContext} {code : CodeItem} {events : List Event} {insn previous : String}

theorem handlerLinked_iff (phases : cx.Phases code events) :
    HandlerLinked events insn previous ↔ ∃ clause earlier, code.Chained clause earlier ∧
      code.Names cx.id clause insn ∧ code.Names cx.id earlier previous := by
  have located : ∀ address index,
      (closedMap code phases.final).indices.toList.lookup address = some index ↔
        code.IsLastAt address index := fun _ _ => phases.lookup_closedMap
  rw [HandlerLinked, phases.rowsOf_handlerLinks, List.mem_flatMap]
  constructor
  · rintro ⟨block, block_mem, row_mem⟩
    obtain ⟨⟨first, second⟩, pair_mem, row_eq⟩ := List.mem_filterMap.1 row_mem
    cases first with
    | none =>
      obtain ⟨own, -, linked⟩ := Option.bind_eq_some_iff.1 row_eq
      obtain ⟨before, absent, -⟩ := Option.bind_eq_some_iff.1 linked
      cases absent
    | some first =>
      obtain ⟨front, back, sorted_eq⟩ := mem_withPrevious_iff.1 pair_mem
      obtain ⟨own, before, own_eq, before_eq, columns_eq⟩ :=
        TryBlock.handlerLink?_eq_some_iff.1 row_eq
      obtain ⟨index, start, stop, index_eq, start_eq, stop_eq, own_row⟩ :=
        TryBlock.handlerRow?_eq_some_iff.1 own_eq
      obtain ⟨place, _, _, place_eq, -, -, before_row⟩ :=
        TryBlock.handlerRow?_eq_some_iff.1 before_eq
      rw [own_row, before_row] at columns_eq
      cases columns_eq
      rw [located] at index_eq start_eq stop_eq place_eq
      exact ⟨second.clause, first.clause,
        ⟨block, block_mem, ⟨start, start_eq⟩, ⟨stop, stop_eq⟩, ⟨index, index_eq⟩,
          ⟨place, place_eq⟩, front, first, second, back, sorted_eq, rfl, rfl⟩,
        ⟨index, index_eq, rfl⟩, ⟨place, place_eq, rfl⟩⟩
  · rintro ⟨_, _, ⟨block, block_mem, ⟨start, start_last⟩, ⟨stop, stop_last⟩, -, -, front, first,
      second, back, sorted_eq, rfl, rfl⟩, ⟨index, index_last, rfl⟩, ⟨place, place_last, rfl⟩⟩
    have pair_mem : (some first, second) ∈ withPrevious none block.sortedHandlers :=
      mem_withPrevious_iff.2 ⟨front, back, sorted_eq⟩
    rw [← located] at start_last stop_last index_last place_last
    refine ⟨block, block_mem, List.mem_filterMap.2 ⟨_, pair_mem, ?_⟩⟩
    exact TryBlock.handlerLink?_eq_some_iff.2 ⟨_, _,
      TryBlock.handlerRow?_eq_some_iff.2
        ⟨index, start, stop, index_last, start_last, stop_last, rfl⟩,
      TryBlock.handlerRow?_eq_some_iff.2
        ⟨place, start, stop, place_last, start_last, stop_last, rfl⟩, rfl⟩

theorem transGen_handlerLinked_iff (phases : cx.Phases code events) :
    TransGen (HandlerLinked events) insn previous ↔
      ∃ clause earlier, TransGen code.Chained clause earlier ∧
        code.Names cx.id clause insn ∧ code.Names cx.id earlier previous := by
  constructor
  · intro path
    induction path with
    | single linked =>
      obtain ⟨clause, earlier, chained, named⟩ := phases.handlerLinked_iff.1 linked
      exact ⟨clause, earlier, .single chained, named⟩
    | tail path linked induction =>
      obtain ⟨clause, middle, path, clause_named, middle_named⟩ := induction
      obtain ⟨other, earlier, chained, other_named, earlier_named⟩ :=
        phases.handlerLinked_iff.1 linked
      cases other_named.clause_eq middle_named
      exact ⟨clause, earlier, path.tail chained, clause_named, earlier_named⟩
  · rintro ⟨clause, earlier, path, clause_named, earlier_named⟩
    induction path generalizing previous with
    | single chained =>
      exact .single (phases.handlerLinked_iff.2 ⟨_, _, chained, clause_named, earlier_named⟩)
    | @tail middle earlier path chained induction =>
      have ⟨_, _, _, _, middle_located, _⟩ := chained
      obtain ⟨name, middle_named⟩ := middle_located.exists_names cx.id
      exact (induction middle_named).tail
        (phases.handlerLinked_iff.2 ⟨_, _, chained, middle_named, earlier_named⟩)

theorem transGen_handlerLinked_self_iff (phases : cx.Phases code events) :
    TransGen (HandlerLinked events) insn insn ↔
      ∃ clause, code.Names cx.id clause insn ∧
        TransGen (code.Follows clause.address) clause.type clause.type := by
  rw [phases.transGen_handlerLinked_iff]
  constructor
  · rintro ⟨clause, earlier, path, named, earlier_named⟩
    cases named.clause_eq earlier_named
    exact ⟨clause, named, CodeItem.transGen_chained_self_iff.1 path⟩
  · rintro ⟨clause, named, cycle⟩
    exact ⟨clause, clause, CodeItem.transGen_chained_self_iff.2 cycle, named, named⟩

theorem handlerLinked_self_iff (phases : cx.Phases code events) :
    HandlerLinked events insn insn ↔
      ∃ clause, code.Names cx.id clause insn ∧
        code.Follows clause.address clause.type clause.type := by
  rw [phases.handlerLinked_iff]
  constructor
  · rintro ⟨clause, earlier, chained, named, earlier_named⟩
    cases named.clause_eq earlier_named
    exact ⟨clause, named, chained⟩
  · rintro ⟨clause, named, follows⟩
    exact ⟨clause, clause, follows, named, named⟩

end MethodContext.Phases

/-- Previous links return to a handler if and only if clauses that start at its address come right
behind each other, in some blocks, in a cycle of types; a handler is linked to itself if and only if
two of them, one right behind the other, catch the same type.  So there is no cycle when the clauses
of each block start at different addresses. -/
theorem handler_cycles {container : Container} {definition : MethodDef} {code : CodeItem}
    {cache : SignatureCache} {extracted : ExtractedMethod} (code_eq : definition.code = some code)
    (value_eq : ((definition.extract container).run cache).value = .ok extracted) :
    let events := ((definition.extract container).run cache).events
    (∀ insn, TransGen (HandlerLinked events) insn insn ↔
      ∃ clause, code.Names extracted.id clause insn ∧
        TransGen (code.Follows clause.address) clause.type clause.type) ∧
    (∀ insn, HandlerLinked events insn insn ↔
      ∃ clause, code.Names extracted.id clause insn ∧
        code.Follows clause.address clause.type clause.type) ∧
    ((∀ block ∈ code.tries, (block.handlers.map CatchHandler.address).Nodup) →
      ∀ insn, ¬ TransGen (HandlerLinked events) insn insn) := by
  obtain ⟨cx, phases, id_eq, -⟩ := definition.exists_phases code_eq value_eq
  rw [← id_eq]
  refine ⟨fun insn => phases.transGen_handlerLinked_self_iff,
    fun insn => phases.handlerLinked_self_iff, fun apart insn cycle => ?_⟩
  obtain ⟨clause, -, path⟩ := phases.transGen_handlerLinked_self_iff.1 cycle
  obtain ⟨earlier, follows, -⟩ := TransGen.head'_iff.1 path
  exact follows.address_ne apart rfl

/-- The blocks of a body with clauses that start apart make no cycle. -/
theorem handler_cycles_ladder :
    (∀ block ∈ ladder.tries, (block.handlers.map CatchHandler.address).Nodup) ∧
      ∀ insn, ¬ TransGen (HandlerLinked ((MethodDef.extract loneContainer
        { loneMethod [] with code := some ladder }).run .empty).events) insn insn := by
  have apart : ∀ block ∈ ladder.tries, (block.handlers.map CatchHandler.address).Nodup := by
    decide
  obtain ⟨extracted, value_eq⟩ := exists_extract_ladder
  exact ⟨apart, (handler_cycles rfl value_eq).2.2 apart⟩

/-- A body with a block that catches one type twice, in the same place. -/
def rethrown : CodeItem where
  registers := 1
  instructions := [.returnVoid, .moveException ⟨0⟩, .returnVoid]
  tries := [{ start := 0, length := 1
              handlers := [⟨some (.object "java/lang/Throwable"), 1⟩, ⟨none, 1⟩] }]
  debugItems := []

/-- A clause for everything, right behind one for all errors that starts where it does, has the same
name, and is linked to itself. -/
theorem handler_linked_to_itself :
    let outcome := (MethodDef.extract loneContainer
      { loneMethod [] with code := some rethrown }).run .empty
    (∃ extracted, outcome.value = .ok extracted) ∧
      ∃ insn, HandlerLinked outcome.events insn insn ∧
        TransGen (HandlerLinked outcome.events) insn insn := by
  intro outcome
  have exists_extracted : ∃ extracted, outcome.value = .ok extracted :=
    MethodDef.exists_extract_sound rfl rfl (by decide)
  have links_eq : rowsOf .exceptionHandlerPrevious ((MethodDef.extract loneContainer
      { loneMethod [] with code := some rethrown }).run .empty).events =
        [["<Lone: void go()>/catch java.lang.Throwable/2",
          "<Lone: void go()>/catch java.lang.Throwable/2"]] := by
    cbv
  have linked : HandlerLinked outcome.events "<Lone: void go()>/catch java.lang.Throwable/2"
      "<Lone: void go()>/catch java.lang.Throwable/2" := by
    rw [HandlerLinked, links_eq]
    exact List.mem_singleton_self _
  exact ⟨exists_extracted, _, linked, .single linked⟩

end DalvikFacts
