import DalvikFacts.Proofs.Method.Targets

/-!
# Chains of exception handlers

The handlers of a try block are chained in the order of their addresses, those at one address in the
order given.  A handler has a row when the address map knows where it starts and where its block
starts and stops; a link leads from it to the handler right before it when that one has a row, too.
A handler without a row breaks the chain.  Where a block stops is a sum of words: it lies behind the
start only as long as the sum does not wrap around.
-/

namespace DalvikFacts

/-- A list holds the items of another one in the order of their addresses, those with one address in
the order given. -/
structure StablySorted {α : Type} (key : α → Address) (items sorted : List α) : Prop where
  perm : sorted.Perm items
  ordered : sorted.Pairwise fun first second => key first ≤ key second
  stable : ∀ value, sorted.filter (key · == value) = items.filter (key · == value)

theorem stablySorted_mergeSort {α : Type} (key : α → Address) (items : List α) :
    StablySorted key items
      (items.mergeSort fun first second => decide (key first ≤ key second)) := by
  have trans : ∀ first second third : α, decide (key first ≤ key second) = true →
      decide (key second ≤ key third) = true → decide (key first ≤ key third) = true := by
    simp only [decide_eq_true_eq]
    intro first second third
    exact UInt64.le_trans
  have total : ∀ first second : α,
      (decide (key first ≤ key second) || decide (key second ≤ key first)) = true := by
    intro first second
    simpa using UInt64.le_total (key first) (key second)
  have perm := List.mergeSort_perm items fun first second => decide (key first ≤ key second)
  refine ⟨perm, ?_, fun value => ?_⟩
  · exact (List.pairwise_mergeSort trans total items).imp of_decide_eq_true
  · -- items with one key are sorted, so the sort keeps them in order
    have alike : ∀ item ∈ items.filter (key · == value), key item = value := by
      intro item member
      exact beq_iff_eq.1 (List.mem_filter.1 member).2
    have sorted : (items.filter (key · == value)).Pairwise
        fun first second => decide (key first ≤ key second) = true := by
      refine List.pairwise_of_forall_mem_list fun first first_mem second second_mem => ?_
      rw [alike first first_mem, alike second second_mem]
      exact decide_eq_true UInt64.le_rfl
    have kept := List.sublist_mergeSort trans total sorted List.filter_sublist
    have inside := kept.filter (key · == value)
    rw [List.filter_filter] at inside
    simp only [Bool.and_self] at inside
    exact (inside.eq_of_length (perm.filter _).length_eq.symm).symm

namespace TryBlock

theorem stablySorted_handlers (block : TryBlock) :
    StablySorted CatchHandler.address block.handlers block.sortedHandlers :=
  stablySorted_mergeSort CatchHandler.address block.handlers

/-- The row of a handler, from the rows of the address map. -/
def handlerRow? (method : String) (entries : List (Address × Nat)) (block : TryBlock)
    (handler : CatchHandler) : Option (List String) := do
  let index ← entries.lookup handler.address
  let start ← entries.lookup block.start
  let stop ← entries.lookup block.stop
  return [Identifier.instruction method (Identifier.handlerKind handler.caughtName) index, method,
    toString index, handler.caughtName, toString start, toString stop]

/-- The row that links a handler to the one before it: the identifiers of their rows. -/
def handlerLink? (method : String) (entries : List (Address × Nat)) (block : TryBlock)
    (pair : Option CatchHandler × CatchHandler) : Option (List String) := do
  let row ← block.handlerRow? method entries pair.2
  let earlier ← pair.1.bind (block.handlerRow? method entries)
  return row.take 1 ++ earlier.take 1

variable {method : String} {entries : List (Address × Nat)} {block : TryBlock}

theorem handlerRow?_eq_some_iff {handler : CatchHandler} {row : List String} :
    block.handlerRow? method entries handler = some row ↔
      ∃ index start stop : Nat, entries.lookup handler.address = some index ∧
        entries.lookup block.start = some start ∧ entries.lookup block.stop = some stop ∧
        row = [Identifier.instruction method (Identifier.handlerKind handler.caughtName) index,
          method, toString index, handler.caughtName, toString start, toString stop] := by
  simp only [handlerRow?, Option.bind_eq_bind, Option.bind_eq_some_iff, Option.pure_def,
    Option.some_inj]
  constructor
  · rintro ⟨index, index_eq, start, start_eq, stop, stop_eq, rfl⟩
    exact ⟨index, start, stop, index_eq, start_eq, stop_eq, rfl⟩
  · rintro ⟨index, start, stop, index_eq, start_eq, stop_eq, rfl⟩
    exact ⟨index, index_eq, start, start_eq, stop, stop_eq, rfl⟩

theorem handlerLink?_eq_some_iff {earlier handler : CatchHandler} {row : List String} :
    block.handlerLink? method entries (some earlier, handler) = some row ↔
      ∃ own before, block.handlerRow? method entries handler = some own ∧
        block.handlerRow? method entries earlier = some before ∧
        row = own.take 1 ++ before.take 1 := by
  simp only [handlerLink?, Option.bind_eq_bind, Option.bind_eq_some_iff, Option.bind_some,
    Option.pure_def, Option.some_inj]
  constructor
  · rintro ⟨own, own_eq, before, before_eq, rfl⟩
    exact ⟨own, before, own_eq, before_eq, rfl⟩
  · rintro ⟨own, before, own_eq, before_eq, rfl⟩
    exact ⟨own, own_eq, before, before_eq, rfl⟩

/-- The end of a block is a word: it does not wrap around. -/
def Fits (block : TryBlock) : Prop :=
  block.start.toNat + block.length.toNat < 2 ^ 64

theorem stop_eq_start_iff : block.stop = block.start ↔ block.length = 0 := by
  have start_lt := block.start.toNat_lt
  have length_lt := block.length.toNat_lt
  rw [stop, ← UInt64.toNat_inj, UInt64.toNat_add, ← UInt64.toNat_inj, UInt64.toNat_zero]
  omega

theorem start_le_stop_iff : block.start ≤ block.stop ↔ block.Fits := by
  have start_lt := block.start.toNat_lt
  have length_lt := block.length.toNat_lt
  rw [stop, Fits, UInt64.le_iff_toNat_le, UInt64.toNat_add]
  omega

/-- The bounds of a block meet only if it covers nothing.  They are in order as long as the end of
the block does not wrap around, when the addresses of the body do not either. -/
theorem bounds_of_lookup {code : CodeItem} {start stop : Nat}
    (start_last : code.IsLastAt block.start start) (stop_last : code.IsLastAt block.stop stop) :
    (start = stop ↔ block.length = 0) ∧ (code.Fits → (start ≤ stop ↔ block.Fits)) := by
  have ⟨_, _, start_eq, _⟩ := start_last
  have ⟨_, _, stop_eq, _⟩ := stop_last
  constructor
  · rw [← stop_eq_start_iff]
    constructor
    · rintro rfl
      exact stop_eq.symm.trans start_eq
    · intro same
      rw [same] at stop_last
      exact start_last.unique stop_last
  · intro fits
    rw [← start_le_stop_iff]
    constructor
    · intro le
      rw [← start_eq, ← stop_eq]
      exact fits.addressAt_mono le
    · intro le
      by_contra behind
      have wrapped : block.stop ≤ block.start := by
        rw [← start_eq, ← stop_eq]
        exact fits.addressAt_mono (Nat.le_of_not_le behind)
      have same : block.stop = block.start := UInt64.le_antisymm wrapped le
      rw [same] at stop_last
      exact behind (Nat.le_of_eq (start_last.unique stop_last))

end TryBlock

namespace MethodContext

variable (cx : MethodContext) (addresses : AddressMap) (block : TryBlock)

theorem handlerRow?_eq (handler : CatchHandler) :
    cx.handlerRow? addresses block handler =
      block.handlerRow? cx.id addresses.indices.toList handler := by
  simp only [handlerRow?, region?, TryBlock.handlerRow?, addresses.lookup_toList,
    Option.bind_eq_bind, Option.map_bind, Function.comp_def, Option.pure_def, Option.map_some]
  rfl

theorem handlerLink?_eq (pair : Option CatchHandler × CatchHandler) :
    cx.handlerLink? addresses block pair =
      block.handlerLink? cx.id addresses.indices.toList pair := by
  have row_eq : ∀ handler, block.handlerRow? cx.id addresses.indices.toList handler = _ :=
    fun handler => (cx.handlerRow?_eq addresses block handler).symm
  obtain ⟨earlier, handler⟩ := pair
  simp only [TryBlock.handlerLink?, handlerLink?, regionBefore?, row_eq]
  unfold handlerRow?
  cases cx.region? addresses block handler with
  | none => rfl
  | some found =>
    cases earlier with
    | none => rfl
    | some earlier => cases before_eq : cx.region? addresses block earlier <;> simp [before_eq]

namespace Phases

variable {cx : MethodContext} {code : CodeItem} {events : List Event}

theorem rowsOf_handlerRows (phases : cx.Phases code events) :
    rowsOf .exceptionHandler events = code.tries.flatMap fun block =>
      block.sortedHandlers.filterMap
        (block.handlerRow? cx.id (closedMap code phases.final).indices.toList) := by
  rw [phases.rowsOf_handlers]
  congr
  funext block
  congr
  funext handler
  exact cx.handlerRow?_eq _ block handler

theorem rowsOf_handlerLinks (phases : cx.Phases code events) :
    rowsOf .exceptionHandlerPrevious events = code.tries.flatMap fun block =>
      (withPrevious none block.sortedHandlers).filterMap
        (block.handlerLink? cx.id (closedMap code phases.final).indices.toList) := by
  rw [phases.rowsOf_links]
  congr
  funext block
  congr
  funext pair
  exact cx.handlerLink?_eq _ block pair

end Phases

end MethodContext

/-- The handlers of each try block are chained in the order of their addresses.  A handler has a row
if and only if the address map has its address and both bounds of its block, with the index located
at each; the bounds meet only when the block covers nothing, and are in order exactly when its end
does not wrap around.  A handler is linked to the one right before it if and only if both have rows.
The two relations hold nothing else, in the order of the blocks. -/
theorem handler_chains {container : Container} {definition : MethodDef} {code : CodeItem}
    {cache : SignatureCache} {extracted : ExtractedMethod} (code_eq : definition.code = some code)
    (value_eq : ((definition.extract container).run cache).value = .ok extracted) :
    ∃ entries : List (Address × Nat),
      let events := ((definition.extract container).run cache).events
      rowsOf .dexInstructionAddressMap events =
        (entries.map fun entry => [extracted.id, toString entry.2, toString entry.1]) ∧
      (∀ address index, entries.lookup address = some index ↔ code.IsLastAt address index) ∧
      rowsOf .exceptionHandler events = (code.tries.flatMap fun block =>
        block.sortedHandlers.filterMap (block.handlerRow? extracted.id entries)) ∧
      rowsOf .exceptionHandlerPrevious events = (code.tries.flatMap fun block =>
        (withPrevious none block.sortedHandlers).filterMap
          (block.handlerLink? extracted.id entries)) ∧
      ∀ block ∈ code.tries,
        StablySorted CatchHandler.address block.handlers block.sortedHandlers ∧
        (∀ handler row, block.handlerRow? extracted.id entries handler = some row ↔
          ∃ index start stop : Nat, entries.lookup handler.address = some index ∧
            entries.lookup block.start = some start ∧ entries.lookup block.stop = some stop ∧
            row = [Identifier.instruction extracted.id (Identifier.handlerKind handler.caughtName)
              index, extracted.id, toString index, handler.caughtName, toString start,
              toString stop]) ∧
        (∀ start stop : Nat, entries.lookup block.start = some start →
          entries.lookup block.stop = some stop →
          (start = stop ↔ block.length = 0) ∧ (code.Fits → (start ≤ stop ↔ block.Fits))) ∧
        ∀ earlier handler row,
          block.handlerLink? extracted.id entries (some earlier, handler) = some row ↔
            ∃ own before, block.handlerRow? extracted.id entries handler = some own ∧
              block.handlerRow? extracted.id entries earlier = some before ∧
              row = own.take 1 ++ before.take 1 := by
  obtain ⟨cx, phases, id_eq, -⟩ := definition.exists_phases code_eq value_eq
  let entries := (MethodContext.closedMap code phases.final).indices.toList
  have located : ∀ address index, entries.lookup address = some index ↔
      code.IsLastAt address index := fun _ _ => phases.lookup_closedMap
  rw [← id_eq]
  refine ⟨entries, ?_, located, phases.rowsOf_handlerRows, phases.rowsOf_handlerLinks,
    fun block _ => ⟨block.stablySorted_handlers, fun _ _ => TryBlock.handlerRow?_eq_some_iff, ?_,
      fun _ _ _ => TryBlock.handlerLink?_eq_some_iff⟩⟩
  · have late : Relation.dexInstructionAddressMap ∈ lateRelations := by decide
    exact (phases.rowsOf_late late).trans
      (AddressMap.rowsOf_write_indices _ cx.id phases.run.queues_entry.wellFormed)
  · intro start stop start_eq stop_eq
    exact TryBlock.bounds_of_lookup ((located _ _).1 start_eq) ((located _ _).1 stop_eq)

/-- A body with a handler in the middle of an instruction, and with a block that covers nothing. -/
def ladder : CodeItem where
  registers := 1
  instructions := [.moveException ⟨0⟩, .branchZero .eq ⟨0⟩ 2, .moveException ⟨0⟩, .returnVoid]
  tries :=
    [{ start := 0, length := 4
       handlers := [⟨none, 3⟩, ⟨some (.object "A"), 0⟩, ⟨some (.object "B"), 2⟩] },
      { start := 1, length := 0, handlers := [⟨none, 3⟩, ⟨some (.object "B"), 0⟩] }]
  debugItems := []

theorem exists_extract_ladder :
    ∃ extracted, ((MethodDef.extract loneContainer
      { loneMethod [] with code := some ladder }).run .empty).value = .ok extracted :=
  MethodDef.exists_extract_sound rfl rfl (by decide)

/-- The handler behind the one in the middle of an instruction is linked to nothing. -/
theorem handler_chains_ladder :
    ∃ (extracted : ExtractedMethod) (entries : List (Address × Nat)),
      let events := ((MethodDef.extract loneContainer
        { loneMethod [] with code := some ladder }).run .empty).events
      rowsOf .exceptionHandlerPrevious events = (ladder.tries.flatMap fun block =>
        (withPrevious none block.sortedHandlers).filterMap
          (block.handlerLink? extracted.id entries)) ∧
      ∀ block ∈ ladder.tries,
        block.handlerLink? extracted.id entries (some ⟨some (.object "B"), 2⟩, ⟨none, 3⟩) =
          none := by
  obtain ⟨extracted, value_eq⟩ := exists_extract_ladder
  obtain ⟨entries, -, located, -, links_eq, blocks⟩ := handler_chains rfl value_eq
  refine ⟨extracted, entries, links_eq, fun block member => ?_⟩
  obtain ⟨-, rows, -, links⟩ := blocks block member
  rw [Option.eq_none_iff_forall_ne_some]
  intro row row_eq
  obtain ⟨own, before, -, before_eq, -⟩ := (links _ _ _).1 row_eq
  obtain ⟨index, start, stop, known, -⟩ := (rows _ _).1 before_eq
  obtain ⟨-, le, address_eq, -⟩ := (located _ _).1 known
  have inside : ∀ index ≤ 5, ladder.addressAt index ≠ 2 := by decide
  exact inside index le address_eq

/-- A block whose end wraps around, to an address before its start. -/
def endless : TryBlock where
  start := 2
  length := 0xffffffffffffffff
  handlers := [⟨none, 0⟩]

/-- A body under that block. -/
def unbounded : CodeItem where
  registers := 1
  instructions := [.nop, .nop, .nop, .nop]
  tries := [endless]
  debugItems := []

theorem exists_extract_unbounded :
    ∃ extracted, (({ loneMethod [] with code := some unbounded }.extract loneContainer).run
      .empty).value = .ok extracted :=
  MethodDef.exists_extract_sound rfl rfl (by decide)

/-- The handler of that block has a row, in which the start is the larger bound. -/
theorem handler_chains_unbounded :
    ∃ extracted,
      let outcome :=
        ({ loneMethod [] with code := some unbounded }.extract loneContainer).run .empty
      outcome.value = .ok extracted ∧
        rowsOf .exceptionHandler outcome.events =
          [[Identifier.instruction extracted.id (Identifier.handlerKind throwable) 1, extracted.id,
            "1", throwable, "3", "2"]] := by
  obtain ⟨extracted, value_eq⟩ := exists_extract_unbounded
  obtain ⟨cx, phases, id_eq, -⟩ := MethodDef.exists_phases rfl value_eq
  let entries := (MethodContext.closedMap unbounded phases.final).indices.toList
  have known : ∀ index, 1 ≤ index → index ≤ 5 →
      entries.lookup (unbounded.addressAt index) = some index := fun index positive le =>
    phases.lookup_closedMap.2 (CodeItem.isLastAt_of_sizes (by decide) (by decide) positive le)
  have handler_eq : entries.lookup 0 = some 1 := known 1 (by decide) (by decide)
  have start_eq : entries.lookup endless.start = some 3 := known 3 (by decide) (by decide)
  have stop_eq : entries.lookup endless.stop = some 2 := known 2 (by decide) (by decide)
  have row_eq : endless.handlerRow? cx.id entries ⟨none, 0⟩ = some _ :=
    TryBlock.handlerRow?_eq_some_iff.2 ⟨1, 3, 2, handler_eq, start_eq, stop_eq, rfl⟩
  refine ⟨extracted, value_eq, ?_⟩
  rw [← id_eq]
  refine phases.rowsOf_handlerRows.trans ?_
  have sorted_eq : endless.sortedHandlers = [⟨none, 0⟩] := List.mergeSort_singleton _
  rw [show unbounded.tries = [endless] from rfl, List.flatMap_singleton, sorted_eq,
    List.filterMap_cons, row_eq]
  rfl

end DalvikFacts
