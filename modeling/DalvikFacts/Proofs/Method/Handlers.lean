import DalvikFacts.Proofs.Method.Addresses

/-!
# Rows of exception handlers

The rows of exception handlers come block by block, and in a block in the order of the addresses of
its handlers.  A handler has a row when the finished address map knows its own address and those of
its block, and is linked to the handler before it when that one has a row too.
-/

namespace DalvikFacts

namespace MethodContext

variable (cx : MethodContext)

/-- The row of a handler with known addresses. -/
def handlerRow? (addresses : AddressMap) (block : TryBlock) (handler : CatchHandler) :
    Option (List String) :=
  (cx.region? addresses block handler).map fun (region, start, stop) =>
    [region.insn, cx.id, toString region.index, handler.caughtName, toString start, toString stop]

/-- The region of a handler before which nothing has to stand. -/
def regionBefore? (addresses : AddressMap) (block : TryBlock) (handler : Option CatchHandler) :
    Option HandlerRegion :=
  (handler.bind (cx.region? addresses block)).map Prod.fst

/-- The row that links a handler to the one before it. -/
def handlerLink? (addresses : AddressMap) (block : TryBlock)
    (pair : Option CatchHandler × CatchHandler) : Option (List String) :=
  (cx.region? addresses block pair.2).bind fun (region, _) =>
    (cx.regionBefore? addresses block pair.1).map fun earlier => [region.insn, earlier.insn]

/-- What is written for a handler behind another one. -/
def handlerFacts (addresses : AddressMap) (block : TryBlock)
    (pair : Option CatchHandler × CatchHandler) : List Fact :=
  (cx.handlerRow? addresses block pair.2).toList.map (⟨.exceptionHandler, ·⟩) ++
    (cx.handlerLink? addresses block pair).toList.map (⟨.exceptionHandlerPrevious, ·⟩)

/-- What is written for all blocks. -/
def tryFacts (addresses : AddressMap) (tries : List TryBlock) : List Fact :=
  tries.flatMap fun block =>
    (withPrevious none block.sortedHandlers).flatMap (cx.handlerFacts addresses block)

section Blocks

variable (block : TryBlock) (state : MethodState)

theorem value_writeHandler (handler : CatchHandler) (previous : Option HandlerRegion) :
    ((cx.writeHandler block handler previous).run state).value =
      cx.regionBefore? state.addresses block (some handler) := by
  have warned : ∀ later : MethodEmit (Option HandlerRegion),
      ((if handler.exceptionType.isNone then
          cx.notice (.catchAll handler.address) >>= fun _ => later else later).run state).value =
        (later.run state).value := by
    intro later
    split <;> rfl
  unfold writeHandler regionBefore?
  refine (warned _).trans ?_
  rw [Emit.run_bind, Emit.run_get, Option.bind_some]
  cases cx.region? state.addresses block handler with
  | none => rfl
  | some found => cases previous <;> rfl

theorem factsOf_writeHandler (handler : CatchHandler) (earlier : Option CatchHandler) :
    factsOf ((cx.writeHandler block handler
        (cx.regionBefore? state.addresses block earlier)).run state).events =
      cx.handlerFacts state.addresses block (earlier, handler) := by
  have warned : ∀ later : MethodEmit (Option HandlerRegion),
      factsOf ((if handler.exceptionType.isNone then
          cx.notice (.catchAll handler.address) >>= fun _ => later else later).run state).events =
        factsOf (later.run state).events := by
    intro later
    split <;> rfl
  unfold writeHandler handlerFacts handlerRow? handlerLink?
  refine (warned _).trans ?_
  rw [Emit.run_bind, Emit.run_get, List.nil_append]
  dsimp only
  cases cx.region? state.addresses block handler with
  | none => rfl
  | some found => cases cx.regionBefore? state.addresses block earlier <;> rfl

theorem addresses_writeHandler (handler : CatchHandler) (previous : Option HandlerRegion) :
    ((cx.writeHandler block handler previous).run state).state.addresses = state.addresses := by
  have untouched : Footprint [] handlerRelations (cx.writeHandler block handler previous) :=
    cx.footprint_writeHandler block handler previous
  exact AddressMap.ext (untouched.frame state .indices List.not_mem_nil)
    (untouched.frame state .edges List.not_mem_nil)

theorem addresses_writeHandlers (handlers : List CatchHandler) (previous : Option HandlerRegion) :
    ((cx.writeHandlers block handlers previous).run state).state.addresses = state.addresses := by
  have untouched : Footprint [] handlerRelations (cx.writeHandlers block handlers previous) :=
    cx.footprint_writeHandlers block handlers previous
  exact AddressMap.ext (untouched.frame state .indices List.not_mem_nil)
    (untouched.frame state .edges List.not_mem_nil)

theorem factsOf_writeHandlers (handlers : List CatchHandler) (earlier : Option CatchHandler) :
    factsOf ((cx.writeHandlers block handlers
        (cx.regionBefore? state.addresses block earlier)).run state).events =
      (withPrevious earlier handlers).flatMap (cx.handlerFacts state.addresses block) := by
  induction handlers generalizing state earlier with
  | nil => rfl
  | cons handler rest induction =>
    have later := induction ((cx.writeHandler block handler
      (cx.regionBefore? state.addresses block earlier)).run state).state (some handler)
    rw [cx.addresses_writeHandler] at later
    rw [writeHandlers, Emit.run_bind, factsOf_append, cx.factsOf_writeHandler,
      cx.value_writeHandler, Emit.run_bind, factsOf_append, later, Emit.run_pure, factsOf_nil,
      List.append_nil, withPrevious, List.flatMap_cons]

end Blocks

theorem factsOf_writeTries (tries : List TryBlock) (state : MethodState) :
    factsOf ((cx.writeTries tries).run state).events = cx.tryFacts state.addresses tries := by
  induction tries generalizing state with
  | nil => rfl
  | cons block rest induction =>
    have first : factsOf ((cx.writeHandlers block block.sortedHandlers none).run state).events =
        _ := cx.factsOf_writeHandlers block state block.sortedHandlers none
    rw [writeTries, Emit.run_bind, factsOf_append, first, Emit.run_bind, factsOf_append, induction,
      cx.addresses_writeHandlers, Emit.run_pure, factsOf_nil, List.append_nil]
    rfl

theorem rowsOf_writeExceptions (tries : List TryBlock) (state : MethodState) {relation : Relation}
    (of_handlers : relation = .exceptionHandler ∨ relation = .exceptionHandlerPrevious) :
    rowsOf relation ((cx.writeExceptions tries).run state).events =
      rowsIn relation (cx.tryFacts state.addresses tries) := by
  have bound : ∀ regions caught, Footprint [.declared]
      [.exceptionHandlerFormalParam, .varDeclaringMethod] (cx.bindCaught regions caught) :=
    fun regions caught => cx.footprint_bindCaught regions caught (List.Subset.refl _)
  have others_nil : ∀ regions state, rowsOf relation
      ((get >>= fun found : MethodState =>
        found.catches.toList.forM (cx.bindCaught regions)).run state).events = [] := by
    intro regions state
    have each : ∀ found : MethodState, Footprint [.declared]
        [.exceptionHandlerFormalParam, .varDeclaringMethod]
        (found.catches.toList.forM (cx.bindCaught regions)) := fun _ => .forM (bound regions)
    refine ((Footprint.get.bind each).within state).rowsOf_eq_nil ?_
    rcases of_handlers with rfl | rfl <;> simp
  rw [writeExceptions, Emit.run_bind, rowsOf_append, others_nil, List.append_nil, rowsOf,
    cx.factsOf_writeTries]
  rfl

section Rows

variable (addresses : AddressMap) (tries : List TryBlock)

theorem rowsIn_tryFacts_rows :
    rowsIn .exceptionHandler (cx.tryFacts addresses tries) =
      tries.flatMap fun block =>
        block.sortedHandlers.filterMap (cx.handlerRow? addresses block) := by
  have one : ∀ block pair, rowsIn .exceptionHandler (cx.handlerFacts addresses block pair) =
      (cx.handlerRow? addresses block pair.2).toList := by
    intro block pair
    unfold handlerFacts
    cases cx.handlerRow? addresses block pair.2 <;> cases cx.handlerLink? addresses block pair <;>
      rfl
  simp only [tryFacts, rowsIn_flatMap, one]
  congr
  funext block
  conv_rhs => rw [← map_snd_withPrevious none block.sortedHandlers]
  rw [List.filterMap_eq_flatMap_toList, List.flatMap_map]

theorem rowsIn_tryFacts_links :
    rowsIn .exceptionHandlerPrevious (cx.tryFacts addresses tries) =
      tries.flatMap fun block =>
        (withPrevious none block.sortedHandlers).filterMap (cx.handlerLink? addresses block) := by
  have one : ∀ block pair, rowsIn .exceptionHandlerPrevious (cx.handlerFacts addresses block pair) =
      (cx.handlerLink? addresses block pair).toList := by
    intro block pair
    unfold handlerFacts
    cases cx.handlerRow? addresses block pair.2 <;> cases cx.handlerLink? addresses block pair <;>
      rfl
  simp only [tryFacts, rowsIn_flatMap, one, List.filterMap_eq_flatMap_toList]

end Rows

namespace Phases

variable {cx} {code : CodeItem} {events : List Event}

theorem rowsOf_tryFacts (phases : cx.Phases code events) {relation : Relation}
    (of_handlers : relation = .exceptionHandler ∨ relation = .exceptionHandlerPrevious) :
    rowsOf relation events =
      rowsIn relation (cx.tryFacts (closedMap code phases.final) code.tries) := by
  have not_header : relation ∉ headerRelations := by
    rcases of_handlers with rfl | rfl <;> decide
  have not_late : relation ∉ lateRelations := by
    rcases of_handlers with rfl | rfl <;> decide
  have belongs : relation ∈ endRelations := by
    rcases of_handlers with rfl | rfl <;> decide
  rw [phases.rowsOf_early not_header not_late, phases.rowsOf_decoded_eq_nil belongs,
    List.nil_append]
  exact cx.rowsOf_writeExceptions code.tries _ of_handlers

theorem rowsOf_handlers (phases : cx.Phases code events) :
    rowsOf .exceptionHandler events = code.tries.flatMap fun block =>
      block.sortedHandlers.filterMap (cx.handlerRow? (closedMap code phases.final) block) :=
  (phases.rowsOf_tryFacts (.inl rfl)).trans (cx.rowsIn_tryFacts_rows _ _)

theorem rowsOf_links (phases : cx.Phases code events) :
    rowsOf .exceptionHandlerPrevious events = code.tries.flatMap fun block =>
      (withPrevious none block.sortedHandlers).filterMap
        (cx.handlerLink? (closedMap code phases.final) block) :=
  (phases.rowsOf_tryFacts (.inr rfl)).trans (cx.rowsIn_tryFacts_links _ _)

end Phases

end MethodContext

end DalvikFacts
