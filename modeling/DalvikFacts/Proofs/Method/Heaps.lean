import DalvikFacts.Proofs.Identifier
import DalvikFacts.Proofs.Method.Recital

/-!
# Names of allocated objects

Every allocation uses up a number of its type, so no two objects of a method share an identifier.
-/

namespace DalvikFacts

/-- The rows of allocated objects among outputs. -/
def heapRows (outputs : List Output) : List (List String) :=
  ((factsAmong outputs).filter (·.relation == .normalHeap)).map Fact.columns

theorem heapRows_append (outputs others : List Output) :
    heapRows (outputs ++ others) = heapRows outputs ++ heapRows others := by
  rw [heapRows, factsAmong_append]
  exact rowsIn_append _ _ _

theorem heapRows_eq_nil {outputs : List Output}
    (others : ∀ fact ∈ factsAmong outputs, fact.relation ≠ .normalHeap) :
    heapRows outputs = [] :=
  rowsIn_eq_nil others

namespace MethodContext

variable {cx : MethodContext} {here : LocatedInstr} {state next final : MethodState}
  {outputs : List Output}

theorem heapRows_allocated (heap type var : String) (isEmpty : Bool) :
    heapRows (cx.allocated here heap type var isEmpty) = [[heap, type]] := by
  cases isEmpty <;> rfl

theorem heapRows_newArrayOutputs (heap : String) (dst : Reg) (type : Descriptor) (isEmpty : Bool) :
    heapRows (cx.newArrayOutputs here heap dst type isEmpty) = [[heap, type.sourceName]] := by
  have typed : heapRows (arrayTypeRows type) = [] := by
    unfold arrayTypeRows
    cases type.component? <;> rfl
  rw [newArrayOutputs, heapRows_append, typed, List.nil_append]
  exact heapRows_allocated _ _ _ _

/-- An array filled with registers is allocated where it is moved. -/
theorem heapRows_resultOutputs (dst : Reg) (type : String) (elements : List Reg) :
    heapRows (cx.resultOutputs here state dst (.filledArray type elements)) =
      [[cx.nextHeap state type, type]] := by
  have filling : ∀ array heap, heapRows (cx.filledElements here array heap elements) = [] := by
    intro array heap
    refine heapRows_eq_nil fun fact member => ?_
    rw [filledElements, factsAmong_flatMap] at member
    obtain ⟨element, -, written⟩ := List.mem_flatMap.1 member
    cases List.mem_singleton.1 written
    simp
  rw [resultOutputs, heapRows_append, filling, List.append_nil]
  exact heapRows_allocated _ _ _ _

theorem Tells.peek_le (told : cx.Tells here state outputs next) (kind : String) :
    state.counters.peek kind ≤ next.counters.peek kind := by
  rcases told.counters with same | ⟨used, advanced⟩
  · rw [same]
  · rw [advanced]
    exact state.counters.peek_le_peek_advance used kind

/-- An instruction allocates no object, or one with the next number of its type. -/
theorem Tells.heaps (told : cx.Tells here state outputs next)
    (within : ∀ fact ∈ factsAmong outputs, fact.relation ∈ here.instr.relations) :
    heapRows outputs = [] ∨ ∃ type, heapRows outputs = [[cx.nextHeap state type, type]] ∧
      next.counters = state.counters.advance type := by
  have absent : .normalHeap ∉ here.instr.relations → heapRows outputs = [] := by
    intro outside
    exact heapRows_eq_nil fun fact member same => outside (same ▸ within fact member)
  cases told with
  | newInstance name => exact .inr ⟨name, heapRows_allocated _ name _ false, rfl⟩
  | newArray found => exact .inr ⟨found.sourceName, heapRows_newArrayOutputs .., rfl⟩
  | moveResult pending =>
    cases pending.producer with
    | invocation insn => exact .inl rfl
    | filledArray type elements => exact .inr ⟨type, heapRows_resultOutputs .., rfl⟩
  | _ => exact .inl (absent (by simp [*, Instr.relations, callRelations]))

/-- The objects that successive instructions allocate have numbers that were not used before, each
another one. -/
theorem Recites.heaps {instrs : List LocatedInstr}
    (run : cx.Recites instrs state outputs final) :
    ∃ heaps : List (String × Nat), heaps.Nodup ∧
      heapRows outputs = (heaps.map fun heap =>
        [Identifier.allocation cx.id heap.1 heap.2, heap.1]) ∧
      ∀ heap ∈ heaps, state.counters.peek heap.1 ≤ heap.2 := by
  induction run with
  | nil => exact ⟨[], .nil, rfl, by simp⟩
  | @cons here rest state next final first others declared told within later induction =>
    obtain ⟨heaps, nodup, rows_eq, fresh⟩ := induction
    have later_fresh : ∀ heap ∈ heaps, state.counters.peek heap.1 ≤ heap.2 :=
      fun heap member => (told.peek_le heap.1).trans (fresh heap member)
    rcases told.heaps within with none_eq | ⟨type, one_eq, advanced⟩
    · refine ⟨heaps, nodup, ?_, later_fresh⟩
      rw [heapRows_append, none_eq, rows_eq, List.nil_append]
    · refine ⟨(type, state.counters.peek type) :: heaps, ?_, ?_, ?_⟩
      · refine List.nodup_cons.2 ⟨fun member => ?_, nodup⟩
        have used : next.counters.peek type ≤ state.counters.peek type := fresh _ member
        rw [advanced] at used
        exact Nat.not_succ_le_self _ (state.counters.peek_advance_self type ▸ used)
      · rw [heapRows_append, one_eq, rows_eq, List.map_cons]
        rfl
      · exact List.forall_mem_cons.2 ⟨Nat.le_refl _, later_fresh⟩

theorem Recital.heaps {events : List Event} {extracted : ExtractedMethod}
    (recital : cx.Recital events extracted) :
    ∃ heaps : List (String × Nat), heaps.Nodup ∧
      rowsOf .normalHeap events = heaps.map fun heap =>
        [Identifier.allocation extracted.id heap.1 heap.2, heap.1] := by
  obtain ⟨heaps, nodup, rows_eq, -⟩ := recital.recites.heaps
  have filtered := recital.filter_factsOf_body (· == .normalHeap) (by decide)
  refine ⟨heaps, nodup, ?_⟩
  rw [rowsOf, filtered, recital.id_eq, ← rows_eq]
  rfl

end MethodContext

theorem Identifier.allocation_eq_iff {method type other : String} {number count : Nat} :
    allocation method type number = allocation method other count ↔
      type = other ∧ number = count := by
  unfold allocation
  rw [instruction_eq_iff, allocationKind, allocationKind, String.append_right_inj]

end DalvikFacts
