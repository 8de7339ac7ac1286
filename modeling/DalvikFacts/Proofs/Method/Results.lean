import DalvikFacts.Proofs.Method.Account
import DalvikFacts.Proofs.Method.Failure

/-!
# Results that wait

A result waits from the instruction that makes it until it is moved out or another one is made.  So
what waits at an instruction is told by the instructions before it: the last one that makes a result
has done so, unless the instruction next to it has moved it out.
-/

namespace DalvikFacts

namespace MethodContext

variable {cx : MethodContext} {state final : MethodState}

/-! ## Results that wait -/

theorem Planned.pending_of_barren {here : LocatedInstr} {action : MethodEmit Unit}
    (planned : cx.Planned here state.carry.result action)
    (barren : here.instr.producesResult = false)
    (behind : ∀ producer, state.pending = some producer → producer + 1 < here.index) :
    (action.run (state.reach here.address here.index)).state.pending = state.pending := by
  have arrived : (state.reach here.address here.index).pending = state.pending := rfl
  rw [planned.pending, arrived, Instr.pendingAfter, if_neg (by simp [barren])]
  split
  next moves =>
    -- a result from further back is never moved out
    unfold Planned at planned
    cases instr_eq : here.instr with
    | moveResult kind dst =>
      rw [instr_eq] at planned
      obtain ⟨pending, result_eq, just, -⟩ := planned
      have waits : state.pending = some pending.index :=
        congrArg (Option.map PendingResult.index) result_eq
      exact absurd just (Nat.ne_of_lt (behind _ waits))
    | _ =>
      rw [instr_eq] at moves
      cases moves
  next => rfl

theorem Decodes.pending_of_barren {index : Nat} {address : Address} {instrs : List Instr}
    {events : List Event}
    (run : cx.Decodes (locateFrom index address instrs) state events final)
    (barren : ∀ instr ∈ instrs, instr.producesResult = false)
    (behind : ∀ producer, state.pending = some producer → producer + 1 < index) :
    final.pending = state.pending := by
  induction instrs generalizing index address state events with
  | nil =>
    cases run
    rfl
  | cons instr rest induction =>
    cases run with
    | cons planned later =>
      have kept := planned.pending_of_barren (barren instr List.mem_cons_self) behind
      rw [induction later (fun other member => barren other (List.mem_cons_of_mem _ member)), kept]
      intro producer waits
      rw [kept] at waits
      exact Nat.lt_succ_of_lt (behind producer waits)

theorem Decodes.split {front back : List LocatedInstr} {events : List Event}
    (run : cx.Decodes (front ++ back) state events final) :
    ∃ middle first second, cx.Decodes front state first middle ∧
      cx.Decodes back middle second final ∧ events = first ++ second := by
  induction front generalizing state events with
  | nil => exact ⟨state, [], events, .nil state, run, rfl⟩
  | cons here rest induction =>
    cases run with
    | cons planned later =>
      obtain ⟨middle, first, second, first_run, second_run, rfl⟩ := induction later
      exact ⟨middle, _, second, .cons planned first_run, second_run, (List.append_assoc ..).symm⟩

/-- Behind the last instruction that makes a result, this one waits, unless the instruction next to
it has moved it out. -/
theorem Decodes.pending_of_producer {index : Nat} {address : Address} {early late : List Instr}
    {producer : Instr} {events : List Event}
    (run : cx.Decodes (locateFrom index address (early ++ producer :: late)) state events final)
    (produces : producer.producesResult) (barren : ∀ instr ∈ late, instr.producesResult = false) :
    final.pending =
      if late.head?.any Instr.isMoveResult then none else some (index + early.length) := by
  rw [locateFrom_append] at run
  obtain ⟨middle, _, _, -, behind, -⟩ := run.split
  cases behind with
  | @cons here _ _ _ _ action planned later =>
    have made : (action.run (middle.reach (address.advance (totalSize early))
        (index + early.length))).state.pending = some (index + early.length) := by
      rw [planned.pending, Instr.pendingAfter, if_pos produces]
    cases late with
    | nil =>
      cases later
      exact made
    | cons head rest =>
      cases later with
      | @cons here _ _ _ _ next next_planned rest_run =>
        have barren_head := barren head List.mem_cons_self
        have barren_rest : ∀ instr ∈ rest, instr.producesResult = false :=
          fun instr member => barren instr (List.mem_cons_of_mem _ member)
        have waits := next_planned.pending (MethodState.reach (action.run (middle.reach
          (address.advance (totalSize early)) (index + early.length))).state
            ((address.advance (totalSize early)).advance producer.size) (index + early.length + 1))
        rw [Instr.pendingAfter, if_neg (by simp [barren_head])] at waits
        change _ = if head.isMoveResult then none else _ at waits
        change final.pending = if head.isMoveResult then none else some (index + early.length)
        rw [rest_run.pending_of_barren barren_rest, waits]
        · split
          · rfl
          · exact made
        · intro earlier earlier_eq
          rw [waits] at earlier_eq
          split at earlier_eq
          · cases earlier_eq
          · cases made.symm.trans earlier_eq
            omega

/-! ## Results that are missing -/

section Missing

variable {cache : SignatureCache}

theorem value_extractInstrs_append {front : List LocatedInstr} {reached : MethodState}
    (front_eq : ((cx.extractInstrs front state).run.perform cache).value = .ok reached)
    (back : List LocatedInstr) :
    ((cx.extractInstrs (front ++ back) state).run.perform cache).value =
      ((cx.extractInstrs back reached).run.perform
        ((cx.extractInstrs front state).run.perform cache).state).value := by
  induction front generalizing state cache with
  | nil =>
    cases front_eq
    rfl
  | cons here rest induction =>
    cases plan_eq :
        ((Extract.lookup (cx.plan here state.carry.result)).run.perform cache).value with
    | error error =>
      rw [perform_extractInstrs_of_error plan_eq] at front_eq
      cases front_eq
    | ok action =>
      rw [perform_extractInstrs_of_ok plan_eq] at front_eq
      rw [List.cons_append, perform_extractInstrs_of_ok plan_eq,
        perform_extractInstrs_of_ok plan_eq]
      exact induction front_eq

theorem value_extractInstrs_moveResult {here : LocatedInstr} {rest : List LocatedInstr}
    {kind : MoveKind} {dst : Reg} {error : ExtractionError}
    (instr_eq : here.instr = .moveResult kind dst)
    (fault_eq : cx.resultFault? here.index state.pending = some error) :
    ((cx.extractInstrs (here :: rest) state).run.perform cache).value = .error error := by
  have plan_eq : ((Extract.lookup (cx.plan here state.carry.result)).run.perform cache).value =
      .error error := by
    have planned_eq : ∀ result, cx.plan here result = cx.planResult here dst result := by
      intro result
      rw [plan, instr_eq]
    rw [MethodState.pending] at fault_eq
    cases result_eq : state.carry.result with
    | none =>
      rw [result_eq, Option.map_none, resultFault?] at fault_eq
      cases fault_eq
      rw [planned_eq, planResult]
      rfl
    | some pending =>
      rw [result_eq, Option.map_some, resultFault?] at fault_eq
      split at fault_eq
      next => cases fault_eq
      next behind =>
        cases fault_eq
        rw [planned_eq, planResult, if_neg behind]
        rfl
  exact congrArg Emitted.value (perform_extractInstrs_of_error plan_eq)

section Orphan

variable {code : CodeItem} {front back : List Instr} {kind : MoveKind} {dst : Reg}
  {reached : MethodState} (code_eq : cx.definition.code = some code)
  (instrs_eq : code.instructions = front ++ .moveResult kind dst :: back)
  (reached_eq : ((cx.extractInstrs (locateFrom 1 code.startAddress front)
    cx.entryState).run.perform cache).value = .ok reached)

include code_eq instrs_eq reached_eq

theorem extract_of_orphan {error : ExtractionError}
    (fault_eq : cx.resultFault? (front.length + 1) reached.pending = some error) :
    (cx.extract.run.perform cache).value = .error error := by
  obtain ⟨later, located_eq⟩ := code.located_of_append instrs_eq
  have all_done := value_extractInstrs_append reached_eq
    (⟨front.length + 1, code.startAddress.advance (totalSize front), .moveResult kind dst⟩ :: later)
  rw [← located_eq, value_extractInstrs_moveResult rfl fault_eq] at all_done
  exact congrArg Emitted.value (extract_of_error code_eq all_done)

theorem extract_of_barren (barren : ∀ instr ∈ front, instr.producesResult = false) :
    (cx.extract.run.perform cache).value = .error (.missingResult cx.id (front.length + 1)) := by
  have nothing : ∀ producer, cx.entryState.pending = some producer → producer + 1 < 1 := by
    intro producer waits
    rw [cx.pending_entryState] at waits
    cases waits
  have pending_eq := (cx.decodes_of_ok reached_eq).pending_of_barren barren nothing
  apply extract_of_orphan code_eq instrs_eq reached_eq
  rw [pending_eq, cx.pending_entryState, resultFault?]

/-- Behind the last instruction that makes a result, it is missing when the instruction next to that
one has moved it out, and stale when none has. -/
theorem extract_of_stale {early late : List Instr} {producer : Instr}
    (front_eq : front = early ++ producer :: late) (produces : producer.producesResult)
    (barren : ∀ instr ∈ late, instr.producesResult = false)
    (unproduced : front.getLast?.any Instr.producesResult = false) :
    (cx.extract.run.perform cache).value =
      .error (if late.head?.any Instr.isMoveResult then .missingResult cx.id (front.length + 1)
        else .staleResult cx.id (front.length + 1) (early.length + 1)) := by
  apply extract_of_orphan code_eq instrs_eq reached_eq
  subst front_eq
  rw [(cx.decodes_of_ok reached_eq).pending_of_producer produces barren]
  split
  · rw [resultFault?]
  · have late_ne : late ≠ [] := by
      rintro rfl
      rw [List.getLast?_concat, Option.any_some, produces] at unproduced
      cases unproduced
    have late_pos := List.length_pos_iff.2 late_ne
    rw [resultFault?, if_neg (by simp; omega), Nat.add_comm 1]

end Orphan

end Missing

end MethodContext

end DalvikFacts
