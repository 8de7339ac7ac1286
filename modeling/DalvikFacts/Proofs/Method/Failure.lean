import DalvikFacts.Proofs.Code
import DalvikFacts.Proofs.Method.Outcome
import Mathlib.Control.Traversable.Instances
import Mathlib.Data.List.Basic
import Mathlib.Data.List.Induction
import Mathlib.Data.List.Permutation
import Mathlib.Data.Nat.Find

/-!
# Failing methods

An extraction of a method fails exactly when one of the instructions is bad.  The first bad one ends
it: what was written until then is the header and the rows of the instructions before, and nothing
of what waits for the end.
-/

namespace DalvikFacts

namespace Instr

/-- Whether an instruction moves a result out. -/
def isMoveResult : Instr → Bool
  | moveResult .. => true
  | _ => false

/-- The index of the result that waits behind an instruction. -/
def pendingAfter (instr : Instr) (index : Nat) (pending : Option Nat) : Option Nat :=
  if instr.producesResult then some index
  else if instr.isMoveResult then none
  else pending

/-- What is wrong with an instruction, given the one before it. -/
inductive Bad (container : Container) (previous : Option Instr) : Instr → Prop
  | unknown (opcode : Nat) (units : Nat) : Bad container previous (unknown opcode units)
  | orphan (kind : MoveKind) (dst : Reg)
      (unproduced : ∀ producer, previous = some producer → producer.producesResult = false) :
      Bad container previous (moveResult kind dst)
  | missing {instr : Instr} {entry : MissingEntry} (needed : entry ∈ container.needs instr)
      (lacked : container.lacks entry) : Bad container previous instr
  | withoutReceiver {instr : Instr} {shape : ArgumentShape}
      (shape_eq : container.argumentShape? instr = some shape) (lacking : shape.lacksReceiver) :
      Bad container previous instr
  | withoutArguments {instr : Instr} {shape : ArgumentShape}
      (shape_eq : container.argumentShape? instr = some shape) (lacking : shape.lacksArguments) :
      Bad container previous instr

end Instr

/-- The instruction at an index, counted from one, is bad. -/
def CodeItem.BadAt (code : CodeItem) (container : Container) (index : Nat) : Prop :=
  ∃ front instr back, code.instructions = front ++ instr :: back ∧ index = front.length + 1 ∧
    instr.Bad container front.getLast?

/-! ## Results that wait -/

/-- The index of the result that waits behind successive instructions. -/
def pendingFrom (pending : Option Nat) (instrs : List LocatedInstr) : Option Nat :=
  instrs.foldl (fun pending here => here.instr.pendingAfter here.index pending) pending

theorem pendingFrom_lt {instrs : List Instr} {address : Address} {producer : Nat}
    (pending_eq : pendingFrom none (locateFrom 1 address instrs) = some producer) :
    producer < instrs.length + 1 := by
  induction instrs using List.reverseRecOn generalizing producer with
  | nil => cases pending_eq
  | append_singleton front last induction =>
    rw [locateFrom_append, pendingFrom, List.foldl_append] at pending_eq
    change last.pendingAfter (1 + front.length) _ = _ at pending_eq
    unfold Instr.pendingAfter at pending_eq
    rw [List.length_append, List.length_singleton]
    split at pending_eq
    next => cases pending_eq; omega
    next =>
      split at pending_eq
      next => cases pending_eq
      next =>
        have := induction pending_eq
        omega

/-- A result that waits has just been produced exactly when the last instruction produces one. -/
theorem pendingFrom_eq_some_iff (front : List Instr) (address : Address) :
    pendingFrom none (locateFrom 1 address front) = some front.length ↔
      ∃ producer, front.getLast? = some producer ∧ producer.producesResult := by
  rcases List.eq_nil_or_concat' front with rfl | ⟨before, last, rfl⟩
  · simp [pendingFrom, locateFrom]
  · have pending_eq : pendingFrom none (locateFrom 1 address (before ++ [last])) =
        last.pendingAfter (1 + before.length)
          (pendingFrom none (locateFrom 1 address before)) := by
      rw [locateFrom_append, pendingFrom, List.foldl_append]
      rfl
    rw [pending_eq, List.getLast?_concat, List.length_append, List.length_singleton]
    unfold Instr.pendingAfter
    split
    next produces => simp [produces, Nat.add_comm]
    next barren =>
      have absent : ¬ ∃ producer, some last = some producer ∧ producer.producesResult := by
        rintro ⟨_, last_eq, produces⟩
        cases last_eq
        exact barren produces
      split
      next => simpa using absent
      next =>
        refine iff_of_false (fun waits => ?_) absent
        have := pendingFrom_lt waits
        omega

namespace MethodContext

variable {cx : MethodContext} {here : LocatedInstr}

theorem pending_writeResult (dst : Reg) (producer : Producer) (state : MethodState) :
    ((cx.writeResult here dst producer).run state).state.pending = none := by
  have taken : Footprint [.declared, .counters] resultRelations
      (cx.writeTaken here dst producer) :=
    footprint_writeTaken cx here dst producer (by simp) (by simp)
  have kept := taken.frame (state.withCarry (·.dropResult)) .result (by simp)
  exact congrArg (Option.map PendingResult.index) kept

/-- Only invocations and filled arrays make a result wait, and only moves take it. -/
theorem Planned.pending {result : Option PendingResult} {action : MethodEmit Unit}
    (planned : cx.Planned here result action) (state : MethodState) :
    (action.run state).state.pending = here.instr.pendingAfter here.index state.pending := by
  have kept : .result ∉ here.instr.parts → (action.run state).state.pending = state.pending :=
    fun untouched =>
      congrArg (Option.map PendingResult.index) (planned.footprint.frame state .result untouched)
  unfold Planned at planned
  generalize here.instr = instr at planned kept ⊢
  cases instr with
  | moveResult kind dst =>
    obtain ⟨pending, -, -, rfl⟩ := planned
    exact pending_writeResult dst pending.producer state
  | filledNewArray elements type => obtain ⟨_, -, rfl⟩ := planned; rfl
  | invoke kind args method => obtain ⟨call, -, -, rfl⟩ := planned; rfl
  | invokePolymorphic args method proto => obtain ⟨call, -, -, rfl⟩ := planned; rfl
  | invokeCustom args callSite => obtain ⟨call, rfl⟩ := planned; rfl
  | _ => exact kept (by simp [Instr.parts])

end MethodContext

/-! ## Bad instructions -/

theorem ArgumentShape.shortage?_isSome_iff (shape : ArgumentShape) (method : String) :
    (shape.shortage? method).isSome ↔ shape.lacksReceiver ∨ shape.lacksArguments := by
  unfold ArgumentShape.shortage?
  split
  next lacking => simp [lacking]
  next => split <;> simp [*]

/-- Whether an instruction is wrong where it stands: nothing knows its opcode, or the instruction
before it has not made the result that it moves out. -/
def Instr.isMisplaced (previous : Option Instr) : Instr → Bool
  | unknown .. => true
  | moveResult .. => !previous.any producesResult
  | _ => false

theorem Instr.bad_iff {container : Container} {previous : Option Instr} {instr : Instr} :
    instr.Bad container previous ↔ instr.isMisplaced previous = true ∨
      (∃ entry ∈ container.needs instr, container.lacks entry) ∨
        ∃ shape ∈ container.argumentShape? instr, shape.lacksReceiver ∨ shape.lacksArguments := by
  constructor
  · intro bad
    cases bad with
    | unknown opcode units => exact .inl rfl
    | orphan kind dst unproduced =>
      refine .inl ?_
      cases previous with
      | none => rfl
      | some producer => simp [isMisplaced, unproduced producer rfl]
    | missing needed lacked => exact .inr (.inl ⟨_, needed, lacked⟩)
    | withoutReceiver shape_eq lacking => exact .inr (.inr ⟨_, shape_eq, .inl lacking⟩)
    | withoutArguments shape_eq lacking => exact .inr (.inr ⟨_, shape_eq, .inr lacking⟩)
  · rintro (misplaced | ⟨entry, needed, lacked⟩ | ⟨shape, shape_eq, lacking | lacking⟩)
    · cases instr with
      | unknown opcode units => exact .unknown opcode units
      | moveResult kind dst =>
        refine .orphan kind dst fun producer last_eq => ?_
        cases last_eq
        simpa [isMisplaced] using misplaced
      | _ => cases misplaced
    · exact .missing needed lacked
    · exact .withoutReceiver shape_eq lacking
    · exact .withoutArguments shape_eq lacking

instance (container : Container) (previous : Option Instr) (instr : Instr) :
    Decidable (instr.Bad container previous) :=
  decidable_of_iff _ Instr.bad_iff.symm

namespace MethodContext

variable {cx : MethodContext}

theorem resultFault?_eq_none_iff (index : Nat) (pending : Option Nat) :
    cx.resultFault? (index + 1) pending = none ↔ pending = some index := by
  cases pending with
  | none => simp [resultFault?]
  | some producer => simp [resultFault?]

/-- An instruction fails exactly when it is bad. -/
theorem fault?_isSome_iff (cx : MethodContext) (front : List Instr) (instr : Instr)
    (start address : Address) :
    (cx.fault? ⟨front.length + 1, address, instr⟩
        (pendingFrom none (locateFrom 1 start front))).isSome ↔
      instr.Bad cx.container front.getLast? := by
  have general : ((((cx.container.needs instr).find? cx.container.lacks).map
      ExtractionError.missingEntry).or
        ((cx.container.argumentShape? instr).bind (·.shortage? cx.id))).isSome ↔
      (∃ entry ∈ cx.container.needs instr, cx.container.lacks entry) ∨
        ∃ shape ∈ cx.container.argumentShape? instr,
          shape.lacksReceiver ∨ shape.lacksArguments := by
    rw [Option.isSome_or, Bool.or_eq_true, Option.isSome_map, List.find?_isSome,
      Option.isSome_bind]
    simp only [Option.any_eq_true, Option.mem_def, ArgumentShape.shortage?_isSome_iff]
  cases instr with
  | unknown opcode units => exact iff_of_true rfl (.unknown opcode units)
  | moveResult kind dst =>
    change (cx.resultFault? (front.length + 1) _).isSome ↔ _
    rw [Option.isSome_iff_ne_none, ne_eq, resultFault?_eq_none_iff, pendingFrom_eq_some_iff]
    constructor
    · intro unproduced
      refine .orphan kind dst fun producer last_eq => ?_
      by_contra produces
      exact unproduced ⟨producer, last_eq, by simpa using produces⟩
    · rintro bad ⟨producer, last_eq, produces⟩
      cases bad with
      | orphan _ _ unproduced => simp [unproduced producer last_eq] at produces
      | missing needed => cases needed
      | withoutReceiver shape_eq => cases shape_eq
      | withoutArguments shape_eq => cases shape_eq
  | _ =>
    rw [Instr.bad_iff, or_iff_right (by simp [Instr.isMisplaced])]
    exact general

/-! ## Decoding up to the first fault -/

variable {state : MethodState}

/-- Successive instructions without faults are done before the rest goes on. -/
theorem exists_decodes_of_no_fault {front : List LocatedInstr}
    (no_fault : ∀ before here after, front = before ++ here :: after →
      cx.fault? here (pendingFrom state.pending before) = none) :
    ∃ events reached, cx.Decodes front state events reached ∧
      reached.pending = pendingFrom state.pending front ∧
      ∀ rest outcome later,
        (cx.extractInstrs rest reached).SettlesTo (SignatureCache.Knows cx.container) outcome
          later →
        (cx.extractInstrs (front ++ rest) state).SettlesTo (SignatureCache.Knows cx.container)
          outcome (events ++ later) := by
  induction front generalizing state with
  | nil => exact ⟨[], state, .nil state, rfl, fun _ _ _ rest_settles => rest_settles⟩
  | cons here front induction =>
    -- what waits in the state stays what `pendingFrom` tells
    obtain ⟨action, planned, step⟩ := exists_planned_of_no_fault (no_fault [] here front rfl)
    have pending_eq := planned.pending (state.reach here.address here.index)
    obtain ⟨events, reached, run, reached_eq, settles⟩ :=
      @induction (action.run (state.reach here.address here.index)).state
        fun before next after front_eq => by
          rw [pending_eq]
          exact no_fault (here :: before) next after (congrArg _ front_eq)
    refine ⟨_, reached, .cons planned run, ?_, fun rest outcome later rest_settles => ?_⟩
    · rw [reached_eq, pending_eq]
      rfl
    · rw [List.append_assoc]
      exact step _ _ _ (settles rest outcome later rest_settles)

end MethodContext

/-! ## Methods -/

/-- The relations of what is written behind the last instruction. -/
def endRelations : List Relation :=
  .exceptionHandler :: .exceptionHandlerPrevious :: .exceptionHandlerFormalParam :: lateRelations

theorem Instr.notMem_endRelations (instr : Instr) :
    ∀ relation ∈ instr.relations, relation ∉ endRelations := by
  cases instr <;>
    simp [relations, endRelations, lateRelations, edgeRelations, MethodContext.callRelations,
      MethodContext.resultRelations]

namespace MethodContext

variable {cx : MethodContext} {code : CodeItem} {front back : List Instr}

theorem no_fault_of_not_badAt (instrs_eq : code.instructions = front ++ back)
    (sound : ∀ index ≤ front.length, ¬ code.BadAt cx.container index) (before : List LocatedInstr)
    (here : LocatedInstr) (after : List LocatedInstr)
    (located_eq : locateFrom 1 code.startAddress front = before ++ here :: after) :
    cx.fault? here (pendingFrom none before) = none := by
  obtain ⟨early, late, rfl, rfl, here_eq⟩ := eq_of_locateFrom_eq located_eq
  by_contra fails
  rw [here_eq, ← ne_eq, ← Option.isSome_iff_ne_none, fault?_isSome_iff] at fails
  refine sound (early.length + 1) ?_ ⟨early, here.instr, late ++ back, ?_, rfl, fails⟩
  · simp
  · simpa using instrs_eq

theorem pending_entryState (cx : MethodContext) : cx.entryState.pending = none :=
  congrArg (Option.map PendingResult.index) (cx.entryState_same .result (by simp))

variable {cache : SignatureCache} (code_eq : cx.definition.code = some code)
  (knows : cache.Knows cx.container)

include code_eq knows

theorem exists_extract_ok (sound : ∀ index, ¬ code.BadAt cx.container index) :
    ∃ extracted, (cx.extract.run cache).value = .ok extracted := by
  have no_fault : ∀ before here after, code.located = before ++ here :: after →
      cx.fault? here (pendingFrom none before) = none :=
    no_fault_of_not_badAt (List.append_nil _).symm fun index _ => sound index
  rw [← cx.pending_entryState] at no_fault
  obtain ⟨events, reached, -, -, settles⟩ := exists_decodes_of_no_fault no_fault
  have decoded := (settles [] (.ok reached) [] (.pure reached)).perform knows
  rw [List.append_nil] at decoded
  exact ⟨_, congrArg Emitted.value (extract_of_ok code_eq decoded.1)⟩

/-- The first bad instruction ends the extraction behind the header and the instructions before. -/
theorem extract_of_first_bad {instr : Instr}
    (instrs_eq : code.instructions = front ++ instr :: back)
    (bad : instr.Bad cx.container front.getLast?)
    (first : ∀ index ≤ front.length, ¬ code.BadAt cx.container index) :
    ∃ error reached events,
      cx.fault? ⟨front.length + 1, code.startAddress.advance (totalSize front), instr⟩
          reached.pending = some error ∧
      cx.Decodes (locateFrom 1 code.startAddress front) cx.entryState events reached ∧
      ((cx.extractInstrs (locateFrom 1 code.startAddress front) cx.entryState).run cache).value =
        .ok reached ∧
      ((cx.extractInstrs (locateFrom 1 code.startAddress front) cx.entryState).run cache).events =
        events ∧
      (cx.extract.run cache).value = .error error ∧
      (cx.extract.run cache).events = cx.entryEvents code ++ events := by
  have no_fault := no_fault_of_not_badAt instrs_eq first
  rw [← cx.pending_entryState] at no_fault
  obtain ⟨events, reached, run, pending_eq, settles⟩ := exists_decodes_of_no_fault no_fault
  rw [pending_entryState] at pending_eq
  have fails := (cx.fault?_isSome_iff front instr code.startAddress
    (code.startAddress.advance (totalSize front))).2 bad
  obtain ⟨error, fault_eq⟩ := Option.isSome_iff_exists.1 fails
  rw [← pending_eq] at fault_eq
  obtain ⟨later, located_eq⟩ := code.located_of_append instrs_eq
  have front_done := (settles [] (.ok reached) [] (.pure reached)).perform knows
  have all_done := (settles (_ :: later) (.error error) []
    (settlesTo_of_fault fault_eq)).perform knows
  rw [← located_eq] at all_done
  simp only [List.append_nil] at front_done all_done
  have ended := extract_of_error code_eq all_done.1
  rw [all_done.2.2] at ended
  exact ⟨error, reached, events, fault_eq, run, front_done.1, front_done.2.2,
    congrArg Emitted.value ended, congrArg Emitted.events ended⟩

omit code_eq knows in
theorem notMem_endRelations_of_decodes {instrs : List LocatedInstr} {reached : MethodState}
    {events : List Event} (run : cx.Decodes instrs cx.entryState events reached) :
    ∀ fact ∈ factsOf (cx.entryEvents code ++ events), fact.relation ∉ endRelations := by
  intro fact member
  rw [mem_factsOf, List.mem_append] at member
  have in_header : ∀ relation ∈ headerRelations, relation ∉ endRelations := by decide
  rcases member with member | member
  · exact in_header _ ((cx.within_entryEvents code).facts fact member)
  · exact run.relation_of_mem (fun here _ => here.instr.notMem_endRelations) member

omit code_eq knows in
theorem factsOf_entryEvents (cx : MethodContext) (code : CodeItem) :
    factsOf (cx.entryEvents code) = factsOf (cx.writeHeader.run .start).events := by
  have reported : ∀ addresses : List Address, factsOf (addresses.map fun address =>
      Event.notice (.method cx.id (.movedEntry address))) = [] := by
    intro addresses
    induction addresses with
    | nil => rfl
    | cons address rest induction => exact induction
  rw [entryEvents, factsOf_append, reported, List.append_nil]

end MethodContext

/-- The extraction of a method with a body fails exactly when an instruction is bad.  It fails with
the fault of the first bad one, and leaves the rows of the header and those of the instructions
before, none of which belong behind the last instruction. -/
theorem extract_error_iff (cx : MethodContext) {code : CodeItem} {cache : SignatureCache}
    (code_eq : cx.definition.code = some code) (knows : cache.Knows cx.container) :
    ((∃ error, (cx.extract.run cache).value = .error error) ↔
      ∃ index, code.BadAt cx.container index) ∧
    ∀ index, code.BadAt cx.container index →
      (∀ earlier < index, ¬ code.BadAt cx.container earlier) →
      ∃ here error reached,
        let decoded := (cx.extractInstrs (code.located.take (index - 1)) cx.entryState).run cache
        let events := (cx.extract.run cache).events
        code.located[index - 1]? = some here ∧ here.index = index ∧
        decoded.value = .ok reached ∧
        cx.fault? here reached.pending = some error ∧
        (cx.extract.run cache).value = .error error ∧
        factsOf events =
          factsOf (cx.writeHeader.run .start).events ++ factsOf decoded.events ∧
        ∀ fact ∈ factsOf events, fact.relation ∉ endRelations := by
  refine ⟨⟨?_, ?_⟩, ?_⟩
  · rintro ⟨error, error_eq⟩
    by_contra sound
    obtain ⟨extracted, value_eq⟩ := MethodContext.exists_extract_ok code_eq knows
      fun index bad => sound ⟨index, bad⟩
    rw [error_eq] at value_eq
    cases value_eq
  · intro fails
    -- nothing before the least bad index is bad
    classical
    obtain ⟨front, instr, back, instrs_eq, index_eq, bad⟩ := Nat.find_spec fails
    obtain ⟨error, -, -, -, -, -, -, error_eq, -⟩ :=
      MethodContext.extract_of_first_bad code_eq knows instrs_eq bad
        fun index le => Nat.find_min fails (by omega)
    exact ⟨error, error_eq⟩
  · rintro _ ⟨front, instr, back, instrs_eq, rfl, bad⟩ first
    obtain ⟨error, reached, events, fault_eq, run, reached_eq, events_eq, error_eq, all_eq⟩ :=
      MethodContext.extract_of_first_bad code_eq knows instrs_eq bad
        fun index le => first index (by omega)
    obtain ⟨later, located_eq⟩ := code.located_of_append instrs_eq
    have before_eq : code.located.take (front.length + 1 - 1) =
        locateFrom 1 code.startAddress front := by
      rw [located_eq, Nat.add_sub_cancel]
      exact List.take_left' (length_locateFrom ..)
    refine ⟨⟨front.length + 1, code.startAddress.advance (totalSize front), instr⟩, error, reached,
      ?_⟩
    rw [before_eq]
    refine ⟨?_, rfl, reached_eq, fault_eq, error_eq, ?_, ?_⟩
    · rw [located_eq, Nat.add_sub_cancel]
      simp
    · rw [all_eq, factsOf_append, MethodContext.factsOf_entryEvents, events_eq]
    · rw [all_eq]
      exact MethodContext.notMem_endRelations_of_decodes run

/-- A container that refers to one method. -/
def loneContainer : Container where
  name := "lone.dex"
  types := #[]
  strings := #[]
  fields := #[]
  methods := #[⟨.object "Lone", "go", [], .void⟩]
  protos := #[]
  methodHandles := #[]
  callSites := #[]
  classes := []

/-- A static method of that reference, with a body. -/
def loneMethod (instructions : List Instr) : MethodDef where
  method := 0
  flags := ⟨8⟩
  annotations := []
  parameterAnnotations := []
  code := some { registers := 1, instructions, tries := [], debugItems := [] }

/-- A container with a class, a field of it and a method that gives a number. -/
def errandContainer : Container :=
  { loneContainer with
    types := #[.object "a/B"]
    fields := #[⟨.object "a/B", "size", .primitive .int⟩]
    methods := #[⟨.object "Lone", "go", [], .void⟩, ⟨.object "a/C", "run", [], .primitive .int⟩] }

/-- Allocates two objects of the class, calls the method twice, and stores the number that it gives
the first time. -/
def errands : List Instr :=
  [.newInstance ⟨0⟩ 0, .newInstance ⟨0⟩ 0, .invoke .static (.list []) 1, .moveResult .narrow ⟨0⟩,
    .invoke .static (.list []) 1, .instanceField .store .plain ⟨0⟩ ⟨0⟩ 0, .returnVoid]

/-- A result that nothing has produced fails. -/
theorem extract_error_iff_orphan :
    let cx : MethodContext :=
      { container := loneContainer
        definition := loneMethod [.nop, .moveResult .narrow ⟨0⟩, .returnVoid]
        sig := .ofRef ⟨.object "Lone", "go", [], .void⟩
        localCount := 1 }
    ∃ error, (cx.extract.run .empty).value = .error error :=
  (extract_error_iff _ rfl SignatureCache.knows_empty).1.2
    ⟨2, [.nop], .moveResult .narrow ⟨0⟩, [.returnVoid], rfl, rfl,
      .orphan _ _ (by simp [Instr.producesResult])⟩

theorem MethodDef.exists_extract_ok {container : Container} {definition : MethodDef}
    {code : CodeItem} {ref : MethodRef} {cache : SignatureCache}
    (ref_eq : container.methodAt definition.method = .ok ref)
    (code_eq : definition.code = some code)
    (knows : cache.Knows container) (sound : ∀ index, ¬ code.BadAt container index) :
    ∃ extracted, ((definition.extract container).run cache).value = .ok extracted := by
  obtain ⟨cx, events, settles, -, rfl, rfl⟩ := MethodContext.succeeds_create ref_eq
  obtain ⟨created_eq, knows_later, -⟩ := settles.perform knows
  obtain ⟨extracted, value_eq⟩ := MethodContext.exists_extract_ok code_eq knows_later sound
  refine ⟨extracted, ?_⟩
  unfold MethodDef.extract
  exact (congrArg Emitted.value (Extract.perform_bind_of_ok cache created_eq)).trans value_eq

/-- A method is extracted when no instruction is bad behind the one before it. -/
theorem MethodDef.exists_extract_sound {container : Container} {definition : MethodDef}
    {code : CodeItem} {ref : MethodRef}
    (ref_eq : container.methodAt definition.method = .ok ref)
    (code_eq : definition.code = some code)
    (sound : ∀ entry ∈ withPrevious none code.instructions, ¬ entry.2.Bad container entry.1) :
    ∃ extracted, ((definition.extract container).run .empty).value = .ok extracted := by
  refine exists_extract_ok ref_eq code_eq SignatureCache.knows_empty ?_
  rintro _ ⟨front, instr, back, instrs_eq, -, bad⟩
  have member := getLast?_mem_withPrevious none front back instr
  rw [← instrs_eq, Option.or_none] at member
  exact sound _ member bad

theorem exists_extract_errands : ∃ extracted,
    (((loneMethod errands).extract errandContainer).run .empty).value = .ok extracted ∧
      extracted.accesses.map (fun access => (access.insn, access.index)) =
        [("<Lone: void go()>/write-field-size/0", 6)] := by
  have accesses_eq : (((loneMethod errands).extract errandContainer).run .empty).value.toOption.map
      (fun extracted => extracted.accesses.map fun access => (access.insn, access.index)) =
        some [("<Lone: void go()>/write-field-size/0", 6)] := by
    cbv
  obtain ⟨extracted, value_eq⟩ : ∃ extracted,
      (((loneMethod errands).extract errandContainer).run .empty).value = .ok extracted :=
    MethodDef.exists_extract_sound rfl rfl (by decide)
  rw [value_eq] at accesses_eq
  exact ⟨extracted, value_eq, Option.some.inj accesses_eq⟩

end DalvikFacts
