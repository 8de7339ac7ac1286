import DalvikFacts.Proofs.Method.Displacement
import DalvikFacts.Proofs.Method.Statements

/-!
# Instructions of moved bodies

An instruction of a body and the same instruction of the moved body are planned alike, and do the
same: done in states that agree up to the distance, they give out the same rows, and leave states
that agree again.  Only notices tell addresses, so they are left aside.
-/

namespace DalvikFacts

/-! ## Outputs without notices -/

/-- Whether an output is a notice. -/
def Output.isNotice : Output → Bool
  | notice _ => true
  | _ => false

/-- Outputs without their notices. -/
def withoutNotices (outputs : List Output) : List Output :=
  outputs.filter fun output => !output.isNotice

theorem withoutNotices_append (outputs others : List Output) :
    withoutNotices (outputs ++ others) = withoutNotices outputs ++ withoutNotices others :=
  List.filter_append ..

theorem declaredAfter_withoutNotices (declared : Std.HashSet String) (outputs : List Output) :
    declaredAfter declared (withoutNotices outputs) = declaredAfter declared outputs := by
  induction outputs generalizing declared with
  | nil => rfl
  | cons output rest induction =>
    cases output with
    | mention var =>
      change declaredAfter declared (.mention var :: withoutNotices rest) = _
      rw [declaredAfter, declaredAfter, induction, induction]
    | fact | notice => exact induction declared

theorem MethodContext.factsOf_render_withoutNotices (cx : MethodContext)
    (declared : Std.HashSet String) (outputs : List Output) :
    factsOf (cx.render declared (withoutNotices outputs)) =
      factsOf (cx.render declared outputs) := by
  induction outputs generalizing declared with
  | nil => rfl
  | cons output rest induction =>
    cases output with
    | mention var =>
      change factsOf (cx.render declared (.mention var :: withoutNotices rest)) = _
      rw [render, render]
      split
      · exact induction declared
      · rw [factsOf_cons_fact, factsOf_cons_fact, induction]
    | fact found => exact congrArg (found :: ·) (induction declared)
    | notice => exact induction declared

/-! ## Actions -/

/-- Two actions do the same in states that agree up to a distance: they give out the same rows, and
the states behind them agree. -/
def Mirrors (distance : Address) (action moved : MethodEmit Unit) : Prop :=
  ∀ state other : MethodState, state.Shifts distance other →
    factsOf (moved.run other).events = factsOf (action.run state).events ∧
      (action.run state).state.Shifts distance (moved.run other).state

namespace MethodContext

/-- The context of a method with another body. -/
def withCode (cx : MethodContext) (code : CodeItem) : MethodContext :=
  { cx with definition := { cx.definition with code := some code } }

/-- What is given out does not depend on the body. -/
theorem render_withCode (cx : MethodContext) (code : CodeItem) (declared : Std.HashSet String)
    (outputs : List Output) :
    (cx.withCode code).render declared outputs = cx.render declared outputs := by
  induction outputs generalizing declared with
  | nil => rfl
  | cons output rest induction =>
    cases output with
    | mention var =>
      rw [render, render, induction, induction]
      rfl
    | fact | notice => exact congrArg _ (induction declared)

end MethodContext

namespace Mirrors

variable {cx : MethodContext} {code : CodeItem} {distance : Address}
  {action moved : MethodEmit Unit}

theorem pure : Mirrors distance (Pure.pure ()) (Pure.pure ()) :=
  fun _ _ shifts => ⟨rfl, shifts⟩

/-- Actions mirror each other when their outputs are the same up to notices. -/
theorem of_told {outputs others : MethodState → List Output}
    {next after : MethodState → MethodState}
    (told : ∀ state, cx.Says action state () (outputs state) (next state))
    (moved_told : ∀ state, (cx.withCode code).Says moved state () (others state) (after state))
    (alike : ∀ state other, state.Shifts distance other →
      withoutNotices (others other) = withoutNotices (outputs state) ∧
        (next state).Shifts distance (after other)) :
    Mirrors distance action moved := by
  intro state other shifts
  obtain ⟨outputs_eq, next_shifts⟩ := alike state other shifts
  rw [(told state).run, (moved_told other).run, shifts.declared_eq, cx.render_withCode]
  constructor
  · rw [← cx.factsOf_render_withoutNotices _ (others other), outputs_eq,
      cx.factsOf_render_withoutNotices]
  · rw [← declaredAfter_withoutNotices _ (others other), outputs_eq, declaredAfter_withoutNotices]
    exact next_shifts.withDeclared _

theorem unchanged {outputs others : List Output}
    (told : ∀ state, cx.Says action state () outputs state)
    (moved_told : ∀ state, (cx.withCode code).Says moved state () others state)
    (same : others = outputs) : Mirrors distance action moved :=
  of_told told moved_told fun _ _ shifts => ⟨congrArg withoutNotices same, shifts⟩

end Mirrors

/-! ## Plans -/

/-- Outcomes that are related values, or the same error. -/
inductive Agree {ε α β : Type} (related : α → β → Prop) : Except ε α → Except ε β → Prop
  | ok {first : α} {second : β} (alike : related first second) :
    Agree related (.ok first) (.ok second)
  | error (error : ε) : Agree related (.error error) (.error error)

/-- Two look-ups agree in their outcome, and leave the same signatures in the cache. -/
def Lookup.Matches {α β : Type} (related : α → β → Prop) (first : Lookup α) (second : Lookup β) :
    Prop :=
  ∀ cache, Agree related (first.run.run.run cache).1 (second.run.run.run cache).1 ∧
    (second.run.run.run cache).2 = (first.run.run.run cache).2

namespace Lookup.Matches

variable {α β γ : Type} {related : α → β → Prop}

theorem pure {first : α} {second : β} (alike : related first second) :
    Lookup.Matches related (Pure.pure first) (Pure.pure second) :=
  fun _ => ⟨.ok alike, rfl⟩

theorem throw (error : ExtractionError) :
    Lookup.Matches related (MonadExcept.throw error) (MonadExcept.throw error) :=
  fun _ => ⟨.error error, rfl⟩

/-- The same is looked up first. -/
theorem bind (lookup : Lookup γ) {next : γ → Lookup α} {other : γ → Lookup β}
    (rest : ∀ value, Lookup.Matches related (next value) (other value)) :
    Lookup.Matches related (lookup >>= next) (lookup >>= other) := by
  intro cache
  rw [Lookup.run_bind, Lookup.run_bind]
  generalize lookup.run.run.run cache = outcome
  rcases outcome with ⟨error | value, later⟩
  · exact ⟨.error error, rfl⟩
  · exact rest value later

theorem perform {first : Lookup α} {second : Lookup β}
    (alike : Lookup.Matches related first second) (cache : SignatureCache) :
    Agree related ((Extract.lookup first).run.perform cache).value
        ((Extract.lookup second).run.perform cache).value ∧
      ((Extract.lookup second).run.perform cache).state =
        ((Extract.lookup first).run.perform cache).state := by
  rw [Extract.perform_lookup, Extract.perform_lookup]
  exact alike cache

end Lookup.Matches

namespace MethodState.Shifts

variable {state other : MethodState} {distance : Address} {here : LocatedInstr}

section

variable (shifts : state.Shifts distance other)

include shifts

theorem nextHeap_eq (cx : MethodContext) (type : String) :
    cx.nextHeap other type = cx.nextHeap state type := by
  rw [MethodContext.nextHeap, MethodContext.nextHeap, shifts.counters_eq]

theorem nextInsn_eq (cx : MethodContext) (kind : String) :
    cx.nextInsn other kind = cx.nextInsn state kind := by
  rw [MethodContext.nextInsn, MethodContext.nextInsn, shifts.counters_eq]

theorem invoked (cx : MethodContext) (kind : String) :
    (cx.invoked here state kind).Shifts distance (cx.invoked here other kind) := by
  rw [MethodContext.invoked, MethodContext.invoked, shifts.nextInsn_eq]
  exact (shifts.count kind).withCarry _

theorem accessed (cx : MethodContext) (access : Access) (value : Reg) (object : Option Reg)
    (field : FieldSig) :
    (cx.accessed here state access value object field).Shifts distance
      (cx.accessed here other access value object field) := by
  rw [MethodContext.accessed, MethodContext.accessed, shifts.nextInsn_eq, shifts.accesses_eq]
  exact { shifts.count _ with accesses_eq := rfl }

theorem arrayMade (cx : MethodContext) (type : String) :
    (cx.arrayMade here state type).Shifts distance (cx.arrayMade here other type) := by
  rw [MethodContext.arrayMade, MethodContext.arrayMade, shifts.nextHeap_eq]
  exact ((shifts.withCarry _).count type).withCarry _

theorem resultTaken (producer : Producer) :
    (MethodContext.resultTaken state producer).Shifts distance
      (MethodContext.resultTaken other producer) := by
  unfold MethodContext.resultTaken
  cases producer with
  | invocation => exact shifts.withCarry _
  | filledArray type => exact (shifts.withCarry _).count type

theorem caught (dst : Reg) :
    (MethodContext.caught here state dst).Shifts distance
      (MethodContext.caught (here.relocate distance) other dst) where
  __ := shifts
  catches_eq := by
    rw [MethodContext.caught, MethodContext.caught, Array.toList_push, Array.toList_push,
      shifts.catches_eq, List.map_append]
    rfl

/-- Branches lead as far as before. -/
theorem queued (clear : here.address.Clear distance) (relation : Relation) (insn : String) :
    (MethodContext.queued here state relation insn).Shifts distance
      (MethodContext.queued (here.relocate distance) other relation insn) where
  __ := shifts
  addresses := by
    refine shifts.addresses.queue ⟨rfl, rfl, rfl, rfl, ?_⟩
    change Address.Moves distance (here.instr.targetOffset?.bind (Address.offset? here.address))
      (here.instr.targetOffset?.bind (Address.offset? (here.address + distance)))
    cases here.instr.targetOffset? with
    | none => exact .missing
    | some offset => exact Address.moves_offset? clear offset

theorem awaitingCases (clear : here.address.Clear distance) (offset : Int) :
    (MethodContext.awaitingCases here state offset).Shifts distance
      (MethodContext.awaitingCases (here.relocate distance) other offset) := by
  have address_eq : (here.relocate distance).address = here.address + distance := rfl
  have moves := Address.moves_offset? clear offset
  rw [MethodContext.awaitingCases, MethodContext.awaitingCases, address_eq]
  generalize Address.offset? here.address offset = target,
    Address.offset? (here.address + distance) offset = reached at moves ⊢
  cases moves with
  | along target =>
    refine { shifts with switches := shifts.switches.register target _, uses_clear := ?_ }
    intro address use member
    rcases Pending.mem_waitingAt_register member with earlier | rfl
    · exact shifts.uses_clear address use earlier
    · exact clear
  | missing => exact shifts
  | before ahead => exact { shifts with switches := shifts.switches.register_before ahead _ }

theorem awaitingFill (clear : here.address.Clear distance) (array : Reg) (offset : Int) :
    (MethodContext.awaitingFill here state array offset).Shifts distance
      (MethodContext.awaitingFill (here.relocate distance) other array offset) := by
  have address_eq : (here.relocate distance).address = here.address + distance := rfl
  have dropped := shifts.withCarry (·.dropNewArray)
  rw [MethodContext.awaitingFill, MethodContext.awaitingFill, address_eq, shifts.carry_eq]
  cases state.carry.newArray with
  | none => exact shifts
  | some newArray =>
    have moves := Address.moves_offset? clear offset
    dsimp only
    generalize Address.offset? here.address offset = target,
      Address.offset? (here.address + distance) offset = reached at moves ⊢
    cases moves with
    | along target => exact { dropped with fills := shifts.fills.register target _ }
    | missing => exact dropped
    | before ahead => exact { dropped with fills := shifts.fills.register_before ahead _ }

theorem releasedFills :
    (MethodContext.releasedFills here state).Shifts distance
      (MethodContext.releasedFills (here.relocate distance) other) :=
  { shifts with fills := shifts.fills.release here.address }

/-- The cases of a payload lead as far as before from each switch that waited for it. -/
theorem releasedCases (clear : here.address.Clear distance) (cx : MethodContext)
    (kind : SwitchKind) (cases : List (Int × Int)) :
    (cx.releasedCases here state kind cases).Shifts distance
      (cx.releasedCases (here.relocate distance) other kind cases) where
  __ := shifts
  switches := shifts.switches.release here.address
  uses_clear address use member :=
    shifts.uses_clear address use (Pending.mem_waitingAt_release member)
  addresses := by
    have waiting_eq : other.switches.waitingAt (here.relocate distance).address =
        (state.switches.waitingAt here.address).map (·.relocate distance) :=
      shifts.switches here.address clear
    have alike : ∀ uses : List SwitchUse, (∀ use ∈ uses, use.address.Clear distance) →
        List.Forall₂ (Edge.Shifts distance) (uses.flatMap (cx.caseEdges kind cases))
          ((uses.map (·.relocate distance)).flatMap (cx.caseEdges kind cases)) := by
      intro uses uses_clear
      induction uses with
      | nil => exact .nil
      | cons use rest induction =>
        refine List.rel_append ?_ (induction fun later member =>
          uses_clear later (List.mem_cons_of_mem _ member))
        rw [MethodContext.caseEdges, MethodContext.caseEdges, List.forall₂_map_left_iff,
          List.forall₂_map_right_iff]
        exact List.forall₂_same.2 fun entry _ => ⟨rfl, rfl, rfl, rfl,
          Address.moves_offset? (uses_clear use List.mem_cons_self) entry.2⟩
    refine shifts.addresses.queueAll ?_
    rw [waiting_eq]
    exact alike _ (shifts.uses_clear here.address)

end

end MethodState.Shifts

namespace MethodContext

variable (cx : MethodContext) (code : CodeItem) {distance : Address} {here : LocatedInstr}

/-! ## Actions that look at addresses -/

section Addresses

theorem mirrors_writeCatch (cx : MethodContext) (code : CodeItem) (dst : Reg) :
    Mirrors distance (writeCatch here dst) (writeCatch (here.relocate distance) dst) :=
  .of_told (cx.says_writeCatch here · dst) ((cx.withCode code).says_writeCatch _ · dst)
    fun _ _ shifts => ⟨rfl, shifts.caught dst⟩

theorem mirrors_writeGoto (clear : here.address.Clear distance) :
    Mirrors distance (cx.writeGoto here)
      ((cx.withCode code).writeGoto (here.relocate distance)) :=
  .of_told (cx.says_writeGoto here) ((cx.withCode code).says_writeGoto _)
    fun _ _ shifts => ⟨rfl, shifts.queued clear _ _⟩

theorem mirrors_writeBranch (clear : here.address.Clear distance) (test : TestOp) (left : Reg)
    (right : Option Reg) :
    Mirrors distance (cx.writeBranch here test left right)
      ((cx.withCode code).writeBranch (here.relocate distance) test left right) :=
  .of_told (cx.says_writeBranch here · test left right)
    ((cx.withCode code).says_writeBranch _ · test left right)
    fun _ _ shifts => ⟨rfl, shifts.queued clear _ _⟩

theorem mirrors_writeSwitch (clear : here.address.Clear distance) (kind : SwitchKind) (key : Reg)
    (offset : Int) :
    Mirrors distance (cx.writeSwitch here kind key offset)
      ((cx.withCode code).writeSwitch (here.relocate distance) kind key offset) := by
  have silent : ∀ (cx : MethodContext) place,
      withoutNotices (cx.switchNotices place offset) = [] := by
    intro cx place
    rw [switchNotices]
    split <;> rfl
  refine .of_told (cx.says_writeSwitch here · kind key offset)
    ((cx.withCode code).says_writeSwitch _ · kind key offset)
    fun _ _ shifts => ⟨?_, shifts.awaitingCases clear offset⟩
  rw [switchOutputs, switchOutputs, withoutNotices_append, withoutNotices_append, silent, silent]
  rfl

theorem mirrors_writeSwitchPayload (clear : here.address.Clear distance) (kind : SwitchKind)
    (cases : List (Int × Int)) :
    Mirrors distance (cx.writeSwitchPayload here kind cases)
      ((cx.withCode code).writeSwitchPayload (here.relocate distance) kind cases) := by
  have silent : ∀ (cx : MethodContext) place state,
      withoutNotices (cx.casesNotices place state) = [] := by
    intro cx place state
    rw [casesNotices]
    split <;> rfl
  refine .of_told (cx.says_writeSwitchPayload here · kind cases)
    ((cx.withCode code).says_writeSwitchPayload _ · kind cases)
    fun _ _ shifts => ⟨?_, shifts.releasedCases clear cx kind cases⟩
  rw [silent, silent]

theorem mirrors_writeFillArray (clear : here.address.Clear distance) (array : Reg) (offset : Int) :
    Mirrors distance (cx.writeFillArray here array offset)
      ((cx.withCode code).writeFillArray (here.relocate distance) array offset) := by
  have silent : ∀ (cx : MethodContext) place newArray,
      withoutNotices (cx.fillNotices place offset newArray) = [] := by
    intro cx place newArray
    unfold fillNotices
    cases newArray with
    | none => rfl
    | some newArray =>
      dsimp only
      split <;> split <;> rfl
  refine .of_told (cx.says_writeFillArray here · array offset)
    ((cx.withCode code).says_writeFillArray _ · array offset)
    fun _ _ shifts => ⟨?_, shifts.awaitingFill clear array offset⟩
  rw [silent, silent]

theorem mirrors_writeArrayPayload (clear : here.address.Clear distance) (width : Nat)
    (values : List Int) :
    Mirrors distance (cx.writeArrayPayload here width values)
      ((cx.withCode code).writeArrayPayload (here.relocate distance) width values) := by
  refine .of_told (cx.says_writeArrayPayload here · width values)
    ((cx.withCode code).says_writeArrayPayload _ · width values)
    fun state other shifts => ⟨?_, shifts.releasedFills⟩
  have waiting_eq : other.fills.waitingAt (here.relocate distance).address =
      state.fills.waitingAt here.address :=
    (shifts.fills here.address clear).trans (List.map_id _)
  rw [waiting_eq]
  rw [payloadOutputs, payloadOutputs]
  split <;> rfl

end Addresses

/-! ## Actions that look at lines -/

section Lines

variable {cx code} (same_line : (cx.withCode code).line? (here.relocate distance) = cx.line? here)

include same_line

theorem object_moved (heap var : String) :
    (cx.withCode code).object (here.relocate distance) heap var = cx.object here heap var := by
  rw [object, same_line]
  rfl

theorem constantOutputs_moved (dst : Reg) (heap : String) :
    (cx.withCode code).constantOutputs (here.relocate distance) dst heap =
      cx.constantOutputs here dst heap := by
  rw [constantOutputs, object_moved same_line]
  rfl

theorem allocated_moved (heap type var : String) (isEmpty : Bool) :
    (cx.withCode code).allocated (here.relocate distance) heap type var isEmpty =
      cx.allocated here heap type var isEmpty := by
  rw [allocated, allocated, object_moved same_line]

theorem callOutputs_moved (insn : String) (call : Call) :
    (cx.withCode code).callOutputs (here.relocate distance) insn call =
      cx.callOutputs here insn call := by
  rw [callOutputs, lineRows, same_line]
  rfl

theorem mirrors_writeString (dst : Reg) (text : String) :
    Mirrors distance (cx.writeString here dst text)
      ((cx.withCode code).writeString (here.relocate distance) dst text) :=
  .unchanged (cx.says_writeString here · dst text)
    ((cx.withCode code).says_writeString _ · dst text)
    (congrArg (_ ++ ·) (constantOutputs_moved same_line dst _))

theorem mirrors_writeClass (dst : Reg) (cls : String) :
    Mirrors distance (cx.writeClass here dst cls)
      ((cx.withCode code).writeClass (here.relocate distance) dst cls) :=
  .unchanged (cx.says_writeClass here · dst cls) ((cx.withCode code).says_writeClass _ · dst cls)
    (congrArg (_ :: ·) (constantOutputs_moved same_line dst _))

theorem mirrors_writeMethodHandle (dst : Reg) (sig : MethodSig) :
    Mirrors distance (cx.writeMethodHandle here dst sig)
      ((cx.withCode code).writeMethodHandle (here.relocate distance) dst sig) :=
  .unchanged (cx.says_writeMethodHandle here · dst sig)
    ((cx.withCode code).says_writeMethodHandle _ · dst sig)
    (congrArg (_ :: ·) (constantOutputs_moved same_line dst _))

theorem mirrors_writeFieldHandle (dst : Reg) (sig : FieldSig) :
    Mirrors distance (cx.writeFieldHandle here dst sig)
      ((cx.withCode code).writeFieldHandle (here.relocate distance) dst sig) :=
  .unchanged (cx.says_writeFieldHandle here · dst sig)
    ((cx.withCode code).says_writeFieldHandle _ · dst sig)
    (congrArg (_ :: ·) (constantOutputs_moved same_line dst _))

theorem mirrors_writeMethodType (dst : Reg) (proto : Proto) :
    Mirrors distance (cx.writeMethodType here dst proto)
      ((cx.withCode code).writeMethodType (here.relocate distance) dst proto) :=
  .unchanged (cx.says_writeMethodType here · dst proto)
    ((cx.withCode code).says_writeMethodType _ · dst proto)
    (congrArg (_ ++ ·) (constantOutputs_moved same_line dst _))

theorem mirrors_writeNewInstance (dst : Reg) (type : String) :
    Mirrors distance (cx.writeNewInstance here dst type)
      ((cx.withCode code).writeNewInstance (here.relocate distance) dst type) := by
  refine .of_told (cx.says_writeNewInstance here · dst type)
    ((cx.withCode code).says_writeNewInstance _ · dst type)
    fun _ _ shifts => ⟨?_, shifts.count type⟩
  rw [newInstanceOutputs, allocated_moved same_line, shifts.nextHeap_eq]
  rfl

theorem mirrors_writeNewArray (dst size : Reg) (type : Descriptor) :
    Mirrors distance (cx.writeNewArray here dst size type)
      ((cx.withCode code).writeNewArray (here.relocate distance) dst size type) := by
  refine .of_told (cx.says_writeNewArray here · dst size type)
    ((cx.withCode code).says_writeNewArray _ · dst size type)
    fun _ _ shifts => ⟨?_, shifts.arrayMade cx type.sourceName⟩
  rw [newArrayOutputs, allocated_moved same_line, shifts.nextHeap_eq, shifts.carry_eq]
  rfl

theorem mirrors_writeResult (dst : Reg) (producer : Producer) :
    Mirrors distance (cx.writeResult here dst producer)
      ((cx.withCode code).writeResult (here.relocate distance) dst producer) := by
  refine .of_told (cx.says_writeResult here · dst producer)
    ((cx.withCode code).says_writeResult _ · dst producer)
    fun _ _ shifts => ⟨?_, shifts.resultTaken producer⟩
  unfold resultOutputs
  cases producer with
  | invocation => rfl
  | filledArray type elements =>
    dsimp only
    rw [allocated_moved same_line, shifts.nextHeap_eq]
    rfl

theorem mirrors_writeCall (call : Call) :
    Mirrors distance (do let _ ← cx.writeCall here call)
      (do let _ ← (cx.withCode code).writeCall (here.relocate distance) call) := by
  refine .of_told (fun state => (cx.says_writeCall here state call).bind_silent (.pure () _))
    (fun state => ((cx.withCode code).says_writeCall _ state call).bind_silent (.pure () _))
    fun _ _ shifts => ⟨?_, shifts.invoked cx _⟩
  rw [callOutputs_moved same_line, shifts.nextInsn_eq]
  rfl

theorem mirrors_writePolymorphicCall (call : Call) :
    Mirrors distance (cx.writePolymorphicCall here call)
      ((cx.withCode code).writePolymorphicCall (here.relocate distance) call) := by
  refine .of_told (cx.says_writePolymorphicCall here · call)
    ((cx.withCode code).says_writePolymorphicCall _ · call)
    fun _ _ shifts => ⟨?_, shifts.invoked cx _⟩
  rw [polymorphicCallOutputs, callOutputs_moved same_line, shifts.nextInsn_eq]
  rfl

end Lines

/-! ## Actions that change the state otherwise -/

section Numbers

theorem mirrors_writeThrow (exception : Reg) :
    Mirrors distance (cx.writeThrow here exception)
      ((cx.withCode code).writeThrow (here.relocate distance) exception) := by
  refine .of_told (cx.says_writeThrow here · exception)
    ((cx.withCode code).says_writeThrow _ · exception) fun _ _ shifts => ⟨?_, shifts.count _⟩
  rw [shifts.nextInsn_eq]
  rfl

theorem mirrors_writeNarrowNumber (dst : Reg) (value : Int) :
    Mirrors distance (cx.writeNarrowNumber here dst value)
      ((cx.withCode code).writeNarrowNumber (here.relocate distance) dst value) :=
  .of_told (cx.says_writeNarrowNumber here · dst value)
    ((cx.withCode code).says_writeNarrowNumber _ · dst value)
    fun _ _ shifts => ⟨rfl, shifts.withCarry _⟩

theorem mirrors_writeFilledArray (cx : MethodContext) (code : CodeItem) (elements : List Reg)
    (type : Descriptor) :
    Mirrors distance (writeFilledArray here elements type)
      (writeFilledArray (here.relocate distance) elements type) :=
  .of_told (cx.says_writeFilledArray here · elements type)
    ((cx.withCode code).says_writeFilledArray _ · elements type)
    fun _ _ shifts => ⟨rfl, shifts.withCarry _⟩

theorem mirrors_writeFieldAccess (access : Access) (value : Reg) (object : Option Reg)
    (field : FieldSig) :
    Mirrors distance (cx.writeFieldAccess here access value object field)
      ((cx.withCode code).writeFieldAccess (here.relocate distance) access value object field) :=
  .of_told (cx.says_writeFieldAccess here · access value object field)
    ((cx.withCode code).says_writeFieldAccess _ · access value object field)
    fun _ _ shifts => ⟨rfl, shifts.accessed cx access value object field⟩

theorem mirrors_writeCustomCall (call : CustomCall) :
    Mirrors distance (cx.writeCustomCall here call)
      ((cx.withCode code).writeCustomCall (here.relocate distance) call) := by
  refine .of_told (cx.says_writeCustomCall here · call)
    ((cx.withCode code).says_writeCustomCall _ · call)
    fun _ _ shifts => ⟨?_, shifts.invoked cx _⟩
  rw [shifts.nextInsn_eq]
  rfl

end Numbers

/-! ## Plans -/

section Plans

variable {cx code} (same_line : (cx.withCode code).line? (here.relocate distance) = cx.line? here)

include same_line

theorem matches_planResult (dst : Reg) (result : Option PendingResult) :
    Lookup.Matches (Mirrors distance) (cx.planResult here dst result)
      ((cx.withCode code).planResult (here.relocate distance) dst result) := by
  have index_eq : (here.relocate distance).index = here.index := rfl
  cases result with
  | none => exact .throw _
  | some pending =>
    unfold planResult
    dsimp only
    rw [index_eq]
    split
    · exact .pure (mirrors_writeResult same_line dst pending.producer)
    · exact .throw _

theorem matches_planMethodHandle (dst : Reg) (handle : Nat) :
    Lookup.Matches (Mirrors distance) (cx.planMethodHandle here dst handle)
      ((cx.withCode code).planMethodHandle (here.relocate distance) dst handle) := by
  refine .bind (Lookup.entry (cx.container.methodHandleAt handle)) fun found => ?_
  cases found.target with
  | method index =>
    exact .bind (cx.methodSig index) fun sig => .pure (mirrors_writeMethodHandle same_line dst sig)
  | field index =>
    exact .bind (cx.fieldSig index) fun sig => .pure (mirrors_writeFieldHandle same_line dst sig)

/-- An instruction is planned to do the same after the move. -/
theorem matches_plan (clear : here.address.Clear distance) (result : Option PendingResult) :
    Lookup.Matches (Mirrors distance) (cx.plan here result)
      ((cx.withCode code).plan (here.relocate distance) result) := by
  let moved := cx.withCode code
  have instr_eq : (here.relocate distance).instr = here.instr := rfl
  rw [plan, plan, instr_eq, same_line]
  generalize here.instr = instr
  cases instr with
  | nop => exact .pure .pure
  | move kind form dst src =>
    exact .pure <| .unchanged (cx.says_writeMove here · dst src)
      (moved.says_writeMove _ · dst src) rfl
  | moveResult kind dst => exact matches_planResult same_line dst result
  | moveException dst => exact .pure (mirrors_writeCatch cx code dst)
  | returnVoid =>
    exact .pure <| .unchanged (cx.says_writeReturnVoid here) (moved.says_writeReturnVoid _) rfl
  | returnValue kind src =>
    exact .pure <| .unchanged (cx.says_writeReturn here · src) (moved.says_writeReturn _ · src) rfl
  | const form dst literal =>
    exact .pure (mirrors_writeNarrowNumber cx code dst (form.value literal))
  | constWide form dst literal =>
    exact .pure <| .unchanged (cx.says_writeNumber here · dst (form.value literal))
      (moved.says_writeNumber _ · dst (form.value literal)) rfl
  | constString jumbo dst string =>
    exact .bind (Lookup.entry (cx.container.stringAt string)) fun text =>
      .pure (mirrors_writeString same_line dst text)
  | constClass dst type =>
    exact .bind (cx.typeAt type) fun found => .pure (mirrors_writeClass same_line dst _)
  | monitor action object =>
    exact .pure <| .unchanged (cx.says_writeMonitor here · action object)
      (moved.says_writeMonitor _ · action object) rfl
  | checkCast object type =>
    exact .bind (cx.typeAt type) fun found =>
      .pure <| .unchanged (cx.says_writeCast here · object found.sourceName)
        (moved.says_writeCast _ · object found.sourceName) rfl
  | instanceOf dst object type =>
    exact .bind (cx.typeAt type) fun found =>
      .pure <| .unchanged (cx.says_writeInstanceOf here · dst object found.sourceName)
        (moved.says_writeInstanceOf _ · dst object found.sourceName) rfl
  | newInstance dst type =>
    exact .bind (cx.typeAt type) fun found => .pure (mirrors_writeNewInstance same_line dst _)
  | newArray dst size type =>
    exact .bind (cx.typeAt type) fun found => .pure (mirrors_writeNewArray same_line dst size found)
  | filledNewArray elements type =>
    exact .bind (cx.typeAt type) fun found =>
      .pure (mirrors_writeFilledArray cx code elements.registers found)
  | fillArrayData array offset => exact .pure (cx.mirrors_writeFillArray code clear array offset)
  | throw exception => exact .pure (cx.mirrors_writeThrow code exception)
  | goto form offset => exact .pure (cx.mirrors_writeGoto code clear)
  | switch kind key offset => exact .pure (cx.mirrors_writeSwitch code clear kind key offset)
  | compare op dst left right | binop op dst left right =>
    exact .pure <| .unchanged (cx.says_writeBinop here · dst left right)
      (moved.says_writeBinop _ · dst left right) rfl
  | branch test left right offset =>
    exact .pure (cx.mirrors_writeBranch code clear test left (some right))
  | branchZero test left offset => exact .pure (cx.mirrors_writeBranch code clear test left none)
  | arrayAccess access kind value array position =>
    exact .pure <| .unchanged (cx.says_writeArrayAccess here · access value array position)
      (moved.says_writeArrayAccess _ · access value array position) rfl
  | instanceField access kind value object field =>
    exact .bind (cx.fieldSig field) fun sig =>
      .pure (cx.mirrors_writeFieldAccess code access value (some object) sig)
  | staticField access kind value field =>
    exact .bind (cx.fieldSig field) fun sig =>
      .pure (cx.mirrors_writeFieldAccess code access value none sig)
  | invoke kind args method =>
    exact .bind (cx.planCall (.ofInvoke kind) args method) fun call =>
      .pure (mirrors_writeCall same_line call)
  | unop op dst src | arrayLength dst src =>
    exact .pure <| .unchanged (cx.says_writeUnop here · dst src)
      (moved.says_writeUnop _ · dst src) rfl
  | binopInPlace op dst right =>
    exact .pure <| .unchanged (cx.says_writeBinop here · dst dst right)
      (moved.says_writeBinop _ · dst dst right) rfl
  | binopLiteral op dst left literal | binopSmallLiteral op dst left literal =>
    exact .pure <| .unchanged (cx.says_writeBinopLiteral here · dst left)
      (moved.says_writeBinopLiteral _ · dst left) rfl
  | invokePolymorphic args method proto =>
    exact .bind (cx.planPolymorphicCall args method proto) fun call =>
      .pure (mirrors_writePolymorphicCall same_line call)
  | invokeCustom args callSite =>
    exact .bind (cx.planCustomCall args callSite) fun call =>
      .pure (cx.mirrors_writeCustomCall code call)
  | constMethodHandle dst handle => exact matches_planMethodHandle same_line dst handle
  | constMethodType dst proto =>
    exact .bind (Lookup.entry (cx.container.protoAt proto)) fun found =>
      .pure (mirrors_writeMethodType same_line dst found)
  | packedSwitchPayload firstKey targets =>
    exact .pure (cx.mirrors_writeSwitchPayload code clear .packed _)
  | sparseSwitchPayload keys targets =>
    exact .pure (cx.mirrors_writeSwitchPayload code clear .sparse _)
  | arrayPayload width values => exact .pure (cx.mirrors_writeArrayPayload code clear width values)
  | optimized opcode units =>
    have told : ∀ (cx : MethodContext) state,
        cx.Says (cx.notice (.optimizedOpcode opcode here.index)) state () _ state :=
      fun cx state => .notice _
    exact .pure <| .unchanged (told cx) (told moved) rfl
  | unknown opcode units => exact .throw _

end Plans

end MethodContext
end DalvikFacts
