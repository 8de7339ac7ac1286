import DalvikFacts.Proofs.Method.Arguments
import DalvikFacts.Proofs.Method.ResultRows

/-!
# Calling convention

Arguments are handed over by slots.  An invocation has the receiver in its first register, and each
argument in the register at the slot where its parameter begins.  The parameter variables of a
method are numbered by the same slots, whatever table the parameters of the invocation come from.
-/

namespace DalvikFacts

/-! ## Rows of invocations -/

theorem zipIdx_eq_filterMap {α : Type} (items : List α) (first : Nat) :
    items.zipIdx first = (List.range items.length).filterMap fun position =>
      items[position]?.map fun item => (item, first + position) := by
  induction items generalizing first with
  | nil => rfl
  | cons item rest induction =>
    rw [List.zipIdx_cons, induction, List.length_cons, List.range_succ_eq_map,
      List.filterMap_cons_some (by rfl), List.filterMap_map]
    refine congrArg ((item, first) :: ·) (List.filterMap_congr fun position _ => ?_)
    rw [Function.comp_apply, List.getElem?_cons_succ, Nat.add_assoc, Nat.add_comm 1]

theorem filter_eq_of_subset {facts others : List Fact} {wide narrow : List Relation}
    (same : facts.filter (·.relation ∈ wide) = others.filter (·.relation ∈ wide))
    (subset : narrow ⊆ wide) :
    facts.filter (·.relation ∈ narrow) = others.filter (·.relation ∈ narrow) := by
  have twice : ∀ facts : List Fact, facts.filter (·.relation ∈ narrow) =
      (facts.filter (·.relation ∈ wide)).filter (·.relation ∈ narrow) := by
    intro facts
    rw [List.filter_filter]
    refine List.filter_congr fun fact _ => ?_
    rw [← Bool.decide_and]
    exact decide_eq_decide.2 ⟨fun member => ⟨member, subset member⟩, And.left⟩
  rw [twice, same, ← twice]

/-- An invocation with the name that it gives to itself, and its registers and parameters. -/
structure NamedCall where
  here : LocatedInstr
  insn : String
  shape : ArgumentShape

namespace MethodContext

variable (cx : MethodContext)

/-- The rows of the registers that an invocation hands over: the receiver at position 0, and behind
it for each parameter the register at its slot. -/
def handedRows (insn : String) (shape : ArgumentShape) : List (List String) :=
  (if shape.hasReceiver then shape.registers.take 1 else []).map
      (fun reg => ["0", insn, cx.variableOf reg]) ++
    (List.range shape.params.length).filterMap fun position =>
      shape.registers[argumentSlot shape.hasReceiver shape.params position]?.map fun reg =>
        [toString (receiverSlots shape.hasReceiver + position), insn, cx.variableOf reg]

/-- The relations of invocations and of their arguments. -/
def callingRelations : List Relation :=
  .actualParam :: invocationRelations

/-- The rows about invocations and their arguments among facts are those of the invocations among
instructions. -/
structure CallRows (instrs : List LocatedInstr) (calls : List NamedCall) (facts : List Fact) :
    Prop where
  calls_eq : calls.map NamedCall.here = instrs.filter (·.instr.isInvocation)
  shapes : ∀ call ∈ calls,
    cx.container.argumentShape? call.here.instr = some call.shape ∧ call.shape.Fits
  invocations : invocationsAmong facts =
    calls.map fun call => [call.insn, toString call.here.index]
  handed : rowsIn .actualParam facts = calls.flatMap fun call => cx.handedRows call.insn call.shape

variable {cx} {here : LocatedInstr} {shape : ArgumentShape} {insn : String}

theorem CallRows.append {instrs more : List LocatedInstr} {calls others : List NamedCall}
    {facts later : List Fact} (first : cx.CallRows instrs calls facts)
    (rest : cx.CallRows more others later) :
    cx.CallRows (instrs ++ more) (calls ++ others) (facts ++ later) where
  calls_eq := by rw [List.map_append, List.filter_append, first.calls_eq, rest.calls_eq]
  shapes call member := (List.mem_append.1 member).elim (first.shapes call) (rest.shapes call)
  invocations := by
    simp only [readAmong_append, first.invocations, rest.invocations, List.map_append]
  handed := by rw [rowsIn_append, first.handed, rest.handed, List.flatMap_append]

theorem CallRows.of_filter {instrs : List LocatedInstr} {calls : List NamedCall}
    {facts others : List Fact} (rows : cx.CallRows instrs calls others)
    (same : facts.filter (·.relation ∈ callingRelations) =
      others.filter (·.relation ∈ callingRelations)) :
    cx.CallRows instrs calls facts where
  calls_eq := rows.calls_eq
  shapes := rows.shapes
  invocations := by
    rw [← rows.invocations, invocationsAmong, invocationsAmong, readAmong, readAmong,
      filter_eq_of_subset same (List.subset_cons_self ..)]
  handed := by
    have own_eq : facts.filter (·.relation ∈ [.actualParam]) =
        others.filter (·.relation ∈ [.actualParam]) :=
      filter_eq_of_subset same (by simp [callingRelations])
    simp only [List.mem_singleton] at own_eq
    rw [← rows.handed, rowsIn, rowsIn]
    exact congrArg (List.map Fact.columns) own_eq

theorem CallRows.silent {instrs : List LocatedInstr} {facts : List Fact}
    (uninvoked : ∀ here ∈ instrs, here.instr.isInvocation = false)
    (absent : ∀ fact ∈ facts, fact.relation ∉ callingRelations) : cx.CallRows instrs [] facts := by
  have none_called : cx.CallRows instrs [] [] :=
    ⟨(List.filter_eq_nil_iff.2 (by simpa using uninvoked)).symm, by simp, rfl, rfl⟩
  refine none_called.of_filter ?_
  rw [List.filter_nil, List.filter_eq_nil_iff]
  intro fact member
  simpa using absent fact member

theorem factsAmong_paramRows (first : Nat) (params : List Reg) :
    factsAmong (cx.paramRows insn first params) = (params.zipIdx first).map fun (reg, position) =>
      ⟨.actualParam, [toString position, insn, cx.variableOf reg]⟩ := by
  rw [paramRows, factsAmong_flatMap, List.map_eq_flatMap]
  rfl

theorem factsAmong_receiverRows (receivers : List Reg) :
    factsAmong (receivers.flatMap (cx.receiverRows insn)) = receivers.map fun reg =>
      ⟨.actualParam, ["0", insn, cx.variableOf reg]⟩ := by
  rw [factsAmong_flatMap, List.map_eq_flatMap]
  rfl

/-- The rows of the arguments of an invocation are those of the registers that it hands over. -/
theorem rowsIn_arguments (fits : shape.Fits) :
    rowsIn .actualParam (factsAmong
        (shape.arguments.receiver.toList.flatMap (cx.receiverRows insn))) ++
      rowsIn .actualParam (factsAmong
        (cx.paramRows insn shape.arguments.receiver.toList.length shape.arguments.params)) =
      cx.handedRows insn shape := by
  have receiver_eq : shape.arguments.receiver.toList =
      if shape.hasReceiver then shape.registers.take 1 else [] := by
    unfold ArgumentShape.arguments
    dsimp only
    split
    · cases shape.registers <;> rfl
    · rfl
  have base_eq : shape.arguments.receiver.toList.length = receiverSlots shape.hasReceiver := by
    rw [receiverSlots, ← ArgumentShape.isSome_receiver fits]
    cases shape.arguments.receiver <;> rfl
  rw [factsAmong_receiverRows, factsAmong_paramRows, rowsIn_map, rowsIn_map, if_pos rfl, if_pos rfl,
    base_eq, receiver_eq, handedRows, zipIdx_eq_filterMap, List.map_filterMap,
    ArgumentShape.length_arguments fits]
  refine congrArg (_ ++ ·) (List.filterMap_congr fun position member => ?_)
  rw [ArgumentShape.getElem?_arguments fits (List.mem_range.1 member), Option.map_map]
  rfl

theorem callRows_singleton (shape_eq : cx.container.argumentShape? here.instr = some shape)
    (fits : shape.Fits) {facts : List Fact}
    (invocations : invocationsAmong facts = [[insn, toString here.index]])
    (handed : rowsIn .actualParam facts = cx.handedRows insn shape) :
    cx.CallRows [here] [⟨here, insn, shape⟩] facts where
  calls_eq := by
    have invokes : here.instr.isInvocation := by
      cases instr_eq : here.instr with
      | invoke | invokePolymorphic | invokeCustom => rfl
      | _ => simp [instr_eq, Container.argumentShape?] at shape_eq
    exact (List.filter_eq_self.2 (by simpa using invokes)).symm
  shapes := by
    intro call member
    cases List.mem_singleton.1 member
    exact ⟨shape_eq, fits⟩
  invocations := invocations
  handed := by rw [handed, List.flatMap_singleton]

theorem callRows_callOutputs (shape_eq : cx.container.argumentShape? here.instr = some shape)
    (fits : shape.Fits) {call : Call} (arguments_eq : call.arguments = shape.arguments) :
    cx.CallRows [here] [⟨here, insn, shape⟩] (factsAmong (cx.callOutputs here insn call)) := by
  refine callRows_singleton shape_eq fits (invocationsAmong_callOutputs insn call) ?_
  have lines : rowsIn .actualParam (factsAmong (cx.lineRows here insn)) = [] := by
    rw [lineRows, factsAmong_map_row, rowsIn_map, if_neg (by simp)]
  have other : call.kind.relation ≠ .actualParam := by
    cases call.kind <;> simp [CallKind.relation]
  rw [callOutputs, factsAmong_append, factsAmong_append, factsAmong_append, rowsIn_append,
    rowsIn_append, rowsIn_append, lines, factsAmong_cons_row, rowsIn_cons, if_neg other,
    arguments_eq, ← rowsIn_arguments fits]
  simp

theorem callRows_polymorphicCallOutputs
    (shape_eq : cx.container.argumentShape? here.instr = some shape) (fits : shape.Fits)
    {call : Call} (arguments_eq : call.arguments = shape.arguments) :
    cx.CallRows [here] [⟨here, insn, shape⟩]
      (factsAmong (cx.polymorphicCallOutputs here insn call)) := by
  refine (callRows_callOutputs shape_eq fits arguments_eq).of_filter ?_
  rw [polymorphicCallOutputs, factsAmong_append, List.filter_append]
  simp [callingRelations, invocationRelations]

theorem callRows_customCallOutputs
    (shape_eq : cx.container.argumentShape? here.instr = some shape) (fits : shape.Fits)
    (unreceived : shape.hasReceiver = false) {call : CustomCall}
    (arguments_eq : call.arguments = shape.arguments) :
    cx.CallRows [here] [⟨here, insn, shape⟩]
      (factsAmong (cx.customCallOutputs here insn call)) := by
  refine callRows_singleton shape_eq fits (invocationsAmong_customCallOutputs insn call) ?_
  have types : ∀ texts, rowsIn .actualParam
      (factsAmong (positioned .dynamicMethodInvocationParamType insn texts)) = [] := by
    intro texts
    rw [positioned, factsAmong_map_row, rowsIn_map, if_neg (by simp)]
  have strings : ∀ text, rowsIn .actualParam (factsAmong (stringRows text)) = [] := fun text => rfl
  have none_received : shape.arguments.receiver = none := by
    simp [ArgumentShape.arguments, unreceived]
  have handed : _ = cx.handedRows insn shape := rowsIn_arguments fits
  rw [none_received] at handed
  rw [customCallOutputs, factsAmong_append, rowsIn_append, factsAmong_cons_row, rowsIn_cons,
    factsAmong_append, factsAmong_append, rowsIn_append, rowsIn_append, types, strings, strings,
    arguments_eq, ← handed]
  simp

/-! ## Plans of invocations -/

/-- What an action does, it does as the invocation with its registers and parameters. -/
def HandsOver (cx : MethodContext) (here : LocatedInstr) (shape : ArgumentShape)
    (action : MethodEmit Unit) : Prop :=
  ∀ state, ∃ insn, cx.CallRows [here] [⟨here, insn, shape⟩] (factsOf (action.run state).events)

theorem Says.handsOver {action : MethodEmit Unit} {outputs : MethodState → List Output}
    {next : MethodState → MethodState} {insn : MethodState → String}
    (told : ∀ state, cx.Says action state () (outputs state) (next state))
    (rows : ∀ state, cx.CallRows [here] [⟨here, insn state, shape⟩] (factsAmong (outputs state))) :
    cx.HandsOver here shape action := by
  intro state
  refine ⟨insn state, (rows state).of_filter ?_⟩
  rw [(told state).run]
  exact cx.filter_factsOf_render (· ∈ callingRelations) rfl _ _

theorem sound_of_no_fault {pending : Option Nat} (invokes : here.instr.isInvocation)
    (no_fault : cx.fault? here pending = none) :
    (∀ entry ∈ cx.container.needs here.instr, ¬ cx.container.lacks entry) ∧
      ∀ shape, cx.container.argumentShape? here.instr = some shape → shape.Fits := by
  have general : (((cx.container.needs here.instr).find? cx.container.lacks).map
      ExtractionError.missingEntry).or
        ((cx.container.argumentShape? here.instr).bind (·.shortage? cx.id)) = none := by
    rw [← no_fault, fault?]
    cases instr_eq : here.instr with
    | invoke | invokePolymorphic | invokeCustom => rfl
    | _ => simp [instr_eq, Instr.isInvocation] at invokes
  obtain ⟨found_none, short_none⟩ := Option.or_eq_none_iff.1 general
  refine ⟨?_, fun shape shape_eq => ?_⟩
  · rw [Option.map_eq_none_iff, List.find?_eq_none] at found_none
    exact found_none
  · rw [shape_eq, Option.bind_some] at short_none
    exact (ArgumentShape.shortage?_eq_none_iff cx.id).1 short_none

section Plans

variable {args : Operands} {result : Option PendingResult}

/-- An invocation of a method hands over the registers for the parameters of the method. -/
theorem exists_handsOver_call {kind : InvokeKind} {method : Nat}
    (instr_eq : here.instr = .invoke kind args method)
    (present : ∀ entry ∈ cx.container.needs here.instr, ¬ cx.container.lacks entry)
    (fitting : ∀ shape, cx.container.argumentShape? here.instr = some shape → shape.Fits) :
    ∃ shape action, (cx.plan here result).SettlesTo cx.container (.ok action) ∧
      cx.HandsOver here shape action := by
  have method_present := present ⟨.method, method⟩ (by simp [instr_eq, Container.needs])
  obtain ⟨ref, get_eq, ref_eq⟩ := Container.exists_entry cx.container.methods rfl method_present
  let shape : ArgumentShape := ⟨args.registers, ref.params, (CallKind.ofInvoke kind).hasReceiver⟩
  let call : Call := ⟨.ofInvoke kind, .ofRef ref, shape.arguments⟩
  have shape_eq : cx.container.argumentShape? here.instr = some shape := by
    rw [instr_eq, Container.argumentShape?, get_eq]
    rfl
  have fits := fitting shape shape_eq
  have planned : (cx.planCall (.ofInvoke kind) args method).SettlesTo cx.container (.ok call) :=
    .bind_ok (cx.settlesTo_methodSig ref_eq) (ArgumentShape.settlesTo_split fits (.pure _))
  refine ⟨shape, do let _ ← cx.writeCall here call, ?_, ?_⟩
  · rw [plan, instr_eq]
    exact .bind_ok planned (.pure _)
  · exact Says.handsOver (fun state => (cx.says_writeCall here state call).bind_silent (.pure () _))
      fun state => callRows_callOutputs shape_eq fits rfl

/-- A polymorphic invocation hands over the registers for the parameters of its prototype. -/
theorem exists_handsOver_polymorphicCall {method proto : Nat}
    (instr_eq : here.instr = .invokePolymorphic args method proto)
    (present : ∀ entry ∈ cx.container.needs here.instr, ¬ cx.container.lacks entry)
    (fitting : ∀ shape, cx.container.argumentShape? here.instr = some shape → shape.Fits) :
    ∃ shape action, (cx.plan here result).SettlesTo cx.container (.ok action) ∧
      cx.HandsOver here shape action := by
  have method_present := present ⟨.method, method⟩ (by simp [instr_eq, Container.needs])
  have proto_present := present ⟨.proto, proto⟩ (by simp [instr_eq, Container.needs])
  obtain ⟨ref, -, ref_eq⟩ := Container.exists_entry cx.container.methods rfl method_present
  obtain ⟨found, get_eq, found_eq⟩ := Container.exists_entry cx.container.protos rfl proto_present
  let shape : ArgumentShape := ⟨args.registers, found.params, true⟩
  let call : Call := ⟨.virtual, .ofRef ref, shape.arguments⟩
  have shape_eq : cx.container.argumentShape? here.instr = some shape := by
    rw [instr_eq, Container.argumentShape?, get_eq]
    rfl
  have fits := fitting shape shape_eq
  have planned : (cx.planPolymorphicCall args method proto).SettlesTo cx.container (.ok call) :=
    .bind_ok (cx.settlesTo_methodSig ref_eq)
      (.bind_ok (.entry_ok found_eq) (ArgumentShape.settlesTo_split fits (.pure _)))
  refine ⟨shape, cx.writePolymorphicCall here call, ?_, ?_⟩
  · rw [plan, instr_eq]
    exact .bind_ok planned (.pure _)
  · exact Says.handsOver (fun state => cx.says_writePolymorphicCall here state call)
      fun state => callRows_polymorphicCallOutputs shape_eq fits rfl

/-- An invocation through a call site hands over the registers for the parameters of the prototype
there, and no receiver. -/
theorem exists_handsOver_customCall {callSite : Nat}
    (instr_eq : here.instr = .invokeCustom args callSite)
    (present : ∀ entry ∈ cx.container.needs here.instr, ¬ cx.container.lacks entry)
    (fitting : ∀ shape, cx.container.argumentShape? here.instr = some shape → shape.Fits) :
    ∃ shape action, (cx.plan here result).SettlesTo cx.container (.ok action) ∧
      cx.HandsOver here shape action := by
  have site_present := present ⟨.callSite, callSite⟩
    (by simp [instr_eq, Container.needs, Container.callSiteNeeds])
  obtain ⟨site, site_get, site_eq⟩ :=
    Container.exists_entry cx.container.callSites rfl site_present
  -- what the call site refers to is asked for only now that there is one
  rw [instr_eq, Container.needs, Container.callSiteNeeds, site_get] at present
  have proto_present := present ⟨.proto, site.proto⟩ (by simp)
  have handle_present := present ⟨.methodHandle, site.bootstrap⟩ (by simp [Container.handleNeeds])
  obtain ⟨proto, proto_get, proto_eq⟩ :=
    Container.exists_entry cx.container.protos rfl proto_present
  obtain ⟨handle, handle_get, handle_eq⟩ :=
    Container.exists_entry cx.container.methodHandles rfl handle_present
  have target_present := present (Container.targetEntry handle)
    (by simp [Container.handleNeeds, handle_get])
  have target := cx.failsWith_handleTarget handle
  rw [missingFault?, List.find?_singleton, if_neg target_present] at target
  obtain ⟨bootstrap, target_settles⟩ := target
  let shape : ArgumentShape := ⟨args.registers, proto.params, false⟩
  let call : CustomCall := ⟨site.name, proto, bootstrap, handle.kind, shape.arguments⟩
  have shape_eq : cx.container.argumentShape? here.instr = some shape := by
    rw [instr_eq, Container.argumentShape?, site_get, Option.bind_some, proto_get]
    rfl
  have fits := fitting shape shape_eq
  have planned : (cx.planCustomCall args callSite).SettlesTo cx.container (.ok call) :=
    .bind_ok (.entry_ok site_eq) (.bind_ok (.entry_ok proto_eq) (.bind_ok (.entry_ok handle_eq)
      (.bind_ok target_settles (ArgumentShape.settlesTo_split fits (.pure _)))))
  refine ⟨shape, cx.writeCustomCall here call, ?_, ?_⟩
  · rw [plan, instr_eq]
    exact .bind_ok planned (.pure _)
  · exact Says.handsOver (fun state => cx.says_writeCustomCall here state call)
      fun state => callRows_customCallOutputs shape_eq fits rfl rfl

theorem exists_handsOver {pending : Option Nat} (invokes : here.instr.isInvocation)
    (no_fault : cx.fault? here pending = none) :
    ∃ shape action, (cx.plan here result).SettlesTo cx.container (.ok action) ∧
      cx.HandsOver here shape action := by
  obtain ⟨present, fitting⟩ := sound_of_no_fault invokes no_fault
  cases instr_eq : here.instr with
  | invoke => exact exists_handsOver_call instr_eq present fitting
  | invokePolymorphic => exact exists_handsOver_polymorphicCall instr_eq present fitting
  | invokeCustom => exact exists_handsOver_customCall instr_eq present fitting
  | _ => simp [instr_eq, Instr.isInvocation] at invokes

end Plans

/-! ## Runs -/

/-- A planned instruction has the rows of the invocation that it is, if it is one. -/
theorem exists_callRows_step {pending : Option Nat} {result : Option PendingResult}
    {action : MethodEmit Unit} (no_fault : cx.fault? here pending = none)
    (settles : (cx.plan here result).SettlesTo cx.container (.ok action)) (state : MethodState) :
    ∃ calls, cx.CallRows [here] calls (factsOf (action.run state).events) := by
  have plan_eq := (settles.run SignatureCache.knows_empty).1
  by_cases invokes : here.instr.isInvocation
  · obtain ⟨shape, done, done_settles, hands⟩ := exists_handsOver invokes no_fault
    cases plan_eq.symm.trans (done_settles.run SignatureCache.knows_empty).1
    obtain ⟨insn, rows⟩ := hands state
    exact ⟨_, rows⟩
  · have planned : cx.Planned here result action := yields_plan cx here _ _ action plan_eq
    have within := planned.footprint.within state
    have absent : ∀ fact ∈ factsOf (action.run state).events, fact.relation ∉ callingRelations := by
      intro fact member called
      have own := within.facts fact ((mem_factsOf _).1 member)
      rcases List.mem_cons.1 called with handed | invoked
      · rw [handed] at own
        cases instr_eq : here.instr with
        | invoke | invokePolymorphic | invokeCustom =>
          rw [instr_eq] at invokes
          exact invokes rfl
        | _ => simp [instr_eq, Instr.relations, resultRelations] at own
      · exact Instr.notMem_relations_of_not_isInvocation invokes own invoked
    exact ⟨[], CallRows.silent (by simpa using invokes) absent⟩

/-- The extraction of instructions has the rows of the invocations up to the first fault. -/
theorem exists_callRows (instrs : List LocatedInstr) (state : MethodState) {cache : SignatureCache}
    (knows : cache.Knows cx.container) :
    let run := (cx.extractInstrs instrs state).run.perform cache
    ∃ front back calls, instrs = front ++ back ∧ cx.CallRows front calls (factsOf run.events) ∧
      ∀ final, run.value = .ok final → back = [] := by
  induction instrs generalizing state cache with
  | nil => exact ⟨[], [], [], rfl, ⟨rfl, by simp, rfl, rfl⟩, fun _ _ => rfl⟩
  | cons here rest induction =>
    cases fault_eq : cx.fault? here state.pending with
    | some error =>
      have ended : (cx.extractInstrs (here :: rest) state).SettlesTo
          (SignatureCache.Knows cx.container) (.error error) [] := settlesTo_of_fault fault_eq
      obtain ⟨value_eq, -, events_eq⟩ := ended.perform knows
      dsimp only
      rw [value_eq, events_eq]
      exact ⟨[], here :: rest, [], rfl, ⟨rfl, by simp, rfl, rfl⟩, fun final final_eq => by
        cases final_eq⟩
    | none =>
      have decided := cx.failsWith_plan here state.carry.result
      unfold MethodState.pending at fault_eq
      rw [fault_eq] at decided
      obtain ⟨action, settles⟩ := decided
      obtain ⟨calls, own_rows⟩ := exists_callRows_step fault_eq settles
        (state.reach here.address here.index)
      obtain ⟨value_eq, knows_later⟩ := settles.run knows
      have plan_eq : ((Extract.lookup (cx.plan here state.carry.result)).run.perform cache).value =
          .ok action := by
        rw [Extract.perform_lookup]
        exact value_eq
      have later_knows : ((Extract.lookup
          (cx.plan here state.carry.result)).run.perform cache).state.Knows cx.container := by
        rw [Extract.perform_lookup]
        exact knows_later
      obtain ⟨front, back, others, rest_eq, later_rows, ends⟩ :=
        induction (action.run (state.reach here.address here.index)).state later_knows
      rw [perform_extractInstrs_of_ok plan_eq]
      refine ⟨here :: front, back, calls ++ others, by rw [rest_eq, List.cons_append], ?_, ends⟩
      rw [factsOf_append]
      exact own_rows.append later_rows

/-! ## Parameters of methods -/

theorem header_apart : ∀ relation ∈ headerRelations, relation ∉ callingRelations := by
  decide

theorem ending_apart : ∀ relation ∈ handlerRelations ++ lateRelations,
    relation ∉ callingRelations := by
  decide

theorem eq_declaring_of_header {relation : Relation} (header : relation ∈ headerRelations)
    {instr : Instr} (written : relation ∈ instr.relations) : relation = .varDeclaringMethod := by
  have declaring : ∀ written ∈ instr.relations, written ∈ headerRelations →
      written = .varDeclaringMethod := by
    cases instr <;> simp [Instr.relations, callRelations, resultRelations, headerRelations]
  exact declaring relation written header

theorem eq_declaring_of_ending : ∀ relation ∈ headerRelations,
    relation ∈ handlerRelations ++ lateRelations → relation = .varDeclaringMethod := by
  decide

/-- The rows of the parameters of a method, each with the variable of its slot. -/
def formalRows (id : String) (hasReceiver : Bool) (params : List Descriptor) :
    List (List String) :=
  (List.range params.length).map fun position =>
    [toString position, id, Identifier.parameter id (argumentSlot hasReceiver params position)]

variable {ref : MethodRef}

theorem rowsIn_parameterOutputs (parameter : Parameter) :
    rowsIn .formalParam (factsAmong (cx.parameterOutputs parameter)) =
      [[toString parameter.position, cx.id, Identifier.parameter cx.id parameter.slot]] := by
  rw [parameterOutputs, factsAmong_append, rowsIn_append, factsAmong_map_row, rowsIn_map]
  simp

theorem map_parameters (sig_eq : cx.sig = .ofRef ref) :
    (cx.parameters.map fun parameter =>
        [toString parameter.position, cx.id, Identifier.parameter cx.id parameter.slot]) =
      formalRows cx.id (!cx.definition.isStatic) ref.params := by
  have width_eq : cx.receiverWidth = receiverSlots (!cx.definition.isStatic) := by
    rw [receiverWidth, receiverSlots]
    cases cx.definition.isStatic <;> rfl
  have types_eq : cx.sig.paramTypes = ref.params := by rw [sig_eq]; rfl
  have names_eq : cx.sig.params = ref.params.map Descriptor.sourceName := by rw [sig_eq]; rfl
  unfold parameters formalRows
  rw [width_eq, types_eq, names_eq, slotsFrom_eq]
  apply List.ext_getElem
  · simp
  · intro position _ _
    simp [argumentSlot]

/-- Apart from the names, annotations and modifiers, the header speaks of parameters, of the
receiver and of what a native method is linked to. -/
theorem rowsIn_headerOutputs_eq {relation : Relation}
    (apart : ∀ written ∈ [.method, .methodAnnotations, .methodDeclaresException, .methodModifier],
      written ≠ relation) :
    rowsIn relation (factsAmong cx.headerOutputs) =
      (cx.parameters.flatMap fun parameter =>
        rowsIn relation (factsAmong (cx.parameterOutputs parameter))) ++
      ((if cx.definition.isStatic then [] else rowsIn relation (factsAmong cx.thisOutputs)) ++
        if cx.definition.isNative then rowsIn relation (factsAmong cx.nativeOutputs) else []) := by
  have named : rowsIn relation (factsAmong [.row .method [cx.id, cx.sig.name, cx.sig.paramList,
      cx.sig.owner, cx.sig.returnType, cx.sig.descriptor, toString cx.sig.arity]]) = [] := by
    rw [factsAmong_cons_row, rowsIn_cons, if_neg (apart .method (by decide))]
    rfl
  have marks : rowsIn relation
      (factsAmong (cx.definition.annotations.flatMap cx.annotationOutputs)) = [] := by
    rw [factsAmong_flatMap, rowsIn_flatMap, List.flatMap_eq_nil_iff]
    intro mark _
    rw [annotationOutputs, factsAmong_cons_row, factsAmong_map_row, rowsIn_cons, rowsIn_map,
      if_neg (apart .methodAnnotations (by decide)),
      if_neg (apart .methodDeclaresException (by decide))]
    rfl
  have modifiers : ∀ names : List String, rowsIn relation (factsAmong
      (names.flatMap fun modifier => [.row .methodModifier [modifier, cx.id]])) = [] := by
    intro names
    rw [← List.map_eq_flatMap, factsAmong_map_row, rowsIn_map,
      if_neg (apart .methodModifier (by decide))]
  rw [headerOutputs, factsAmong_append, factsAmong_append, factsAmong_append, factsAmong_append,
    factsAmong_append, rowsIn_append, rowsIn_append, rowsIn_append, rowsIn_append, rowsIn_append,
    named, marks, modifiers, List.nil_append, List.nil_append, List.nil_append,
    factsAmong_flatMap, rowsIn_flatMap]
  cases cx.definition.isStatic <;> cases cx.definition.isNative <;> rfl

/-- Apart from what a native method is linked to and from types, only parameters and the receiver
are left. -/
theorem rowsIn_headerOutputs {relation : Relation}
    (apart : ∀ written ∈ [.method, .methodAnnotations, .methodDeclaresException, .methodModifier,
      .nativeMethodId, .nativeReturnVar, .varType], written ≠ relation) :
    rowsIn relation (factsAmong cx.headerOutputs) =
      (cx.parameters.flatMap fun parameter =>
        rowsIn relation (factsAmong (cx.parameterOutputs parameter))) ++
      if cx.definition.isStatic then [] else rowsIn relation (factsAmong cx.thisOutputs) := by
  have returned : rowsIn relation
      (factsAmong (if !cx.sig.returnsVoid then cx.nativeReturnOutputs else [])) = [] := by
    split
    · rw [nativeReturnOutputs, factsAmong_cons_mention, factsAmong_cons_row, factsAmong_cons_row,
        rowsIn_cons, rowsIn_cons, if_neg (apart .nativeReturnVar (by decide)),
        if_neg (apart .varType (by decide))]
      rfl
    · rfl
  have native : rowsIn relation (factsAmong cx.nativeOutputs) = [] := by
    rw [nativeOutputs, factsAmong_cons_row, rowsIn_cons, returned,
      if_neg (apart .nativeMethodId (by decide))]
    rfl
  have fewer : [Relation.method, .methodAnnotations, .methodDeclaresException, .methodModifier] ⊆
      [.method, .methodAnnotations, .methodDeclaresException, .methodModifier, .nativeMethodId,
        .nativeReturnVar, .varType] := by decide
  rw [rowsIn_headerOutputs_eq fun written member => apart written (fewer member), native, ite_self,
    List.append_nil]

theorem formalRows_headerOutputs (sig_eq : cx.sig = .ofRef ref) :
    rowsIn .formalParam (factsAmong cx.headerOutputs) =
      formalRows cx.id (!cx.definition.isStatic) ref.params := by
  have receiver : rowsIn .formalParam (factsAmong cx.thisOutputs) = [] := by simp [thisOutputs]
  rw [rowsIn_headerOutputs (by decide), receiver, ite_self, List.append_nil,
    ← map_parameters sig_eq]
  simp only [rowsIn_parameterOutputs, ← List.map_eq_flatMap]

theorem rowsOf_entryEvents {relation : Relation} (undeclared : relation ≠ .varDeclaringMethod)
    (code : CodeItem) :
    rowsOf relation (cx.entryEvents code) = rowsIn relation (factsAmong cx.headerOutputs) := by
  have entry_eq := cx.render_entry code []
  rw [List.append_nil, render, List.append_nil] at entry_eq
  rw [← entry_eq, cx.rowsOf_render undeclared, factsAmong_append, cx.factsAmong_movedNotices,
    List.append_nil]

/-- The extraction of a body gives out the header first, then the instructions, and at last rows of
exception handlers and of the address map. -/
theorem exists_ending {code : CodeItem} (code_eq : cx.definition.code = some code)
    (cache : SignatureCache) :
    let run := (cx.extractInstrs code.located cx.entryState).run.perform cache
    let outcome := cx.extract.run.perform cache
    ∃ ending, outcome.events = cx.entryEvents code ++ run.events ++ ending ∧
      (∀ fact ∈ factsOf ending, fact.relation ∈ handlerRelations ++ lateRelations) ∧
      ∀ extracted, outcome.value = .ok extracted → ∃ final, run.value = .ok final := by
  dsimp only
  cases value_eq : ((cx.extractInstrs code.located cx.entryState).run.perform cache).value with
  | error error =>
    rw [extract_of_error code_eq value_eq]
    exact ⟨[], (List.append_nil _).symm, by simp, fun extracted extracted_eq => by
      cases extracted_eq⟩
  | ok final =>
    rw [extract_of_ok code_eq value_eq]
    refine ⟨_, rfl, fun fact member => ?_, fun _ _ => ⟨final, rfl⟩⟩
    have wellFormed : ∀ edge ∈ (closedMap code final).edges.toList, edge.WellFormed :=
      (cx.decodes_of_ok value_eq).queues_entry.wellFormed
    obtain ⟨summary, finish_eq, quiet, -⟩ := cx.finish_events code final
    rw [finish_eq, factsOf_append, factsOf_append, factsOf_append, quiet.factsOf_eq_nil,
      (cx.within_waitingEvents final).factsOf_eq_nil, List.nil_append, List.append_nil] at member
    rcases List.mem_append.1 member with handler | late
    · have handled := (cx.within_handlerEvents code final).facts fact ((mem_factsOf _).1 handler)
      exact List.mem_append_left _ handled
    · exact List.mem_append_right _
        (AddressMap.relation_mem_of_write wellFormed ((mem_factsOf _).1 late))

/-- Apart from declarations of variables, the rows of the relations of a header are those of the
header. -/
theorem rowsOf_extract_eq_header {relation : Relation} (header : relation ∈ headerRelations)
    (undeclared : relation ≠ .varDeclaringMethod) (cache : SignatureCache) :
    rowsOf relation (cx.extract.run.perform cache).events =
      rowsIn relation (factsAmong cx.headerOutputs) := by
  cases code_eq : cx.definition.code with
  | none => rw [extract_of_none code_eq, cx.rowsOf_render undeclared]
  | some code =>
    obtain ⟨ending, events_eq, ending_within, -⟩ := exists_ending code_eq cache
    obtain ⟨front, back, reached, -, decoded, -⟩ :=
      cx.exists_decodes_front code.located cx.entryState cache
    have unwritten : ∀ here ∈ front, ∀ written ∈ here.instr.relations, written ≠ relation := by
      rintro here - written own rfl
      exact undeclared (eq_declaring_of_header header own)
    have decoded_nil : rowsOf relation
        ((cx.extractInstrs code.located cx.entryState).run.perform cache).events = [] := by
      apply rowsOf_eq_nil
      intro fact member
      exact decoded.relation_of_mem unwritten member
    have ending_nil : rowsOf relation ending = [] := by
      apply rowsOf_eq_nil
      rintro fact member rfl
      have late := ending_within fact ((mem_factsOf _).2 member)
      exact undeclared (eq_declaring_of_ending _ header late)
    rw [events_eq, rowsOf_append, rowsOf_append, rowsOf_entryEvents undeclared, decoded_nil,
      ending_nil, List.append_nil, List.append_nil]

theorem rowsOf_formalParam_extract (sig_eq : cx.sig = .ofRef ref) (cache : SignatureCache) :
    rowsOf .formalParam (cx.extract.run.perform cache).events =
      formalRows cx.id (!cx.definition.isStatic) ref.params := by
  rw [rowsOf_extract_eq_header (by decide) (by decide), formalRows_headerOutputs sig_eq]

theorem exists_callRows_extract {cache : SignatureCache} (knows : cache.Knows cx.container) :
    let outcome := cx.extract.run.perform cache
    ∃ front back calls, cx.definition.located = front ++ back ∧
      cx.CallRows front calls (factsOf outcome.events) ∧
      ∀ extracted, outcome.value = .ok extracted → back = [] := by
  cases code_eq : cx.definition.code with
  | none =>
    have located_eq : cx.definition.located = [] := by rw [MethodDef.located, code_eq]; rfl
    dsimp only
    rw [extract_of_none code_eq, located_eq]
    refine ⟨[], [], [], rfl, CallRows.silent (by simp) ?_, fun _ _ => rfl⟩
    have within := cx.footprint_writeHeader.within .start
    rw [(cx.says_writeHeader .start).run] at within
    intro fact member
    exact header_apart _ (within.facts fact ((mem_factsOf _).1 member))
  | some code =>
    have located_eq : cx.definition.located = code.located := by
      rw [MethodDef.located, code_eq]; rfl
    obtain ⟨ending, events_eq, ending_within, finished⟩ := exists_ending code_eq cache
    obtain ⟨front, back, calls, front_eq, rows, ends⟩ :=
      exists_callRows code.located cx.entryState knows
    have before : cx.CallRows [] [] (factsOf (cx.entryEvents code)) :=
      .silent (by simp) fun fact member =>
        header_apart _ ((cx.within_entryEvents code).facts fact ((mem_factsOf _).1 member))
    have behind : cx.CallRows [] [] (factsOf ending) :=
      .silent (by simp) fun fact member => ending_apart _ (ending_within fact member)
    dsimp only
    rw [events_eq, factsOf_append, factsOf_append]
    refine ⟨front, back, calls, located_eq.trans front_eq, ?_, ?_⟩
    · simpa using (before.append rows).append behind
    · intro extracted extracted_eq
      obtain ⟨final, final_eq⟩ := finished extracted extracted_eq
      exact ends final final_eq

end MethodContext

/-! ## Methods -/

theorem MethodContext.exists_create {container : Container} {definition : MethodDef}
    {ref : MethodRef} {cache : SignatureCache} (knows : cache.Knows container)
    (ref_eq : container.methodAt definition.method = .ok ref) :
    let created := (create container definition).run.perform cache
    ∃ cx : MethodContext, created.value = .ok cx ∧ created.state.Knows container ∧
      cx.container = container ∧ cx.definition = definition ∧ cx.sig = .ofRef ref := by
  obtain ⟨cx, events, settles, -, container_eq, definition_eq, sig_eq⟩ :=
    succeeds_ofSig container definition (.ofRef ref)
  have created : (create container definition).SettlesTo (SignatureCache.Knows container) (.ok cx)
      events := SignatureCache.settlesTo_lookup_method ref_eq settles
  obtain ⟨value_eq, later_knows, -⟩ := created.perform knows
  exact ⟨cx, value_eq, later_knows, container_eq, definition_eq, sig_eq⟩

/-- The calling convention.  Registers are split exactly when there are enough of them, and then the
receiver is the first one and an argument the one at the slot of its parameter.  The variables of a
method's parameters have the numbers of those slots.  And an invocation, whatever its form, has the
rows of its receiver and its arguments as they are split, for the parameters that its own table
gives. -/
theorem calling_convention (regs : List Reg) (params : List Descriptor) (hasReceiver : Bool) :
    (∀ method,
      let width := receiverSlots hasReceiver + Descriptor.totalWidth params
      let outcome := Arguments.split method regs params hasReceiver
      ((∃ arguments, outcome = .ok arguments) ↔ width ≤ regs.length) ∧
      (regs.length < width → outcome = .error (if hasReceiver ∧ regs = [] then
          .missingReceiver method
        else .missingArguments method (Descriptor.totalWidth params)
          (regs.length - receiverSlots hasReceiver))) ∧
      ∀ arguments, outcome = .ok arguments →
        arguments.receiver = (if hasReceiver then regs.head? else none) ∧
        arguments.receiver.isSome = hasReceiver ∧
        arguments.params.length = params.length ∧
        (∀ position < params.length,
          arguments.params[position]? = regs[argumentSlot hasReceiver params position]?) ∧
        ∀ surplus, Arguments.split method (regs ++ surplus) params hasReceiver = .ok arguments) ∧
    ∀ (container : Container) (definition : MethodDef) (ref : MethodRef) (cache : SignatureCache),
      cache.Knows container → container.methodAt definition.method = .ok ref →
      let outcome := (definition.extract container).run cache
      ∃ (cx : MethodContext) (front back : List LocatedInstr) (calls : List NamedCall),
        ((MethodContext.create container definition).run cache).value = .ok cx ∧
        definition.located = front ++ back ∧
        (∀ extracted, outcome.value = .ok extracted → back = []) ∧
        cx.CallRows front calls (factsOf outcome.events) ∧
        (ref.params = params → definition.isStatic = !hasReceiver →
          rowsOf .formalParam outcome.events = (List.range params.length).map fun position =>
            [toString position, cx.id,
              Identifier.parameter cx.id (argumentSlot hasReceiver params position)]) := by
  constructor
  · intro method width outcome
    let shape : ArgumentShape := ⟨regs, params, hasReceiver⟩
    have fits_iff : shape.Fits ↔ width ≤ regs.length := by
      rw [ArgumentShape.Fits, argumentSlot_length]
    by_cases fits : shape.Fits
    · have outcome_eq : outcome = .ok shape.arguments := ArgumentShape.split_of_fits fits method
      have enough := fits_iff.1 fits
      refine ⟨iff_of_true ⟨_, outcome_eq⟩ enough, fun few => by omega, fun arguments split_eq => ?_⟩
      cases outcome_eq.symm.trans split_eq
      refine ⟨rfl, ArgumentShape.isSome_receiver fits, ArgumentShape.length_arguments fits,
        fun position inside => ArgumentShape.getElem?_arguments fits inside, fun surplus => ?_⟩
      obtain ⟨wider_fits, same⟩ := ArgumentShape.arguments_surplus fits surplus
      rw [← same]
      exact ArgumentShape.split_of_fits wider_fits method
    · have outcome_eq : outcome = .error _ := ArgumentShape.split_of_not_fits fits method
      have few := mt fits_iff.2 fits
      refine ⟨iff_of_false ?_ few, fun _ => outcome_eq, fun arguments split_eq => ?_⟩
      · rintro ⟨arguments, split_eq⟩
        cases outcome_eq.symm.trans split_eq
      · cases outcome_eq.symm.trans split_eq
  · intro container definition ref cache knows ref_eq
    obtain ⟨cx, create_eq, later_knows, rfl, rfl, sig_eq⟩ :=
      MethodContext.exists_create knows ref_eq
    have run_eq : (cx.definition.extract cx.container).run.perform cache = _ :=
      Extract.perform_bind_of_ok cache create_eq
    obtain ⟨-, -, quiet, -⟩ := cx.create_outcome create_eq
    obtain ⟨front, back, calls, located_eq, rows, ends⟩ :=
      MethodContext.exists_callRows_extract later_knows
    intro outcome
    have outcome_eq : outcome = _ := run_eq
    rw [outcome_eq]
    refine ⟨cx, front, back, calls, create_eq, located_eq, ends, ?_, ?_⟩
    · rw [factsOf_append, quiet.factsOf_eq_nil, List.nil_append]
      exact rows
    · rintro rfl flag_eq
      rw [rowsOf_append, quiet.rowsOf_eq_nil List.not_mem_nil, List.nil_append,
        MethodContext.rowsOf_formalParam_extract sig_eq, flag_eq, Bool.not_not]
      rfl

/-- A method with a receiver and a wide parameter that calls itself with its own registers. -/
def forwarding : MethodDef :=
  { loneMethod [] with
    flags := ⟨1⟩
    code := some
      { registers := 4
        instructions := [.invoke .virtual (.list [⟨0⟩, ⟨1⟩, ⟨2⟩, ⟨3⟩]) 0, .returnVoid]
        tries := []
        debugItems := [] } }

/-- A call with a wide argument hands over the registers 1 and 3, to the parameter variables of
these numbers. -/
theorem calling_convention_forwarding :
    let events := ((forwarding.extract pairedContainer).run .empty).events
    let ref : MethodRef := ⟨.object "Lone", "put", [.primitive .long, .primitive .int], .void⟩
    let id := (MethodSig.ofRef ref).id
    let var := Identifier.parameter id
    rowsOf .formalParam events = [["0", id, var 1], ["1", id, var 3]] ∧
    ∃ insn, rowsOf .actualParam events =
      [["0", insn, var 0], ["1", insn, var 1], ["2", insn, var 3]] := by
  intro events ref id var
  obtain ⟨-, methods⟩ :=
    calling_convention [⟨0⟩, ⟨1⟩, ⟨2⟩, ⟨3⟩] [.primitive .long, .primitive .int] true
  obtain ⟨cx, front, back, calls, create_eq, located_eq, ends, rows, formals⟩ :=
    methods pairedContainer forwarding _ .empty SignatureCache.knows_empty rfl
  have created : ((MethodContext.create pairedContainer forwarding).run .empty).value =
      .ok ⟨pairedContainer, forwarding, .ofRef ref, 0⟩ := by
    cbv
  cases create_eq.symm.trans created
  have found : ∃ extracted,
      ((forwarding.extract pairedContainer).run .empty).value = .ok extracted :=
    MethodDef.exists_extract_sound rfl rfl (by decide)
  obtain ⟨extracted, value_eq⟩ := found
  cases ends extracted value_eq
  refine ⟨formals rfl rfl, ?_⟩
  rw [List.append_nil] at located_eq
  subst located_eq
  have only : calls.map NamedCall.here =
      [⟨1, 0, .invoke .virtual (.list [⟨0⟩, ⟨1⟩, ⟨2⟩, ⟨3⟩]) 0⟩] := rows.calls_eq
  obtain ⟨⟨here, insn, shape⟩, rfl, here_eq⟩ := List.map_eq_singleton_iff.1 only
  obtain ⟨shape_eq, -⟩ := rows.shapes _ List.mem_cons_self
  dsimp only at here_eq
  subst here_eq
  cases shape_eq
  refine ⟨insn, rows.handed.trans ?_⟩
  rw [List.flatMap_singleton]
  cbv

end DalvikFacts
