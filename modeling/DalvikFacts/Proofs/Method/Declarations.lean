import DalvikFacts.Proofs.Method.Account
import DalvikFacts.Proofs.Method.Edges

/-!
# Declarations of variables

Every variable of a method is declared once, and before the first row that mentions it.  This holds
of the rows written before an instruction fails as well, and of the field accesses that are left.
-/

namespace DalvikFacts

/-- The columns of a relation that hold variables. -/
@[simp]
def Relation.variableColumns : Relation → List Nat
  | varType | nativeReturnVar => [0]
  | assignReturnValue | exceptionHandlerFormalParam | thisVar | arrayInsnIndex => [1]
  | actualParam | formalParam | arrayInitialValueFromConst | assignBinop | assignOperFrom
  | assignUnop | enterMonitor | exitMonitor | ifVar | returnValue | tableSwitch | lookupSwitch
  | throw | loadStaticField | storeStaticField => [2]
  | assignCast | assignInstanceOf | assignLocal | loadArrayIndex | storeArrayIndex
  | loadInstanceField | storeInstanceField => [2, 3]
  | arrayInitialValueFromLocal => [2, 4]
  | assignHeapAllocation | assignNumConstant | specialMethodInvocation | virtualMethodInvocation
  | superMethodInvocation => [3]
  | _ => []

/-- The variables in a row, apart from declarations. -/
def Fact.variables (fact : Fact) : List String :=
  fact.relation.variableColumns.filterMap (fact.columns[·]?)

/-- The variables of a field access. -/
def FieldAccess.variables (access : FieldAccess) : List String :=
  access.var :: access.base.toList

/-- No row is a declaration, and the variables of each row are known or mentioned before it. -/
def Orderly (known : List String) : List Output → Prop
  | [] => True
  | .mention var :: rest => Orderly (var :: known) rest
  | .fact fact :: rest =>
    (fact.relation ≠ .varDeclaringMethod ∧ ∀ var ∈ fact.variables, var ∈ known) ∧
      Orderly known rest
  | .notice _ :: rest => Orderly known rest

namespace Orderly

variable {known more : List String} {outputs others : List Output}

@[simp]
theorem nil : Orderly known [] :=
  True.intro

@[simp]
theorem cons_mention {var : String} :
    Orderly known (.mention var :: outputs) ↔ Orderly (var :: known) outputs :=
  Iff.rfl

@[simp]
theorem cons_notice {notice : Notice} :
    Orderly known (.notice notice :: outputs) ↔ Orderly known outputs :=
  Iff.rfl

@[simp]
theorem cons_row {relation : Relation} {columns : List String} :
    Orderly known (.row relation columns :: outputs) ↔
      (relation ≠ .varDeclaringMethod ∧
        ∀ var ∈ relation.variableColumns.filterMap (columns[·]?), var ∈ known) ∧
          Orderly known outputs :=
  Iff.rfl

theorem mono (orderly : Orderly known outputs) (subset : known ⊆ more) : Orderly more outputs := by
  induction outputs generalizing known more with
  | nil => exact True.intro
  | cons output rest induction =>
    cases output with
    | mention var => exact induction orderly (List.cons_subset_cons var subset)
    | fact fact =>
      obtain ⟨⟨other, mentioned⟩, later⟩ := orderly
      exact ⟨⟨other, fun var member => subset (mentioned var member)⟩, induction later subset⟩
    | notice => exact induction orderly subset

theorem append (first : Orderly known outputs) (second : Orderly known others) :
    Orderly known (outputs ++ others) := by
  induction outputs generalizing known with
  | nil => exact second
  | cons output rest induction =>
    cases output with
    | mention var => exact induction first (second.mono (List.subset_cons_self var known))
    | fact fact => exact ⟨first.1, induction first.2 second⟩
    | notice => exact induction first second

theorem flatMap {α : Type} {items : List α} {each : α → List Output}
    (one : ∀ item ∈ items, Orderly known (each item)) : Orderly known (items.flatMap each) := by
  induction items with
  | nil => exact True.intro
  | cons item rest induction =>
    rw [List.flatMap_cons]
    exact (one item List.mem_cons_self).append
      (induction fun other member => one other (List.mem_cons_of_mem item member))

theorem map {α : Type} {items : List α} {each : α → Output}
    (one : ∀ item, Orderly known [each item]) : Orderly known (items.map each) := by
  rw [List.map_eq_flatMap]
  exact flatMap fun item _ => one item

theorem ite {condition : Prop} [Decidable condition] (yes : Orderly known outputs)
    (no : Orderly known others) : Orderly known (if condition then outputs else others) := by
  split
  · exact yes
  · exact no

/-- Events without variables are in order. -/
theorem ofEvents {events : List Event}
    (plain : ∀ fact, .fact fact ∈ events →
      fact.relation ≠ .varDeclaringMethod ∧ fact.relation.variableColumns = []) :
    Orderly known (events.map Output.ofEvent) := by
  induction events with
  | nil => exact True.intro
  | cons event rest induction =>
    have later := induction fun fact member => plain fact (List.mem_cons_of_mem event member)
    cases event with
    | fact fact =>
      obtain ⟨other, columns_eq⟩ := plain fact List.mem_cons_self
      exact ⟨⟨other, by rw [Fact.variables, columns_eq]; simp⟩, later⟩
    | notice => exact later

end Orderly

namespace MethodContext

variable {cx : MethodContext}

/-! ## Rendered outputs -/

/-- A variable in a row of orderly outputs was declared already, or has its row before. -/
theorem declared_before {known : List String} {outputs : List Output}
    (orderly : Orderly known outputs) {declared : Std.HashSet String}
    (known_declared : ∀ var ∈ known, declared.contains var) {before after : List Event}
    {fact : Fact} (split_eq : cx.render declared outputs = before ++ .fact fact :: after)
    {var : String} (member : var ∈ fact.variables) :
    declared.contains var ∨ [var, cx.id] ∈ rowsOf .varDeclaringMethod before := by
  induction outputs generalizing known declared before with
  | nil =>
    rw [render] at split_eq
    simp at split_eq
  | cons output rest induction =>
    cases output with
    | mention new =>
      rw [render] at split_eq
      split at split_eq
      next contained =>
        refine induction orderly (fun other other_mem => ?_) split_eq
        rcases List.mem_cons.1 other_mem with rfl | known_mem
        · exact contained
        · exact known_declared other known_mem
      next =>
        cases before with
        | nil =>
          obtain ⟨fact_eq, -⟩ := List.cons.inj split_eq
          cases fact_eq
          cases member
        | cons first early =>
          obtain ⟨rfl, rest_eq⟩ := List.cons.inj split_eq
          have inserted : ∀ other ∈ new :: known, (declared.insert new).contains other := by
            intro other other_mem
            rcases List.mem_cons.1 other_mem with rfl | known_mem
            · simp
            · simp [known_declared other known_mem]
          rcases induction orderly inserted rest_eq with contained | here
          · rw [Std.HashSet.contains_insert, Bool.or_eq_true, beq_iff_eq] at contained
            rcases contained with rfl | contained
            · exact .inr (by simp [rowsOf])
            · exact .inl contained
          · refine .inr ?_
            rw [← List.singleton_append, rowsOf_append]
            exact List.mem_append_right _ here
    | fact found =>
      obtain ⟨⟨-, mentioned⟩, later⟩ := orderly
      cases before with
      | nil =>
        obtain ⟨fact_eq, -⟩ := List.cons.inj split_eq
        cases fact_eq
        exact .inl (known_declared var (mentioned var member))
      | cons first early =>
        obtain ⟨rfl, rest_eq⟩ := List.cons.inj split_eq
        refine (induction later known_declared rest_eq).imp_right fun here => ?_
        rw [← List.singleton_append, rowsOf_append]
        exact List.mem_append_right _ here
    | notice found =>
      cases before with
      | nil =>
        obtain ⟨fact_eq, -⟩ := List.cons.inj split_eq
        cases fact_eq
      | cons first early =>
        obtain ⟨rfl, rest_eq⟩ := List.cons.inj split_eq
        have found_before := induction orderly known_declared rest_eq
        exact found_before

/-- Orderly outputs declare each variable that they mention once, unless it is declared already. -/
theorem exists_declared {known : List String} {outputs : List Output}
    (orderly : Orderly known outputs) (declared : Std.HashSet String) :
    ∃ vars : List String, rowsOf .varDeclaringMethod (cx.render declared outputs) =
        vars.map (fun var => [var, cx.id]) ∧
      vars.Nodup ∧ (∀ var ∈ vars, ¬declared.contains var) ∧
      ∀ var, .mention var ∈ outputs → declared.contains var ∨ var ∈ vars := by
  induction outputs generalizing known declared with
  | nil => exact ⟨[], rfl, .nil, by simp, by simp⟩
  | cons output rest induction =>
    cases output with
    | mention new =>
      rw [render]
      split
      next contained =>
        obtain ⟨vars, rows_eq, nodup, fresh, complete⟩ := induction orderly declared
        refine ⟨vars, rows_eq, nodup, fresh, fun var member => ?_⟩
        rcases List.mem_cons.1 member with same | later
        · cases same
          exact .inl contained
        · exact complete var later
      next undeclared =>
        obtain ⟨vars, rows_eq, nodup, fresh, complete⟩ := induction orderly (declared.insert new)
        refine ⟨new :: vars, ?_, ?_, ?_, fun var member => ?_⟩
        · rw [← List.singleton_append, rowsOf_append, rows_eq]
          rfl
        · refine List.nodup_cons.2 ⟨fun member => ?_, nodup⟩
          exact fresh new member (by simp)
        · intro var member
          rcases List.mem_cons.1 member with rfl | later
          · exact undeclared
          · exact fun contained => fresh var later (by simp [contained])
        · rcases List.mem_cons.1 member with same | later
          · cases same
            exact .inr List.mem_cons_self
          · rcases complete var later with contained | found
            · rw [Std.HashSet.contains_insert, Bool.or_eq_true, beq_iff_eq] at contained
              rcases contained with rfl | contained
              · exact .inr List.mem_cons_self
              · exact .inl contained
            · exact .inr (List.mem_cons_of_mem new found)
    | fact found =>
      obtain ⟨⟨other, -⟩, later⟩ := orderly
      obtain ⟨vars, rows_eq, nodup, fresh, complete⟩ := induction later declared
      refine ⟨vars, ?_, nodup, fresh, fun var member => complete var (by simpa using member)⟩
      have none_eq : rowsOf .varDeclaringMethod [.fact found] = [] :=
        rowsOf_eq_nil _ fun fact member => by simp at member; rw [member]; exact other
      rw [render, ← List.singleton_append, rowsOf_append, none_eq, rows_eq, List.nil_append]
    | notice found =>
      obtain ⟨vars, rows_eq, nodup, fresh, complete⟩ := induction orderly declared
      exact ⟨vars, rows_eq, nodup, fresh, fun var member => complete var (by simpa using member)⟩

/-! ## Outputs of instructions -/

section Instructions

variable {here : LocatedInstr} {state next final : MethodState} {known : List String}
  {outputs : List Output}

theorem orderly_typing : Orderly known [cx.typing here] := by
  unfold typing
  split <;> simp

theorem orderly_positioned {relation : Relation} (undeclared : relation ≠ .varDeclaringMethod)
    (columns_eq : relation.variableColumns = []) (key : String) (texts : List String) :
    Orderly known (positioned relation key texts) :=
  .map fun _ => Orderly.cons_row.2 ⟨⟨undeclared, by rw [columns_eq]; simp⟩, .nil⟩

theorem orderly_stringRows (text : String) : Orderly known (stringRows text) := by
  simp [stringRows]

theorem orderly_arrayTypeRows (type : Descriptor) : Orderly known (arrayTypeRows type) := by
  rw [arrayTypeRows, Orderly.cons_row]
  exact ⟨by simp, .map fun _ => by simp⟩

theorem orderly_allocated {var : String} (member : var ∈ known) (heap type : String)
    (isEmpty : Bool) : Orderly known (cx.allocated here heap type var isEmpty) := by
  refine .append ?_ (.ite ?_ .nil)
  · simp [object, member]
  · simp

theorem orderly_constantOutputs (dst : Reg) (heap : String) :
    Orderly known (cx.constantOutputs here dst heap) := by
  simp [constantOutputs, object]

theorem orderly_filledElements {array : String} (member : array ∈ known) (heap : String)
    (elements : List Reg) : Orderly known (cx.filledElements here array heap elements) :=
  .flatMap fun _ _ => by simp [member]

theorem orderly_filled (type : String) (values : List Int) (fill : ArrayFill) :
    Orderly known (cx.filled type values fill) := by
  rw [filled, Orderly.cons_mention]
  exact .flatMap fun _ _ => by simp

theorem orderly_payloadOutputs (width : Nat) (values : List Int) (fills : List ArrayFill) :
    Orderly known (cx.payloadOutputs here width values fills) := by
  refine .ite (by simp) ?_
  split
  · simp
  · exact .flatMap fun fill _ => cx.orderly_filled _ values fill

theorem orderly_fillNotices (offset : Int) (newArray : Option NewArray) :
    Orderly known (cx.fillNotices here offset newArray) := by
  unfold fillNotices
  split
  · simp
  · refine .append (.ite (by simp) .nil) ?_
    split <;> simp

theorem orderly_testOutputs (insn : String) (test : TestOp) (left : Reg) (right : Option Reg) :
    Orderly known (cx.testOutputs insn test left right) := by
  have operand : ∀ position reg, Orderly known (cx.testOperand insn position reg) := by
    intro position reg
    simp [testOperand]
  refine ((operand _ left).append (.flatMap fun reg _ => operand _ reg)).append ?_
  simp

theorem orderly_switchOutputs (kind : SwitchKind) (key : Reg) (offset : Int) :
    Orderly known (cx.switchOutputs here kind key offset) := by
  have noticed : Orderly known (cx.switchNotices here offset) := by
    unfold switchNotices
    split <;> simp
  refine .append ?_ noticed
  cases kind <;> simp [switchRelation]

theorem orderly_paramRows (insn : String) (first : Nat) (params : List Reg) :
    Orderly known (cx.paramRows insn first params) :=
  .flatMap fun _ _ => by simp

theorem orderly_lineRows (insn : String) : Orderly known (cx.lineRows here insn) :=
  .map fun _ => by simp

/-- The row of an invocation names the receiver, which is an argument of it. -/
theorem orderly_callOutputs (insn : String) {call : Call} (wellFormed : call.WellFormed) :
    Orderly known (cx.callOutputs here insn call) := by
  have arguments : ∀ {known : List String} first, Orderly known
      (cx.paramRows insn first call.arguments.params ++ cx.lineRows here insn) :=
    fun first => (cx.orderly_paramRows insn first _).append (cx.orderly_lineRows insn)
  unfold Call.WellFormed at wellFormed
  unfold callOutputs
  rw [← List.append_assoc (cx.paramRows _ _ _)]
  cases receiver_eq : call.arguments.receiver with
  | none =>
    rw [receiver_eq] at wellFormed
    refine (arguments _).append ?_
    cases kind_eq : call.kind with
    | static => simp [CallKind.relation]
    | special | virtual | super => simp [kind_eq, CallKind.hasReceiver] at wellFormed
  | some receiver =>
    rw [receiver_eq] at wellFormed
    refine Orderly.cons_mention.2 (Orderly.cons_row.2 ⟨?_, (arguments _).append ?_⟩)
    · simp
    · cases kind_eq : call.kind with
      | static => simp [kind_eq, CallKind.hasReceiver] at wellFormed
      | special | virtual | super => simp [CallKind.relation]

theorem orderly_customCallOutputs (insn : String) (call : CustomCall) :
    Orderly known (cx.customCallOutputs here insn call) := by
  refine (cx.orderly_paramRows insn 0 _).append (Orderly.cons_row.2 ⟨?_, ?_⟩)
  · simp
  · exact (orderly_positioned (by simp) rfl _ _).append
      ((orderly_stringRows _).append (orderly_stringRows _))

/-- The outputs of an instruction are in order. -/
theorem Tells.orderly (told : cx.Tells here state outputs next) : Orderly [] outputs := by
  cases told with
  | nop | moveException | goto => exact .nil
  | optimized => simp
  | move | const | constWide | arrayLength | unop | binop | binopInPlace | compare | binopLiteral
  | binopSmallLiteral =>
    simp [moveOutputs, numberOutputs, unopOutputs, binopOutputs, binopLiteralOutputs, operand,
      cx.orderly_typing]
  | moveResult pending =>
    unfold resultOutputs
    cases pending.producer with
    | invocation insn => simp
    | filledArray type elements =>
      dsimp only
      rw [List.cons_append, Orderly.cons_mention]
      exact (cx.orderly_allocated (by simp) _ type _).append
        (cx.orderly_filledElements (by simp) _ elements)
  | returnVoid | returnValue | throw =>
    simp [returnVoidOutputs, returnOutputs, throwOutputs]
  | constString text => exact (orderly_stringRows text).append (cx.orderly_constantOutputs _ _)
  | constClass | methodHandle | fieldHandle =>
    simp [classOutputs, methodHandleOutputs, fieldHandleOutputs, cx.orderly_constantOutputs]
  | constMethodType proto =>
    refine .append (.append (orderly_positioned (by simp) rfl _ _) ?_)
      (cx.orderly_constantOutputs _ _)
    simp
  | @monitor action =>
    cases action <;> simp [monitorOutputs, monitorRelation]
  | checkCast | instanceOf => simp [castOutputs, instanceOfOutputs]
  | newInstance name =>
    rw [newInstanceOutputs, Orderly.cons_mention]
    exact cx.orderly_allocated (by simp) _ name false
  | newArray found =>
    refine (orderly_arrayTypeRows found).append (Orderly.cons_mention.2 ?_)
    exact cx.orderly_allocated (by simp) _ _ _
  | filledNewArray found => exact orderly_arrayTypeRows found
  | fillArrayData => exact cx.orderly_fillNotices _ _
  | switch => exact cx.orderly_switchOutputs _ _ _
  | branch | branchZero => exact cx.orderly_testOutputs _ _ _ _
  | @arrayAccess access =>
    cases access <;> simp [arrayAccessOutputs, arrayRelation]
  | instanceField | staticField => simp [fieldOutputs]
  | invoke call _ _ wellFormed => exact cx.orderly_callOutputs _ wellFormed
  | invokePolymorphic call _ _ wellFormed =>
    refine (cx.orderly_callOutputs _ wellFormed).append ?_
    simp
  | invokeCustom call => exact cx.orderly_customCallOutputs _ call
  | packedSwitchPayload | sparseSwitchPayload => exact .ite (by simp) .nil
  | arrayPayload => exact cx.orderly_payloadOutputs _ _ _

theorem Tells.mentions_accesses (told : cx.Tells here state outputs next) :
    ∀ access ∈ next.accesses, access ∈ state.accesses ∨
      ∀ var ∈ access.variables, .mention var ∈ outputs := by
  intro access member
  rcases told.accesses with ⟨kind, value, object, field, rfl, rfl⟩ | same
  · rcases Array.mem_push.1 member with early | rfl
    · exact .inl early
    · refine .inr fun var var_mem => ?_
      cases object with
      | none => simpa [FieldAccess.variables, fieldAccess, fieldOutputs] using var_mem
      | some object => simpa [FieldAccess.variables, fieldAccess, fieldOutputs] using var_mem
  · exact .inl (same ▸ member)

theorem Recites.orderly {instrs : List LocatedInstr} (run : cx.Recites instrs state outputs final) :
    Orderly [] outputs := by
  induction run with
  | nil => exact .nil
  | cons told _ later induction => exact told.orderly.append induction

theorem Recites.mentions_accesses {instrs : List LocatedInstr}
    (run : cx.Recites instrs state outputs final) :
    ∀ access ∈ final.accesses, access ∈ state.accesses ∨
      ∀ var ∈ access.variables, .mention var ∈ outputs := by
  induction run with
  | nil => exact fun access member => .inl member
  | cons told _ later induction =>
    intro access member
    rcases induction access member with early | mentioned
    · refine (told.mentions_accesses access early).imp_right fun mentioned var var_mem => ?_
      exact List.mem_append_left _ (mentioned var var_mem)
    · exact .inr fun var var_mem => List.mem_append_right _ (mentioned var var_mem)

end Instructions

/-! ## Header and end -/

theorem orderly_headerOutputs : Orderly [] cx.headerOutputs := by
  have annotation : ∀ mark, Orderly [] (cx.annotationOutputs mark) := by
    intro mark
    refine Orderly.cons_row.2 ⟨by simp, .map fun _ => ?_⟩
    simp
  have parameter : ∀ parameter, Orderly [] (cx.parameterOutputs parameter) := by
    intro parameter
    refine .append ?_ (.map fun _ => ?_) <;> simp
  have receiver : Orderly [] cx.thisOutputs := by simp [thisOutputs]
  have native : Orderly [] cx.nativeOutputs := by
    refine Orderly.cons_row.2 ⟨by simp, .ite ?_ .nil⟩
    simp [nativeReturnOutputs]
  refine .append ?_ <| (Orderly.flatMap fun mark _ => annotation mark).append <|
    (Orderly.flatMap fun _ _ => ?_).append <| (Orderly.flatMap fun _ _ => parameter _).append <|
      (Orderly.ite receiver .nil).append (.ite native .nil)
  all_goals simp

theorem orderly_exceptionOutputs (addresses : AddressMap) (tries : List TryBlock)
    (catches : List CaughtException) :
    Orderly [] (cx.exceptionOutputs addresses tries catches) := by
  have handler : ∀ block handler previous,
      Orderly [] (cx.handlerOutputs addresses block handler previous) := by
    intro block handler previous
    refine .append (.ite (by simp) .nil) ?_
    split
    · simp
    · refine Orderly.cons_row.2 ⟨by simp, .map fun _ => ?_⟩
      simp
  have handlers : ∀ block handlers previous,
      Orderly [] (cx.handlersOutputs addresses block handlers previous) := by
    intro block handlers
    induction handlers with
    | nil => exact fun _ => .nil
    | cons first rest induction => exact fun _ => (handler _ _ _).append (induction _)
  have caught : ∀ regions caught, Orderly [] (cx.caughtOutputs regions caught) := by
    intro regions caught
    refine (Orderly.flatMap fun region _ => .append (.ite (by simp) .nil) ?_).append
      (.ite (by simp) .nil)
    simp
  exact (Orderly.flatMap fun block _ => handlers block _ _).append
    (.flatMap fun _ _ => caught _ _)

theorem orderly_finishOutputs (code : CodeItem) {state : MethodState}
    (wellFormed : ∀ edge ∈ state.addresses.edges.toList, edge.WellFormed) :
    Orderly [] (cx.finishOutputs code state) := by
  have waiting : Orderly [] ((cx.waitingEvents state).map Output.ofEvent) :=
    .ofEvents fun fact member => absurd ((cx.within_waitingEvents state).facts fact member)
      List.not_mem_nil
  have late : ∀ relation ∈ lateRelations,
      relation ≠ .varDeclaringMethod ∧ relation.variableColumns = [] := by decide
  have closed : ∀ edge ∈ (closedMap code state).edges.toList, edge.WellFormed := wellFormed
  have written : Orderly [] ((((closedMap code state).write cx.id : Emit Unit Unit).run
      ()).events.map Output.ofEvent) :=
    .ofEvents fun fact member => late _ (AddressMap.relation_mem_of_write closed member)
  exact (waiting.append (cx.orderly_exceptionOutputs _ _ _)).append
    (written.append (.ite (by simp) .nil))

theorem Account.orderly {code : CodeItem}
    {outcome : Emitted SignatureCache (Except ExtractionError ExtractedMethod)}
    (account : cx.Account code outcome) :
    Orderly []
      ((cx.headerOutputs ++ cx.movedNotices code) ++ (account.body ++ account.ending)) := by
  have moved : Orderly [] (cx.movedNotices code) :=
    .ofEvents fun fact member => by simp at member
  have ended : Orderly [] account.ending := by
    rcases account.ending_eq with ending_eq | ending_eq
    · rw [ending_eq]
      exact .nil
    · rw [ending_eq]
      exact cx.orderly_finishOutputs code account.decodes.queues_entry.wellFormed
  exact (cx.orderly_headerOutputs.append moved).append (account.recites.orderly.append ended)

/-- Events that declare each variable once, and before its first mention in a row. -/
structure Declares (cx : MethodContext) (vars : List String) (events : List Event) : Prop where
  rows_eq : rowsOf .varDeclaringMethod events = vars.map fun var => [var, cx.id]
  nodup : vars.Nodup
  before : ∀ early fact late, events = early ++ .fact fact :: late → ∀ var ∈ fact.variables,
    [var, cx.id] ∈ rowsOf .varDeclaringMethod early

/-- Orderly outputs behind events without facts declare their variables. -/
theorem exists_declares {created : List Event} (quiet : Within [] created)
    {outputs : List Output} (orderly : Orderly [] outputs) :
    ∃ vars, cx.Declares vars (created ++ cx.render {} outputs) ∧
      ∀ var, .mention var ∈ outputs → var ∈ vars := by
  obtain ⟨vars, rows_eq, nodup, -, complete⟩ := cx.exists_declared orderly {}
  have created_nil : rowsOf .varDeclaringMethod created = [] :=
    quiet.rowsOf_eq_nil List.not_mem_nil
  refine ⟨vars, ⟨?_, nodup, ?_⟩, fun var member => ?_⟩
  · rw [rowsOf_append, created_nil, rows_eq, List.nil_append]
  · intro early fact late split_eq var member
    rcases List.append_eq_append_iff.1 split_eq with
      ⟨mid, early_eq, render_eq⟩ | ⟨mid, created_eq, fact_eq⟩
    · rcases declared_before orderly (by simp) render_eq member with contained | here
      · simp at contained
      · rw [early_eq, rowsOf_append]
        exact List.mem_append_right _ here
    · cases mid with
      | nil =>
        rw [List.append_nil] at created_eq
        have render_eq : cx.render {} outputs = [] ++ .fact fact :: late := fact_eq.symm
        rcases declared_before orderly (by simp) render_eq member with contained | here
        · simp at contained
        · cases here
      | cons first rest =>
        obtain ⟨rfl, -⟩ := List.cons.inj fact_eq
        exact absurd (quiet.facts fact (by simp [created_eq])) List.not_mem_nil
  · simpa using complete var member

end MethodContext

/-- Whether the extraction of a method succeeds or fails: no variable is declared twice, every row
that mentions a variable comes behind the declaration of the variable, and the variables of the
field accesses that are left are declared. -/
theorem variables_declared (container : Container) (definition : MethodDef)
    (cache : SignatureCache) :
    ∃ (method : String) (vars : List String),
      rowsOf .varDeclaringMethod ((definition.extract container).run cache).events =
        (vars.map fun var => [var, method]) ∧
      vars.Nodup ∧
      (∀ early fact late,
        ((definition.extract container).run cache).events = early ++ .fact fact :: late →
          ∀ var ∈ fact.variables, [var, method] ∈ rowsOf .varDeclaringMethod early) ∧
      ∀ extracted, ((definition.extract container).run cache).value = .ok extracted →
        extracted.id = method ∧
          ∀ access ∈ extracted.accesses, ∀ var ∈ access.variables, var ∈ vars := by
  rcases definition.extract_outcome container cache with
    ⟨events_eq, error, value_eq⟩ | ⟨cx, created, later, rfl, quiet, value_eq, events_eq⟩
  · refine ⟨"", [], congrArg (rowsOf _) events_eq, .nil, ?_, ?_⟩
    · intro early fact late split_eq
      have no_events := events_eq.symm.trans split_eq
      simp at no_events
    · intro extracted extracted_eq
      cases value_eq.symm.trans extracted_eq
  · cases code_eq : cx.definition.code with
    | none =>
      rw [cx.extract_of_none code_eq] at value_eq events_eq
      obtain ⟨vars, declares, -⟩ := cx.exists_declares quiet cx.orderly_headerOutputs
      rw [← events_eq] at declares
      refine ⟨cx.id, vars, declares.rows_eq, declares.nodup, declares.before, ?_⟩
      intro extracted extracted_eq
      cases value_eq.symm.trans extracted_eq
      exact ⟨rfl, fun access member => absurd member List.not_mem_nil⟩
    | some code =>
      obtain ⟨account⟩ := cx.exists_account code_eq later
      obtain ⟨vars, declares, complete⟩ := cx.exists_declares quiet account.orderly
      rw [← account.events_eq, ← events_eq] at declares
      refine ⟨cx.id, vars, declares.rows_eq, declares.nodup, declares.before, ?_⟩
      intro extracted extracted_eq
      obtain ⟨-, -, rfl⟩ := account.complete extracted (value_eq.symm.trans extracted_eq)
      refine ⟨rfl, fun access member var var_mem => complete var ?_⟩
      have entered : cx.entryState.accesses = #[] := cx.entryState_same .accesses (by simp)
      rcases account.recites.mentions_accesses access (Array.mem_toList_iff.1 member) with
        early | mentioned
      · simp [entered] at early
      · exact List.mem_append_right _ (List.mem_append_left _ (mentioned var var_mem))

end DalvikFacts
