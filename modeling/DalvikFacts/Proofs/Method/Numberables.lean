import DalvikFacts.Proofs.Method.CallingConvention
import DalvikFacts.Proofs.Method.FieldAccesses

/-!
# What instructions number

The objects of a type that a method allocates are numbered, and so are the throws, field accesses
and invocations of a kind.  One table counts them all, by the text of the type or of the kind.  What
an instruction numbers is told by the tables that it refers to and by the instruction before it, and
it takes the next number of its text.
-/

namespace DalvikFacts

/-- What an instruction numbers: an object of a type, or itself under a kind, with a row of its own
or with a field access that waits. -/
inductive Numberable
  | object (type : String)
  | insn (kind : String)
  | access (kind : String)
  deriving DecidableEq

namespace Numberable

/-- The text that counts. -/
def key : Numberable → String
  | object type => type
  | insn kind | access kind => kind

/-- The kind of an instruction that is numbered. -/
def kind? : Numberable → Option String
  | object _ => none
  | insn kind | access kind => some kind

variable {what : Numberable} {text : String}

theorem key_eq_iff_object (unnamed : what.kind? ≠ some text) :
    what.key = text ↔ what = .object text := by
  cases what with
  | object type => exact Numberable.object.injEq .. ▸ Iff.rfl
  | insn kind | access kind => exact iff_of_false (fun same => unnamed (congrArg some same)) nofun

theorem key_eq_iff_kind (unallocated : what ≠ .object text) :
    what.key = text ↔ what.kind? = some text := by
  cases what with
  | object type => exact iff_of_false (fun same => unallocated (congrArg object same)) nofun
  | insn kind | access kind => exact (Option.some_inj).symm

end Numberable

namespace Container

variable (container : Container)

/-- The type of an array that an instruction fills with registers. -/
def filledType? : Instr → Option String
  | .filledNewArray _ type => (container.typeAt type).toOption.map Descriptor.sourceName
  | _ => none

/-- What an instruction numbers, given the one before it: an array filled with registers is
allocated where it is moved. -/
def numberable? (previous : Option Instr) : Instr → Option Numberable
  | .newInstance _ type | .newArray _ _ type =>
    (container.typeAt type).toOption.map fun found => .object found.sourceName
  | .moveResult .. => (previous.bind container.filledType?).map .object
  | .throw exception => some (.insn (Identifier.throwKind exception.toString))
  | .instanceField access _ _ _ field | .staticField access _ _ field =>
    (container.fieldAt field).toOption.map fun ref =>
      .access (MethodContext.fieldKind access (.ofRef ref))
  | .invoke _ _ method | .invokePolymorphic _ method _ =>
    (container.methodAt method).toOption.map fun ref => .insn (MethodSig.ofRef ref).qualifiedName
  | .invokeCustom _ callSite =>
    (container.callSiteAt callSite).toOption.map fun site => .insn ("invokedynamic " ++ site.name)
  | _ => none

/-- What instructions number, one after the other. -/
def numberables (previous : Option Instr) : List LocatedInstr → List (LocatedInstr × Numberable)
  | [] => []
  | here :: rest =>
    ((container.numberable? previous here.instr).map (here, ·)).toList ++
      numberables (some here.instr) rest

end Container

/-- Something that an instruction numbers, with its number. -/
structure Numbered where
  here : LocatedInstr
  what : Numberable
  number : Nat

namespace Numbered

/-- The identifier with the number. -/
def name (method : String) (entry : Numbered) : String :=
  match entry.what with
  | .object type => Identifier.allocation method type entry.number
  | .insn kind | .access kind => Identifier.instruction method kind entry.number

theorem name_of_object {method type : String} {entry : Numbered}
    (what_eq : entry.what = .object type) :
    entry.name method = Identifier.allocation method type entry.number := by
  rw [name, what_eq]

theorem name_of_kind {method kind : String} {entry : Numbered}
    (kind_eq : entry.what.kind? = some kind) :
    entry.name method = Identifier.instruction method kind entry.number := by
  rw [name]
  cases what_eq : entry.what <;> rw [what_eq] at kind_eq <;> cases kind_eq <;> rfl

/-- The row of an object. -/
def objectRow? (method : String) (entry : Numbered) : Option (List String) :=
  match entry.what with
  | .object type => some [entry.name method, type]
  | _ => none

/-- The first columns of the row of an instruction. -/
def insnRow? (method : String) (entry : Numbered) : Option (List String) :=
  match entry.what with
  | .insn _ => some [entry.name method, toString entry.here.index]
  | _ => none

/-- The identifier and the index of a field access. -/
def access? (method : String) (entry : Numbered) : Option (String × Nat) :=
  match entry.what with
  | .access _ => some (entry.name method, entry.here.index)
  | _ => none

/-- The numbers that a text has counted. -/
def numbersOf (key : String) (entries : List Numbered) : List Nat :=
  (entries.filter (·.what.key = key)).map number

theorem numbersOf_append (key : String) (entries others : List Numbered) :
    numbersOf key (entries ++ others) = numbersOf key entries ++ numbersOf key others := by
  rw [numbersOf, List.filter_append, List.map_append]
  rfl

end Numbered

/-- The relations of the rows of instructions that are numbered. -/
def numberedRelations : List Relation :=
  .throw :: invocationRelations

/-- The first two columns of the rows of numbered instructions: their identifiers and indices. -/
abbrev numberedAmong (facts : List Fact) : List (List String) :=
  readAmong numberedRelations (·.columns.take 2) facts

theorem numberedAmong_eq_invocationsAmong {facts : List Fact}
    (unthrown : ∀ fact ∈ facts, fact.relation ≠ .throw) :
    numberedAmong facts = invocationsAmong facts := by
  rw [numberedAmong, invocationsAmong, readAmong, readAmong]
  refine congrArg (List.map _) (List.filter_congr fun fact member => decide_eq_decide.2 ?_)
  rw [numberedRelations, List.mem_cons, or_iff_right (unthrown fact member)]

theorem Instr.notMem_numberedRelations {instr : Instr} (unnumbered : instr.isNumbered = false)
    {relation : Relation} (own : relation ∈ instr.relations) : relation ∉ numberedRelations := by
  have uninvoked : ¬ instr.isInvocation := by
    cases instr <;> simp_all [isNumbered, isInvocation]
  have unthrown : .throw ∉ instr.relations := by
    cases instr <;> simp_all [isNumbered, relations, MethodContext.resultRelations]
  intro known
  rcases List.mem_cons.1 known with rfl | invoked
  · exact unthrown own
  · exact notMem_relations_of_not_isInvocation uninvoked own invoked

namespace FieldAccess

/-- The identifier and the index of the instruction of a field access. -/
def origin (access : FieldAccess) : String × Nat :=
  (access.insn, access.index)

end FieldAccess

namespace MethodContext

/-- Between two states some facts are those of numbered things, which have the next numbers. -/
structure Numbers (cx : MethodContext) (state : MethodState) (entries : List Numbered)
    (facts : List Fact) (next : MethodState) : Prop where
  objects : rowsIn .normalHeap facts = entries.filterMap (·.objectRow? cx.id)
  insns : numberedAmong facts = entries.filterMap (·.insnRow? cx.id)
  accesses : next.accesses.toList.map FieldAccess.origin =
    state.accesses.toList.map FieldAccess.origin ++ entries.filterMap (·.access? cx.id)
  dense : ∀ key, Numbered.numbersOf key entries =
    List.range' (state.counters.peek key) (Numbered.numbersOf key entries).length
  counted : ∀ key, next.counters.peek key =
    state.counters.peek key + (Numbered.numbersOf key entries).length

variable {cx : MethodContext} {state mid next : MethodState} {facts others : List Fact}
  {here : LocatedInstr}

namespace Numbers

theorem append {entries more : List Numbered} (first : cx.Numbers state entries facts mid)
    (rest : cx.Numbers mid more others next) :
    cx.Numbers state (entries ++ more) (facts ++ others) next where
  objects := by rw [rowsIn_append, first.objects, rest.objects, List.filterMap_append]
  insns := by simp only [readAmong_append, first.insns, rest.insns, List.filterMap_append]
  accesses := by
    rw [rest.accesses, first.accesses, List.filterMap_append, List.append_assoc]
  dense key := by
    rw [Numbered.numbersOf_append, List.length_append, ← List.range'_append_1, ← first.counted key,
      ← rest.dense key, ← first.dense key]
  counted key := by
    rw [rest.counted, first.counted, Numbered.numbersOf_append, List.length_append, Nat.add_assoc]

theorem of_reach {entries : List Numbered} {address : Address} {index : Nat}
    (numbers : cx.Numbers (state.reach address index) entries facts next) :
    cx.Numbers state entries facts next :=
  ⟨numbers.objects, numbers.insns, numbers.accesses, numbers.dense, numbers.counted⟩

theorem silent (objects : rowsIn .normalHeap facts = []) (insns : numberedAmong facts = [])
    (accesses_eq : next.accesses = state.accesses)
    (counters_eq : next.counters = state.counters) : cx.Numbers state [] facts next where
  objects := objects
  insns := insns
  accesses := by rw [accesses_eq]; simp
  dense _ := rfl
  counted _ := by rw [counters_eq]; rfl

/-- One thing has the next number of its text. -/
theorem single {what : Numberable}
    (counters_eq : next.counters = state.counters.advance what.key)
    (objects : rowsIn .normalHeap facts =
      (Numbered.objectRow? cx.id ⟨here, what, state.counters.peek what.key⟩).toList)
    (insns : numberedAmong facts =
      (Numbered.insnRow? cx.id ⟨here, what, state.counters.peek what.key⟩).toList)
    (accesses : next.accesses.toList.map FieldAccess.origin =
      state.accesses.toList.map FieldAccess.origin ++
        (Numbered.access? cx.id ⟨here, what, state.counters.peek what.key⟩).toList) :
    cx.Numbers state [⟨here, what, state.counters.peek what.key⟩] facts next := by
  have only : ∀ key,
      Numbered.numbersOf key [⟨here, what, state.counters.peek what.key⟩] =
        if what.key = key then [state.counters.peek what.key] else [] := by
    intro key
    by_cases same : what.key = key <;> simp [Numbered.numbersOf, same]
  refine ⟨?_, ?_, ?_, fun key => ?_, fun key => ?_⟩
  · rw [objects]
    cases what <;> rfl
  · rw [insns]
    cases what <;> rfl
  · rw [accesses]
    cases what <;> rfl
  · rw [only]
    split
    next same => rw [same]; rfl
    next => rfl
  · rw [only, counters_eq, Counters.peek_advance]
    split
    next same => rw [same]; rfl
    next => rfl

end Numbers

/-! ## Results that wait -/

/-- The type of the array that waits as a result. -/
def filledType? : Producer → Option String
  | .invocation _ => none
  | .filledArray type _ => some type

/-- A result that was made just before an index is an array of the type that the instruction there
fills, or no array if that one fills none. -/
def Carries (cx : MethodContext) (state : MethodState) (index : Nat) (previous : Option Instr) :
    Prop :=
  ∀ pending, state.carry.result = some pending → pending.index < index ∧
    (pending.index + 1 = index →
      filledType? pending.producer = previous.bind cx.container.filledType?)

/-- A result behind an instruction waited before, or was made by the instruction. -/
theorem Planned.result {action : MethodEmit Unit}
    (planned : cx.Planned here state.carry.result action) {pending : PendingResult}
    (result_eq : (action.run state).state.carry.result = some pending) :
    state.carry.result = some pending ∨
      (pending.index = here.index ∧
        filledType? pending.producer = cx.container.filledType? here.instr) := by
  have kept : .result ∉ here.instr.parts → state.carry.result = some pending := by
    intro untouched
    have same := planned.footprint.frame state .result untouched
    exact Eq.trans (Eq.symm same) result_eq
  unfold Planned at planned
  cases instr_eq : here.instr with
  | moveResult kind dst =>
    rw [instr_eq] at planned
    obtain ⟨made, -, -, rfl⟩ := planned
    rw [(cx.says_writeResult here state dst made.producer).run] at result_eq
    have taken : (resultTaken state made.producer).carry.result = none := by
      cases made.producer <;> rfl
    cases taken.symm.trans result_eq
  | filledNewArray elements type =>
    rw [instr_eq] at planned
    obtain ⟨found, found_eq, rfl⟩ := planned
    rw [(cx.says_writeFilledArray here state elements.registers found).run] at result_eq
    cases result_eq
    refine .inr ⟨rfl, ?_⟩
    rw [Container.filledType?, found_eq]
    rfl
  | invoke kind args method =>
    rw [instr_eq] at planned
    obtain ⟨call, -, -, rfl⟩ := planned
    rw [((cx.says_writeCall here state call).bind_silent (.pure () _)).run] at result_eq
    cases result_eq
    exact .inr ⟨rfl, rfl⟩
  | invokePolymorphic args method proto =>
    rw [instr_eq] at planned
    obtain ⟨call, -, -, rfl⟩ := planned
    rw [(cx.says_writePolymorphicCall here state call).run] at result_eq
    cases result_eq
    exact .inr ⟨rfl, rfl⟩
  | invokeCustom args callSite =>
    rw [instr_eq] at planned
    obtain ⟨call, rfl⟩ := planned
    rw [(cx.says_writeCustomCall here state call).run] at result_eq
    cases result_eq
    exact .inr ⟨rfl, rfl⟩
  | _ => exact .inl (kept (by simp [instr_eq, Instr.parts]))

theorem Carries.step {previous : Option Instr} {action : MethodEmit Unit}
    (carries : cx.Carries state here.index previous)
    (planned : cx.Planned here state.carry.result action) :
    cx.Carries (action.run state).state (here.index + 1) (some here.instr) := by
  intro pending result_eq
  rcases planned.result result_eq with early | ⟨index_eq, type_eq⟩
  · have before := (carries pending early).1
    exact ⟨Nat.lt_succ_of_lt before, fun just => absurd (Nat.succ_inj.1 just) (Nat.ne_of_lt before)⟩
  · exact ⟨index_eq ▸ Nat.lt_succ_self _, fun _ => type_eq⟩

/-! ## Instructions -/

section Rows

variable {action : MethodEmit Unit} {outputs : List Output}

theorem Says.counters_run (told : cx.Says action state () outputs next) :
    (action.run state).state.counters = next.counters := by
  rw [told.run]
  rfl

theorem Says.accesses_run (told : cx.Says action state () outputs next) :
    (action.run state).state.accesses = next.accesses := by
  rw [told.run]
  rfl

theorem Says.heaps_run (told : cx.Says action state () outputs next) :
    rowsOf .normalHeap (action.run state).events = heapRows outputs := by
  rw [told.run]
  exact cx.rowsOf_render (by simp) _ _

theorem Says.numbers_object {type : String} (told : cx.Says action state () outputs next)
    (rows : heapRows outputs = [[cx.nextHeap state type, type]])
    (counters_eq : next.counters = state.counters.advance type)
    (accesses_eq : next.accesses = state.accesses)
    (unnamed : numberedAmong (factsOf (action.run state).events) = []) :
    cx.Numbers state [⟨here, .object type, state.counters.peek type⟩]
      (factsOf (action.run state).events) (action.run state).state := by
  refine .single (told.counters_run.trans counters_eq) (told.heaps_run.trans rows) unnamed ?_
  rw [told.accesses_run, accesses_eq]
  exact (List.append_nil _).symm

theorem Says.numbers_insn {kind : String} (told : cx.Says action state () outputs next)
    (rows : numberedAmong (factsAmong outputs) =
      [[cx.nextInsn state kind, toString here.index]])
    (counters_eq : next.counters = state.counters.advance kind)
    (accesses_eq : next.accesses = state.accesses)
    (unallocated : rowsOf .normalHeap (action.run state).events = []) :
    cx.Numbers state [⟨here, .insn kind, state.counters.peek kind⟩]
      (factsOf (action.run state).events) (action.run state).state := by
  have names : numberedAmong (factsOf (action.run state).events) =
      numberedAmong (factsAmong outputs) := by
    rw [told.run, numberedAmong, numberedAmong, readAmong, readAmong]
    exact congrArg _ (cx.filter_factsOf_render (· ∈ numberedRelations) (by decide) _ _)
  refine .single (told.counters_run.trans counters_eq) unallocated (names.trans rows) ?_
  rw [told.accesses_run, accesses_eq]
  exact (List.append_nil _).symm

theorem Says.numbers_call {kind : String} (told : cx.Says action state () outputs next)
    (rows : invocationsAmong (factsAmong outputs) =
      [[cx.nextInsn state kind, toString here.index]])
    (counters_eq : next.counters = state.counters.advance kind)
    (accesses_eq : next.accesses = state.accesses)
    (unallocated : rowsOf .normalHeap (action.run state).events = [])
    (unthrown : rowsOf .throw (action.run state).events = []) :
    cx.Numbers state [⟨here, .insn kind, state.counters.peek kind⟩]
      (factsOf (action.run state).events) (action.run state).state := by
  have no_throw : ∀ fact ∈ factsAmong outputs, fact.relation ≠ .throw := by
    intro fact member same
    have thrown : fact ∈ (factsOf (action.run state).events).filter (·.relation == .throw) := by
      rw [told.run]
      exact List.mem_filter.2 ⟨cx.mem_factsOf_render member _, by simp [same]⟩
    rw [List.map_eq_nil_iff.1 unthrown] at thrown
    cases thrown
  exact told.numbers_insn ((numberedAmong_eq_invocationsAmong no_throw).trans rows) counters_eq
    accesses_eq unallocated

/-- A field access waits under its name. -/
theorem numbers_writeFieldAccess (access : Access) (value : Reg) (object : Option Reg)
    (field : FieldSig) :
    let action := cx.writeFieldAccess here access value object field
    cx.Numbers state [⟨here, .access (fieldKind access field),
        state.counters.peek (fieldKind access field)⟩]
      (factsOf (action.run state).events) (action.run state).state := by
  dsimp only
  have unwritten : ∀ fact ∈ factsOf
      ((cx.writeFieldAccess here access value object field).run state).events,
        fact.relation ∈ [.varDeclaringMethod] := fun fact member =>
    ((footprint_writeFieldAccess ..).within state).facts fact ((mem_factsOf _).1 member)
  refine .single ?_ (rowsIn_eq_nil fun fact member same => ?_)
    (readAmong_eq_nil fun fact member own => ?_) ?_
  · rw [(cx.says_writeFieldAccess here state access value object field).run]
    rfl
  · have own := unwritten fact member
    rw [same] at own
    exact absurd own (by decide)
  · rw [List.mem_singleton.1 (unwritten fact member)] at own
    exact absurd own (by decide)
  · rw [(cx.says_writeFieldAccess here state access value object field).run]
    exact (congrArg (List.map FieldAccess.origin) Array.toList_push).trans List.map_append

end Rows

/-! ## Plans -/

section Plans

variable {cache : SignatureCache} (knows : cache.Knows cx.container)

include knows

theorem exists_ref_of_methodSig {index : Nat} {sig : MethodSig}
    (sig_eq : ((cx.methodSig index).run.run.run cache).1 = .ok sig) :
    ∃ ref, cx.container.methodAt index = .ok ref ∧ sig = .ofRef ref := by
  cases ref_eq : cx.container.methodAt index with
  | ok ref =>
    have found := ((cx.settlesTo_methodSig ref_eq).run knows).1
    exact ⟨ref, rfl, Except.ok.inj (sig_eq.symm.trans found)⟩
  | error missing =>
    have settles : (cx.methodSig index).SettlesTo cx.container (.error (.missingEntry missing)) :=
      SignatureCache.settlesTo_method_missing ref_eq
    cases sig_eq.symm.trans (settles.run knows).1

/-- A planned invocation is one of the method that its instruction refers to. -/
theorem exists_callee_of_plan {index : Nat} {rest : MethodSig → Lookup Call}
    {write : Call → MethodEmit Unit} {action : MethodEmit Unit}
    (callee_eq : ∀ sig, (rest sig).Yields fun call => call.callee = sig)
    (plan_eq : ((do return write (← cx.methodSig index >>= rest) : Lookup _).run.run.run cache).1 =
      .ok action) :
    ∃ ref call, cx.container.methodAt index = .ok ref ∧ call.callee = .ofRef ref ∧
      action = write call := by
  obtain ⟨call, call_eq, rfl⟩ : ∃ call,
      ((cx.methodSig index >>= rest).run.run.run cache).1 = .ok call ∧ action = write call := by
    rw [Lookup.run_bind] at plan_eq
    generalize outcome_eq : (cx.methodSig index >>= rest).run.run.run cache = outcome at plan_eq
    rcases outcome with ⟨error | call, later⟩
    · cases plan_eq
    · cases plan_eq
      exact ⟨call, rfl, rfl⟩
  rw [Lookup.run_bind] at call_eq
  generalize outcome_eq : (cx.methodSig index).run.run.run cache = outcome at call_eq
  rcases outcome with ⟨error | sig, later⟩
  · cases call_eq
  · obtain ⟨ref, ref_eq, rfl⟩ := exists_ref_of_methodSig knows (congrArg Prod.fst outcome_eq)
    exact ⟨ref, call, ref_eq, callee_eq _ later call call_eq, rfl⟩

end Plans

theorem yields_planCustomCall_name (args : Operands) (callSite : Nat) :
    (cx.planCustomCall args callSite).Yields fun call =>
      ∃ site, cx.container.callSiteAt callSite = .ok site ∧ call.name = site.name :=
  .bind (.entry _) fun site site_eq => .bind (.trivial _) fun _ _ => .bind (.trivial _) fun _ _ =>
    .bind (.trivial _) fun _ _ => .bind (.trivial _) fun _ _ => .pure ⟨site, site_eq, rfl⟩

/-- A planned invocation is numbered under the kind that its references say. -/
theorem exists_says_invocation {cache : SignatureCache} (knows : cache.Knows cx.container)
    (invokes : here.instr.isInvocation) (previous : Option Instr) {result : Option PendingResult}
    {action : MethodEmit Unit}
    (plan_eq : ((cx.plan here result).run.run.run cache).1 = .ok action) :
    ∃ kind outputs, cx.container.numberable? previous here.instr = some (.insn kind) ∧
      cx.Says action state () outputs (cx.invoked here state kind) ∧
      invocationsAmong (factsAmong outputs) = [[cx.nextInsn state kind, toString here.index]] := by
  cases instr_eq : here.instr with
  | invoke kind args index =>
    rw [plan, instr_eq] at plan_eq
    obtain ⟨ref, call, ref_eq, callee_eq, rfl⟩ := exists_callee_of_plan knows
      (fun sig => .bind (.trivial _) fun _ _ => .pure rfl) plan_eq
    refine ⟨call.callee.qualifiedName, _, ?_,
      (cx.says_writeCall here state call).bind_silent (.pure () _),
      invocationsAmong_callOutputs _ call⟩
    rw [Container.numberable?, ref_eq, callee_eq]
    rfl
  | invokePolymorphic args index proto =>
    rw [plan, instr_eq] at plan_eq
    obtain ⟨ref, call, ref_eq, callee_eq, rfl⟩ := exists_callee_of_plan knows
      (fun sig => .bind (.trivial _) fun _ _ => .bind (.trivial _) fun _ _ => .pure rfl) plan_eq
    refine ⟨call.callee.qualifiedName, _, ?_, cx.says_writePolymorphicCall here state call,
      invocationsAmong_polymorphicCallOutputs _ call⟩
    rw [Container.numberable?, ref_eq, callee_eq]
    rfl
  | invokeCustom args callSite =>
    have yields : (cx.plan here result).Yields fun action =>
        ∃ site call, cx.container.callSiteAt callSite = .ok site ∧ call.name = site.name ∧
          action = cx.writeCustomCall here call := by
      rw [plan, instr_eq]
      refine .bind (yields_planCustomCall_name args callSite) fun call named => ?_
      obtain ⟨site, site_eq, name_eq⟩ := named
      exact .pure ⟨site, call, site_eq, name_eq, rfl⟩
    obtain ⟨site, call, site_eq, name_eq, rfl⟩ := yields cache action plan_eq
    refine ⟨siteKind call, _, ?_, cx.says_writeCustomCall here state call,
      invocationsAmong_customCallOutputs _ call⟩
    rw [Container.numberable?, site_eq, siteKind, name_eq]
    rfl
  | _ => simp [instr_eq, Instr.isInvocation] at invokes

/-- What an instruction numbers in a state. -/
def nextEntries (state : MethodState) (here : LocatedInstr) (what : Option Numberable) :
    List Numbered :=
  (what.map fun what => ⟨here, what, state.counters.peek what.key⟩).toList

theorem map_nextEntries (state : MethodState) (here : LocatedInstr) (what : Option Numberable) :
    (nextEntries state here what).map (fun entry => (entry.here, entry.what)) =
      (what.map (here, ·)).toList := by
  cases what <;> rfl

/-- An instruction numbers what its references and the instruction before it say. -/
theorem numbers_of_plan {cache : SignatureCache} (knows : cache.Knows cx.container)
    {previous : Option Instr} {action : MethodEmit Unit}
    (plan_eq : ((cx.plan here state.carry.result).run.run.run cache).1 = .ok action)
    (carries : cx.Carries state here.index previous) :
    cx.Numbers state
      (nextEntries state here (cx.container.numberable? previous here.instr))
      (factsOf (action.run state).events) (action.run state).state := by
  have planned := yields_plan cx here _ cache action plan_eq
  have within := planned.footprint.within state
  have unnamed : here.instr.isNumbered = false →
      numberedAmong (factsOf (action.run state).events) = [] :=
    fun unnumbered => readAmong_eq_nil fun fact member =>
      Instr.notMem_numberedRelations unnumbered (within.facts fact ((mem_factsOf _).1 member))
  have unwritten : ∀ relation ∉ here.instr.relations,
      rowsOf relation (action.run state).events = [] :=
    fun relation absent => within.rowsOf_eq_nil absent
  by_cases invokes : here.instr.isInvocation
  · obtain ⟨kind, outputs, what_eq, told, rows⟩ :=
      exists_says_invocation knows invokes previous plan_eq
    rw [what_eq]
    have apart : .normalHeap ∉ here.instr.relations ∧ .throw ∉ here.instr.relations := by
      cases instr_eq : here.instr <;>
        simp_all [Instr.isInvocation, Instr.relations, callRelations]
    exact told.numbers_call rows rfl rfl (unwritten _ apart.1) (unwritten _ apart.2)
  cases instr_eq : here.instr with
  | newInstance dst type =>
    rw [Planned, instr_eq] at planned
    rw [instr_eq] at unnamed
    obtain ⟨found, found_eq, rfl⟩ := planned
    rw [Container.numberable?, found_eq]
    exact (cx.says_writeNewInstance here state dst found.sourceName).numbers_object
      (heapRows_allocated _ _ _ false) rfl rfl (unnamed rfl)
  | newArray dst size type =>
    rw [Planned, instr_eq] at planned
    rw [instr_eq] at unnamed
    obtain ⟨found, found_eq, rfl⟩ := planned
    rw [Container.numberable?, found_eq]
    exact (cx.says_writeNewArray here state dst size found).numbers_object
      (heapRows_newArrayOutputs ..) rfl rfl (unnamed rfl)
  | moveResult kind dst =>
    rw [Planned, instr_eq] at planned
    rw [instr_eq] at unnamed
    obtain ⟨pending, result_eq, behind, rfl⟩ := planned
    rw [Container.numberable?, ← (carries pending result_eq).2 behind]
    cases producer_eq : pending.producer with
    | invocation insn =>
      rw [producer_eq] at unnamed
      have told := cx.says_writeResult here state dst (.invocation insn)
      exact .silent told.heaps_run (unnamed rfl) told.accesses_run told.counters_run
    | filledArray type elements =>
      rw [producer_eq] at unnamed
      exact (cx.says_writeResult here state dst (.filledArray type elements)).numbers_object
        (heapRows_resultOutputs ..) rfl rfl (unnamed rfl)
  | throw exception =>
    rw [Planned, instr_eq] at planned
    rw [instr_eq] at unwritten
    subst planned
    exact (cx.says_writeThrow here state exception).numbers_insn rfl rfl rfl
      (unwritten _ (by simp [Instr.relations]))
  | instanceField access kind value object index =>
    rw [plan, instr_eq] at plan_eq
    obtain ⟨ref, ref_eq, rfl⟩ := exists_ref_of_plan knows plan_eq
    rw [Container.numberable?, ref_eq]
    exact numbers_writeFieldAccess access value (some object) (.ofRef ref)
  | staticField access kind value index =>
    rw [plan, instr_eq] at plan_eq
    obtain ⟨ref, ref_eq, rfl⟩ := exists_ref_of_plan knows plan_eq
    rw [Container.numberable?, ref_eq]
    exact numbers_writeFieldAccess access value none (.ofRef ref)
  | invoke | invokePolymorphic | invokeCustom => exact absurd (by rw [instr_eq]; rfl) invokes
  | _ =>
    have uncounted := planned.footprint.frame state .counters
    have unaccessed := planned.footprint.frame state .accesses
    rw [instr_eq] at unnamed unwritten uncounted unaccessed
    exact .silent (unwritten _ (by simp [Instr.relations])) (unnamed rfl)
      (unaccessed (by simp [Instr.parts])) (uncounted (by simp [Instr.parts]))

end MethodContext
end DalvikFacts
