import DalvikFacts.Proofs.Class.Outcome
import DalvikFacts.Proofs.Run.Pool

/-!
# What workers leave

A worker on a group of classes leaves the ledgers of its classes: the rows of each, and what is
reported of it.  Reports add to the hierarchy and to the counters without regard to what is there
already, except for super classes, of which every class has to have only one.
-/

namespace DalvikFacts

namespace Hierarchy

theorem references_linkSuper {hierarchy linked : Hierarchy} {cls superName : String}
    (linked_eq : hierarchy.linkSuper cls superName = .ok linked) :
    linked.references = hierarchy.references := by
  cases super_eq : hierarchy.superOf? cls with
  | some previous =>
    rw [linkSuper_of_superOf? super_eq] at linked_eq
    split at linked_eq
    next => cases linked_eq; rfl
    next => cases linked_eq
  | none =>
    rw [linkSuper_of_new super_eq] at linked_eq
    cases linked_eq
    rfl

end Hierarchy

/-- An entry that is neither the row of a phantom entity nor an access that becomes one. -/
def Contribution.Plain : Contribution → Prop
  | fact found => found.relation ∉ phantomRelations
  | access found => found.relation ∉ phantomRelations
  | _ => True

/-- A ledger of plain entries. -/
def Ledger.Plain (ledger : Ledger) : Prop :=
  ∀ entry ∈ ledger, entry.Plain

namespace Ledger.Plain

variable {ledger others : Ledger}

theorem zero : Plain 0 := by
  intro entry member
  simp at member

theorem add (first : ledger.Plain) (second : others.Plain) : Ledger.Plain (ledger + others) := by
  intro entry member
  rcases Multiset.mem_add.1 member with member | member
  · exact first entry member
  · exact second entry member

theorem sum {ledgers : List Ledger} (all : ∀ ledger ∈ ledgers, ledger.Plain) :
    Ledger.Plain ledgers.sum := by
  induction ledgers with
  | nil => exact zero
  | cons ledger rest induction =>
    rw [List.sum_cons]
    exact (all ledger (by simp)).add (induction fun other member => all other (by simp [member]))

theorem ofEvents {events : List Event} (plain : PlainEvents events) :
    (Ledger.ofEvents events).Plain := by
  intro entry member
  obtain ⟨fact, fact_mem, rfl⟩ := List.mem_map.1 (Multiset.mem_coe.1 member)
  exact fun phantom => plain.facts fact ((mem_factsOf events).1 fact_mem)
    (List.mem_append_left _ phantom)

end Ledger.Plain

theorem Ledger.ofEvents_append (events others : List Event) :
    Ledger.ofEvents (events ++ others) = .ofEvents events + .ofEvents others := by
  rw [ofEvents, factsOf_append, List.map_append, ← Multiset.coe_add]
  rfl

/-- A run has left a ledger, of which the super classes are allowed ones, and has registered
references. -/
structure RunState.Records (allowed : String → String → Prop) (references : References)
    (ledger : Ledger) (state : RunState) : Prop where
  represents : state.Represents ledger
  linked : ∀ cls superName, .link cls superName ∈ ledger → allowed cls superName
  references_eq : state.hierarchy.references = references

/-- A run has left a ledger, and no group has failed. -/
structure RunState.Holds (allowed : String → String → Prop) (references : References)
    (ledger : Ledger) (state : RunState) : Prop
    extends Records allowed references ledger state where
  errors_eq : state.errors = 0

section Entries

variable {allowed : String → String → Prop} {references : References} {ledger added : Ledger}
  {state next : RunState}

/-- A change that adds entries, of which the links are allowed, and touches no reference. -/
theorem RunState.Records.add (records : state.Records allowed references ledger)
    (represents : next.Represents (ledger + added))
    (linked : ∀ cls superName, .link cls superName ∈ added → allowed cls superName)
    (references_eq : next.hierarchy.references = state.hierarchy.references) :
    next.Records allowed references (ledger + added) where
  represents := represents
  linked cls superName member :=
    (Multiset.mem_add.1 member).elim (records.linked cls superName) (linked cls superName)
  references_eq := references_eq.trans records.references_eq

theorem RunState.Holds.add (holds : state.Holds allowed references ledger)
    (represents : next.Represents (ledger + added))
    (linked : ∀ cls superName, .link cls superName ∈ added → allowed cls superName)
    (references_eq : next.hierarchy.references = state.hierarchy.references)
    (errors_eq : next.errors = state.errors) : next.Holds allowed references (ledger + added) where
  toRecords := holds.toRecords.add represents linked references_eq
  errors_eq := errors_eq.trans holds.errors_eq

end Entries

/-- What workers on a container share when a ledger is left: besides, only signatures of the
container are kept. -/
structure WorkState.Shares (container : Container) (allowed : String → String → Prop)
    (references : References) (ledger : Ledger) (state : WorkState) : Prop
    extends RunState.Holds allowed references ledger state.run where
  cache : state.cache.Knows container

namespace Work

variable {container : Container} {allowed : String → String → Prop} {references : References}

/-- A worker leaves a ledger whatever the others do on the container. -/
abbrev Leaves {α : Type} (container : Container) (allowed : String → String → Prop)
    (references : References) (work : Work α) (good : α → Prop) (ledger : Ledger) : Prop :=
  Script.Leaves (WorkState.Shares container allowed references) good work ledger

/-- The steps of an extraction leave their rows. -/
theorem leaves_hoist {α : Type} {holds : Ledger → WorkState → Prop}
    (known : ∀ ledger state, holds ledger state → state.cache.Knows container)
    (moved : ∀ ledger cache run found events, holds ledger ⟨cache, run⟩ →
      SignatureCache.Knows container found → holds (ledger + .ofEvents events) ⟨found, run⟩)
    {script : Script (Emit SignatureCache) α} {good : α → Prop} {events : List Event}
    (settles : script.Settles (SignatureCache.Knows container) good events) :
    (script.hoist fun _ => onCache).Leaves holds good (.ofEvents events) := by
  induction script generalizing events with
  | done value =>
    obtain ⟨holds_value, rfl⟩ := settles
    exact ⟨holds_value, rfl⟩
  | step action next induction =>
    rintro before ⟨cache, run⟩ holds_before
    obtain ⟨kept, later, rfl, rest⟩ := settles cache (known _ _ holds_before)
    exact ⟨.ofEvents (action.run cache).events, .ofEvents later, Ledger.ofEvents_append ..,
      moved _ _ _ _ _ holds_before kept, Ledger.facts_ofEvents _, induction _ rest⟩

theorem leaves_ofExtract {α : Type} {action : Extract α} {outcome : Except ExtractionError α}
    {events : List Event}
    (settles : action.SettlesTo (SignatureCache.Knows container) outcome events) :
    Leaves container allowed references (ofExtract action).run (· = outcome)
      (.ofEvents events) := by
  refine leaves_hoist (fun _ _ shares => shares.cache) ?_ settles
  intro ledger cache run found events shares kept
  have linkless : ∀ cls superName, .link cls superName ∈ Ledger.ofEvents events →
      allowed cls superName := by
    simp [Ledger.ofEvents]
  exact
    { toHolds := shares.toHolds.add (shares.represents.addEvents _) linkless rfl rfl
      cache := kept }

section Steps

variable {before : Ledger} {state : WorkState} {added : Ledger}

theorem leaves_register {change : Hierarchy → Hierarchy} (rowless : added.facts = 0)
    (linkless : ∀ cls superName, .link cls superName ∉ added)
    (kept : ∀ hierarchy, (change hierarchy).references = hierarchy.references)
    (enters : ∀ (state : RunState) (ledger : Ledger), state.Represents ledger →
      RunState.Represents { state with hierarchy := change state.hierarchy } (ledger + added)) :
    Leaves container allowed references (register change) (fun _ => True) added := by
  refine .atom fun before state shares => ⟨trivial, ?_, rowless⟩
  have represents := enters state.run before shares.represents
  exact
    { toHolds := shares.toHolds.add represents
        (fun cls superName new => absurd new (linkless cls superName)) (kept _) rfl
      cache := shares.cache }

theorem leaves_count {change : Totals → Totals} {more : Totals}
    (change_eq : ∀ totals, change totals = totals.plus more) :
    Leaves container allowed references (count change) (fun _ => True) {.counted more} := by
  refine .atom fun before state shares => ⟨trivial, ?_, rfl⟩
  have represents := shares.represents.count change_eq
  exact
    { toHolds := shares.toHolds.add represents (by simp) rfl rfl
      cache := shares.cache }

theorem leaves_reportSuperClass {cls superName : String} (is_allowed : allowed cls superName)
    (only : ∀ other, allowed cls other → other = superName) :
    Leaves container allowed references (Run.reportSuperClass cls superName).run (· = .ok ())
      {.link cls superName} := by
  refine .atom fun before state shares => ?_
  obtain ⟨linked, linked_eq, represents⟩ := shares.represents.linkSuper
    fun previous member => only previous (shares.linked cls previous member)
  have all_allowed : ∀ other super,
      .link other super ∈ ({.link cls superName} : Ledger) → allowed other super := by
    intro other super member
    cases Multiset.mem_singleton.1 member
    exact is_allowed
  have kept := Hierarchy.references_linkSuper linked_eq
  dsimp only [StateT.run]
  rw [linked_eq]
  refine ⟨rfl, ?_, rfl⟩
  exact
    { toHolds := shares.toHolds.add represents all_allowed kept rfl
      cache := shares.cache }

end Steps

section Sequences

variable {α β : Type} {holds : Ledger → WorkState → Prop} {ledger others : Ledger}
  {good : Except ExtractionError β → Prop}

/-- What succeeds goes on. -/
theorem leaves_bind {action : ExceptT ExtractionError Work α} {value : α}
    {next : α → ExceptT ExtractionError Work β}
    (first : Script.Leaves holds (· = .ok value) action.run ledger)
    (rest : Script.Leaves holds good (next value).run others) :
    Script.Leaves holds good (action >>= next).run (ledger + others) := by
  rw [ExceptT.run_bind]
  refine Script.Leaves.bind first ?_
  rintro _ rfl
  exact rest

theorem leaves_lift_bind {work : Work α} {mid : α → Prop}
    {next : α → ExceptT ExtractionError Work β}
    (first : Script.Leaves holds mid work ledger)
    (rest : ∀ value, mid value → Script.Leaves holds good (next value).run others) :
    Script.Leaves holds good (ExceptT.lift work >>= next).run (ledger + others) := by
  rw [ExceptT.run_bind, ExceptT.run_lift, bind_map_left]
  exact Script.Leaves.bind first rest

theorem leaves_attempt {action : ExceptT ExtractionError Work α}
    {outcome : Except ExtractionError α}
    (first : Script.Leaves holds (· = outcome) action.run ledger) :
    Script.Leaves holds (· = .ok outcome) (Script.attempt action).run ledger := by
  unfold Script.attempt
  rw [ExceptT.run_lift, map_eq_pure_bind, ← add_zero ledger]
  refine Script.Leaves.bind first ?_
  rintro _ rfl
  exact .pure rfl

theorem leaves_lift {work : Work Unit} (first : Script.Leaves holds (fun _ => True) work ledger) :
    Script.Leaves holds (· = .ok ()) (ExceptT.lift work : ExceptT ExtractionError Work Unit).run
      ledger := by
  rw [ExceptT.run_lift, map_eq_pure_bind, ← add_zero ledger]
  exact Script.Leaves.bind first fun _ _ => .pure rfl

end Sequences

end Work

namespace Ledger

/-- The entries of the counts of a class. -/
def ofCounts (cls : ExtractedClass) : Ledger :=
  {.counted ⟨1, 0, 0, 0⟩} + ({.counted ⟨0, cls.methods, 0, 0⟩} +
    ({.counted ⟨0, 0, cls.instructions, 0⟩} + {.counted ⟨0, 0, 0, cls.failures⟩}))

/-- The entry of the super class of a class, if it has one. -/
def ofSuper (cls : ExtractedClass) : Ledger :=
  match cls.superClass with
  | none => 0
  | some superName => {.link cls.name superName}

/-- The entries of what is reported of a class. -/
def ofReport (cls : ExtractedClass) : Ledger :=
  cls.definedMethods.map Contribution.method + (cls.accesses.map Contribution.access +
    (ofSuper cls + .ofFields cls.name cls.definedFields))

end Ledger

namespace Run

open Work

variable {container : Container} {allowed : String → String → Prop} {references : References}

theorem leaves_countClass (cls : ExtractedClass) :
    Leaves container allowed references (countClass cls) (fun _ => True) (.ofCounts cls) := by
  refine .bind (leaves_count fun totals => ?_) fun _ _ => .bind (leaves_count fun totals => ?_)
    fun _ _ => .bind (leaves_count fun totals => ?_) fun _ _ => leaves_count fun totals => ?_
  all_goals rfl

/-- A report leaves its entries, when the class may have no other super class. -/
theorem leaves_report {cls : ExtractedClass}
    (is_allowed : ∀ superName, cls.superClass = some superName → allowed cls.name superName)
    (functional : ∀ superName other, allowed cls.name superName → allowed cls.name other →
      other = superName) :
    Leaves container allowed references (report cls).run (· = .ok ()) (.ofReport cls) := by
  have methods : Leaves container allowed references
      (register (·.defineMethods cls.definedMethods)) (fun _ => True)
      (cls.definedMethods.map Contribution.method) :=
    leaves_register (Ledger.facts_eq_zero _ (by simp [Contribution.fact?])) (by simp)
      (fun _ => rfl) fun _ _ represents => represents.defineMethods _
  have accesses : Leaves container allowed references
      (register (·.queueAccesses cls.accesses)) (fun _ => True)
      (cls.accesses.map Contribution.access) :=
    leaves_register (Ledger.facts_eq_zero _ (by simp [Contribution.fact?])) (by simp)
      (fun _ => rfl) fun _ _ represents => represents.queueAccesses _
  have fields : Leaves container allowed references
      (register (·.defineFields cls.name cls.definedFields)) (fun _ => True)
      (.ofFields cls.name cls.definedFields) :=
    leaves_register (Ledger.facts_eq_zero _ (by simp [Ledger.ofFields, Contribution.fact?]))
      (by simp [Ledger.ofFields]) (fun _ => rfl) fun _ _ represents => represents.defineFields _ _
  refine leaves_lift_bind methods fun _ _ => leaves_lift_bind accesses fun _ _ => ?_
  unfold Ledger.ofSuper
  cases super_eq : cls.superClass with
  | none =>
    rw [zero_add]
    exact leaves_lift fields
  | some superName =>
    have linked : Leaves container allowed references (reportSuperClass cls.name superName).run
        (· = .ok ()) {.link cls.name superName} :=
      leaves_reportSuperClass (is_allowed superName super_eq) fun other =>
        functional superName other (is_allowed superName super_eq)
    exact leaves_bind linked (leaves_lift fields)

/-- The entries of a class: its rows, its counts and what is reported of it. -/
def classLedger (extracted : ExtractedClass) (events : List Event) : Ledger :=
  .ofEvents events + (.ofCounts extracted + .ofReport extracted)

theorem leaves_extractClass {options : Options} {cls : ClassDef} {extracted : ExtractedClass}
    {events : List Event} (settles : (cls.extract options container).SettlesTo
      (SignatureCache.Knows container) (.ok extracted) events)
    (is_allowed : ∀ superName, extracted.superClass = some superName →
      allowed extracted.name superName)
    (functional : ∀ cls superName other, allowed cls superName → allowed cls other →
      other = superName) :
    Leaves container allowed references (extractClass options container cls).run (· = .ok ())
      (classLedger extracted events) :=
  leaves_bind (leaves_ofExtract settles) <|
    leaves_lift_bind (leaves_countClass extracted) fun _ _ =>
      leaves_report is_allowed (functional extracted.name)

theorem plain_classLedger {extracted : ExtractedClass} {events : List Event}
    (plain : PlainEvents events)
    (accesses : ∀ access ∈ extracted.accesses, access.relation ∈ accessRelations) :
    (classLedger extracted events).Plain := by
  have disjoint : ∀ relation ∈ accessRelations, relation ∉ phantomRelations := by decide
  refine (Ledger.Plain.ofEvents plain).add (.add ?_ ?_)
  · intro entry member
    simp only [Ledger.ofCounts, Multiset.mem_add, Multiset.mem_singleton] at member
    rcases member with rfl | rfl | rfl | rfl <;> exact trivial
  · intro entry member
    simp only [Ledger.ofReport, Multiset.mem_add] at member
    rcases member with member | member | member | member
    · obtain ⟨id, -, rfl⟩ := List.mem_map.1 (Multiset.mem_coe.1 member)
      exact trivial
    · obtain ⟨access, access_mem, rfl⟩ := List.mem_map.1 (Multiset.mem_coe.1 member)
      exact disjoint _ (accesses access access_mem)
    · unfold Ledger.ofSuper at member
      split at member
      · simp at member
      · cases Multiset.mem_singleton.1 member
        exact trivial
    · rcases List.mem_cons.1 (Multiset.mem_coe.1 member) with rfl | member
      · exact trivial
      · obtain ⟨field, -, rfl⟩ := List.mem_map.1 member
        exact trivial

/-- When failures are not to stop it, a class with an allowed super class leaves one plain ledger,
however many classes are taken in a row. -/
theorem exists_classLedger {options : Options} (tolerant : options.failFast = false)
    (container : Container) {cls : ClassDef}
    (is_allowed : ∀ superName, cls.superName? = some superName → allowed cls.name superName)
    (functional : ∀ cls superName other, allowed cls superName → allowed cls other →
      other = superName) :
    ∃ ledger : Ledger, ledger.Plain ∧ ∀ size references, Leaves container allowed references
      (extractClass { options with groupSize := size } container cls).run (· = .ok ()) ledger := by
  obtain ⟨extracted, events, settles, plain, name_eq, super_eq, accesses⟩ :=
    cls.succeeds tolerant container
  refine ⟨classLedger extracted events, plain_classLedger plain accesses, fun size references => ?_⟩
  have leaves : Leaves container allowed references (extractClass options container cls).run
      (· = .ok ()) (classLedger extracted events) :=
    leaves_extractClass settles (by rwa [name_eq, super_eq]) functional
  exact leaves

/-- A worker whose classes leave their ledgers leaves all of them. -/
theorem leaves_worker {options : Options} {group : List ClassDef} {ledgerOf : ClassDef → Ledger}
    (classes : ∀ cls ∈ group, Leaves container allowed references
      (extractClass options container cls).run (· = .ok ()) (ledgerOf cls)) :
    Leaves container allowed references (worker options container group) (fun _ => True)
      (group.map ledgerOf).sum := by
  have extracted : Leaves container allowed references (extractGroup options container group).run
      (· = .ok ()) (group.map ledgerOf).sum := by
    induction group with
    | nil => exact .pure rfl
    | cons cls rest induction =>
      rw [List.map_cons, List.sum_cons]
      have attempted : Leaves container allowed references
          (Script.attempt (extractClass options container cls)).run (· = .ok (.ok ()))
          (ledgerOf cls) :=
        leaves_attempt (classes cls (by simp))
      exact leaves_bind attempted (induction fun other member => classes other (by simp [member]))
  rw [← add_zero (group.map ledgerOf).sum]
  refine Script.Leaves.bind extracted ?_
  rintro _ rfl
  exact .pure trivial

/-- Whatever turns the workers on a container take, they leave their ledgers together. -/
theorem extractClasses_of_workers {options : Options} {holds : Ledger → WorkState → Prop}
    {ledgerOf : List ClassDef → Ledger} (workers : ∀ group ∈
      groupsOf options.groupSize (accepted options container),
      Script.Leaves holds (fun _ => True) (worker options container group) (ledgerOf group))
    (turns : List Nat) {before : Ledger} {state : RunState}
    (holds_before : holds before ⟨.empty, state⟩) :
    let outcome := (extractClasses options container turns).run state
    let left :=
      ((groupsOf options.groupSize (accepted options container)).map ledgerOf).sum
    holds (before + left) ⟨outcome.value, outcome.state⟩ ∧
      left.facts = factsOf outcome.events := by
  let groups := groupsOf options.groupSize (accepted options container)
  let pool := groups.map fun group => (worker options container group, ledgerOf group)
  have leaves : ∀ member ∈ pool, Script.Leaves holds (fun _ => True) member.1 member.2 := by
    intro member member_mem
    obtain ⟨group, group_mem, rfl⟩ := List.mem_map.1 member_mem
    exact workers group group_mem
  have workers_eq : pool.map Prod.fst = groups.map (worker options container) := by
    rw [List.map_map]
    rfl
  have ledger_eq : Script.poolLedger pool = (groups.map ledgerOf).sum := by
    unfold Script.poolLedger
    rw [List.map_map]
    rfl
  have together := Script.interleave_leaves turns leaves holds_before
  rw [workers_eq, ledger_eq] at together
  exact together

end Run

end DalvikFacts
