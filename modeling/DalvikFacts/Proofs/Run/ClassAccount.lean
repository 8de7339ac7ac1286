import DalvikFacts.Proofs.Class.Members
import DalvikFacts.Proofs.Run.Account
import DalvikFacts.Proofs.Run.Schedule

/-!
# Accounts of classes

What the extraction and the report of a class leave in a run, on whatever hierarchy it starts and
whether failures are to stop it or not.  All of it is known beforehand but for one thing: the super
class that is registered when the class is reported.  When that is not its own one, the class is
refused; its methods and field accesses are registered nevertheless, its fields are not.
-/

namespace DalvikFacts

theorem Extract.report_of_fails {α : Type} {action : Extract α} (sound : action.fails = false) :
    action.report.error? = none := by
  unfold fails at sound
  unfold report alone
  cases value_eq : (action.run.perform .empty).value with
  | ok value => rfl
  | error error => simp [value_eq, Except.isOk, Except.toBool] at sound

/-- The entries of methods that are defined. -/
def Ledger.ofMethods (ids : List String) : Ledger :=
  (ids.map Contribution.method : List Contribution)

/-- The entries of field accesses. -/
def Ledger.ofAccesses (accesses : List FieldAccess) : Ledger :=
  (accesses.map Contribution.access : List Contribution)

namespace ClassDef

variable {options : Options} {container : Container} {cls : ClassDef}

/-! ## Extractions -/

theorem reports_of_fails (sound : cls.fails container = false) :
    ∀ report ∈ cls.reports container, report.error? = none := by
  obtain ⟨fields_sound, methods_sound⟩ := Bool.or_eq_false_iff.1 sound
  simp only [reports, FieldDef.report_eq, MethodDef.report]
  rw [List.forall_mem_append, List.forall_mem_map, List.forall_mem_map]
  rw [List.any_eq_false] at fields_sound methods_sound
  exact ⟨fun field member => Extract.report_of_fails (by simpa using fields_sound field member),
    fun method member => Extract.report_of_fails (by simpa using methods_sound method member)⟩

/-- An extraction that comes to a value leaves what the members leave that do not fail, and has
written the rows of all members. -/
theorem alone_of_ok {left : ExtractedClass}
    (value_eq : (cls.extract options container).alone.value = .ok left) :
    left = cls.summary container ∧ cls.facts options container =
      cls.headerFacts options ++ (cls.reports container).flatMap MemberReport.facts := by
  cases failFast : options.failFast with
  | false =>
    obtain ⟨summary_eq, -, events_eq⟩ :=
      (settlesTo_extract failFast container cls).perform SignatureCache.knows_empty
    exact ⟨Except.ok.inj (value_eq.symm.trans summary_eq),
      (congrArg factsOf events_eq).trans (cls.factsOf_events options container)⟩
  | true =>
    obtain ⟨outcome, settles, ok_eq, -⟩ := (failsIf_extract failFast container).settles_alone
    obtain ⟨outcome_eq, -, -⟩ := settles.perform SignatureCache.knows_empty
    obtain rfl : outcome = .ok left := outcome_eq.symm.trans value_eq
    obtain ⟨summary_eq, facts_eq⟩ := extract_of_sound options SignatureCache.knows_empty
      (reports_of_fails ((Bool.not_eq_true' _).mp ok_eq.symm))
    exact ⟨Except.ok.inj (value_eq.symm.trans summary_eq), facts_eq⟩

theorem alone_of_tolerant (tolerant : options.failFast = false) :
    (cls.extract options container).alone.value = .ok (cls.summary container) :=
  ((settlesTo_extract tolerant container cls).perform SignatureCache.knows_empty).1

/-- The tidings of a class: its rows. -/
def told (options : Options) (container : Container) (cls : ClassDef) : Multiset Event :=
  ((cls.facts options container).map Event.fact : List Event)

theorem plain_alone (options : Options) (container : Container) (cls : ClassDef) :
    PlainEvents (cls.extract options container).alone.events := by
  obtain ⟨outcome, events, settles, plain, -⟩ := cls.decided options container
  obtain ⟨-, -, events_eq⟩ := settles.perform SignatureCache.knows_empty
  exact events_eq ▸ plain

/-! ## What is left of a class -/

/-- Why a class is refused: the super class that is known is not the one that it has. -/
def refusal? (cls : ClassDef) (known : Option String) : Option ExtractionError :=
  match cls.superName?, known with
  | some superName, some known =>
    if known = superName then none else some (.superClassConflict cls.name known superName)
  | _, _ => none

/-- The super class of a class is an allowed one. -/
def Linkable (allowed : String → String → Prop) (cls : ClassDef) : Prop :=
  ∀ superName, cls.superName? = some superName → allowed cls.name superName

/-- The link of a class with a super class to the one that is known. -/
def links (cls : ClassDef) (known : Option String) : Ledger :=
  match cls.superName?, known with
  | some _, some known => {.link cls.name known}
  | _, _ => 0

/-- What is left of an error with a class: it is skipped and counted, unless it ends its group. -/
def skipAccount (options : Options) (cls : ClassDef) (error : ExtractionError) : Account :=
  if options.failFast then 0
  else ({.counted ⟨0, 0, 0, 1⟩}, {.notice (.classSkipped cls.name error)})

theorem skipAccount_of_failFast (failFast : options.failFast = true) (error : ExtractionError) :
    cls.skipAccount options error = 0 :=
  if_pos failFast

theorem skipAccount_of_tolerant (tolerant : options.failFast = false) (error : ExtractionError) :
    cls.skipAccount options error =
      ({.counted ⟨0, 0, 0, 1⟩}, {.notice (.classSkipped cls.name error)}) :=
  if_neg (by simp [tolerant])

/-- What is registered of a class before its super class is. -/
def registered (container : Container) (cls : ClassDef) : Ledger :=
  let left := cls.summary container
  .ofCounts left + (.ofMethods left.definedMethods + .ofAccesses left.accesses)

/-- What is left of a class that is extracted, when the given super class is the one that is known
then. -/
def account (options : Options) (container : Container) (cls : ClassDef) (known : Option String) :
    Account :=
  (cls.registered container + cls.links known, cls.told options container) +
    match cls.refusal? known with
    | none => (Ledger.ofFields cls.name (cls.summary container).definedFields, 0)
    | some error => cls.skipAccount options error

section Entries

variable {known : Option String} {entry : Contribution}

theorem exists_of_mem_links (member : entry ∈ cls.links known) :
    ∃ superName, entry = .link cls.name superName := by
  unfold links at member
  cases super_eq : cls.superName? with
  | none =>
    rw [super_eq] at member
    exact absurd member (Multiset.notMem_zero _)
  | some own =>
    rw [super_eq] at member
    cases known with
    | none => exact absurd member (Multiset.notMem_zero _)
    | some superName => exact ⟨superName, Multiset.mem_singleton.1 member⟩

theorem exists_of_mem_skipAccount {error : ExtractionError}
    (member : entry ∈ (cls.skipAccount options error).1) : ∃ totals, entry = .counted totals := by
  cases failFast : options.failFast with
  | true =>
    rw [skipAccount_of_failFast failFast] at member
    exact absurd member (Multiset.notMem_zero _)
  | false =>
    rw [skipAccount_of_tolerant failFast] at member
    exact ⟨_, Multiset.mem_singleton.1 member⟩

theorem mem_account (definite : ∀ totals, entry ≠ .counted totals) :
    entry ∈ (cls.account options container known).1 ↔
      entry ∈ cls.registered container ∨ entry ∈ cls.links known ∨
        cls.refusal? known = none ∧
          entry ∈ Ledger.ofFields cls.name (cls.summary container).definedFields := by
  unfold account
  rw [Prod.fst_add, Multiset.mem_add, Multiset.mem_add, or_assoc]
  cases cls.refusal? known with
  | none => simp
  | some error =>
    have uncounted : entry ∉ (cls.skipAccount options error).1 := fun member =>
      (exists_of_mem_skipAccount member).elim definite
    simp [uncounted]

theorem mem_account_access {access : FieldAccess} :
    .access access ∈ (cls.account options container known).1 ↔
      access ∈ (cls.summary container).accesses := by
  have unlinked : .access access ∉ cls.links known := fun member => by
    simpa using exists_of_mem_links member
  rw [mem_account (by simp)]
  simp [registered, Ledger.ofCounts, Ledger.ofMethods, Ledger.ofAccesses, Ledger.ofFields, unlinked]

theorem mem_account_field {field : DefinedField} :
    .field field ∈ (cls.account options container known).1 ↔ cls.refusal? known = none ∧
      ∃ sig ∈ (cls.summary container).definedFields, ⟨cls.name, sig.name, sig.type⟩ = field := by
  have unlinked : .field field ∉ cls.links known := fun member => by
    simpa using exists_of_mem_links member
  rw [mem_account (by simp)]
  simp [registered, Ledger.ofCounts, Ledger.ofMethods, Ledger.ofAccesses, Ledger.ofFields, unlinked]

theorem mem_account_link {superName : String} (given : cls.superName?.isSome) :
    .link cls.name superName ∈ (cls.account options container (some superName)).1 := by
  obtain ⟨own, super_eq⟩ := Option.isSome_iff_exists.1 given
  refine (mem_account (by simp)).2 (.inr (.inl ?_))
  unfold links
  rw [super_eq]
  exact Multiset.mem_singleton_self _

end Entries

/-- What may be left of a class.  It is extracted, with the rows of all members, and some super
class is known for it, if it has one; or it fails, or its group has ended before. -/
inductive Leaves (options : Options) (container : Container) (cls : ClassDef) : Account → Prop
  | extracted (known : Option String) (linked : known.isSome = cls.superName?.isSome)
      (complete : cls.facts options container =
        cls.headerFacts options ++ (cls.reports container).flatMap MemberReport.facts) :
      Leaves options container cls (cls.account options container known)
  | failed (failFast : options.failFast = true) : Leaves options container cls
      (0, cls.told options container)
  | untouched (failFast : options.failFast = true) : Leaves options container cls 0

/-- When failures are not to stop it, every class is extracted. -/
theorem Leaves.exists_known {part : Account} (left : cls.Leaves options container part)
    (tolerant : options.failFast = false) :
    ∃ known : Option String, known.isSome = cls.superName?.isSome ∧
      part = cls.account options container known := by
  cases left with
  | extracted known linked => exact ⟨known, linked, rfl⟩
  | failed failFast =>
    rw [tolerant] at failFast
    cases failFast
  | untouched failFast =>
    rw [tolerant] at failFast
    cases failFast

end ClassDef

/-- What workers on a container share when a ledger is left: besides, only signatures of the
container are kept. -/
structure WorkState.Records (container : Container) (allowed : String → String → Prop)
    (references : References) (ledger : Ledger) (state : WorkState) : Prop
    extends RunState.Records allowed references ledger state.run where
  cache : state.cache.Knows container

/-! ## Steps of workers -/

namespace Work

variable {α β : Type} {container : Container} {allowed : String → String → Prop}
  {references : References}

/-- Whatever others do on the container, what is left fits the value. -/
abbrev Accounts (container : Container) (allowed : String → String → Prop)
    (references : References) (work : Work α) (fits : α → Account → Prop) : Prop :=
  Script.Accounts (WorkState.Records container allowed references) work fits

theorem accounts_hoist {script : Script (Emit SignatureCache) α} {good : α → Prop}
    {events : List Event} (settles : script.Settles (SignatureCache.Knows container) good events) :
    Accounts container allowed references (script.hoist fun _ => onCache) fun value account =>
      good value ∧ account = (0, tidingsOf events) := by
  induction script generalizing events with
  | done value =>
    obtain ⟨holds_value, rfl⟩ := settles
    exact ⟨holds_value, rfl⟩
  | step action next induction =>
    rintro before ⟨cache, run⟩ records
    obtain ⟨kept, later, rfl, rest⟩ := settles cache records.cache
    refine ⟨0, ⟨by rw [add_zero]; exact records.toRecords, kept⟩, ?_⟩
    refine Script.Accounts.mono (induction _ rest) ?_
    rintro value _ ⟨holds_value, rfl⟩
    exact ⟨holds_value, by rw [tidingsOf_append]; rfl⟩

theorem accounts_ofExtract {action : Extract α} {outcome : Except ExtractionError α}
    {events : List Event}
    (settles : action.SettlesTo (SignatureCache.Knows container) outcome events) :
    Accounts container allowed references (ofExtract action).run fun found account =>
      found = outcome ∧ account = (0, tidingsOf events) :=
  accounts_hoist settles

theorem accounts_register {change : Hierarchy → Hierarchy} {added : Ledger}
    (linkless : ∀ cls superName, .link cls superName ∉ added)
    (kept : ∀ hierarchy, (change hierarchy).references = hierarchy.references)
    (enters : ∀ (state : RunState) (ledger : Ledger), state.Represents ledger →
      RunState.Represents { state with hierarchy := change state.hierarchy } (ledger + added)) :
    Accounts container allowed references (register change) fun _ account =>
      account = (added, 0) := by
  refine .atom fun before state records => ⟨added, ?_, rfl⟩
  have represents := enters state.run before records.represents
  exact
    { toRecords := records.toRecords.add represents
        (fun cls superName new => absurd new (linkless cls superName)) (kept _)
      cache := records.cache }

theorem accounts_count {change : Totals → Totals} {more : Totals}
    (change_eq : ∀ totals, change totals = totals.plus more) :
    Accounts container allowed references (count change) fun _ account =>
      account = ({.counted more}, 0) := by
  refine .atom fun before state records => ⟨{.counted more}, ?_, rfl⟩
  have represents := records.represents.count change_eq
  exact
    { toRecords := records.toRecords.add represents (by simp) rfl
      cache := records.cache }

theorem accounts_notice (message : Notice) :
    Accounts container allowed references (notice message) fun _ account =>
      account = (0, tidingsOf [.notice message]) := by
  refine .atom fun before state records => ⟨0, ?_, rfl⟩
  rw [add_zero]
  exact records

theorem accounts_countError :
    Accounts container allowed references countError fun _ account => account = 0 := by
  refine .atom fun before state records => ⟨0, ?_, rfl⟩
  rw [add_zero]
  exact
    { represents :=
        { supers := records.represents.supers
          classes := records.represents.classes
          fields := records.represents.fields
          methods := records.represents.methods
          accesses := records.represents.accesses
          totals := records.represents.totals }
      linked := records.linked
      references_eq := records.references_eq
      cache := records.cache }

/-- A super class leaves the link of its class, which may lead to another super class. -/
theorem accounts_reportSuperClass {cls superName : String} (is_allowed : allowed cls superName) :
    Accounts container allowed references (Run.reportSuperClass cls superName).run
      fun outcome account => ∃ known, account = ({.link cls known}, 0) ∧ outcome =
        if known = superName then .ok () else .error (.superClassConflict cls known superName) := by
  have single : ∀ {known other super : String}, allowed cls known →
      .link other super ∈ ({.link cls known} : Ledger) → allowed other super := by
    intro known other super known_allowed member
    cases Multiset.mem_singleton.1 member
    exact known_allowed
  refine .atom fun before state records => ?_
  dsimp only [StateT.run]
  cases known_eq : state.run.hierarchy.superOf? cls with
  | none =>
    have free : ∀ previous, .link cls previous ∈ before → previous = superName := by
      intro previous member
      have linked := (records.represents.supers cls previous).2 member
      rw [known_eq] at linked
      cases linked
    obtain ⟨linked, linked_eq, represents⟩ := records.represents.linkSuper free
    rw [linked_eq]
    refine ⟨{.link cls superName}, ?_, superName, rfl, (if_pos rfl).symm⟩
    exact
      { toRecords := records.toRecords.add represents (fun _ _ => single is_allowed)
          (Hierarchy.references_linkSuper linked_eq)
        cache := records.cache }
  | some known =>
    -- the link is known, so the ledger may hold it once more
    have again : ∀ other found, state.run.hierarchy.supers[other]? = some found ↔
        state.run.hierarchy.supers[other]? = some found ∨ other = cls ∧ found = known := by
      intro other found
      constructor
      · exact .inl
      · rintro (super_eq | ⟨rfl, rfl⟩)
        · exact super_eq
        · exact known_eq
    have known_allowed :=
      records.linked cls known ((records.represents.supers cls known).1 known_eq)
    have recorded : WorkState.Records container allowed references (before + {.link cls known})
        state :=
      { toRecords := records.toRecords.add (records.represents.addLink again)
          (fun _ _ => single known_allowed) rfl
        cache := records.cache }
    rw [Hierarchy.linkSuper_of_superOf? known_eq]
    by_cases same : known = superName
    all_goals
      refine ⟨{.link cls known}, ?_, known, rfl, ?_⟩
      all_goals simp only [same, if_true, if_false]
    · exact same ▸ recorded
    · exact recorded

section Sequences

variable {holds : Ledger → WorkState → Prop} {mid : Except ExtractionError α → Account → Prop}
  {fits : Except ExtractionError β → Account → Prop}

theorem accounts_bind {action : ExceptT ExtractionError Work α}
    {next : α → ExceptT ExtractionError Work β} (first : Script.Accounts holds action.run mid)
    (failed : ∀ error part, mid (.error error) part → fits (.error error) part)
    (rest : ∀ value part, mid (.ok value) part →
      Script.Accounts holds (next value).run fun last later => fits last (part + later)) :
    Script.Accounts holds (action >>= next).run fits := by
  rw [ExceptT.run_bind]
  refine Script.Accounts.bind first fun outcome part fit => ?_
  cases outcome with
  | ok value => exact rest value part fit
  | error error =>
    refine Script.Accounts.pure ?_
    rw [add_zero]
    exact failed error part fit

theorem accounts_lift_bind {work : Work α} {mid : α → Account → Prop}
    {next : α → ExceptT ExtractionError Work β} (first : Script.Accounts holds work mid)
    (rest : ∀ value part, mid value part →
      Script.Accounts holds (next value).run fun last later => fits last (part + later)) :
    Script.Accounts holds (ExceptT.lift work >>= next).run fits := by
  rw [ExceptT.run_bind, ExceptT.run_lift, bind_map_left]
  exact Script.Accounts.bind first rest

theorem accounts_lift {work : Work α} {mid : α → Account → Prop}
    (first : Script.Accounts holds work mid) :
    Script.Accounts holds (ExceptT.lift work : ExceptT ExtractionError Work α).run
      fun outcome account => ∃ value, outcome = .ok value ∧ mid value account := by
  rw [ExceptT.run_lift, map_eq_pure_bind]
  refine Script.Accounts.bind first fun value part fit => .pure ⟨value, rfl, ?_⟩
  rwa [add_zero]

theorem accounts_attempt {action : ExceptT ExtractionError Work α}
    (first : Script.Accounts holds action.run mid) :
    Script.Accounts holds (Script.attempt action).run
      fun outcome account => ∃ found, outcome = .ok found ∧ mid found account :=
  accounts_lift first

end Sequences

end Work

namespace Run

open Work

variable {options : Options} {container : Container} {allowed : String → String → Prop}
  {references : References}

theorem accounts_countClass (cls : ExtractedClass) :
    Accounts container allowed references (countClass cls) fun _ account =>
      account = (.ofCounts cls, 0) := by
  have classes : Accounts container allowed references (count Totals.addClass) fun _ account =>
      account = ({.counted ⟨1, 0, 0, 0⟩}, 0) := accounts_count fun _ => rfl
  have methods : Accounts container allowed references (count (·.addMethods cls.methods))
      fun _ account => account = ({.counted ⟨0, cls.methods, 0, 0⟩}, 0) :=
    accounts_count fun _ => rfl
  have instructions : Accounts container allowed references
      (count (·.addInstructions cls.instructions))
      fun _ account => account = ({.counted ⟨0, 0, cls.instructions, 0⟩}, 0) :=
    accounts_count fun _ => rfl
  have failures : Accounts container allowed references (count (·.addFailures cls.failures))
      fun _ account => account = ({.counted ⟨0, 0, 0, cls.failures⟩}, 0) :=
    accounts_count fun _ => rfl
  refine classes.bind fun _ _ classes_eq => methods.bind fun _ _ methods_eq =>
    instructions.bind fun _ _ instructions_eq => failures.mono fun _ _ failures_eq => ?_
  rw [classes_eq, methods_eq, instructions_eq, failures_eq]
  rfl

/-- What is left of a class when its extraction or its report comes to an outcome: nothing more is
left of it when it is reported, and what follows from its error otherwise. -/
def leftBehind (options : Options) (cls : ClassDef) : Except ExtractionError Unit → Account
  | .ok () => 0
  | .error error => cls.skipAccount options error

/-- A report leaves the methods and accesses of a class, the link to the super class that is known,
and the fields unless the class is refused. -/
theorem accounts_report (options : Options) {cls : ClassDef}
    (is_allowed : cls.Linkable allowed) :
    Accounts container allowed references (report (cls.summary container)).run
      fun outcome account => ∃ known : Option String, known.isSome = cls.superName?.isSome ∧
        (Ledger.ofCounts (cls.summary container), cls.told options container) +
          (account + leftBehind options cls outcome) = cls.account options container known := by
  let left := cls.summary container
  have methods : Accounts container allowed references
      (register (·.defineMethods left.definedMethods))
      fun _ account => account = (.ofMethods left.definedMethods, 0) :=
    accounts_register (by simp [Ledger.ofMethods]) (fun _ => rfl)
      fun _ _ represents => represents.defineMethods _
  have accesses : Accounts container allowed references (register (·.queueAccesses left.accesses))
      fun _ account => account = (.ofAccesses left.accesses, 0) :=
    accounts_register (by simp [Ledger.ofAccesses]) (fun _ => rfl)
      fun _ _ represents => represents.queueAccesses _
  have fields : Accounts container allowed references
      (register (·.defineFields cls.name left.definedFields)) fun _ account =>
        account = (.ofFields cls.name left.definedFields, 0) :=
    accounts_register (by simp [Ledger.ofFields]) (fun _ => rfl)
      fun _ _ represents => represents.defineFields _ _
  refine accounts_lift_bind methods fun _ _ methods_eq => accounts_lift_bind accesses
    fun _ _ accesses_eq => ?_
  rw [methods_eq, accesses_eq]
  cases super_eq : cls.superName? with
  | none =>
    rw [show (cls.summary container).superClass = none from super_eq]
    refine (accounts_lift fields).mono ?_
    rintro _ _ ⟨_, rfl, rfl⟩
    refine ⟨none, rfl, ?_⟩
    simp [ClassDef.account, ClassDef.registered, ClassDef.links, ClassDef.refusal?, super_eq,
      leftBehind, left, add_assoc]
  | some superName =>
    rw [show (cls.summary container).superClass = some superName from super_eq]
    have linked : Accounts container allowed references (reportSuperClass cls.name superName).run
        _ := accounts_reportSuperClass (is_allowed superName super_eq)
    refine accounts_bind linked ?_ ?_
    · rintro error _ ⟨known, rfl, error_eq⟩
      split at error_eq
      next => cases error_eq
      next other =>
        cases error_eq
        refine ⟨some known, rfl, Prod.ext ?_ ?_⟩
        all_goals
          simp [ClassDef.account, ClassDef.registered, ClassDef.links, ClassDef.refusal?, super_eq,
            other, leftBehind, left, add_assoc]
    · rintro _ _ ⟨known, rfl, ok_eq⟩
      split at ok_eq
      next same =>
        refine (accounts_lift fields).mono ?_
        rintro _ _ ⟨_, rfl, rfl⟩
        refine ⟨some known, rfl, ?_⟩
        simp [ClassDef.account, ClassDef.registered, ClassDef.links, ClassDef.refusal?, super_eq,
          same, leftBehind, left, add_assoc]
      next => cases ok_eq

/-- Whatever others do, what is left of a class is known but for its super class. -/
theorem accounts_extractClass {cls : ClassDef} (is_allowed : cls.Linkable allowed) :
    Accounts container allowed references (extractClass options container cls).run
      fun outcome account =>
        cls.Leaves options container (account + leftBehind options cls outcome) := by
  have extracted := (cls.decided options container).settlesTo_alone
  have told_eq : tidingsOf (cls.extract options container).alone.events =
      cls.told options container := (cls.plain_alone options container).tidingsOf_eq
  refine accounts_bind (accounts_ofExtract extracted) ?_ ?_
  · rintro error _ ⟨error_eq, rfl⟩
    cases failFast : options.failFast with
    | false =>
      rw [ClassDef.alone_of_tolerant failFast] at error_eq
      cases error_eq
    | true =>
      rw [told_eq, leftBehind, ClassDef.skipAccount_of_failFast failFast, add_zero]
      exact .failed failFast
  · rintro left _ ⟨value_eq, rfl⟩
    obtain ⟨rfl, complete⟩ := ClassDef.alone_of_ok value_eq.symm
    rw [told_eq]
    refine accounts_lift_bind (accounts_countClass _) fun _ _ counts_eq => ?_
    rw [counts_eq]
    refine (accounts_report options is_allowed).mono fun outcome account => ?_
    rintro ⟨known, linked, account_eq⟩
    have together : ((0 : Ledger), cls.told options container) +
        (Ledger.ofCounts (cls.summary container), 0) =
          (Ledger.ofCounts (cls.summary container), cls.told options container) := by
      rw [Prod.mk_add_mk, zero_add, add_zero]
    rw [← add_assoc, together, add_assoc, account_eq]
    exact .extracted known linked complete

/-- Whatever others do, a group leaves something of each of its classes. -/
theorem accounts_extractGroup {group : List ClassDef}
    (all_allowed : ∀ cls ∈ group, cls.Linkable allowed) :
    Accounts container allowed references (extractGroup options container group).run
      fun _ account => MadeOf (group.map (ClassDef.Leaves options container)) account := by
  induction group with
  | nil => exact .pure .nil
  | cons cls rest induction =>
    rw [List.forall_mem_cons] at all_allowed
    have extracted : Accounts container allowed references
        (extractClass options container cls).run _ := accounts_extractClass all_allowed.1
    have attempted := accounts_attempt extracted
    refine accounts_bind attempted ?_ ?_
    · rintro error part ⟨_, error_eq, _⟩
      cases error_eq
    · rintro value part ⟨_, ⟨⟩, left⟩
      cases value with
      | ok =>
        refine (induction all_allowed.2).mono fun _ others made => ?_
        rw [leftBehind, add_zero] at left
        exact .cons left made
      | error error =>
        change cls.Leaves options container (part + cls.skipAccount options error) at left
        cases failFast : options.failFast with
        | true =>
          rw [ClassDef.skipAccount_of_failFast failFast, add_zero] at left
          have untouched : MadeOf (rest.map (ClassDef.Leaves options container)) 0 :=
            .zero (List.forall_mem_map.2 fun other _ => .untouched failFast)
          exact .pure (.cons left untouched)
        | false =>
          rw [ClassDef.skipAccount_of_tolerant failFast] at left
          have counted : Accounts container allowed references (count (·.addFailures 1))
              fun _ account => account = ({.counted ⟨0, 0, 0, 1⟩}, 0) := accounts_count fun _ => rfl
          refine accounts_lift_bind (accounts_notice _) fun _ _ notice_eq => ?_
          refine accounts_lift_bind counted fun _ _ count_eq => ?_
          refine (induction all_allowed.2).mono fun _ others made => ?_
          rw [notice_eq, count_eq, ← add_assoc, ← add_assoc, add_assoc part]
          exact .cons left made

/-- A worker leaves something of each class of the group. -/
theorem accounts_worker {group : List ClassDef}
    (all_allowed : ∀ cls ∈ group, cls.Linkable allowed) :
    Accounts container allowed references (worker options container group) fun _ account =>
      MadeOf (group.map (ClassDef.Leaves options container)) account := by
  refine Script.Accounts.bind (accounts_extractGroup all_allowed) fun outcome part made => ?_
  cases outcome with
  | ok =>
    refine .pure ?_
    rwa [add_zero]
  | error error =>
    refine Script.Accounts.bind (accounts_notice _) fun _ _ notice_eq => ?_
    refine accounts_countError.mono fun _ _ count_eq => ?_
    have quiet : tidingsOf [.notice (.groupFailed error)] = 0 := rfl
    rwa [notice_eq, count_eq, quiet, Prod.mk_zero_zero, add_zero, add_zero]

end Run

end DalvikFacts
