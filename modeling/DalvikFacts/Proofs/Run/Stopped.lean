import DalvikFacts.Proofs.Class.Failure
import DalvikFacts.Proofs.Run.Worker

/-!
# Stopped workers

When failures are to stop it, a worker takes the classes of its group up to the first one that
fails.  It leaves their rows and, if there is such a class, one more failed group.  That class may
have written some rows before it failed; its report is not made.
-/

namespace DalvikFacts

/-! ## Steps that leave nothing -/

/-- The given number of groups has failed, super classes are allowed ones, and nothing but field
accesses waits for the end of the run. -/
structure RunState.Tallies (allowed : String → String → Prop) (errors : Nat) (state : RunState) :
    Prop where
  errors_eq : state.errors = errors
  linked : ∀ cls superName, state.hierarchy.superOf? cls = some superName → allowed cls superName
  accesses : ∀ access ∈ state.hierarchy.accesses.toList, access.relation ∈ accessRelations

/-- What workers on a container share when a ledger is left, which counts the groups that failed:
besides, only signatures of the container are kept. -/
structure WorkState.Tallies (container : Container) (allowed : String → String → Prop)
    (ledger : Ledger) (state : WorkState) : Prop
    extends RunState.Tallies allowed ledger.totals.failures state.run where
  cache : state.cache.Knows container

namespace Work

variable {α : Type} {container : Container} {allowed : String → String → Prop}

theorem tallies_quiet {action : Emit WorkState α} {good : α → Prop}
    (kept : ∀ ledger state, WorkState.Tallies container allowed ledger state →
      good (action.run state).value ∧
        WorkState.Tallies container allowed ledger (action.run state).state ∧
        factsOf (action.run state).events = []) :
    Script.Leaves (WorkState.Tallies container allowed) good (.atom action) 0 := by
  refine .atom fun before state tallies => ?_
  obtain ⟨holds, tallies_now, facts_eq⟩ := kept before state tallies
  rw [add_zero, facts_eq]
  exact ⟨holds, tallies_now, rfl⟩

theorem tallies_count (change : Totals → Totals) :
    Script.Leaves (WorkState.Tallies container allowed) (fun _ => True) (count change) 0 :=
  tallies_quiet fun _ _ tallies =>
    ⟨trivial, ⟨⟨tallies.errors_eq, tallies.linked, tallies.accesses⟩, tallies.cache⟩, rfl⟩

theorem tallies_register {change : Hierarchy → Hierarchy}
    (supers_eq : ∀ hierarchy, (change hierarchy).supers = hierarchy.supers)
    (accesses : ∀ hierarchy, ∀ access ∈ (change hierarchy).accesses.toList,
      access ∈ hierarchy.accesses.toList ∨ access.relation ∈ accessRelations) :
    Script.Leaves (WorkState.Tallies container allowed) (fun _ => True) (register change) 0 := by
  refine tallies_quiet fun _ state tallies => ⟨trivial, ⟨⟨tallies.errors_eq, ?_, ?_⟩,
    tallies.cache⟩, rfl⟩
  · intro cls superName super_eq
    refine tallies.linked cls superName (Eq.trans ?_ super_eq)
    exact congrArg (·[cls]?) (supers_eq state.run.hierarchy).symm
  · intro access member
    exact (accesses state.run.hierarchy access member).elim (tallies.accesses access) id

theorem tallies_reportSuperClass {cls superName : String} (is_allowed : allowed cls superName)
    (only : ∀ other, allowed cls other → other = superName) :
    Script.Leaves (WorkState.Tallies container allowed) (· = .ok ())
      (Run.reportSuperClass cls superName).run 0 := by
  refine tallies_quiet fun _ state tallies => ?_
  obtain ⟨supers, linked_eq, supers_iff⟩ := Hierarchy.linkSuper_of_free
    fun previous previous_eq => only previous (tallies.linked cls previous previous_eq)
  dsimp only [StateT.run]
  rw [linked_eq]
  refine ⟨rfl, ⟨⟨tallies.errors_eq, fun other found found_eq => ?_, tallies.accesses⟩,
    tallies.cache⟩, rfl⟩
  rcases (supers_iff other found).1 found_eq with old | ⟨rfl, rfl⟩
  · exact tallies.linked other found old
  · exact is_allowed

end Work

theorem Work.tallies_ofExtract {α : Type} {container : Container}
    {allowed : String → String → Prop} {action : Extract α} {outcome : Except ExtractionError α}
    {events : List Event}
    (settles : action.SettlesTo (SignatureCache.Knows container) outcome events) :
    Script.Leaves (WorkState.Tallies container allowed) (· = outcome) (ofExtract action).run
      (.ofEvents events) := by
  refine leaves_hoist (fun _ _ tallies => tallies.cache) ?_ settles
  intro ledger cache run found events tallies kept
  have uncounted : (Ledger.ofEvents events).totals = .zero :=
    Ledger.totals_eq_zero _ (by simp [Ledger.ofEvents, Contribution.totals])
  have errors_eq : (ledger + .ofEvents events).totals.failures = ledger.totals.failures := by
    rw [Ledger.totals_add, uncounted]
    rfl
  exact ⟨⟨tallies.errors_eq.trans errors_eq.symm, tallies.linked, tallies.accesses⟩, kept⟩

namespace Run

open Work

/-- The classes of a group up to the first one that fails. -/
def upToFailure (container : Container) : List ClassDef → List ClassDef
  | [] => []
  | cls :: rest => if cls.fails container then [cls] else cls :: upToFailure container rest

/-- Whether a class of a group fails. -/
def groupFails (container : Container) (group : List ClassDef) : Bool :=
  group.any (·.fails container)

/-- The number of groups of a container with a class that fails. -/
def failedGroups (options : Options) (container : Container) : Nat :=
  (groupsOf options.groupSize (accepted options container)).countP (groupFails container)

/-- The classes of a container that are translated when failures stop their groups. -/
def translated (options : Options) (container : Container) : List ClassDef :=
  (groupsOf options.groupSize (accepted options container)).flatMap (upToFailure container)

/-- The rows that classes write, each up to its failure if it fails. -/
def classFacts (options : Options) (container : Container) (classes : List ClassDef) :
    Multiset Fact :=
  (classes.map fun cls => (cls.facts options container : Multiset Fact)).sum

/-- What a worker leaves whom a failing class stops: rows, and a failure if there is one. -/
def stoppedLedger (options : Options) (container : Container) (group : List ClassDef) : Ledger :=
  ((upToFailure container group).map fun cls =>
      Ledger.ofEvents ((cls.extract options container).run.perform .empty).events).sum +
    if groupFails container group then {.counted ⟨0, 0, 0, 1⟩} else 0

variable {options : Options} {container : Container} {allowed : String → String → Prop}

theorem tallies_countClass (cls : ExtractedClass) :
    Script.Leaves (WorkState.Tallies container allowed) (fun _ => True) (countClass cls) 0 := by
  have counted : Script.Leaves (WorkState.Tallies container allowed) (fun _ => True)
      (countClass cls) (0 + (0 + (0 + 0))) :=
    (tallies_count _).bind fun _ _ => (tallies_count _).bind fun _ _ =>
      (tallies_count _).bind fun _ _ => tallies_count _
  simpa only [add_zero] using counted

/-- A report leaves nothing, when the class may have no other super class. -/
theorem tallies_report {cls : ExtractedClass}
    (is_allowed : ∀ superName, cls.superClass = some superName → allowed cls.name superName)
    (functional : ∀ superName other, allowed cls.name superName → allowed cls.name other →
      other = superName)
    (accesses : ∀ access ∈ cls.accesses, access.relation ∈ accessRelations) :
    Script.Leaves (WorkState.Tallies container allowed) (· = .ok ()) (report cls).run 0 := by
  have methods : Script.Leaves (WorkState.Tallies container allowed) (fun _ => True)
      (register (·.defineMethods cls.definedMethods)) 0 :=
    tallies_register (fun _ => rfl) fun _ _ member => .inl member
  have queued : Script.Leaves (WorkState.Tallies container allowed) (fun _ => True)
      (register (·.queueAccesses cls.accesses)) 0 := by
    refine tallies_register (fun _ => rfl) fun hierarchy access member => ?_
    have member_or : access ∈ hierarchy.accesses.toList ∨ access ∈ cls.accesses := by
      simpa [Hierarchy.queueAccesses] using member
    exact member_or.imp_right (accesses access)
  have fields : Script.Leaves (WorkState.Tallies container allowed) (fun _ => True)
      (register (·.defineFields cls.name cls.definedFields)) 0 :=
    tallies_register (fun _ => rfl) fun _ _ member => .inl member
  suffices whole : Script.Leaves (WorkState.Tallies container allowed) (· = .ok ())
      (report cls).run (0 + (0 + (0 + 0))) by
    simpa only [add_zero] using whole
  refine leaves_lift_bind methods fun _ _ => leaves_lift_bind queued fun _ _ => ?_
  cases super_eq : cls.superClass with
  | none =>
    rw [zero_add]
    exact leaves_lift fields
  | some superName =>
    have linked : Script.Leaves (WorkState.Tallies container allowed) (· = .ok ())
        (reportSuperClass cls.name superName).run 0 :=
      tallies_reportSuperClass (is_allowed superName super_eq) fun other =>
        functional superName other (is_allowed superName super_eq)
    exact leaves_bind linked (leaves_lift fields)

/-- A class leaves the rows that it writes alone, and its report or its failure. -/
theorem tallies_extractClass (failFast : options.failFast = true) {cls : ClassDef}
    (is_allowed : ∀ superName, cls.superName? = some superName → allowed cls.name superName)
    (functional : ∀ cls superName other, allowed cls superName → allowed cls other →
      other = superName) :
    ∃ outcome, outcome.isOk = !cls.fails container ∧
      Script.Leaves (WorkState.Tallies container allowed) (· = outcome)
        (extractClass options container cls).run
        (.ofEvents ((cls.extract options container).run.perform .empty).events) := by
  obtain ⟨outcome, settles, ok_eq, holds⟩ :=
    (ClassDef.failsIf_extract failFast container).settles_alone
  have extracted : Script.Leaves (WorkState.Tallies container allowed) (· = outcome)
      (ofExtract (cls.extract options container)).run _ := tallies_ofExtract settles
  rw [← add_zero (Ledger.ofEvents _)]
  cases outcome with
  | error error =>
    refine ⟨.error error, ok_eq, ?_⟩
    unfold extractClass
    rw [ExceptT.run_bind]
    refine Script.Leaves.bind extracted ?_
    rintro _ rfl
    exact .pure rfl
  | ok found =>
    obtain ⟨name_eq, super_eq, accesses⟩ := holds found rfl
    refine ⟨.ok (), ok_eq, leaves_bind extracted ?_⟩
    rw [← add_zero 0]
    exact leaves_lift_bind (tallies_countClass found) fun _ _ =>
      tallies_report (by rwa [name_eq, super_eq]) (functional found.name) accesses

/-- A group leaves the rows of its classes up to the first failing one, which makes it fail. -/
theorem tallies_extractGroup (failFast : options.failFast = true) {group : List ClassDef}
    (is_allowed : ∀ cls ∈ group, ∀ superName, cls.superName? = some superName →
      allowed cls.name superName)
    (functional : ∀ cls superName other, allowed cls superName → allowed cls other →
      other = superName) :
    Script.Leaves (WorkState.Tallies container allowed)
      (fun outcome => outcome.isOk = !groupFails container group)
      (extractGroup options container group).run
      ((upToFailure container group).map fun cls =>
        Ledger.ofEvents ((cls.extract options container).run.perform .empty).events).sum := by
  induction group with
  | nil => exact .pure rfl
  | cons cls rest induction =>
    rw [List.forall_mem_cons] at is_allowed
    obtain ⟨outcome, ok_eq, leaves⟩ := tallies_extractClass failFast is_allowed.1 functional
    unfold upToFailure
    cases fails : cls.fails container with
    | true =>
      cases outcome with
      | ok => rw [fails] at ok_eq; cases ok_eq
      | error error =>
        rw [if_pos rfl, List.map_singleton, List.sum_singleton, ← add_zero (Ledger.ofEvents _)]
        refine leaves_bind (leaves_attempt leaves) ?_
        simp only [failFast, if_true]
        refine .pure ?_
        rw [groupFails, List.any_cons, fails, Bool.true_or]
        rfl
    | false =>
      cases outcome with
      | error => rw [fails] at ok_eq; cases ok_eq
      | ok =>
        rw [if_neg Bool.false_ne_true, List.map_cons, List.sum_cons]
        refine leaves_bind (leaves_attempt leaves) ?_
        rw [groupFails, List.any_cons, fails, Bool.false_or]
        exact induction is_allowed.2

/-- A worker leaves the rows of its classes up to the first failing one, and is counted if there is
one. -/
theorem tallies_worker (failFast : options.failFast = true) {group : List ClassDef}
    (is_allowed : ∀ cls ∈ group, ∀ superName, cls.superName? = some superName →
      allowed cls.name superName)
    (functional : ∀ cls superName other, allowed cls superName → allowed cls other →
      other = superName) :
    Script.Leaves (WorkState.Tallies container allowed) (fun _ => True)
      (worker options container group) (stoppedLedger options container group) := by
  refine Script.Leaves.bind (tallies_extractGroup failFast is_allowed functional) ?_
  intro outcome ok_eq
  cases outcome with
  | ok =>
    have no_failure : groupFails container group = false := (Bool.not_eq_true' _).mp ok_eq.symm
    rw [no_failure, if_neg Bool.false_ne_true]
    exact .pure trivial
  | error error =>
    have failure : groupFails container group = true := (Bool.not_eq_false' _).mp ok_eq.symm
    rw [failure, if_pos rfl, ← zero_add ({.counted ⟨0, 0, 0, 1⟩} : Ledger)]
    have noticed : Script.Leaves (WorkState.Tallies container allowed) (fun _ => True)
        (notice (.groupFailed error)) 0 :=
      tallies_quiet fun _ _ tallies => ⟨trivial, tallies, rfl⟩
    refine noticed.bind fun _ _ => .atom fun before state tallies => ⟨trivial, ?_, rfl⟩
    have errors_eq : state.run.errors + 1 =
        (before + {.counted ⟨0, 0, 0, 1⟩}).totals.failures := by
      rw [Ledger.totals_add, tallies.errors_eq]
      rfl
    exact ⟨⟨errors_eq, tallies.linked, tallies.accesses⟩, tallies.cache⟩

theorem classFacts_append (classes others : List ClassDef) :
    classFacts options container (classes ++ others) =
      classFacts options container classes + classFacts options container others := by
  unfold classFacts
  rw [List.map_append, List.sum_append]

theorem facts_sum_ofEvents (classes : List ClassDef) :
    let left : Ledger := (classes.map fun cls =>
      Ledger.ofEvents ((cls.extract options container).run.perform .empty).events).sum
    left.facts = classFacts options container classes ∧ left.totals = .zero := by
  induction classes with
  | nil => exact ⟨rfl, rfl⟩
  | cons cls rest induction =>
    dsimp only at induction ⊢
    rw [List.map_cons, List.sum_cons, Ledger.facts_add, Ledger.facts_ofEvents, induction.1,
      Ledger.totals_add, induction.2,
      Ledger.totals_eq_zero _ (by simp [Ledger.ofEvents, Contribution.totals])]
    exact ⟨rfl, rfl⟩

theorem stoppedLedger_eq (group : List ClassDef) :
    (stoppedLedger options container group).facts =
        classFacts options container (upToFailure container group) ∧
      (stoppedLedger options container group).totals.failures =
        if groupFails container group then 1 else 0 := by
  obtain ⟨facts_eq, totals_eq⟩ := facts_sum_ofEvents (upToFailure container group)
  unfold stoppedLedger
  rw [Ledger.facts_add, facts_eq, Ledger.totals_add, totals_eq]
  split
  · exact ⟨add_zero _, rfl⟩
  · exact ⟨add_zero _, rfl⟩

/-- Stopped workers leave the rows of the classes that are translated, and one failure for each
group that fails. -/
theorem sum_stoppedLedger (groups : List (List ClassDef)) :
    let left : Ledger := (groups.map (stoppedLedger options container)).sum
    left.facts = classFacts options container (groups.flatMap (upToFailure container)) ∧
      left.totals.failures = groups.countP (groupFails container) := by
  induction groups with
  | nil => exact ⟨rfl, rfl⟩
  | cons group rest induction =>
    obtain ⟨facts_eq, failures_eq⟩ := stoppedLedger_eq group
    dsimp only at induction ⊢
    rw [List.map_cons, List.sum_cons, Ledger.facts_add, Ledger.totals_add, List.flatMap_cons,
      classFacts_append, List.countP_cons, facts_eq, induction.1]
    refine ⟨rfl, ?_⟩
    dsimp only [Totals.plus]
    rw [failures_eq, induction.2, Nat.add_comm]

end Run

end DalvikFacts
