import DalvikFacts.Proofs.Class.Failure
import DalvikFacts.Proofs.Method.Failure
import DalvikFacts.Proofs.References
import Mathlib.Algebra.BigOperators.Group.List.Basic
import Mathlib.Algebra.GroupWithZero.Nat
import Mathlib.Data.List.Permutation

/-!
# Members of a class

Each field and each method of a class is extracted as if it was alone: nothing that another member
leaves behind changes its rows or its outcome, whether that one succeeds or fails midway, and
whatever was looked up before.
-/

namespace DalvikFacts

/-! ## Extractions alone -/

namespace Extract

variable {α β : Type} {container : Container}

/-- What an extraction comes to when nothing was looked up before. -/
def alone (action : Extract α) : Emitted SignatureCache (Except ExtractionError α) :=
  action.run.perform .empty

theorem Decided.settlesTo_alone {action : Extract α} {good : α → Prop}
    (decided : action.Decided container good) :
    action.SettlesTo (SignatureCache.Knows container) action.alone.value action.alone.events := by
  obtain ⟨outcome, events, settles, -, -⟩ := decided
  obtain ⟨value_eq, -, events_eq⟩ := settles.perform SignatureCache.knows_empty
  rw [alone, value_eq, events_eq]
  exact settles

namespace SettlesTo

variable {known : SignatureCache → Prop} {each : α → Extract β} {events : α → List Event}

theorem bind_value {action : Extract α} {value : α} {written : List Event}
    (first : SettlesTo known action (.ok value) written) (change : α → β) :
    SettlesTo known (action >>= fun found => Pure.pure (change found)) (.ok (change value))
      written := by
  rw [← map_eq_pure_bind]
  exact first.map change

/-- Successive extractions that succeed come to their values. -/
theorem mapM {value : α → β} {items : List α}
    (one : ∀ item ∈ items, SettlesTo known (each item) (.ok (value item)) (events item)) :
    SettlesTo known (items.mapM each) (.ok (items.map value)) (items.flatMap events) := by
  induction items with
  | nil => exact .pure []
  | cons item rest induction =>
    rw [List.forall_mem_cons] at one
    rw [List.mapM_cons, List.flatMap_cons]
    exact one.1.bind_ok ((induction one.2).bind_value (value item :: ·))

theorem mapM_error {front back : List α} {item : α} {error : ExtractionError} {value : α → β}
    (before : ∀ earlier ∈ front, SettlesTo known (each earlier) (.ok (value earlier))
      (events earlier))
    (failed : SettlesTo known (each item) (.error error) (events item)) :
    SettlesTo known ((front ++ item :: back).mapM each) (.error error)
      ((front ++ [item]).flatMap events) := by
  have rest_failed : SettlesTo known ((item :: back).mapM each) (.error error) (events item) := by
    rw [List.mapM_cons]
    exact failed.bind_error
  rw [List.mapM_append, List.flatMap_append, List.flatMap_singleton]
  exact (mapM before).bind_ok rest_failed.bind_error

end SettlesTo

end Extract

/-! ## Reports of members -/

/-- What a member of a class comes to alone: the error that it fails with, if it fails, and the rows
that it writes. -/
structure MemberReport where
  error? : Option ExtractionError
  facts : List Fact

/-- The report of an extraction that starts with nothing looked up. -/
def Extract.report {α : Type} (action : Extract α) : MemberReport where
  error? := match action.alone.value with
    | .ok _ => none
    | .error error => some error
  facts := factsOf action.alone.events

/-- The report of a field: it has to resolve, and writes the rows of its reference then. -/
def FieldDef.report (container : Container) (definition : FieldDef) : MemberReport :=
  match container.fieldAt definition.field with
  | .ok ref => ⟨none, factsOf ((definition.write (.ofRef ref) : Emit Unit Unit).run ()).events⟩
  | .error missing => ⟨some (.missingEntry missing), []⟩

namespace FieldDef

variable {container : Container} {definition : FieldDef}

/-- A field that resolves is extracted with the signature of its reference. -/
theorem alone_of_ok {ref : FieldRef} (ref_eq : container.fieldAt definition.field = .ok ref) :
    (definition.extract container).alone.value = .ok (.ofRef ref) ∧
      (definition.extract container).alone.events =
        ((definition.write (.ofRef ref) : Emit Unit Unit).run ()).events := by
  have written : (definition.ofSig (.ofRef ref)).SettlesTo (SignatureCache.Knows container)
      (.ok (.ofRef ref)) (((definition.write (.ofRef ref) : Emit Unit Unit).run ()).events ++ []) :=
    (Extract.SettlesTo.emit _).bind_ok (.pure _)
  obtain ⟨value_eq, -, events_eq⟩ :=
    (SignatureCache.settlesTo_lookup_field ref_eq written).perform SignatureCache.knows_empty
  rw [List.append_nil] at events_eq
  exact ⟨value_eq, events_eq⟩

theorem alone_of_error {missing : MissingEntry}
    (ref_eq : container.fieldAt definition.field = .error missing) :
    (definition.extract container).alone.value = .error (.missingEntry missing) ∧
      (definition.extract container).alone.events = [] := by
  have ended : (definition.extract container).SettlesTo (SignatureCache.Knows container)
      (.error (.missingEntry missing)) [] :=
    Extract.SettlesTo.bind_error (SignatureCache.settlesTo_field_lost ref_eq)
  obtain ⟨value_eq, -, events_eq⟩ := ended.perform SignatureCache.knows_empty
  exact ⟨value_eq, events_eq⟩

theorem report_eq (container : Container) (definition : FieldDef) :
    definition.report container = (definition.extract container).report := by
  unfold report Extract.report
  cases ref_eq : container.fieldAt definition.field with
  | ok ref => rw [(alone_of_ok ref_eq).1, (alone_of_ok ref_eq).2]
  | error missing => rw [(alone_of_error ref_eq).1, (alone_of_error ref_eq).2]; rfl

/-- The signature of a field that resolves. -/
def sig? (container : Container) (definition : FieldDef) : Option FieldSig :=
  (container.fieldAt definition.field).toOption.map FieldSig.ofRef

theorem toOption_alone (container : Container) (definition : FieldDef) :
    (definition.extract container).alone.value.toOption = definition.sig? container := by
  unfold sig?
  cases ref_eq : container.fieldAt definition.field with
  | ok ref => rw [(alone_of_ok ref_eq).1]; rfl
  | error missing => rw [(alone_of_error ref_eq).1]; rfl

end FieldDef

/-- The report of a method: what its extraction comes to when nothing was looked up before. -/
def MethodDef.report (container : Container) (definition : MethodDef) : MemberReport :=
  (definition.extract container).report

/-- What a method leaves that is extracted when nothing was looked up before, unless it fails. -/
def MethodDef.extracted? (container : Container) (definition : MethodDef) :
    Option ExtractedMethod :=
  (definition.extract container).alone.value.toOption

theorem MethodDef.alone_of_extracted? {container : Container} {definition : MethodDef}
    {extracted : ExtractedMethod}
    (extracted_eq : definition.extracted? container = some extracted) :
    (definition.extract container).alone.value = .ok extracted := by
  unfold extracted? at extracted_eq
  cases value_eq : (definition.extract container).alone.value with
  | error error =>
    rw [value_eq] at extracted_eq
    cases extracted_eq
  | ok found =>
    rw [value_eq] at extracted_eq
    cases extracted_eq
    rfl

namespace ClassDef

/-- The reports of the members of a class: first the fields, then the methods. -/
def reports (container : Container) (cls : ClassDef) : List MemberReport :=
  cls.fields.map (·.report container) ++ cls.methods.map (·.report container)

/-- The rows of a class apart from those of its members. -/
def headerFacts (options : Options) (cls : ClassDef) : List Fact :=
  factsOf ((cls.writeHeader options : Emit Unit Unit).run ()).events

/-- What the members of a class leave that do not fail alone. -/
def summary (container : Container) (cls : ClassDef) : ExtractedClass :=
  cls.summarize (cls.fields.map (·.sig? container)) (cls.methods.map (·.extracted? container))

/-- The events of a member that is extracted, and reported if it fails. -/
def memberEvents {α : Type} (cls : ClassDef) (action : Extract α) : List Event :=
  action.alone.events ++
    match action.alone.value with
    | .ok _ => []
    | .error error => [.notice (.skippedMember cls.name error)]

theorem factsOf_memberEvents {α : Type} (cls : ClassDef) (action : Extract α) :
    factsOf (cls.memberEvents action) = action.report.facts := by
  unfold memberEvents Extract.report
  rw [factsOf_append]
  cases action.alone.value <;> simp

variable {options : Options} {container : Container} {cls : ClassDef} {cache : SignatureCache}
  {α : Type} {action : Extract α} {good : α → Prop}

/-! ## When failures are not to stop a class -/

theorem settlesTo_member_tolerant (tolerant : options.failFast = false)
    (decided : action.Decided container good) :
    (member options cls action).SettlesTo (SignatureCache.Knows container)
      (.ok action.alone.value.toOption) (cls.memberEvents action) := by
  have attempted := decided.settlesTo_alone.attempt
  unfold memberEvents
  refine attempted.bind_ok ?_
  cases action.alone.value with
  | ok value => exact .pure (some value)
  | error error =>
    simp only [tolerant]
    exact (Extract.SettlesTo.emit (Emit.notice (.skippedMember cls.name error))).bind_value
      fun _ => none

/-- The events of a class whose failing members are left out. -/
def events (options : Options) (container : Container) (cls : ClassDef) : List Event :=
  ((cls.writeHeader options : Emit Unit Unit).run ()).events ++
    ((cls.fields.flatMap fun field => cls.memberEvents (field.extract container)) ++
      cls.methods.flatMap fun method => cls.memberEvents (method.extract container))

/-- Whatever others look up meanwhile, a class is extracted with all members that do not fail. -/
theorem settlesTo_extract (tolerant : options.failFast = false) (container : Container)
    (cls : ClassDef) :
    (cls.extract options container).SettlesTo (SignatureCache.Knows container)
      (.ok (cls.summary container)) (cls.events options container) := by
  have fields : (cls.fields.mapM fun field => member options cls
      (field.extract container)).SettlesTo (SignatureCache.Knows container)
      (.ok (cls.fields.map (·.sig? container)))
      (cls.fields.flatMap fun field => cls.memberEvents (field.extract container)) := by
    refine .mapM fun field _ => ?_
    rw [← FieldDef.toOption_alone]
    exact settlesTo_member_tolerant tolerant (field.decided container)
  have methods : (cls.methods.mapM fun method => member options cls
      (method.extract container)).SettlesTo (SignatureCache.Knows container)
      (.ok (cls.methods.map (·.extracted? container)))
      (cls.methods.flatMap fun method => cls.memberEvents (method.extract container)) :=
    .mapM fun method _ => settlesTo_member_tolerant tolerant (method.decided container)
  exact (Extract.SettlesTo.emit _).bind_ok (fields.bind_ok (methods.bind_value _))

theorem factsOf_flatMap {β : Type} (items : List β) (events : β → List Event) :
    factsOf (items.flatMap events) = items.flatMap fun item => factsOf (events item) := by
  induction items with
  | nil => rfl
  | cons item rest induction => rw [List.flatMap_cons, List.flatMap_cons, factsOf_append, induction]

theorem factsOf_events (options : Options) (container : Container) (cls : ClassDef) :
    factsOf (cls.events options container) =
      cls.headerFacts options ++ (cls.reports container).flatMap MemberReport.facts := by
  unfold events headerFacts reports
  simp only [factsOf_append, factsOf_flatMap, factsOf_memberEvents, List.flatMap_append,
    List.flatMap_map, FieldDef.report_eq, MethodDef.report]

/-- A class leaves what those of its methods leave that do not fail, and each member is counted
once, as left or as failed. -/
theorem summary_counts (container : Container) (cls : ClassDef) :
    let left := cls.summary container
    let done := cls.methods.filterMap (·.extracted? container)
    left.definedFields = cls.fields.filterMap (·.sig? container) ∧
      left.definedMethods = done.map ExtractedMethod.id ∧
      left.accesses = done.flatMap ExtractedMethod.accesses ∧
      left.methods = done.length ∧
      left.instructions = (done.map ExtractedMethod.instructions).sum ∧
      left.definedFields.length + left.methods + left.failures =
        cls.fields.length + cls.methods.length := by
  intro left done
  have done_eq : (cls.methods.map (·.extracted? container)).filterMap id = done :=
    List.filterMap_map ..
  have added : ∀ (methods : List ExtractedMethod) (count : Nat),
      methods.foldl (fun count method => count + method.instructions) count =
        count + (methods.map ExtractedMethod.instructions).sum := by
    intro methods
    induction methods with
    | nil => intro count; rfl
    | cons method rest induction =>
      intro count
      rw [List.foldl_cons, induction, List.map_cons, List.sum_cons, Nat.add_assoc]
  have counted : ∀ {β : Type} (found : List (Option β)),
      (found.filterMap id).length + found.countP Option.isNone = found.length := by
    intro β found
    rw [List.length_filterMap_eq_countP, List.length_eq_countP_add_countP Option.isSome]
    congr 1
    exact List.countP_congr fun value _ => by cases value <;> simp
  have fields_counted := counted (cls.fields.map (·.sig? container))
  have methods_counted := counted (cls.methods.map (·.extracted? container))
  rw [List.length_map] at fields_counted methods_counted
  refine ⟨List.filterMap_map .., ?_, ?_, ?_, ?_, ?_⟩
  · exact congrArg (List.map _) done_eq
  · exact congrArg (List.flatMap _) done_eq
  · exact congrArg List.length done_eq
  · refine (added _ 0).trans ?_
    rw [done_eq, Nat.zero_add]
  · dsimp only [left, summary, summarize]
    omega

/-! ## When failures are to stop a class -/

theorem settlesTo_member_of_ok {value : α} (value_eq : action.alone.value = .ok value)
    (decided : action.Decided container good) :
    (member options cls action).SettlesTo (SignatureCache.Knows container) (.ok (some value))
      action.alone.events := by
  have attempted := decided.settlesTo_alone.attempt
  rw [value_eq] at attempted
  rw [← List.append_nil action.alone.events]
  exact attempted.bind_ok (.pure (some value))

theorem settlesTo_member_of_error (failFast : options.failFast = true) {error : ExtractionError}
    (value_eq : action.alone.value = .error error) (decided : action.Decided container good) :
    (member options cls action).SettlesTo (SignatureCache.Knows container) (.error error)
      action.alone.events := by
  have attempted := decided.settlesTo_alone.attempt
  rw [value_eq] at attempted
  rw [← List.append_nil action.alone.events]
  refine attempted.bind_ok ?_
  simp only [failFast, if_true]
  exact .throw error

theorem report_ok_iff : action.report.error? = none ↔ ∃ value, action.alone.value = .ok value := by
  unfold Extract.report
  cases action.alone.value <;> simp

theorem report_error_iff {error : ExtractionError} :
    action.report.error? = some error ↔ action.alone.value = .error error := by
  unfold Extract.report
  cases action.alone.value <;> simp

theorem settlesTo_member_of_sound (decided : action.Decided container good)
    (sound : action.report.error? = none) :
    (member options cls action).SettlesTo (SignatureCache.Knows container)
      (.ok action.alone.value.toOption) action.alone.events := by
  obtain ⟨value, value_eq⟩ := report_ok_iff.1 sound
  have settles : (member options cls action).SettlesTo _ _ _ :=
    settlesTo_member_of_ok value_eq decided
  rw [value_eq]
  exact settles

section Members

variable {ι : Type} {each : ι → Extract α} (decided : ∀ item, (each item).Decided container good)

include decided

theorem settlesTo_members_of_ok {items : List ι}
    (sound : ∀ item ∈ items, (each item).report.error? = none) :
    (items.mapM fun item => member options cls (each item)).SettlesTo
      (SignatureCache.Knows container)
      (.ok (items.map fun item => (each item).alone.value.toOption))
      (items.flatMap fun item => (each item).alone.events) :=
  .mapM fun item item_mem => settlesTo_member_of_sound (decided item) (sound item item_mem)

theorem settlesTo_members_of_error (failFast : options.failFast = true) {items front back : List ι}
    {item : ι} {error : ExtractionError} (items_eq : items = front ++ item :: back)
    (sound : ∀ earlier ∈ front, (each earlier).report.error? = none)
    (failed : (each item).report.error? = some error) :
    (items.mapM fun item => member options cls (each item)).SettlesTo
      (SignatureCache.Knows container) (.error error)
      ((front ++ [item]).flatMap fun item => (each item).alone.events) := by
  have before : ∀ earlier ∈ front, (member options cls (each earlier)).SettlesTo
      (SignatureCache.Knows container) (.ok (each earlier).alone.value.toOption)
      (each earlier).alone.events :=
    fun earlier earlier_mem =>
      settlesTo_member_of_sound (decided earlier) (sound earlier earlier_mem)
  rw [items_eq]
  exact .mapM_error before
    (settlesTo_member_of_error failFast (report_error_iff.1 failed) (decided item))

end Members

/-- The events of members that are extracted alone, one after the other. -/
def aloneEvents {ι : Type} (each : ι → Extract α) (items : List ι) : List Event :=
  items.flatMap fun item => (each item).alone.events

theorem factsOf_aloneEvents {ι : Type} (each : ι → Extract α) (items : List ι) :
    factsOf (aloneEvents each items) =
      (items.map fun item => (each item).report).flatMap MemberReport.facts := by
  rw [aloneEvents, factsOf_flatMap, List.flatMap_map]
  rfl

section Stops

variable (fields_sound : ∀ field ∈ cls.fields, (field.extract container).report.error? = none)

include fields_sound

theorem settlesTo_extract_of_sound (options : Options)
    (methods_sound : ∀ method ∈ cls.methods, (method.extract container).report.error? = none) :
    (cls.extract options container).SettlesTo (SignatureCache.Knows container)
      (.ok (cls.summary container)) (((cls.writeHeader options : Emit Unit Unit).run ()).events ++
        (aloneEvents (FieldDef.extract container) cls.fields ++
          aloneEvents (MethodDef.extract container) cls.methods)) := by
  have fields : (cls.fields.mapM fun field => member options cls
      (field.extract container)).SettlesTo (SignatureCache.Knows container) _ _ :=
    settlesTo_members_of_ok (fun field => field.decided container) fields_sound
  have methods : (cls.methods.mapM fun method => member options cls
      (method.extract container)).SettlesTo (SignatureCache.Knows container) _ _ :=
    settlesTo_members_of_ok (fun method => method.decided container) methods_sound
  unfold summary
  simp only [← FieldDef.toOption_alone]
  exact (Extract.SettlesTo.emit _).bind_ok (fields.bind_ok (methods.bind_value _))

theorem settlesTo_extract_of_method (failFast : options.failFast = true)
    {front back : List MethodDef} {method : MethodDef} {error : ExtractionError}
    (methods_eq : cls.methods = front ++ method :: back)
    (sound : ∀ earlier ∈ front, (earlier.extract container).report.error? = none)
    (failed : (method.extract container).report.error? = some error) :
    (cls.extract options container).SettlesTo (SignatureCache.Knows container)
      (.error error) (((cls.writeHeader options : Emit Unit Unit).run ()).events ++
        (aloneEvents (FieldDef.extract container) cls.fields ++
          aloneEvents (MethodDef.extract container) (front ++ [method]))) := by
  have fields : (cls.fields.mapM fun field => member options cls
      (field.extract container)).SettlesTo (SignatureCache.Knows container) _ _ :=
    settlesTo_members_of_ok (fun field => field.decided container) fields_sound
  have stopped : (cls.methods.mapM fun method => member options cls
      (method.extract container)).SettlesTo (SignatureCache.Knows container) _ _ :=
    settlesTo_members_of_error (fun method => method.decided container) failFast methods_eq sound
      failed
  exact (Extract.SettlesTo.emit _).bind_ok (fields.bind_ok stopped.bind_error)

end Stops

theorem settlesTo_extract_of_field (failFast : options.failFast = true)
    {front back : List FieldDef} {field : FieldDef} {error : ExtractionError}
    (fields_eq : cls.fields = front ++ field :: back)
    (sound : ∀ earlier ∈ front, (earlier.extract container).report.error? = none)
    (failed : (field.extract container).report.error? = some error) :
    (cls.extract options container).SettlesTo (SignatureCache.Knows container)
      (.error error) (((cls.writeHeader options : Emit Unit Unit).run ()).events ++
        aloneEvents (FieldDef.extract container) (front ++ [field])) := by
  have stopped : (cls.fields.mapM fun field => member options cls
      (field.extract container)).SettlesTo (SignatureCache.Knows container) _ _ :=
    settlesTo_members_of_error (fun field => field.decided container) failFast fields_eq sound
      failed
  exact (Extract.SettlesTo.emit _).bind_ok stopped.bind_error

/-- A class without failing members is extracted. -/
theorem extract_of_sound (options : Options) (knows : cache.Knows container)
    (sound : ∀ report ∈ cls.reports container, report.error? = none) :
    let outcome := (cls.extract options container).run.perform cache
    outcome.value = .ok (cls.summary container) ∧
      factsOf outcome.events =
        cls.headerFacts options ++ (cls.reports container).flatMap MemberReport.facts := by
  simp only [reports, FieldDef.report_eq, MethodDef.report] at sound ⊢
  rw [List.forall_mem_append, List.forall_mem_map, List.forall_mem_map] at sound
  obtain ⟨value_eq, -, events_eq⟩ :=
    (settlesTo_extract_of_sound sound.1 options sound.2).perform knows
  refine ⟨value_eq, (congrArg factsOf events_eq).trans ?_⟩
  simp only [factsOf_append, factsOf_aloneEvents, List.flatMap_append, headerFacts]

/-- A class with failing members ends with the first one of them, when failures are to stop it. -/
theorem extract_of_failed (failFast : options.failFast = true) (knows : cache.Knows container)
    {before after : List MemberReport} {failed : MemberReport} {error : ExtractionError}
    (reports_eq : cls.reports container = before ++ failed :: after)
    (sound : ∀ report ∈ before, report.error? = none) (error_eq : failed.error? = some error) :
    let outcome := (cls.extract options container).run.perform cache
    outcome.value = .error error ∧
      factsOf outcome.events =
        cls.headerFacts options ++ (before ++ [failed]).flatMap MemberReport.facts := by
  simp only [reports, FieldDef.report_eq, MethodDef.report] at reports_eq
  have split : (∃ rest, (cls.methods.map fun method => (method.extract container).report) =
        rest ++ failed :: after ∧
        before = (cls.fields.map fun field => (field.extract container).report) ++ rest) ∨
      ∃ rest, (cls.fields.map fun field => (field.extract container).report) =
        before ++ failed :: rest := by
    rcases List.append_eq_append_iff.1 reports_eq with
      ⟨rest, before_eq, methods_eq⟩ | ⟨_ | ⟨first, rest⟩, fields_eq, rest_eq⟩
    · exact .inl ⟨rest, methods_eq, before_eq⟩
    · exact .inl ⟨[], rest_eq.symm, by rw [fields_eq, List.append_nil, List.append_nil]⟩
    · cases rest_eq
      exact .inr ⟨rest, fields_eq⟩
  rcases split with ⟨rest, methods_eq, rfl⟩ | ⟨rest, fields_eq⟩
  · rw [List.forall_mem_append, List.forall_mem_map] at sound
    obtain ⟨front, later, split_eq, rfl, later_eq⟩ := List.map_eq_append_iff.1 methods_eq
    obtain ⟨method, back, rfl, rfl, -⟩ := List.map_eq_cons_iff.1 later_eq
    obtain ⟨value_eq, -, events_eq⟩ := (settlesTo_extract_of_method sound.1 failFast split_eq
      (List.forall_mem_map.1 sound.2) error_eq).perform knows
    refine ⟨value_eq, (congrArg factsOf events_eq).trans ?_⟩
    simp only [factsOf_append, factsOf_aloneEvents, List.flatMap_append, List.map_append,
      List.map_singleton, List.append_assoc, headerFacts]
  · obtain ⟨front, later, split_eq, rfl, later_eq⟩ := List.map_eq_append_iff.1 fields_eq
    obtain ⟨field, back, rfl, rfl, -⟩ := List.map_eq_cons_iff.1 later_eq
    obtain ⟨value_eq, -, events_eq⟩ := (settlesTo_extract_of_field failFast split_eq
      (List.forall_mem_map.1 sound) error_eq).perform knows
    refine ⟨value_eq, (congrArg factsOf events_eq).trans ?_⟩
    simp only [factsOf_append, factsOf_aloneEvents, List.map_append, List.map_singleton,
      headerFacts]

end ClassDef

/-! ## What was looked up before -/

namespace SignatureCache

/-- An entry of a table whose signature is looked up. -/
inductive Request
  | method (index : Nat)
  | field (index : Nat)

/-- The signatures after a look-up, which may fail. -/
def lookUp (container : Container) (cache : SignatureCache) : Request → SignatureCache
  | .method index => ((method container index).run.run.run cache).2
  | .field index => ((field container index).run.run.run cache).2

/-- The signatures of a container after some look-ups. -/
def filled (container : Container) (requests : List Request) : SignatureCache :=
  requests.foldl (lookUp container) .empty

variable {container : Container} {cache : SignatureCache}

theorem Knows.lookUp (knows : cache.Knows container) (request : Request) :
    (cache.lookUp container request).Knows container := by
  cases request with
  | method index =>
    cases ref_eq : container.methodAt index with
    | ok ref => exact (knows.method_found ref_eq).2
    | error missing => exact ((settlesTo_method_lost ref_eq).run knows).2
  | field index =>
    cases ref_eq : container.fieldAt index with
    | ok ref => exact (knows.field_found ref_eq).2
    | error missing => exact ((settlesTo_field_lost ref_eq).run knows).2

theorem knows_filled (container : Container) (requests : List Request) :
    (filled container requests).Knows container := by
  have kept : ∀ cache : SignatureCache, cache.Knows container →
      (requests.foldl (lookUp container) cache).Knows container := by
    induction requests with
    | nil => exact fun _ knows => knows
    | cons request rest induction =>
      exact fun cache knows => induction _ (knows.lookUp request)
  exact kept _ knows_empty

end SignatureCache

/-- The members of a class do not disturb each other, whatever was looked up in the container
before.  When failures are not to stop the class, it is extracted: it writes its own rows, then
those that each field writes and those that each method writes alone, whether the method fails or
not, and it leaves what the methods leave that do not fail; each member is counted once.  When
failures are to stop the class, it ends with the error and the rows of the first member that fails,
fields coming before methods. -/
theorem members_isolated (options : Options) (container : Container) (cls : ClassDef)
    (requests : List SignatureCache.Request) :
    let outcome := (cls.extract options container).run.perform (.filled container requests)
    let header := cls.headerFacts options
    let reports := cls.reports container
    (options.failFast = false →
      let done := cls.methods.filterMap (·.extracted? container)
      ∃ left, outcome.value = .ok left ∧
        factsOf outcome.events = header ++ reports.flatMap MemberReport.facts ∧
        left.definedFields = cls.fields.filterMap (·.sig? container) ∧
        left.definedMethods = done.map ExtractedMethod.id ∧
        left.accesses = done.flatMap ExtractedMethod.accesses ∧
        left.methods = done.length ∧
        left.instructions = (done.map ExtractedMethod.instructions).sum ∧
        left.definedFields.length + left.methods + left.failures =
          cls.fields.length + cls.methods.length) ∧
    (options.failFast = true →
      ((∀ report ∈ reports, report.error? = none) → outcome.value = .ok (cls.summary container) ∧
        factsOf outcome.events = header ++ reports.flatMap MemberReport.facts) ∧
      ∀ before failed after error, reports = before ++ failed :: after →
        (∀ report ∈ before, report.error? = none) → failed.error? = some error →
        outcome.value = .error error ∧
          factsOf outcome.events = header ++ (before ++ [failed]).flatMap MemberReport.facts) := by
  intro outcome header reports
  have knows := SignatureCache.knows_filled container requests
  refine ⟨fun tolerant => ?_, fun failFast => ⟨fun sound => ?_, ?_⟩⟩
  · obtain ⟨value_eq, -, events_eq⟩ :=
      (ClassDef.settlesTo_extract tolerant container cls).perform knows
    refine ⟨cls.summary container, value_eq, ?_, cls.summary_counts container⟩
    exact (congrArg factsOf events_eq).trans (cls.factsOf_events options container)
  · exact ClassDef.extract_of_sound options knows sound
  · intro before failed after error reports_eq sound error_eq
    exact ClassDef.extract_of_failed failFast knows reports_eq sound error_eq

/-- A class with a field and a method that are there, a field that is missing, and a method that
ends with a result move without a result. -/
def mixedClass : ClassDef where
  type := .object "Lone"
  superclass := some (.object "Parent")
  interfaces := []
  flags := ⟨0⟩
  annotations := []
  fields := [0, 7].map fun field => { field, flags := ⟨0⟩, initialValue := none, annotations := [] }
  methods := [loneMethod [.nop, .moveResult .narrow ⟨0⟩], loneMethod [.nop, .returnVoid]]
  sourceFile := none

/-- The tables of that class. -/
def mixed : Container :=
  { loneContainer with
    fields := #[⟨.object "Lone", "count", .primitive .int⟩]
    classes := [mixedClass] }

/-- Without failures that stop it, the class is extracted with one field and one method of two each.
Otherwise the missing field stops it, behind the rows of the other one. -/
theorem members_isolated_mixed :
    let failFast := { Options.standard with failFast := true }
    let cache := SignatureCache.filled mixed [.method 0, .field 5, .field 0]
    let tolerant := (mixedClass.extract .standard mixed).run.perform cache
    let stopped := (mixedClass.extract failFast mixed).run.perform cache
    (Options.standard.failFast = false ∧ failFast.failFast = true) ∧
    (∃ left, tolerant.value = .ok left ∧ left.definedFields.length = 1 ∧ left.methods = 1 ∧
      left.instructions = 2 ∧ left.failures = 2) ∧
    stopped.value = .error (.missingEntry ⟨.field, 7⟩) ∧
      factsOf stopped.events = mixedClass.headerFacts failFast ++
        [⟨.field, ["<Lone: int count>", "Lone", "count", "int"]⟩] := by
  intro failFast cache tolerant stopped
  let requests : List SignatureCache.Request := [.method 0, .field 5, .field 0]
  have done_eq : (mixedClass.methods.filterMap (·.extracted? mixed)).map
      ExtractedMethod.instructions = [2] := by cbv
  have done_length : (mixedClass.methods.filterMap (·.extracted? mixed)).length = 1 := by
    rw [← List.length_map, done_eq, List.length_singleton]
  refine ⟨⟨rfl, rfl⟩, ?_, ?_⟩
  · obtain ⟨left, value_eq, -, fields_eq, -, -, methods_eq, instructions_eq, counts⟩ :=
      (members_isolated .standard mixed mixedClass requests).1 rfl
    rw [done_length] at methods_eq
    rw [done_eq] at instructions_eq
    have fields_length : left.definedFields.length = 1 := congrArg List.length fields_eq
    have members : left.definedFields.length + left.methods + left.failures = 4 := counts
    exact ⟨left, value_eq, fields_length, methods_eq, instructions_eq, by omega⟩
  · let present : MemberReport := ⟨none, [⟨.field, ["<Lone: int count>", "Lone", "count", "int"]⟩]⟩
    let missing : MemberReport := ⟨some (.missingEntry ⟨.field, 7⟩), []⟩
    have reports_eq : mixedClass.reports mixed =
        [present] ++ missing :: mixedClass.methods.map (·.report mixed) := rfl
    have sound : ∀ report ∈ [present], report.error? = none := by
      intro report member
      rw [List.mem_singleton.1 member]
    exact ((members_isolated failFast mixed mixedClass requests).2 rfl).2 [present] missing _ _
      reports_eq sound rfl

end DalvikFacts
