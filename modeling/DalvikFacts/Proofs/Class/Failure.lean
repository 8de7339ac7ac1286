import DalvikFacts.Proofs.Class.Outcome

/-!
# Failing classes

A class fails when one of its members does, and whether a member fails does not depend on what else
is looked up.  When failures are to stop it, the extraction of a class comes to an error just if the
class fails; what it writes before is what it writes alone.
-/

namespace DalvikFacts

namespace Extract

variable {α β : Type}

/-- Whether an extraction that starts with nothing looked up comes to an error. -/
def fails (action : Extract α) : Bool :=
  !(action.run.perform .empty).value.isOk

/-- Whatever others look up meanwhile, the extraction comes to one outcome: an error if it is said
to fail, and a good value otherwise. -/
def FailsIf (container : Container) (action : Extract α) (failing : Bool) (good : α → Prop) :
    Prop :=
  ∃ outcome events, action.SettlesTo (SignatureCache.Knows container) outcome events ∧
    outcome.isOk = !failing ∧ ∀ value, outcome = .ok value → good value

namespace FailsIf

variable {container : Container} {action : Extract α} {next : α → Extract β}
  {failing later : Bool} {mid : α → Prop} {good : β → Prop}

theorem pure {value : β} (holds : good value) :
    FailsIf container (Pure.pure value) false good := by
  refine ⟨.ok value, [], .pure value, rfl, fun found found_eq => ?_⟩
  cases found_eq
  exact holds

theorem of_decided (decided : action.Decided container mid) :
    FailsIf container action action.fails mid := by
  obtain ⟨outcome, events, settles, -, holds⟩ := decided
  obtain ⟨alone_eq, -, -⟩ := settles.perform SignatureCache.knows_empty
  refine ⟨outcome, events, settles, ?_, holds⟩
  rw [fails, alone_eq, Bool.not_not]

theorem of_succeeds (succeeds : action.Succeeds container mid) :
    FailsIf container action false mid := by
  obtain ⟨value, events, settles, -, holds⟩ := succeeds
  refine ⟨.ok value, events, settles, rfl, fun found found_eq => ?_⟩
  cases found_eq
  exact holds

theorem bind (first : FailsIf container action failing mid)
    (rest : ∀ value, mid value → FailsIf container (next value) later good) :
    FailsIf container (action >>= next) (failing || later) good := by
  obtain ⟨outcome, events, settles, ok_eq, holds⟩ := first
  cases outcome with
  | error error =>
    obtain rfl : failing = true := by simpa [Except.isOk, Except.toBool] using ok_eq
    refine ⟨.error error, events, settles.bind_error, rfl, fun value value_eq => ?_⟩
    cases value_eq
  | ok value =>
    obtain rfl : failing = false := by simpa [Except.isOk, Except.toBool] using ok_eq
    obtain ⟨last, others, rest_settles, last_ok, last_holds⟩ := rest value (holds value rfl)
    exact ⟨last, events ++ others, settles.bind_ok rest_settles, last_ok, last_holds⟩

/-- Successive extractions fail if one of them does. -/
theorem mapM {each : α → Extract β} {failing : α → Bool}
    (one : ∀ item, FailsIf container (each item) (failing item) good) (items : List α) :
    FailsIf container (items.mapM each) (items.any failing) fun values =>
      ∀ value ∈ values, good value := by
  induction items with
  | nil => exact .pure (by simp)
  | cons item rest induction =>
    have rest_fails : ∀ value, good value → FailsIf container
        (rest.mapM each >>= fun values => Pure.pure (value :: values)) (rest.any failing || false)
        fun values => ∀ value ∈ values, good value := by
      intro value holds
      exact induction.bind fun values all_hold => .pure (by simpa using ⟨holds, all_hold⟩)
    rw [List.mapM_cons, List.any_cons, ← Bool.or_false (rest.any failing)]
    exact (one item).bind rest_fails

theorem settles_alone (fails : FailsIf container action failing mid) :
    ∃ outcome, action.SettlesTo (SignatureCache.Knows container) outcome
        (action.run.perform .empty).events ∧
      outcome.isOk = !failing ∧ ∀ value, outcome = .ok value → mid value := by
  obtain ⟨outcome, events, settles, ok_eq, holds⟩ := fails
  obtain ⟨-, -, events_eq⟩ := settles.perform SignatureCache.knows_empty
  exact ⟨outcome, events_eq ▸ settles, ok_eq, holds⟩

end FailsIf

end Extract

namespace ClassDef

/-- Whether a field or a method of a class fails. -/
def fails (container : Container) (cls : ClassDef) : Bool :=
  (cls.fields.any fun field => (field.extract container).fails) ||
    cls.methods.any fun method => (method.extract container).fails

/-- The rows that the extraction of a class writes, up to its failure if it fails. -/
def facts (options : Options) (container : Container) (cls : ClassDef) : List Fact :=
  factsOf ((cls.extract options container).run.perform .empty).events

variable {options : Options} {cls : ClassDef} (failFast : options.failFast = true)

include failFast

theorem failsIf_member {α : Type} {container : Container} {action : Extract α} {failing : Bool}
    {good : α → Prop} (fails : action.FailsIf container failing good) :
    (member options cls action).FailsIf container failing fun found =>
      ∀ value, found = some value → good value := by
  obtain ⟨outcome, events, settles, ok_eq, holds⟩ := fails
  cases outcome with
  | error error =>
    refine ⟨.error error, events ++ [], settles.attempt.bind_ok ?_, ok_eq, fun value value_eq => ?_⟩
    · simp only [failFast, if_true]
      exact .throw error
    · cases value_eq
  | ok value =>
    refine ⟨.ok (some value), events ++ [], settles.attempt.bind_ok (.pure _), ok_eq, ?_⟩
    rintro _ ⟨⟩ _ ⟨⟩
    exact holds value rfl

/-- When failures are to stop it, the extraction of a class comes to an error if the class fails. -/
theorem failsIf_extract (container : Container) :
    (cls.extract options container).FailsIf container (cls.fails container) fun extracted =>
      extracted.name = cls.name ∧ extracted.superClass = cls.superName? ∧
        ∀ access ∈ extracted.accesses, access.relation ∈ accessRelations := by
  have header : (Extract.emit (cls.writeHeader options)).FailsIf container false fun _ => True :=
    .of_succeeds (.emit (cls.plain_writeHeader options))
  have field_fails : ∀ field : FieldDef, (member options cls (field.extract container)).FailsIf
      container (field.extract container).fails fun found => ∀ value, found = some value → True :=
    fun field => failsIf_member failFast (.of_decided (field.decided container))
  have method_fails : ∀ method : MethodDef,
      (member options cls (method.extract container)).FailsIf container
        (method.extract container).fails fun found => ∀ extracted, found = some extracted →
          ∀ access ∈ extracted.accesses, access.relation ∈ accessRelations :=
    fun method => failsIf_member failFast (.of_decided (method.decided container))
  have summary : ∀ fields methods, (∀ found ∈ methods, ∀ extracted, found = some extracted →
        ∀ access ∈ extracted.accesses, access.relation ∈ accessRelations) →
      (pure (cls.summarize fields methods) : Extract ExtractedClass).FailsIf container false
        fun extracted => extracted.name = cls.name ∧ extracted.superClass = cls.superName? ∧
          ∀ access ∈ extracted.accesses, access.relation ∈ accessRelations :=
    fun fields _ holds => .pure ⟨rfl, rfl, cls.accesses_summarize fields holds⟩
  have whole := header.bind fun _ _ => (Extract.FailsIf.mapM field_fails cls.fields).bind
    fun fields _ => (Extract.FailsIf.mapM method_fails cls.methods).bind fun methods holds =>
      summary fields methods holds
  rwa [Bool.false_or, Bool.or_false] at whole

end ClassDef

end DalvikFacts
