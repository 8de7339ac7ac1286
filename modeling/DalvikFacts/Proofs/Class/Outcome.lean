import DalvikFacts.Class.Extract
import DalvikFacts.Proofs.Method.Outcome

/-!
# Outcomes of classes

When failures are not to stop it, the extraction of a class always succeeds, and comes to the same
whatever other workers look up meanwhile.
-/

namespace DalvikFacts

namespace FieldDef

variable {σ : Type}

theorem plain_reportOmission (value : Value) : (reportOmission value : Emit σ Unit).Plain := by
  unfold reportOmission
  split
  next notice omitted =>
    refine .notice ?_
    unfold InitialValue.omission? at omitted
    split at omitted <;> cases omitted <;> rfl
  next => exact .pure ()

theorem plain_writeInitialValue (field : FieldSig) (value : Value) :
    (writeInitialValue field value : Emit σ Unit).Plain := by
  refine (plain_reportOmission value).bind fun _ => ?_
  split
  · exact .pure ()
  · refine .bind (.row (by decide)) fun _ => ?_
    split
    · exact .ite (.row (by decide)) (.pure ())
    · exact .bind (.bind (.row (by decide)) fun _ => .bind (.row (by decide)) fun _ => .pure _)
        fun _ => .pure ()
    · exact .pure ()

theorem plain_write (definition : FieldDef) (field : FieldSig) :
    (definition.write field : Emit σ Unit).Plain := by
  have marked : (do
      (definition.flags.modifiers .fields).forM fun modifier =>
        Emit.row .fieldModifier [modifier, field.id]
      definition.annotations.forM fun mark =>
        Emit.row .fieldAnnotations [field.id, mark.type.sourceName] : Emit σ Unit).Plain :=
    .bind (.forM fun _ => .row (by decide)) fun _ => .forM fun _ => .row (by decide)
  refine .bind (.row (by decide)) fun _ => ?_
  cases definition.initialValue with
  | none => exact marked
  | some value => exact (plain_writeInitialValue field value).bind fun _ => marked

theorem decided (container : Container) (definition : FieldDef) :
    (definition.extract container).Decided container fun _ => True :=
  SignatureCache.decided_field fun _ _ =>
    ((Extract.Succeeds.emit (definition.plain_write _)).bind fun _ _ => .pure trivial).decided

end FieldDef

namespace ClassDef

variable {σ : Type} (options : Options) (cls : ClassDef)

theorem plain_writeHeader : (cls.writeHeader options : Emit σ Unit).Plain := by
  have linked : (cls.writeSuperClass : Emit σ Unit).Plain := by
    unfold writeSuperClass
    split
    · exact .row (by decide)
    · exact .ite (.pure ()) (.notice rfl)
  have typed : (cls.writeType : Emit σ Unit).Plain := by
    refine .bind (.forM fun _ => .row (by decide)) fun _ => .bind (.row ?_) fun _ =>
      linked.bind fun _ => .forM fun _ => .row (by decide)
    split <;> decide
  exact .guarded (.row (by decide)) (typed.bind fun _ => .forM fun _ => .row (by decide))

/-- The accesses of a class are those of its methods. -/
theorem accesses_summarize {good : FieldAccess → Prop} (fields : List (Option FieldSig))
    {methods : List (Option ExtractedMethod)} (holds : ∀ found ∈ methods, ∀ extracted,
      found = some extracted → ∀ access ∈ extracted.accesses, good access) :
    ∀ access ∈ (cls.summarize fields methods).accesses, good access := by
  intro access member
  obtain ⟨extracted, extracted_mem, access_mem⟩ := List.mem_flatMap.1 member
  rw [List.mem_filterMap] at extracted_mem
  obtain ⟨found, found_mem, found_eq⟩ := extracted_mem
  exact holds found found_mem extracted found_eq access access_mem

variable {options cls}

theorem decided_member {α : Type} {container : Container} {action : Extract α} {good : α → Prop}
    (decided : action.Decided container good) :
    (member options cls action).Decided container fun _ => True := by
  refine decided.attempt.decided.bind fun outcome _ => ?_
  cases outcome with
  | ok value => exact (Extract.Succeeds.pure trivial).decided
  | error error =>
    dsimp only
    split
    · exact .throw error
    · exact ((Extract.Succeeds.emit (Emit.Plain.notice rfl)).bind fun _ _ =>
        .pure trivial).decided

theorem decided (options : Options) (container : Container) (cls : ClassDef) :
    (cls.extract options container).Decided container fun _ => True := by
  refine (Extract.Succeeds.emit (cls.plain_writeHeader options)).decided.bind fun _ _ => ?_
  refine (Extract.Decided.mapM (fun field : FieldDef =>
    decided_member (field.decided container)) cls.fields).bind fun fields _ => ?_
  refine (Extract.Decided.mapM (fun method : MethodDef =>
    decided_member (method.decided container)) cls.methods).bind fun methods _ => ?_
  exact (Extract.Succeeds.pure trivial).decided

variable (tolerant : options.failFast = false)

include tolerant

theorem succeeds_member {α : Type} {container : Container} {action : Extract α} {good : α → Prop}
    (decided : action.Decided container good) :
    (member options cls action).Succeeds container fun found =>
      ∀ value, found = some value → good value := by
  refine decided.attempt.bind fun outcome holds => ?_
  cases outcome with
  | ok value =>
    refine .pure fun found found_eq => ?_
    cases found_eq
    exact holds value rfl
  | error error =>
    simp only [tolerant]
    exact (Extract.Succeeds.emit (Emit.Plain.notice rfl)).bind fun _ _ => .pure (by simp)

/-- Whatever others do, the extraction of a class succeeds in one way. -/
theorem succeeds (container : Container) :
    (cls.extract options container).Succeeds container fun extracted =>
      extracted.name = cls.name ∧ extracted.superClass = cls.superName? ∧
        ∀ access ∈ extracted.accesses, access.relation ∈ accessRelations := by
  refine (Extract.Succeeds.emit (cls.plain_writeHeader options)).bind fun _ _ => ?_
  refine (Extract.Succeeds.mapM (fun field : FieldDef =>
    succeeds_member tolerant (field.decided container)) cls.fields).bind fun fields _ => ?_
  refine (Extract.Succeeds.mapM (fun method : MethodDef =>
    succeeds_member tolerant (method.decided container)) cls.methods).bind fun methods holds => ?_
  exact .pure ⟨rfl, rfl, cls.accesses_summarize fields holds⟩

end ClassDef

end DalvikFacts
