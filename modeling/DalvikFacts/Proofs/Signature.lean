import DalvikFacts.Method.Plan
import DalvikFacts.Proofs.Memo
import DalvikFacts.Proofs.Settled

/-!
# Look-ups of signatures

A signature cache of a container knows nothing but the signatures of its references.  Look-ups keep
it so, and then give the signature of the reference, whoever looked it up first.
-/

namespace DalvikFacts

/-- What is kept are signatures of references of the container. -/
structure SignatureCache.Knows (container : Container) (cache : SignatureCache) : Prop where
  methods : cache.methods.Keeps fun ref sig => sig = .ofRef ref
  fields : cache.fields.Keeps fun index sig =>
    ∃ ref, container.fieldAt index = .ok ref ∧ sig = .ofRef ref

namespace SignatureCache

variable {container : Container} {cache : SignatureCache}

theorem knows_empty : Knows container empty :=
  ⟨Memo.keeps_empty, Memo.keeps_empty⟩

theorem Knows.ofMethod (knows : cache.Knows container) (ref : MethodRef) :
    (cache.ofMethod ref).1.value = .ofRef ref ∧ (cache.ofMethod ref).2.Knows container :=
  have added := knows.methods.findOrAdd (rfl : MethodSig.ofRef ref = .ofRef ref)
  ⟨added.1, added.2, knows.fields⟩

theorem Knows.ofField (knows : cache.Knows container) {index : Nat} {ref : FieldRef}
    (ref_eq : container.fieldAt index = .ok ref) :
    (cache.ofField index ref).1.value = .ofRef ref ∧
      (cache.ofField index ref).2.Knows container := by
  have added := knows.fields.findOrAdd (⟨ref, ref_eq, rfl⟩ :
    ∃ found, container.fieldAt index = .ok found ∧ FieldSig.ofRef ref = .ofRef found)
  obtain ⟨⟨found, found_eq, value_eq⟩, kept⟩ := added
  rw [ref_eq] at found_eq
  cases found_eq
  exact ⟨value_eq, knows.methods, kept⟩

end SignatureCache

namespace Lookup

variable {α β : Type} (container : Container)

/-- Whatever others look up meanwhile, the look-up has the outcome. -/
def SettlesTo (lookup : Lookup α) (outcome : Except ExtractionError α) : Prop :=
  Extract.SettlesTo (SignatureCache.Knows container) (Extract.lookup lookup) outcome []

namespace SettlesTo

variable {container} {lookup : Lookup α} {next : α → Lookup β}

theorem pure (value : α) : SettlesTo container (Pure.pure value) (.ok value) :=
  Extract.SettlesTo.pure value

theorem throw (error : ExtractionError) :
    SettlesTo container (MonadExcept.throw error : Lookup α) (.error error) :=
  Extract.SettlesTo.throw error

theorem bind_ok {value : α} {outcome : Except ExtractionError β}
    (first : SettlesTo container lookup (.ok value))
    (rest : SettlesTo container (next value) outcome) :
    SettlesTo container (lookup >>= next) outcome := by
  unfold SettlesTo Extract.SettlesTo Extract.lookup at *
  rw [ExceptT.run_bind, ExceptT.run_mk, Script.hoist_bind]
  refine Script.Settles.bind_quiet first ?_
  rintro _ rfl
  exact rest

theorem bind_error {error : ExtractionError} (first : SettlesTo container lookup (.error error)) :
    SettlesTo container (lookup >>= next) (.error error) := by
  unfold SettlesTo Extract.SettlesTo Extract.lookup at *
  rw [ExceptT.run_bind, ExceptT.run_mk, Script.hoist_bind]
  refine Script.Settles.bind_quiet first ?_
  rintro _ rfl
  exact .pure rfl

theorem entry_ok {found : Except MissingEntry α} {value : α} (found_eq : found = .ok value) :
    SettlesTo container (Lookup.entry found) (.ok value) := by
  rw [found_eq]
  exact pure value

theorem entry_error {found : Except MissingEntry α} {missing : MissingEntry}
    (found_eq : found = .error missing) :
    SettlesTo container (Lookup.entry found) (.error (.missingEntry missing)) := by
  rw [found_eq]
  exact throw _

theorem access_bind {action : StateM SignatureCache α} {outcome : Except ExtractionError β}
    (rest : ∀ cache, cache.Knows container → (action.run cache).2.Knows container ∧
      SettlesTo container (next (action.run cache).1) outcome) :
    SettlesTo container (Lookup.access action >>= next) outcome := by
  change Script.Settles _ _ (.step (Emit.silently action) fun answer =>
    (Extract.lookup (next answer)).run) []
  exact .silent (fun _ => rfl) rest

theorem run {outcome : Except ExtractionError α} (settles : SettlesTo container lookup outcome)
    {cache : SignatureCache} (knows : cache.Knows container) :
    (lookup.run.run cache).1 = outcome ∧ (lookup.run.run cache).2.Knows container := by
  obtain ⟨value_eq, kept, -⟩ := Extract.SettlesTo.perform settles knows
  rw [Extract.perform_lookup] at value_eq kept
  exact ⟨value_eq, kept⟩

/-- An extraction goes on with everything that looks the same through a change. -/
theorem lookup_bind {γ : Type} {change : α → β} {value : β} {next : α → Extract γ}
    {outcome : Except ExtractionError γ} {events : List Event}
    (settles : SettlesTo container (lookup >>= fun found => Pure.pure (change found)) (.ok value))
    (rest : ∀ found, change found = value →
      (next found).SettlesTo (SignatureCache.Knows container) outcome events) :
    (Extract.lookup lookup >>= next).SettlesTo (SignatureCache.Knows container) outcome events := by
  have changed : (Extract.lookup (lookup >>= fun found => Pure.pure (change found))).run =
      (Extract.lookup lookup).run >>= fun found => Script.done (change <$> found) := by
    unfold Extract.lookup
    rw [ExceptT.run_bind, ExceptT.run_mk, ExceptT.run_mk, Script.hoist_bind]
    congr
    funext found
    cases found <;> rfl
  unfold SettlesTo Extract.SettlesTo at settles
  rw [changed] at settles
  have mapped := settles.of_bind_done
  unfold Extract.SettlesTo
  rw [ExceptT.run_bind, ← List.nil_append events]
  refine mapped.bind fun found found_eq => ?_
  cases found with
  | error error => cases found_eq
  | ok found =>
    cases found_eq
    exact rest found rfl

end SettlesTo

end Lookup

namespace SignatureCache

variable {container : Container} {α : Type} {next : Shared MethodSig → Lookup α}
  {follow : Shared FieldSig → Lookup α} {index : Nat} {outcome : Except ExtractionError α}

/-- The look-up of a method goes on with the signature of its reference. -/
theorem settlesTo_method_bind {ref : MethodRef} (ref_eq : container.methodAt index = .ok ref)
    (rest : ∀ shared, shared.value = .ofRef ref → (next shared).SettlesTo container outcome) :
    (method container index >>= next).SettlesTo container outcome := by
  unfold method
  rw [ref_eq, bind_assoc]
  refine Lookup.SettlesTo.bind_ok (.entry_ok rfl) ?_
  rw [bind_assoc]
  refine .access_bind fun cache knows => ⟨knows, ?_⟩
  dsimp only [StateT.run]
  cases found_eq : cache.methods.find? ref with
  | some found => exact .bind_ok (.pure found) (rest found (knows.methods ref found found_eq))
  | none =>
    refine .access_bind fun cache knows => ?_
    exact ⟨(knows.ofMethod ref).2, rest _ (knows.ofMethod ref).1⟩

theorem settlesTo_method_missing {missing : MissingEntry}
    (ref_eq : container.methodAt index = .error missing) :
    (method container index >>= next).SettlesTo container (.error (.missingEntry missing)) :=
  .bind_error (.bind_error (.entry_error ref_eq))

theorem settlesTo_method_lost {missing : MissingEntry}
    (ref_eq : container.methodAt index = .error missing) :
    (method container index).SettlesTo container (.error (.missingEntry missing)) := by
  rw [← bind_pure (method container index)]
  exact settlesTo_method_missing ref_eq

/-- The look-up of a field goes on with the signature of its reference. -/
theorem settlesTo_field_bind {ref : FieldRef} (ref_eq : container.fieldAt index = .ok ref)
    (rest : ∀ shared, shared.value = .ofRef ref → (follow shared).SettlesTo container outcome) :
    (field container index >>= follow).SettlesTo container outcome := by
  unfold field
  rw [bind_assoc]
  refine .access_bind fun cache knows => ⟨knows, ?_⟩
  dsimp only [StateT.run]
  cases found_eq : cache.fields.find? index with
  | some found =>
    obtain ⟨known, known_eq, value_eq⟩ := knows.fields index found found_eq
    rw [ref_eq] at known_eq
    cases known_eq
    exact .bind_ok (.pure found) (rest found value_eq)
  | none =>
    rw [ref_eq, bind_assoc]
    refine .bind_ok (.entry_ok rfl) (.access_bind fun cache knows => ?_)
    exact ⟨(knows.ofField ref_eq).2, rest _ (knows.ofField ref_eq).1⟩

theorem settlesTo_field_missing {missing : MissingEntry}
    (ref_eq : container.fieldAt index = .error missing) :
    (field container index >>= follow).SettlesTo container (.error (.missingEntry missing)) := by
  unfold field
  rw [bind_assoc]
  refine .access_bind fun cache knows => ⟨knows, ?_⟩
  dsimp only [StateT.run]
  cases found_eq : cache.fields.find? index with
  | some found =>
    obtain ⟨known, known_eq, -⟩ := knows.fields index found found_eq
    rw [ref_eq] at known_eq
    cases known_eq
  | none => exact .bind_error (.bind_error (.entry_error ref_eq))

theorem settlesTo_field_lost {missing : MissingEntry}
    (ref_eq : container.fieldAt index = .error missing) :
    (field container index).SettlesTo container (.error (.missingEntry missing)) := by
  rw [← bind_pure (field container index)]
  exact settlesTo_field_missing ref_eq

end SignatureCache

namespace MethodContext

variable (cx : MethodContext) {index : Nat}

theorem settlesTo_methodSig {ref : MethodRef} (ref_eq : cx.container.methodAt index = .ok ref) :
    (cx.methodSig index).SettlesTo cx.container (.ok (.ofRef ref)) :=
  SignatureCache.settlesTo_method_bind ref_eq fun _ value_eq => value_eq ▸ .pure _

theorem settlesTo_fieldSig {ref : FieldRef} (ref_eq : cx.container.fieldAt index = .ok ref) :
    (cx.fieldSig index).SettlesTo cx.container (.ok (.ofRef ref)) :=
  SignatureCache.settlesTo_field_bind ref_eq fun _ value_eq => value_eq ▸ .pure _

end MethodContext

end DalvikFacts
