import DalvikFacts.Proofs.Signature

/-!
# Plain outcomes

What an extraction comes to when others look up signatures meanwhile, and what it may emit on the
way.  Rows of phantom entities and of field accesses depend on a whole run, and only its end writes
them; that a class is skipped is told by those who extract it.  All other events are plain.
-/

namespace DalvikFacts

/-- The relations of phantom entities. -/
def phantomRelations : List Relation :=
  [.phantomType, .phantomMethod]

/-- The relations of field accesses. -/
def accessRelations : List Relation :=
  [.loadInstanceField, .loadStaticField, .storeInstanceField, .storeStaticField]

/-- The class that is skipped by a notice, and why. -/
def Notice.skipped? : Notice → Option (String × ExtractionError)
  | .classSkipped cls error => some (cls, error)
  | _ => none

/-- No event is a row that depends on a whole run, and none tells that a class is skipped. -/
structure PlainEvents (events : List Event) : Prop where
  facts : ∀ fact, .fact fact ∈ events → fact.relation ∉ phantomRelations ++ accessRelations
  notices : ∀ notice, .notice notice ∈ events → notice.skipped? = none

namespace PlainEvents

variable {events others : List Event}

theorem nil : PlainEvents [] where
  facts _ member := by cases member
  notices _ member := by cases member

theorem append (first : PlainEvents events) (second : PlainEvents others) :
    PlainEvents (events ++ others) where
  facts fact member := (List.mem_append.1 member).elim (first.facts fact) (second.facts fact)
  notices notice member :=
    (List.mem_append.1 member).elim (first.notices notice) (second.notices notice)

end PlainEvents

/-- An action with plain events. -/
def Emit.Plain {σ α : Type} (action : Emit σ α) : Prop :=
  ∀ state, PlainEvents (action.run state).events

namespace Emit.Plain

variable {σ α β : Type} {action : Emit σ α}

theorem pure (value : α) : (Pure.pure value : Emit σ α).Plain :=
  fun _ => .nil

theorem bind {next : α → Emit σ β} (first : action.Plain) (rest : ∀ value, (next value).Plain) :
    (action >>= next).Plain :=
  fun state => (first state).append (rest _ _)

theorem row {relation : Relation} {columns : List String}
    (plain : relation ∉ phantomRelations ++ accessRelations) :
    (Emit.row relation columns : Emit σ Unit).Plain := by
  intro state
  constructor
  · intro fact member
    cases List.mem_singleton.1 member
    exact plain
  · intro notice member
    cases List.mem_singleton.1 member

theorem notice {notice : Notice} (other : notice.skipped? = none) :
    (Emit.notice notice : Emit σ Unit).Plain := by
  intro state
  constructor
  · intro fact member
    cases List.mem_singleton.1 member
  · intro found member
    cases List.mem_singleton.1 member
    exact other

theorem ite {condition : Prop} [Decidable condition] {other : Emit σ α} (yes : action.Plain)
    (no : other.Plain) : (if condition then action else other).Plain := by
  split
  · exact yes
  · exact no

theorem guarded {condition : Prop} [Decidable condition] {later : Emit σ β} (first : action.Plain)
    (rest : later.Plain) : (if condition then action >>= fun _ => later else later).Plain :=
  .ite (.bind first fun _ => rest) rest

theorem forM {items : List β} {each : β → Emit σ PUnit} (one : ∀ item, (each item).Plain) :
    (items.forM each).Plain := by
  induction items with
  | nil => exact .pure ()
  | cons item rest induction => exact (one item).bind fun _ => induction

end Emit.Plain

namespace Extract

variable {α β : Type}

/-- Whatever others look up meanwhile, the extraction comes to one outcome with plain events, and
its value is good if it has one. -/
def Decided (container : Container) (action : Extract α) (good : α → Prop) : Prop :=
  ∃ outcome events, action.SettlesTo (SignatureCache.Knows container) outcome events ∧
    PlainEvents events ∧ ∀ value, outcome = .ok value → good value

/-- Whatever others look up meanwhile, the extraction comes to one value with plain events. -/
def Succeeds (container : Container) (action : Extract α) (good : α → Prop) : Prop :=
  ∃ value events, action.SettlesTo (SignatureCache.Knows container) (.ok value) events ∧
    PlainEvents events ∧ good value

variable {container : Container} {action : Extract α} {next : α → Extract β} {mid : α → Prop}
  {good : β → Prop}

namespace Succeeds

theorem pure {value : β} (holds : good value) :
    Succeeds container (Pure.pure value) good :=
  ⟨value, [], .pure value, .nil, holds⟩

theorem bind (first : Succeeds container action mid)
    (rest : ∀ value, mid value → Succeeds container (next value) good) :
    Succeeds container (action >>= next) good := by
  obtain ⟨value, events, settles, plain, holds⟩ := first
  obtain ⟨last, others, rest_settles, rest_plain, last_holds⟩ := rest value holds
  exact ⟨last, events ++ others, settles.bind_ok rest_settles, plain.append rest_plain, last_holds⟩

theorem decided (succeeds : Succeeds container action mid) : Decided container action mid := by
  obtain ⟨value, events, settles, plain, holds⟩ := succeeds
  refine ⟨.ok value, events, settles, plain, fun found found_eq => ?_⟩
  cases found_eq
  exact holds

theorem within {σ : Type} {inner : Emit σ α} {state : σ} {good : α × σ → Prop}
    (plain : PlainEvents (inner.run state).events)
    (holds : good ((inner.run state).value, (inner.run state).state)) :
    Succeeds container (Extract.within inner state) good :=
  ⟨_, _, .within inner state, plain, holds⟩

theorem emit {inner : Emit Unit α} (plain : inner.Plain) :
    Succeeds container (Extract.emit inner) fun _ => True :=
  ⟨_, _, .emit inner, plain (), trivial⟩

/-- Successive extractions that succeed do so together. -/
theorem mapM {each : α → Extract β} (one : ∀ item, Succeeds container (each item) good)
    (items : List α) :
    Succeeds container (items.mapM each) fun values => ∀ value ∈ values, good value := by
  induction items with
  | nil => exact .pure (by simp)
  | cons item rest induction =>
    rw [List.mapM_cons]
    refine (one item).bind fun value holds => induction.bind fun values all_hold => .pure ?_
    simpa using ⟨holds, all_hold⟩

end Succeeds

namespace Decided

theorem throw (error : ExtractionError) :
    Decided container (MonadExcept.throw error : Extract β) good := by
  refine ⟨.error error, [], .throw error, .nil, fun value value_eq => ?_⟩
  cases value_eq

theorem bind (first : Decided container action mid)
    (rest : ∀ value, mid value → Decided container (next value) good) :
    Decided container (action >>= next) good := by
  obtain ⟨outcome, events, settles, plain, holds⟩ := first
  cases outcome with
  | error error =>
    refine ⟨.error error, events, settles.bind_error, plain, fun value value_eq => ?_⟩
    cases value_eq
  | ok value =>
    obtain ⟨last, others, rest_settles, rest_plain, last_holds⟩ := rest value (holds value rfl)
    exact ⟨last, events ++ others, settles.bind_ok rest_settles, plain.append rest_plain,
      last_holds⟩

/-- Successive extractions that are decided are so together. -/
theorem mapM {each : α → Extract β} (one : ∀ item, Decided container (each item) good)
    (items : List α) :
    Decided container (items.mapM each) fun values => ∀ value ∈ values, good value := by
  induction items with
  | nil => exact (Succeeds.pure (by simp)).decided
  | cons item rest induction =>
    rw [List.mapM_cons]
    refine (one item).bind fun value holds => induction.bind fun values all_hold =>
      (Succeeds.pure ?_).decided
    simpa using ⟨holds, all_hold⟩

theorem attempt (decided : Decided container action mid) :
    Succeeds container (Script.attempt action) fun outcome =>
      ∀ value, outcome = .ok value → mid value := by
  obtain ⟨outcome, events, settles, plain, holds⟩ := decided
  exact ⟨outcome, events, settles.attempt, plain, holds⟩

theorem lookup_error {lookup : Lookup α} {error : ExtractionError}
    (settles : lookup.SettlesTo container (.error error)) :
    Decided container (Extract.lookup lookup >>= next) good := by
  refine ⟨.error error, [], Extract.SettlesTo.bind_error settles, .nil, fun value value_eq => ?_⟩
  cases value_eq

end Decided

end Extract

namespace SignatureCache

variable {α : Type} {container : Container} {index : Nat} {good : α → Prop}
  {outcome : Except ExtractionError α} {events : List Event}

/-- An extraction that starts with the look-up of a method goes on with the signature of the
reference. -/
theorem settlesTo_lookup_method {ref : MethodRef} {next : MethodSig → Extract α}
    (ref_eq : container.methodAt index = .ok ref)
    (rest : (next (.ofRef ref)).SettlesTo (Knows container) outcome events) :
    (Extract.lookup (method container index) >>= fun found => next found.value).SettlesTo
      (Knows container) outcome events := by
  have found : (method container index >>= fun shared => pure shared.value).SettlesTo container
      (.ok (.ofRef ref)) :=
    settlesTo_method_bind ref_eq fun _ value_eq => value_eq ▸ .pure _
  refine found.lookup_bind fun shared value_eq => ?_
  rw [value_eq]
  exact rest

/-- An extraction that starts with the look-up of a field goes on with the signature of the
reference. -/
theorem settlesTo_lookup_field {ref : FieldRef} {next : FieldSig → Extract α}
    (ref_eq : container.fieldAt index = .ok ref)
    (rest : (next (.ofRef ref)).SettlesTo (Knows container) outcome events) :
    (Extract.lookup (field container index) >>= fun found => next found.value).SettlesTo
      (Knows container) outcome events := by
  have found : (field container index >>= fun shared => pure shared.value).SettlesTo container
      (.ok (.ofRef ref)) :=
    settlesTo_field_bind ref_eq fun _ value_eq => value_eq ▸ .pure _
  refine found.lookup_bind fun shared value_eq => ?_
  rw [value_eq]
  exact rest

theorem decided_method {next : MethodSig → Extract α}
    (rest : ∀ ref, container.methodAt index = .ok ref →
      (next (.ofRef ref)).Decided container good) :
    (Extract.lookup (method container index) >>= fun found => next found.value).Decided container
      good := by
  cases ref_eq : container.methodAt index with
  | error missing => exact .lookup_error (settlesTo_method_lost ref_eq)
  | ok ref =>
    obtain ⟨outcome, events, settles, plain, holds⟩ := rest ref ref_eq
    exact ⟨outcome, events, settlesTo_lookup_method ref_eq settles, plain, holds⟩

theorem decided_field {next : FieldSig → Extract α}
    (rest : ∀ ref, container.fieldAt index = .ok ref →
      (next (.ofRef ref)).Decided container good) :
    (Extract.lookup (field container index) >>= fun found => next found.value).Decided container
      good := by
  cases ref_eq : container.fieldAt index with
  | error missing => exact .lookup_error (settlesTo_field_lost ref_eq)
  | ok ref =>
    obtain ⟨outcome, events, settles, plain, holds⟩ := rest ref ref_eq
    exact ⟨outcome, events, settlesTo_lookup_field ref_eq settles, plain, holds⟩

end SignatureCache

end DalvikFacts
