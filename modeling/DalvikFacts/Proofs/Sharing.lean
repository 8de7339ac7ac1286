import DalvikFacts.Proofs.Crowd

/-!
# Shared signatures

Workers look up the signatures of methods and fields in one cache, which is empty at first.  The
look-ups of methods are a crowd around the methods of the cache, whose keys are the references that
the method table has at their positions; those of fields are a crowd around its fields, whose keys
are the positions themselves.  The crowds do not disturb one another.
-/

namespace DalvikFacts

namespace Script

variable {A : Type → Type} {α σ : Type}

/-- The value of a script that is done. -/
def value? : Script A α → Option α
  | done value => some value
  | step _ _ => none

/-- Takes the next step of a script that has one. -/
def advance (script : Script (StateM σ) α) (state : σ) : Script (StateM σ) α × σ :=
  match script with
  | done value => (done value, state)
  | step action next =>
    let (answer, state) := action.run state
    (next answer, state)

end Script

/-! ## Look-ups as phases -/

/-- The part of a signature cache that holds the signatures of one kind. -/
structure Part (κ α : Type) [BEq κ] [Hashable κ] where
  memo : SignatureCache → Memo κ α
  replace : SignatureCache → Memo κ α → SignatureCache
  replace_memo : ∀ cache, replace cache (memo cache) = cache

namespace Part

/-- The part of the methods. -/
def methods : Part MethodRef MethodSig where
  memo := SignatureCache.methods
  replace cache methods := { cache with methods }
  replace_memo _ := rfl

/-- The part of the fields. -/
def fields : Part Nat FieldSig where
  memo := SignatureCache.fields
  replace cache fields := { cache with fields }
  replace_memo _ := rfl

variable {κ α : Type} [BEq κ] [Hashable κ] (part : Part κ α)

/-- Adds a missed signature. -/
def addition (key : κ) (value : α) :
    Script (StateM SignatureCache) (Except ExtractionError (Shared α)) :=
  .step (fun cache =>
    let (found, memo) := (part.memo cache).findOrAdd key value
    (found, part.replace cache memo)) fun found => .done (.ok found)

/-- What a look-up does from a phase on. -/
def script (make : κ → Except MissingEntry α) :
    Phase κ α → Script (StateM SignatureCache) (Except ExtractionError (Shared α))
  | .reading key => .step (fun cache => ((part.memo cache).find? key, cache)) fun
    | some found => .done (.ok found)
    | none =>
      match make key with
      | .ok value => part.addition key value
      | .error missing => .done (.error (.missingEntry missing))
  | .adding key value => part.addition key value
  | .returned outcome => .done (outcome.mapError .missingEntry)

variable {make : κ → Except MissingEntry α} {phase : Phase κ α}

theorem advance_script (cache : SignatureCache) :
    (part.script make phase).advance cache =
      (part.script make (phase.advance make (part.memo cache)).1,
        part.replace cache (phase.advance make (part.memo cache)).2) := by
  cases phase with
  | reading key =>
    rw [script, Script.advance, Phase.advance]
    dsimp only [StateT.run]
    cases (part.memo cache).find? key with
    | some found => exact Prod.ext rfl (part.replace_memo cache).symm
    | none => cases make key <;> exact Prod.ext rfl (part.replace_memo cache).symm
  | adding key value => rfl
  | returned outcome => exact Prod.ext rfl (part.replace_memo cache).symm

end Part

/-- The answers to look-ups are right when each of them holds the contents that it asks for, or else
tells which entry is missing, and when two of them are one object, kept in one place, exactly when
they ask for the same. -/
structure RightAnswers {ι α : Type} (contents : ι → Except MissingEntry α) (same : ι → ι → Prop)
    (answer? : ι → Option (Except ExtractionError (Shared α))) : Prop where
  contents : ∀ {i answer}, answer? i = some answer →
    answer.map Shared.value = (contents i).mapError ExtractionError.missingEntry
  shared : ∀ {i j first second}, answer? i = some (.ok first) → answer? j = some (.ok second) →
    (first.slot = second.slot ↔ same i j)

section RightAnswers

variable {ι α : Type} {contents : ι → Except MissingEntry α} {same : ι → ι → Prop}
  {answer? : ι → Option (Except ExtractionError (Shared α))} {i : ι}

theorem RightAnswers.exists_shared (right : RightAnswers contents same answer?) {value : α}
    (contents_eq : contents i = .ok value) (answered : (answer? i).isSome) :
    ∃ shared, answer? i = some (.ok shared) ∧ shared.value = value := by
  obtain ⟨answer, answer_eq⟩ := Option.isSome_iff_exists.1 answered
  have told := right.contents answer_eq
  rw [contents_eq] at told
  cases answer with
  | error error => cases told
  | ok shared => exact ⟨shared, answer_eq, Except.ok.inj told⟩

/-- A look-up of what there is not fails. -/
theorem RightAnswers.fails (right : RightAnswers contents same answer?) {missing : MissingEntry}
    (contents_eq : contents i = .error missing) (answered : (answer? i).isSome) :
    answer? i = some (.error (.missingEntry missing)) := by
  obtain ⟨answer, answer_eq⟩ := Option.isSome_iff_exists.1 answered
  have told := right.contents answer_eq
  rw [contents_eq] at told
  cases answer with
  | error error =>
    obtain rfl : error = .missingEntry missing := Except.error.inj told
    exact answer_eq
  | ok shared => cases told

end RightAnswers

namespace Part

variable {ι κ α : Type} [BEq κ] [Hashable κ] (part : Part κ α) {make : κ → Except MissingEntry α}
  {wanted : ι → Except MissingEntry κ} {crowd : Crowd ι κ α}

theorem value?_script_eq_some_iff {phase : Phase κ α} {answer : Except ExtractionError (Shared α)} :
    (part.script make phase).value? = some answer ↔
      ∃ outcome, phase = .returned outcome ∧ outcome.mapError .missingEntry = answer := by
  cases phase with
  | returned outcome => simp [script, Script.value?]
  | _ => simp [script, addition, Script.value?]

theorem value?_script_eq_some_ok_iff {phase : Phase κ α} {shared : Shared α} :
    (part.script make phase).value? = some (.ok shared) ↔ phase = .returned (.ok shared) := by
  rw [value?_script_eq_some_iff]
  constructor
  · rintro ⟨outcome, rfl, answer_eq⟩
    cases outcome with
    | error missing => cases answer_eq
    | ok found =>
      cases answer_eq
      rfl
  · rintro rfl
    exact ⟨_, rfl, rfl⟩

theorem value?_script_isSome (make : κ → Except MissingEntry α) {phase : Phase κ α}
    (returned : phase.turnsLeft = 0) : (part.script make phase).value?.isSome := by
  cases phase with
  | returned outcome => rfl
  | reading key => cases returned
  | adding key value => cases returned

theorem rightAnswers_of_sound (sound : crowd.Sound make wanted)
    {contents : ι → Except MissingEntry α} {same : ι → ι → Prop}
    (contents_eq : ∀ i, (wanted i).bind make = contents i)
    (same_iff : ∀ i j, wanted i = wanted j ↔ same i j) :
    RightAnswers contents same fun i => (part.script make (crowd.phases i)).value? where
  contents {i answer} answered := by
    obtain ⟨outcome, returned_eq, rfl⟩ := part.value?_script_eq_some_iff.1 answered
    rw [← contents_eq, ← sound.contents returned_eq]
    cases outcome <;> rfl
  shared first_eq second_eq := by
    rw [← same_iff]
    exact sound.slot_eq_iff (part.value?_script_eq_some_ok_iff.1 first_eq)
      (part.value?_script_eq_some_ok_iff.1 second_eq)

theorem encard_of_sound [LawfulBEq κ] (sound : crowd.Sound make wanted) :
    {key | ∃ i shared, wanted i = .ok key ∧
      (part.script make (crowd.phases i)).value? = some (.ok shared)}.encard =
        crowd.memo.size := by
  simp only [value?_script_eq_some_ok_iff]
  exact sound.encard_found

end Part

namespace SignatureCache

variable (container : Container) (index : Nat)

/-- The signature of a method reference can always be made. -/
def makeMethod (ref : MethodRef) : Except MissingEntry MethodSig :=
  .ok (.ofRef ref)

/-- The signature of the field at a position, if the table has one. -/
def makeField (index : Nat) : Except MissingEntry FieldSig :=
  (container.fieldAt index).map .ofRef

theorem run_method :
    (method container index).run =
      Part.methods.script makeMethod (.opening (container.methodAt index)) := by
  rw [method]
  cases container.methodAt index with
  | error missing => rfl
  | ok ref =>
    refine congrArg (Script.step _) (funext fun found => ?_)
    cases found <;> rfl

theorem run_field :
    (field container index).run = Part.fields.script (makeField container) (.reading index) := by
  refine congrArg (Script.step _) (funext fun found => ?_)
  cases found with
  | some found => rfl
  | none =>
    rw [makeField]
    cases container.fieldAt index <;> rfl

end SignatureCache

/-! ## Sessions -/

/-- Workers who look up methods and others who look up fields, with what they have left to do. -/
structure Session (ι κ : Type) where
  cache : SignatureCache
  methods : ι → Script (StateM SignatureCache) (Except ExtractionError (Shared MethodSig))
  fields : κ → Script (StateM SignatureCache) (Except ExtractionError (Shared FieldSig))

namespace Session

variable {ι κ : Type}

/-- Nothing is looked up yet. -/
def start (container : Container) (methodIndex : ι → Nat) (fieldIndex : κ → Nat) :
    Session ι κ where
  cache := .empty
  methods i := (SignatureCache.method container (methodIndex i)).run
  fields k := (SignatureCache.field container (fieldIndex k)).run

/-- The answer to a look-up of a method. -/
def method? (session : Session ι κ) (i : ι) : Option (Except ExtractionError (Shared MethodSig)) :=
  (session.methods i).value?

/-- The answer to a look-up of a field. -/
def field? (session : Session ι κ) (k : κ) : Option (Except ExtractionError (Shared FieldSig)) :=
  (session.fields k).value?

/-- The session of a crowd around the methods and one around the fields. -/
def ofCrowds (container : Container) (methods : Crowd ι MethodRef MethodSig)
    (fields : Crowd κ Nat FieldSig) : Session ι κ where
  cache := ⟨methods.memo, fields.memo⟩
  methods i := Part.methods.script SignatureCache.makeMethod (methods.phases i)
  fields k := Part.fields.script (SignatureCache.makeField container) (fields.phases k)

section Turns

variable [DecidableEq ι] [DecidableEq κ]

/-- A worker takes a step. -/
def turn (session : Session ι κ) : ι ⊕ κ → Session ι κ
  | .inl i =>
    let (rest, cache) := (session.methods i).advance session.cache
    { session with cache, methods := Function.update session.methods i rest }
  | .inr k =>
    let (rest, cache) := (session.fields k).advance session.cache
    { session with cache, fields := Function.update session.fields k rest }

/-- What the workers have come to after some turns. -/
def after (container : Container) (methodIndex : ι → Nat) (fieldIndex : κ → Nat)
    (turns : List (ι ⊕ κ)) : Session ι κ :=
  turns.foldl turn (start container methodIndex fieldIndex)

variable (container : Container) (methodIndex : ι → Nat) (fieldIndex : κ → Nat)
  (methods : Crowd ι MethodRef MethodSig) (fields : Crowd κ Nat FieldSig)

omit [DecidableEq ι] [DecidableEq κ] in
theorem start_eq :
    start container methodIndex fieldIndex =
      ofCrowds container (.start fun i => container.methodAt (methodIndex i))
        (.start fun k => .ok (fieldIndex k)) := by
  rw [start, ofCrowds]
  simp only [SignatureCache.run_method, SignatureCache.run_field]
  rfl

theorem count_getLeft? (turns : List (ι ⊕ κ)) (i : ι) :
    (turns.filterMap Sum.getLeft?).count i = turns.count (.inl i) := by
  rw [List.count_filterMap, List.count]
  apply List.countP_congr
  rintro (j | k) -
  · rw [show ((.inl j : ι ⊕ κ) == .inl i) = (j == i) from rfl]
    simp
  · simp only [Sum.getLeft?_inr]
    rfl

theorem count_getRight? (turns : List (ι ⊕ κ)) (k : κ) :
    (turns.filterMap Sum.getRight?).count k = turns.count (.inr k) := by
  rw [List.count_filterMap, List.count]
  apply List.countP_congr
  rintro (i | l) -
  · simp only [Sum.getRight?_inl]
    rfl
  · rw [show ((.inr l : ι ⊕ κ) == .inr k) = (l == k) from rfl]
    simp

theorem turn_inl (i : ι) :
    (ofCrowds container methods fields).turn (.inl i) =
      ofCrowds container (methods.turn SignatureCache.makeMethod i) fields := by
  let moved := (methods.phases i).advance SignatureCache.makeMethod methods.memo
  have advanced : (Part.methods.script SignatureCache.makeMethod (methods.phases i)).advance
      ⟨methods.memo, fields.memo⟩ =
        (Part.methods.script SignatureCache.makeMethod moved.1, ⟨moved.2, fields.memo⟩) :=
    Part.methods.advance_script _
  have updated : Part.methods.script SignatureCache.makeMethod ∘
      Function.update methods.phases i moved.1 = _ := Function.comp_update ..
  rw [turn, ofCrowds]
  dsimp only
  rw [advanced]
  exact congrArg (Session.mk _ · _) updated.symm

theorem turn_inr (k : κ) :
    (ofCrowds container methods fields).turn (.inr k) =
      ofCrowds container methods (fields.turn (SignatureCache.makeField container) k) := by
  let moved := (fields.phases k).advance (SignatureCache.makeField container) fields.memo
  have advanced : (Part.fields.script (SignatureCache.makeField container)
      (fields.phases k)).advance ⟨methods.memo, fields.memo⟩ =
        (Part.fields.script (SignatureCache.makeField container) moved.1,
          ⟨methods.memo, moved.2⟩) :=
    Part.fields.advance_script _
  have updated : Part.fields.script (SignatureCache.makeField container) ∘
      Function.update fields.phases k moved.1 = _ := Function.comp_update ..
  rw [turn, ofCrowds]
  dsimp only
  rw [advanced]
  exact congrArg (Session.mk _ _ ·) updated.symm

/-- A session is two crowds, and each turn is one of its crowd. -/
theorem after_eq (turns : List (ι ⊕ κ)) :
    after container methodIndex fieldIndex turns =
      ofCrowds container
        (.after SignatureCache.makeMethod (fun i => container.methodAt (methodIndex i))
          (turns.filterMap Sum.getLeft?))
        (.after (SignatureCache.makeField container) (fun k => .ok (fieldIndex k))
          (turns.filterMap Sum.getRight?)) := by
  induction turns using List.reverseRecOn with
  | nil => exact start_eq container methodIndex fieldIndex
  | append_singleton turns worker induction =>
    rw [after, List.foldl_concat, ← after, induction, List.filterMap_append, List.filterMap_append]
    -- a turn of one crowd is no turn of the other
    cases worker with
    | inl i =>
      rw [turn_inl, ← Crowd.after_concat]
      exact congrArg (ofCrowds container _ <| .after _ _ ·) (List.append_nil _).symm
    | inr k =>
      rw [turn_inr, ← Crowd.after_concat]
      exact congrArg (fun rest => ofCrowds container (.after _ _ rest) _) (List.append_nil _).symm

end Turns

end Session

namespace SignatureCache

/-- Workers who look up signatures in a fresh cache, whatever turns they take, share one object for
each method reference and one for each position of a field, and the cache holds no others.  Look-ups
that find no entry fail without changing the cache, and nobody takes more than two turns. -/
theorem lookups_share {ι κ : Type} [DecidableEq ι] [DecidableEq κ] (container : Container)
    (methodIndex : ι → Nat) (fieldIndex : κ → Nat) (turns : List (ι ⊕ κ)) :
    let session := Session.after container methodIndex fieldIndex turns
    RightAnswers (fun i => (container.methodAt (methodIndex i)).map .ofRef)
        (fun i j => container.methodAt (methodIndex i) = container.methodAt (methodIndex j))
        session.method? ∧
      RightAnswers (fun k => (container.fieldAt (fieldIndex k)).map .ofRef)
        (fun k l => fieldIndex k = fieldIndex l) session.field? ∧
      session.cache.size =
        {ref | ∃ i shared, container.methodAt (methodIndex i) = .ok ref ∧
          session.method? i = some (.ok shared)}.encard +
        {index | ∃ k shared, fieldIndex k = index ∧
          session.field? k = some (.ok shared)}.encard ∧
      (∀ i missing, container.methodAt (methodIndex i) = .error missing →
        (session.turn (.inl i)).cache = session.cache) ∧
      (∀ k missing, container.fieldAt (fieldIndex k) = .error missing →
        (session.turn (.inr k)).cache = session.cache) ∧
      (∀ i, 2 ≤ turns.count (.inl i) → (session.method? i).isSome) ∧
      ∀ k, 2 ≤ turns.count (.inr k) → (session.field? k).isSome := by
  intro session
  let methods : Crowd ι MethodRef MethodSig :=
    .after makeMethod (fun i => container.methodAt (methodIndex i)) (turns.filterMap Sum.getLeft?)
  let fields : Crowd κ Nat FieldSig :=
    .after (makeField container) (fun k => .ok (fieldIndex k)) (turns.filterMap Sum.getRight?)
  have methods_sound : methods.Sound _ _ := Crowd.sound_after _
  have fields_sound : fields.Sound _ _ := Crowd.sound_after _
  have session_eq : session = .ofCrowds container methods fields := Session.after_eq ..
  rw [session_eq]
  refine ⟨?methods, ?fields, ?size, ?missing_method, ?missing_field, ?method_turns, ?field_turns⟩
  case methods =>
    refine Part.methods.rightAnswers_of_sound methods_sound (fun i => ?_) fun _ _ => Iff.rfl
    cases container.methodAt (methodIndex i) <;> rfl
  case fields =>
    refine Part.fields.rightAnswers_of_sound fields_sound (fun _ => rfl) fun k l => ?_
    rw [Except.ok.injEq]
  case size =>
    have fields_size := Part.fields.encard_of_sound fields_sound
    simp only [Except.ok.injEq] at fields_size
    have cache_size : (Session.ofCrowds container methods fields).cache.size =
      methods.memo.size + fields.memo.size := rfl
    rw [cache_size, Nat.cast_add, ← Part.methods.encard_of_sound methods_sound, ← fields_size]
    rfl
  case missing_method =>
    intro i missing lost
    rw [Session.turn_inl]
    have kept : (methods.turn makeMethod i).memo = methods.memo :=
      methods_sound.memo_turn (congrArg (·.bind makeMethod) lost)
    exact congrArg (SignatureCache.mk · _) kept
  case missing_field =>
    intro k missing lost
    rw [Session.turn_inr]
    have kept : (fields.turn (makeField container) k).memo = fields.memo :=
      fields_sound.memo_turn (congrArg (·.map FieldSig.ofRef) lost)
    exact congrArg (SignatureCache.mk _ ·) kept
  case method_turns =>
    intro i taken
    have left : (methods.phases i).turnsLeft ≤ 2 - _ := Crowd.turnsLeft_after _ i
    rw [Session.count_getLeft?] at left
    have returned : (methods.phases i).turnsLeft = 0 := by omega
    exact Part.methods.value?_script_isSome makeMethod returned
  case field_turns =>
    intro k taken
    have left : (fields.phases k).turnsLeft ≤ 2 - _ := Crowd.turnsLeft_after _ k
    rw [Session.count_getRight?] at left
    have returned : (fields.phases k).turnsLeft = 0 := by omega
    exact Part.fields.value?_script_isSome (makeField container) returned

/-- The reference that stands twice in a method table. -/
def twin : MethodRef where
  owner := .object "Lib"
  name := "run"
  params := []
  returnType := .void

/-- A container with equal method entries and a field. -/
def twins : Container where
  name := "twins"
  types := #[]
  strings := #[]
  fields := #[⟨.object "Lib", "count", .primitive .int⟩]
  methods := #[twin, twin]
  protos := #[]
  methodHandles := #[]
  callSites := #[]
  classes := []

/-- Two turns for each of three look-ups of methods and three of fields. -/
def twinTurns : List (Fin 3 ⊕ Fin 3) :=
  [.inl 0, .inl 1, .inr 0, .inr 1, .inl 1, .inl 0, .inr 0, .inl 2, .inr 1, .inl 2, .inr 2, .inr 2]

/-- Two workers who both miss one entry get one object, and a third one fails. -/
theorem lookups_share_twins :
    let session := Session.after twins (fun i : Fin 3 => i) (fun k : Fin 3 => k / 2) twinTurns
    (∃ first second, session.method? 0 = some (.ok first) ∧
        session.method? 1 = some (.ok second) ∧ first.slot = second.slot ∧
        first.value = .ofRef twin) ∧
      (∃ first second, session.field? 0 = some (.ok first) ∧
        session.field? 1 = some (.ok second) ∧ first.slot = second.slot) ∧
      session.method? 2 = some (.error (.missingEntry ⟨.method, 2⟩)) ∧
      (session.turn (.inl 2)).cache = session.cache ∧
      session.field? 2 = some (.error (.missingEntry ⟨.field, 1⟩)) ∧
      (session.turn (.inr 2)).cache = session.cache ∧
      session.cache.size = 2 := by
  intro session
  obtain ⟨methods, fields, size_eq, method_missing, field_missing, method_turns, field_turns⟩ :=
    lookups_share twins (fun i : Fin 3 => i) (fun k : Fin 3 => k / 2) twinTurns
  obtain ⟨first, first_eq, value_eq⟩ := methods.exists_shared rfl (method_turns 0 (by decide))
  obtain ⟨second, second_eq, -⟩ := methods.exists_shared rfl (method_turns 1 (by decide))
  obtain ⟨count, count_eq, -⟩ := fields.exists_shared rfl (field_turns 0 (by decide))
  obtain ⟨other, other_eq, -⟩ := fields.exists_shared rfl (field_turns 1 (by decide))
  refine ⟨⟨first, second, first_eq, second_eq, (methods.shared first_eq second_eq).2 rfl, value_eq⟩,
    ⟨count, other, count_eq, other_eq, (fields.shared count_eq other_eq).2 rfl⟩,
    methods.fails rfl (method_turns 2 (by decide)), method_missing 2 _ rfl,
    fields.fails rfl (field_turns 2 (by decide)), field_missing 2 _ rfl, ?_⟩
  have refs : {ref | ∃ (i : Fin 3) (shared : _), twins.methodAt i = .ok ref ∧
      session.method? i = some (.ok shared)} = {twin} := by
    ext ref
    constructor
    · rintro ⟨i, shared, entry_eq, -⟩
      match i, entry_eq with
      | 0, rfl => rfl
      | 1, rfl => rfl
    · rintro rfl
      exact ⟨0, first, rfl, first_eq⟩
  have indices : {index | ∃ (k : Fin 3) (shared : _), k.val / 2 = index ∧
      session.field? k = some (.ok shared)} = {0} := by
    ext index
    constructor
    · rintro ⟨k, shared, rfl, answered⟩
      match k, answered with
      | 0, _ => rfl
      | 1, _ => rfl
      | 2, answered =>
        have told := fields.contents answered
        cases told
    · rintro rfl
      exact ⟨0, count, rfl, count_eq⟩
  rw [refs, indices, Set.encard_singleton, Set.encard_singleton] at size_eq
  exact_mod_cast size_eq

end SignatureCache

end DalvikFacts
