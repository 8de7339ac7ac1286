import DalvikFacts.Proofs.Method.Planned

/-!
# Outputs of actions

An action on the state of a method mentions variables, and emits rows and notices.  A variable is
declared where it is mentioned first, and nothing else depends on what is declared.  So what an
action does is told by its outputs, in which mentions stand in the place of declarations, and by the
state behind it apart from the declared variables.
-/

namespace DalvikFacts

/-- What an action gives out. -/
inductive Output
  | mention (var : String)
  | fact (fact : Fact)
  | notice (notice : Notice)

namespace Output

/-- A row of a relation. -/
def row (relation : Relation) (columns : List String) : Output :=
  fact ⟨relation, columns⟩

/-- The fact of an output. -/
def fact? : Output → Option Fact
  | fact found => some found
  | _ => none

/-- An event given out as it is. -/
def ofEvent : Event → Output
  | .fact found => fact found
  | .notice found => notice found

end Output

/-- The facts among outputs. -/
def factsAmong (outputs : List Output) : List Fact :=
  outputs.filterMap Output.fact?

@[simp]
theorem factsAmong_nil : factsAmong [] = [] :=
  rfl

@[simp]
theorem factsAmong_append (outputs others : List Output) :
    factsAmong (outputs ++ others) = factsAmong outputs ++ factsAmong others :=
  List.filterMap_append

@[simp]
theorem factsAmong_cons_mention (var : String) (rest : List Output) :
    factsAmong (.mention var :: rest) = factsAmong rest :=
  rfl

@[simp]
theorem factsAmong_cons_notice (notice : Notice) (rest : List Output) :
    factsAmong (.notice notice :: rest) = factsAmong rest :=
  rfl

@[simp]
theorem factsAmong_cons_fact (fact : Fact) (rest : List Output) :
    factsAmong (.fact fact :: rest) = fact :: factsAmong rest :=
  rfl

@[simp]
theorem factsAmong_cons_row (relation : Relation) (columns : List String) (rest : List Output) :
    factsAmong (.row relation columns :: rest) = ⟨relation, columns⟩ :: factsAmong rest :=
  rfl

theorem factsAmong_flatMap {α : Type} (items : List α) (each : α → List Output) :
    factsAmong (items.flatMap each) = items.flatMap fun item => factsAmong (each item) :=
  List.filterMap_flatMap

theorem factsAmong_map_row {α : Type} (relation : Relation) (columns : α → List String)
    (items : List α) :
    factsAmong (items.map fun item => .row relation (columns item)) =
      items.map fun item => ⟨relation, columns item⟩ := by
  rw [List.map_eq_flatMap, factsAmong_flatMap, List.map_eq_flatMap]
  rfl

theorem mem_factsAmong {fact : Fact} {outputs : List Output} :
    fact ∈ factsAmong outputs ↔ .fact fact ∈ outputs := by
  simp only [factsAmong, List.mem_filterMap]
  constructor
  · rintro ⟨output, member, fact_eq⟩
    cases output with
    | fact => cases fact_eq; exact member
    | _ => cases fact_eq
  · exact fun member => ⟨_, member, rfl⟩

@[simp]
theorem factsAmong_ofEvent (events : List Event) :
    factsAmong (events.map Output.ofEvent) = factsOf events := by
  induction events with
  | nil => rfl
  | cons event rest induction =>
    cases event with
    | fact fact => exact congrArg (fact :: ·) induction
    | notice => exact induction

section Facts

variable {property : Fact → Prop} {outputs others : List Output}

/-- All facts among outputs have a property. -/
def AllFacts (property : Fact → Prop) (outputs : List Output) : Prop :=
  ∀ fact ∈ factsAmong outputs, property fact

@[simp]
theorem allFacts_nil : AllFacts property [] :=
  fun _ member => by cases member

@[simp]
theorem allFacts_append :
    AllFacts property (outputs ++ others) ↔
      AllFacts property outputs ∧ AllFacts property others := by
  simp only [AllFacts, factsAmong_append, List.forall_mem_append]

@[simp]
theorem allFacts_mention {var : String} :
    AllFacts property (.mention var :: outputs) ↔ AllFacts property outputs :=
  Iff.rfl

@[simp]
theorem allFacts_notice {notice : Notice} :
    AllFacts property (.notice notice :: outputs) ↔ AllFacts property outputs :=
  Iff.rfl

@[simp]
theorem allFacts_row {relation : Relation} {columns : List String} :
    AllFacts property (.row relation columns :: outputs) ↔
      property ⟨relation, columns⟩ ∧ AllFacts property outputs :=
  List.forall_mem_cons

theorem allFacts_flatMap {α : Type} {items : List α} {each : α → List Output}
    (one : ∀ item ∈ items, AllFacts property (each item)) :
    AllFacts property (items.flatMap each) := by
  induction items with
  | nil => exact allFacts_nil
  | cons item rest induction =>
    rw [List.flatMap_cons, allFacts_append]
    exact ⟨one item List.mem_cons_self,
      induction fun other member => one other (List.mem_cons_of_mem item member)⟩

theorem allFacts_map {α : Type} {items : List α} {each : α → Output}
    (one : ∀ item, AllFacts property [each item]) : AllFacts property (items.map each) := by
  rw [List.map_eq_flatMap]
  exact allFacts_flatMap fun item _ => one item

end Facts

section Read

variable {β : Type} (relations : List Relation) (read : Fact → β) (facts others : List Fact)

/-- What is read from the facts of some relations, in order. -/
def readAmong : List β :=
  (facts.filter (·.relation ∈ relations)).map read

@[simp]
theorem readAmong_nil : readAmong relations read [] = [] :=
  rfl

@[simp]
theorem readAmong_append :
    readAmong relations read (facts ++ others) =
      readAmong relations read facts ++ readAmong relations read others := by
  simp [readAmong]

@[simp]
theorem readAmong_cons (fact : Fact) :
    readAmong relations read (fact :: facts) =
      (if fact.relation ∈ relations then [read fact] else []) ++
        readAmong relations read facts := by
  rw [readAmong, List.filter_cons]
  by_cases chosen : fact.relation ∈ relations <;> simp [chosen, readAmong]

theorem readAmong_map {α : Type} (written : Relation) (columns : α → List String)
    (items : List α) :
    readAmong relations read (items.map fun item => ⟨written, columns item⟩) =
      if written ∈ relations then items.map fun item => read ⟨written, columns item⟩ else [] := by
  induction items with
  | nil => simp
  | cons item rest induction =>
    rw [List.map_cons, readAmong_cons, induction]
    by_cases chosen : written ∈ relations <;> simp [chosen]

variable {relations read facts}

theorem readAmong_eq_nil (absent : ∀ fact ∈ facts, fact.relation ∉ relations) :
    readAmong relations read facts = [] := by
  rw [readAmong, List.map_eq_nil_iff, List.filter_eq_nil_iff]
  intro fact member
  simpa using absent fact member

end Read

/-- The variables declared behind some outputs. -/
def declaredAfter (declared : Std.HashSet String) : List Output → Std.HashSet String
  | [] => declared
  | .mention var :: rest =>
    if declared.contains var then declaredAfter declared rest
    else declaredAfter (declared.insert var) rest
  | .fact _ :: rest | .notice _ :: rest => declaredAfter declared rest

theorem declaredAfter_append (declared : Std.HashSet String) (outputs others : List Output) :
    declaredAfter declared (outputs ++ others) =
      declaredAfter (declaredAfter declared outputs) others := by
  induction outputs generalizing declared with
  | nil => rfl
  | cons output rest induction =>
    cases output with
    | mention var =>
      rw [List.cons_append, declaredAfter, declaredAfter, induction, induction]
      split <;> rfl
    | fact | notice => exact induction declared

/-- The state with other declared variables. -/
def MethodState.withDeclared (state : MethodState) (declared : Std.HashSet String) : MethodState :=
  { state with declared }

/-- A number of a kind is used up. -/
def MethodState.count (state : MethodState) (kind : String) : MethodState :=
  { state with counters := state.counters.advance kind }

namespace MethodContext

variable (cx : MethodContext)

/-- The events of outputs behind some declared variables. -/
def render (declared : Std.HashSet String) : List Output → List Event
  | [] => []
  | .mention var :: rest =>
    if declared.contains var then render declared rest
    else .fact ⟨.varDeclaringMethod, [var, cx.id]⟩ :: render (declared.insert var) rest
  | .fact fact :: rest => .fact fact :: render declared rest
  | .notice notice :: rest => .notice notice :: render declared rest

theorem render_append (declared : Std.HashSet String) (outputs others : List Output) :
    cx.render declared (outputs ++ others) =
      cx.render declared outputs ++ cx.render (declaredAfter declared outputs) others := by
  induction outputs generalizing declared with
  | nil => rfl
  | cons output rest induction =>
    cases output with
    | mention var =>
      rw [List.cons_append, render, render, declaredAfter, induction, induction]
      split <;> rfl
    | fact | notice => exact congrArg _ (induction declared)

/-- Events are given out as they are. -/
theorem render_ofEvent (declared : Std.HashSet String) (events : List Event) :
    cx.render declared (events.map Output.ofEvent) = events ∧
      declaredAfter declared (events.map Output.ofEvent) = declared := by
  induction events with
  | nil => exact ⟨rfl, rfl⟩
  | cons event rest induction =>
    obtain ⟨render_eq, declared_eq⟩ := induction
    cases event with
    | fact | notice => exact ⟨congrArg _ render_eq, declared_eq⟩

theorem filterMap_factsOf_render {β : Type} {read : Fact → Option β}
    (undeclared : ∀ fact, fact.relation = .varDeclaringMethod → read fact = none)
    (declared : Std.HashSet String) (outputs : List Output) :
    (factsOf (cx.render declared outputs)).filterMap read =
      (factsAmong outputs).filterMap read := by
  induction outputs generalizing declared with
  | nil => rfl
  | cons output rest induction =>
    cases output with
    | mention var =>
      rw [render, factsAmong_cons_mention]
      split
      · exact induction declared
      · rw [factsOf_cons_fact, List.filterMap_cons_none (undeclared _ rfl), induction]
    | fact found =>
      rw [render, factsOf_cons_fact, factsAmong_cons_fact, List.filterMap_cons, List.filterMap_cons,
        induction]
    | notice found => exact induction declared

/-- Facts are chosen from the outputs by their relations, unless declarations are. -/
theorem filter_factsOf_render (chosen : Relation → Bool)
    (undeclared : chosen .varDeclaringMethod = false) (declared : Std.HashSet String)
    (outputs : List Output) :
    (factsOf (cx.render declared outputs)).filter (chosen ·.relation) =
      (factsAmong outputs).filter (chosen ·.relation) := by
  have unread : ∀ fact : Fact, fact.relation = .varDeclaringMethod →
      Option.guard (fun fact : Fact => chosen fact.relation) fact = none := by
    intro fact relation_eq
    simp [relation_eq, undeclared]
  have kept := cx.filterMap_factsOf_render unread declared outputs
  rwa [List.filterMap_eq_filter] at kept

theorem rowsOf_render {relation : Relation} (undeclared : relation ≠ .varDeclaringMethod)
    (declared : Std.HashSet String) (outputs : List Output) :
    rowsOf relation (cx.render declared outputs) = rowsIn relation (factsAmong outputs) := by
  have unchosen : (Relation.varDeclaringMethod == relation) = false :=
    beq_eq_false_iff_ne.2 undeclared.symm
  have kept := cx.filter_factsOf_render (· == relation) unchosen declared outputs
  rw [rowsOf, kept, rowsIn]

/-- All rows among outputs are given out. -/
theorem mem_factsOf_render {fact : Fact} {outputs : List Output}
    (member : fact ∈ factsAmong outputs) (declared : Std.HashSet String) :
    fact ∈ factsOf (cx.render declared outputs) := by
  induction outputs generalizing declared with
  | nil => cases member
  | cons output rest induction =>
    cases output with
    | mention var =>
      rw [render]
      split
      · exact induction member declared
      · exact List.mem_cons_of_mem _ (induction member _)
    | fact found =>
      rcases List.mem_cons.1 member with rfl | later
      · exact List.mem_cons_self
      · exact List.mem_cons_of_mem _ (induction later declared)
    | notice found => exact induction member declared

/-- What an action does to a state, whatever is declared: the value it returns, its outputs, and the
state behind it apart from the declared variables. -/
structure Says {α : Type} (action : MethodEmit α) (state : MethodState) (value : α)
    (outputs : List Output) (next : MethodState) : Prop where
  run_withDeclared : ∀ declared, action.run (state.withDeclared declared) =
    ⟨value, next.withDeclared (declaredAfter declared outputs), cx.render declared outputs⟩

namespace Says

variable {cx} {α β : Type} {action : MethodEmit α} {state mid next : MethodState} {value : α}
  {outputs others : List Output}

theorem run (told : cx.Says action state value outputs next) :
    action.run state =
      ⟨value, next.withDeclared (declaredAfter state.declared outputs),
        cx.render state.declared outputs⟩ :=
  told.run_withDeclared state.declared

theorem pure (value : α) (state : MethodState) : cx.Says (Pure.pure value) state value [] state :=
  ⟨fun _ => rfl⟩

theorem bind {later : α → MethodEmit β} {result : β}
    (first : cx.Says action state value outputs mid)
    (rest : cx.Says (later value) mid result others next) :
    cx.Says (action >>= later) state result (outputs ++ others) next := by
  constructor
  intro declared
  rw [Emit.run_bind, first.run_withDeclared, render_append, declaredAfter_append]
  dsimp only
  rw [rest.run_withDeclared]

theorem silent_bind {later : α → MethodEmit β} {result : β}
    (first : cx.Says action state value [] mid)
    (rest : cx.Says (later value) mid result outputs next) :
    cx.Says (action >>= later) state result outputs next :=
  first.bind rest

theorem bind_silent {later : α → MethodEmit β} {result : β}
    (first : cx.Says action state value outputs mid)
    (rest : cx.Says (later value) mid result [] next) :
    cx.Says (action >>= later) state result outputs next := by
  have both := first.bind rest
  rwa [List.append_nil] at both

/-- What follows a look at the state is told by the state, unless it looks at what is declared. -/
theorem get {later : MethodState → MethodEmit α}
    (blind : ∀ declared, later (state.withDeclared declared) = later state)
    (rest : cx.Says (later state) state value outputs next) :
    cx.Says (get >>= later) state value outputs next := by
  constructor
  intro declared
  have later_eq := rest.run_withDeclared declared
  rw [← blind declared] at later_eq
  exact later_eq

theorem modify {change : MethodState → MethodState}
    (blind : ∀ declared, change (state.withDeclared declared) =
      (change state).withDeclared declared) :
    cx.Says (modify change : MethodEmit PUnit) state () [] (change state) :=
  ⟨fun declared => congrArg (Emitted.mk () · []) (blind declared)⟩

theorem row (relation : Relation) (columns : List String) :
    cx.Says (Emit.row relation columns) state () [.row relation columns] state :=
  ⟨fun _ => rfl⟩

theorem notice (about : MethodNotice) :
    cx.Says (cx.notice about) state () [.notice (.method cx.id about)] state :=
  ⟨fun _ => rfl⟩

/-- A variable is declared where it is mentioned first. -/
theorem declare (var : String) : cx.Says (cx.declare var) state () [.mention var] state := by
  constructor
  intro declared
  unfold MethodContext.declare
  rw [Emit.run_bind, Emit.run_get, declaredAfter, declaredAfter, declaredAfter, render, render,
    render]
  cases contained : declared.contains var with
  | true => simp [contained, MethodState.withDeclared]
  | false => simp [contained, MethodState.withDeclared, Emit.row]

theorem use (reg : Reg) :
    cx.Says (cx.use reg) state (cx.variableOf reg) [.mention (cx.variableOf reg)] state :=
  (declare _).bind (pure _ _)

theorem guarded {condition : Prop} [Decidable condition] {first : MethodEmit α}
    {later : MethodEmit β} {result : β} (taken : cx.Says first state value outputs state)
    (rest : cx.Says later state result others next) :
    cx.Says (if condition then first >>= fun _ => later else later) state result
      ((if condition then outputs else []) ++ others) next := by
  split
  · exact taken.bind rest
  · exact rest

theorem optional {condition : Prop} [Decidable condition] {first : MethodEmit Unit}
    (taken : cx.Says first state () outputs state) :
    cx.Says (if condition then first else Pure.pure ()) state ()
      (if condition then outputs else []) state := by
  split
  · exact taken
  · exact pure () state

theorem forM {items : List β} {each : β → MethodEmit PUnit} {told : β → List Output}
    (one : ∀ item, cx.Says (each item) state () (told item) state) :
    cx.Says (items.forM each) state () (items.flatMap told) state := by
  induction items with
  | nil => exact pure () state
  | cons item rest induction => exact (one item).bind induction

theorem mapM_option {each : β → MethodEmit α} {values : β → α} {told : β → List Output}
    (one : ∀ item, cx.Says (each item) state (values item) (told item) state) (item : Option β) :
    cx.Says (item.mapM each) state (item.map values) (item.toList.flatMap told) state := by
  cases item with
  | none => exact pure none state
  | some item =>
    rw [Option.mapM_some, map_eq_pure_bind]
    exact (one item).bind (pure _ _)

end Says

end MethodContext

end DalvikFacts
