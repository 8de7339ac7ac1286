import DalvikFacts.Fact.Emit
import DalvikFacts.Fact.Row
import Std.Data.HashMap

/-!
# Fact stores

Two ways to keep facts: a `FactStore` holds the rows themselves in order, a `FactFiles` holds the
text of one file for each relation.
-/

namespace DalvikFacts

/-- Facts in the order in which they were added. -/
structure FactStore where
  facts : Array Fact

namespace FactStore

/-- A store without facts. -/
def empty : FactStore := ⟨#[]⟩

/-- Adds a fact behind the others. -/
def add (store : FactStore) (fact : Fact) : FactStore :=
  ⟨store.facts.push fact⟩

/-- The rows of a relation, in order. -/
def rows (store : FactStore) (relation : Relation) : List (List String) :=
  (store.facts.toList.filter (·.relation == relation)).map Fact.columns

/-- The number of rows of a relation. -/
def count (store : FactStore) (relation : Relation) : Nat :=
  (store.rows relation).length

/-- The relations that have rows. -/
def relations (store : FactStore) : List Relation :=
  Relation.all.filter fun relation => store.facts.any (·.relation == relation)

end FactStore

/-- The text of the file of each relation; a relation without rows has an empty file. -/
structure FactFiles where
  texts : Std.HashMap Relation String

namespace FactFiles

/-- Files without rows. -/
def empty : FactFiles := ⟨{}⟩

/-- The text of the file of a relation. -/
def text (files : FactFiles) (relation : Relation) : String :=
  files.texts.getD relation ""

/-- Adds a fact to the file of its relation. -/
def add (files : FactFiles) (fact : Fact) : FactFiles :=
  ⟨files.texts.alter fact.relation fun text => some (Row.write (text.getD "") fact.columns).text⟩

/-- The files of all relations, by name. -/
def files (files : FactFiles) : List (String × String) :=
  Relation.all.map fun relation => (relation.fileName, files.text relation)

end FactFiles

/-- The facts among events. -/
def factsOf (events : List Event) : List Fact :=
  events.filterMap Event.fact?

/-- The notices among events. -/
def noticesOf (events : List Event) : List Notice :=
  events.filterMap Event.notice?

/-- The rows of a relation among events, in order. -/
def rowsOf (relation : Relation) (events : List Event) : List (List String) :=
  ((factsOf events).filter (·.relation == relation)).map Fact.columns

section Events

variable (events others : List Event)

@[simp]
theorem factsOf_nil : factsOf [] = [] :=
  rfl

@[simp]
theorem factsOf_append : factsOf (events ++ others) = factsOf events ++ factsOf others :=
  List.filterMap_append

@[simp]
theorem factsOf_cons_fact (fact : Fact) : factsOf (.fact fact :: events) = fact :: factsOf events :=
  rfl

@[simp]
theorem factsOf_cons_notice (notice : Notice) :
    factsOf (.notice notice :: events) = factsOf events :=
  rfl

theorem mem_factsOf {fact : Fact} : fact ∈ factsOf events ↔ .fact fact ∈ events := by
  simp only [factsOf, List.mem_filterMap]
  constructor
  · rintro ⟨event, member, fact_eq⟩
    cases event with
    | fact found => cases fact_eq; exact member
    | notice => cases fact_eq
  · intro member
    exact ⟨_, member, rfl⟩

@[simp]
theorem noticesOf_nil : noticesOf [] = [] :=
  rfl

@[simp]
theorem noticesOf_append : noticesOf (events ++ others) = noticesOf events ++ noticesOf others :=
  List.filterMap_append

theorem mem_noticesOf {notice : Notice} : notice ∈ noticesOf events ↔ .notice notice ∈ events := by
  simp only [noticesOf, List.mem_filterMap]
  constructor
  · rintro ⟨event, member, notice_eq⟩
    cases event with
    | fact => cases notice_eq
    | notice found => cases notice_eq; exact member
  · intro member
    exact ⟨_, member, rfl⟩

@[simp]
theorem rowsOf_nil (relation : Relation) : rowsOf relation [] = [] :=
  rfl

@[simp]
theorem rowsOf_append (relation : Relation) :
    rowsOf relation (events ++ others) = rowsOf relation events ++ rowsOf relation others := by
  simp [rowsOf]

theorem rowsOf_eq_nil {relation : Relation}
    (absent : ∀ fact, .fact fact ∈ events → fact.relation ≠ relation) :
    rowsOf relation events = [] := by
  rw [rowsOf, List.map_eq_nil_iff, List.filter_eq_nil_iff]
  intro fact member
  simpa using absent fact ((mem_factsOf events).1 member)

end Events

/-- The rows of a relation among facts, in order. -/
def rowsIn (relation : Relation) (facts : List Fact) : List (List String) :=
  (facts.filter (·.relation == relation)).map Fact.columns

section Facts

variable (relation : Relation) (facts others : List Fact)

@[simp]
theorem rowsIn_nil : rowsIn relation [] = [] :=
  rfl

@[simp]
theorem rowsIn_append :
    rowsIn relation (facts ++ others) = rowsIn relation facts ++ rowsIn relation others := by
  simp [rowsIn]

@[simp]
theorem rowsIn_cons (fact : Fact) :
    rowsIn relation (fact :: facts) =
      (if fact.relation = relation then [fact.columns] else []) ++ rowsIn relation facts := by
  unfold rowsIn
  rw [List.filter_cons]
  by_cases same : fact.relation = relation <;> simp [same]

theorem rowsIn_map {α : Type} (written : Relation) (columns : α → List String) (items : List α) :
    rowsIn relation (items.map fun item => ⟨written, columns item⟩) =
      if written = relation then items.map columns else [] := by
  rw [rowsIn, List.filter_map, List.map_map]
  by_cases same : written = relation
  · have all_kept : items.filter ((·.relation == relation) ∘
        fun item => (⟨written, columns item⟩ : Fact)) = items :=
      List.filter_eq_self.2 fun _ _ => beq_iff_eq.2 same
    rw [all_kept, if_pos same]
    rfl
  · simp [same, Function.comp_def]

theorem rowsIn_flatMap {α : Type} (items : List α) (each : α → List Fact) :
    rowsIn relation (items.flatMap each) =
      items.flatMap fun item => rowsIn relation (each item) := by
  simp only [rowsIn, List.filter_flatMap, List.map_flatMap]

theorem rowsIn_eq_nil {relation : Relation} {facts : List Fact}
    (absent : ∀ fact ∈ facts, fact.relation ≠ relation) : rowsIn relation facts = [] := by
  rw [rowsIn, List.map_eq_nil_iff, List.filter_eq_nil_iff]
  intro fact member
  simpa using absent fact member

end Facts

end DalvikFacts
