import DalvikFacts.Fact.Store
import DalvikFacts.Run
import Mathlib.Algebra.BigOperators.Group.Multiset.Basic

/-!
# Ledgers

What workers leave in a run, piece by piece and in no order: rows, additions to the hierarchy and
counts.  A state of a run represents a ledger when it holds just its entries, whatever the order in
which they were entered.
-/

namespace DalvikFacts

/-- Something that a worker leaves. -/
inductive Contribution
  | fact (fact : Fact)
  | method (id : String)
  | access (access : FieldAccess)
  | link (cls superName : String)
  | declared (cls : String)
  | field (field : DefinedField)
  | counted (totals : Totals)

namespace Contribution

/-- The row that is left. -/
def fact? : Contribution → Option Fact
  | fact found => some found
  | _ => none

/-- The field access that is left. -/
def access? : Contribution → Option FieldAccess
  | access found => some found
  | _ => none

/-- What is counted. -/
def totals : Contribution → Totals
  | counted totals => totals
  | _ => .zero

end Contribution

/-- What workers have left. -/
abbrev Ledger := Multiset Contribution

/-- Two counts together. -/
def Totals.plus (totals others : Totals) : Totals where
  classes := totals.classes + others.classes
  methods := totals.methods + others.methods
  instructions := totals.instructions + others.instructions
  failures := totals.failures + others.failures

namespace Ledger

/-- The rows of a ledger. -/
def facts (ledger : Ledger) : Multiset Fact :=
  ledger.filterMap Contribution.fact?

/-- The field accesses of a ledger. -/
def accesses (ledger : Ledger) : Multiset FieldAccess :=
  ledger.filterMap Contribution.access?

/-- The counts of a ledger. -/
def totals (ledger : Ledger) : Totals where
  classes := (ledger.map (·.totals.classes)).sum
  methods := (ledger.map (·.totals.methods)).sum
  instructions := (ledger.map (·.totals.instructions)).sum
  failures := (ledger.map (·.totals.failures)).sum

/-- The entries of events: one for each row. -/
def ofEvents (events : List Event) : Ledger :=
  (factsOf events).map Contribution.fact

/-- The entries of a class that is declared with its fields. -/
def ofFields (cls : String) (fields : List FieldSig) : Ledger :=
  Contribution.declared cls ::
    fields.map fun field => Contribution.field ⟨cls, field.name, field.type⟩

variable (ledger others : Ledger)

@[simp]
theorem facts_zero : facts 0 = 0 :=
  rfl

@[simp]
theorem facts_add : facts (ledger + others) = ledger.facts + others.facts :=
  Multiset.filterMap_add ..

@[simp]
theorem accesses_add : accesses (ledger + others) = ledger.accesses + others.accesses :=
  Multiset.filterMap_add ..

@[simp]
theorem totals_add : totals (ledger + others) = ledger.totals.plus others.totals := by
  simp [totals, Totals.plus]

theorem facts_eq_zero (rowless : ∀ entry ∈ ledger, entry.fact? = none) : ledger.facts = 0 := by
  induction ledger using Multiset.induction with
  | empty => rfl
  | cons entry rest induction =>
    rw [facts, Multiset.filterMap_cons_none _ _ (rowless entry (by simp))]
    exact induction fun other member => rowless other (by simp [member])

theorem accesses_eq_zero (idle : ∀ entry ∈ ledger, entry.access? = none) :
    ledger.accesses = 0 := by
  induction ledger using Multiset.induction with
  | empty => rfl
  | cons entry rest induction =>
    rw [accesses, Multiset.filterMap_cons_none _ _ (idle entry (by simp))]
    exact induction fun other member => idle other (by simp [member])

theorem totals_eq_zero (uncounted : ∀ entry ∈ ledger, entry.totals = .zero) :
    ledger.totals = .zero := by
  have vanish : ∀ part : Totals → Nat, part .zero = 0 →
      (ledger.map fun entry => part entry.totals).sum = 0 := by
    intro part part_zero
    refine Multiset.sum_eq_zero fun count member => ?_
    obtain ⟨entry, entry_mem, rfl⟩ := Multiset.mem_map.1 member
    rw [uncounted entry entry_mem, part_zero]
  rw [totals, vanish _ rfl, vanish _ rfl, vanish _ rfl, vanish _ rfl]
  rfl

theorem mem_of_mem_facts {fact : Fact} (member : fact ∈ ledger.facts) : .fact fact ∈ ledger := by
  obtain ⟨entry, entry_mem, entry_eq⟩ := (Multiset.mem_filterMap _ ledger).1 member
  cases entry with
  | fact found =>
    cases entry_eq
    exact entry_mem
  | _ => cases entry_eq

theorem mem_of_mem_accesses {access : FieldAccess} (member : access ∈ ledger.accesses) :
    .access access ∈ ledger := by
  obtain ⟨entry, entry_mem, entry_eq⟩ := (Multiset.mem_filterMap _ ledger).1 member
  cases entry with
  | access found =>
    cases entry_eq
    exact entry_mem
  | _ => cases entry_eq

theorem facts_ofEvents (events : List Event) : (ofEvents events).facts = factsOf events := by
  unfold facts ofEvents
  rw [Multiset.filterMap_coe, List.filterMap_map]
  exact congrArg _ List.filterMap_some

end Ledger

/-- The references that a run has registered. -/
structure References where
  fields : Array FieldSig
  types : Std.TreeSet String
  methods : Std.TreeSet String

namespace Hierarchy

/-- The references of a hierarchy. -/
def references (hierarchy : Hierarchy) : References where
  fields := hierarchy.referencedFields
  types := hierarchy.referencedTypes
  methods := hierarchy.referencedMethods

/-- A class that has no other super class may be linked, which adds the link and nothing else. -/
theorem linkSuper_of_free {hierarchy : Hierarchy} {cls superName : String}
    (free : ∀ previous, hierarchy.superOf? cls = some previous → previous = superName) :
    ∃ supers, hierarchy.linkSuper cls superName = .ok { hierarchy with supers } ∧
      ∀ other found, supers[other]? = some found ↔
        hierarchy.supers[other]? = some found ∨ other = cls ∧ found = superName := by
  cases previous_eq : hierarchy.superOf? cls with
  | some previous =>
    obtain rfl := free previous previous_eq
    have linked := (linkSuper_of_superOf? previous_eq previous).trans (if_pos rfl)
    refine ⟨hierarchy.supers, linked, fun other found => ?_⟩
    constructor
    · exact .inl
    · rintro (super_eq | ⟨rfl, rfl⟩)
      · exact super_eq
      · exact previous_eq
  | none =>
    refine ⟨_, linkSuper_of_new previous_eq superName, fun other found => ?_⟩
    rw [superOf?] at previous_eq
    rw [Std.HashMap.getElem?_insert]
    split
    next same =>
      cases eq_of_beq same
      simp [previous_eq, eq_comm]
    next distinct =>
      have other_ne : other ≠ cls := by
        rintro rfl
        simp at distinct
      simp [other_ne]

end Hierarchy

/-- A state of a run holds what is in a ledger. -/
structure RunState.Represents (state : RunState) (ledger : Ledger) : Prop where
  supers : ∀ cls superName,
    state.hierarchy.superOf? cls = some superName ↔ .link cls superName ∈ ledger
  classes : ∀ cls, cls ∈ state.hierarchy.definedClasses ↔ .declared cls ∈ ledger
  fields : ∀ field, field ∈ state.hierarchy.definedFields ↔ .field field ∈ ledger
  methods : ∀ id, id ∈ state.hierarchy.definedMethods ↔ .method id ∈ ledger
  accesses : (state.hierarchy.accesses.toList : Multiset FieldAccess) = ledger.accesses
  totals : state.totals = ledger.totals

namespace RunState.Represents

variable {state : RunState} {ledger : Ledger}

theorem start : Represents ⟨.empty, .zero, 0⟩ 0 where
  supers := by simp [Hierarchy.superOf?, Hierarchy.empty]
  classes := by simp [Hierarchy.empty]
  fields := by simp [Hierarchy.empty]
  methods := by simp [Hierarchy.empty]
  accesses := rfl
  totals := rfl

/-- What changes a state adds its entries to the ledger that the state represents. -/
theorem add {next : RunState} {added : Ledger} (represents : state.Represents ledger)
    (supers : ∀ cls superName, next.hierarchy.superOf? cls = some superName ↔
      state.hierarchy.superOf? cls = some superName ∨ .link cls superName ∈ added)
    (classes : ∀ cls, cls ∈ next.hierarchy.definedClasses ↔
      cls ∈ state.hierarchy.definedClasses ∨ .declared cls ∈ added)
    (fields : ∀ field, field ∈ next.hierarchy.definedFields ↔
      field ∈ state.hierarchy.definedFields ∨ .field field ∈ added)
    (methods : ∀ id, id ∈ next.hierarchy.definedMethods ↔
      id ∈ state.hierarchy.definedMethods ∨ .method id ∈ added)
    (accesses : (next.hierarchy.accesses.toList : Multiset FieldAccess) =
      state.hierarchy.accesses.toList + added.accesses)
    (totals : next.totals = state.totals.plus added.totals) :
    next.Represents (ledger + added) where
  supers cls superName := by rw [supers, represents.supers, Multiset.mem_add]
  classes cls := by rw [classes, represents.classes, Multiset.mem_add]
  fields field := by rw [fields, represents.fields, Multiset.mem_add]
  methods id := by rw [methods, represents.methods, Multiset.mem_add]
  accesses := by rw [accesses, represents.accesses, Ledger.accesses_add]
  totals := by rw [totals, represents.totals, Ledger.totals_add]

theorem addQuiet {next : RunState} {added : Ledger} (represents : state.Represents ledger)
    (idle : ∀ entry ∈ added, entry.access? = none)
    (uncounted : ∀ entry ∈ added, entry.totals = .zero)
    (supers : ∀ cls superName, next.hierarchy.superOf? cls = some superName ↔
      state.hierarchy.superOf? cls = some superName ∨ .link cls superName ∈ added)
    (classes : ∀ cls, cls ∈ next.hierarchy.definedClasses ↔
      cls ∈ state.hierarchy.definedClasses ∨ .declared cls ∈ added)
    (fields : ∀ field, field ∈ next.hierarchy.definedFields ↔
      field ∈ state.hierarchy.definedFields ∨ .field field ∈ added)
    (methods : ∀ id, id ∈ next.hierarchy.definedMethods ↔
      id ∈ state.hierarchy.definedMethods ∨ .method id ∈ added)
    (accesses_eq : next.hierarchy.accesses = state.hierarchy.accesses)
    (totals_eq : next.totals = state.totals) : next.Represents (ledger + added) := by
  refine represents.add supers classes fields methods ?_ ?_
  · rw [accesses_eq, added.accesses_eq_zero idle, add_zero]
  · rw [totals_eq, added.totals_eq_zero uncounted]
    rfl

theorem addEvents (represents : state.Represents ledger) (events : List Event) :
    state.Represents (ledger + .ofEvents events) := by
  apply represents.addQuiet
  case idle => simp [Ledger.ofEvents, Contribution.access?]
  case uncounted => simp [Ledger.ofEvents, Contribution.totals]
  all_goals simp [Ledger.ofEvents]

theorem defineMethods (represents : state.Represents ledger) (ids : List String) :
    RunState.Represents { state with hierarchy := state.hierarchy.defineMethods ids }
      (ledger + ids.map Contribution.method) := by
  apply represents.addQuiet
  case idle => simp [Contribution.access?]
  case uncounted => simp [Contribution.totals]
  case methods => simp [Hierarchy.defineMethods]
  all_goals simp [Hierarchy.defineMethods, Hierarchy.superOf?]

theorem queueAccesses (represents : state.Represents ledger) (accesses : List FieldAccess) :
    RunState.Represents { state with hierarchy := state.hierarchy.queueAccesses accesses }
      (ledger + accesses.map Contribution.access) := by
  have queued : Ledger.accesses (accesses.map Contribution.access) = accesses := by
    unfold Ledger.accesses
    rw [Multiset.filterMap_coe, List.filterMap_map]
    exact congrArg _ List.filterMap_some
  apply represents.add
  case accesses =>
    rw [queued, Multiset.coe_add]
    simp [Hierarchy.queueAccesses]
  case totals =>
    rw [Ledger.totals_eq_zero _ (by simp [Contribution.totals])]
    rfl
  all_goals simp [Hierarchy.queueAccesses, Hierarchy.superOf?]

theorem defineFields (represents : state.Represents ledger) (cls : String)
    (fields : List FieldSig) :
    RunState.Represents { state with hierarchy := state.hierarchy.defineFields cls fields }
      (ledger + .ofFields cls fields) := by
  apply represents.addQuiet
  case idle => simp [Ledger.ofFields, Contribution.access?]
  case uncounted => simp [Ledger.ofFields, Contribution.totals]
  case fields => simp [Hierarchy.defineFields, Ledger.ofFields]
  case classes =>
    intro other
    simp only [Hierarchy.defineFields, Ledger.ofFields, Std.HashSet.mem_insert, beq_iff_eq,
      Multiset.mem_coe, List.mem_cons, Contribution.declared.injEq, List.mem_map, reduceCtorEq,
      and_false, exists_false, or_false]
    rw [or_comm, eq_comm]
  all_goals simp [Hierarchy.defineFields, Hierarchy.superOf?, Ledger.ofFields]

/-- What knows one more super class holds one more link. -/
theorem addLink (represents : state.Represents ledger) {supers : Std.HashMap String String}
    {cls superName : String}
    (supers_iff : ∀ other found, supers[other]? = some found ↔
      state.hierarchy.supers[other]? = some found ∨ other = cls ∧ found = superName) :
    RunState.Represents { state with hierarchy := { state.hierarchy with supers } }
      (ledger + {.link cls superName}) := by
  apply represents.addQuiet
  case idle => simp [Contribution.access?]
  case uncounted => simp [Contribution.totals]
  case supers => simpa [Hierarchy.superOf?] using supers_iff
  all_goals simp

theorem linkSuper (represents : state.Represents ledger) {cls superName : String}
    (free : ∀ previous, .link cls previous ∈ ledger → previous = superName) :
    ∃ linked, state.hierarchy.linkSuper cls superName = .ok linked ∧
      RunState.Represents { state with hierarchy := linked } (ledger + {.link cls superName}) := by
  obtain ⟨supers, linked_eq, supers_iff⟩ := Hierarchy.linkSuper_of_free
    fun previous previous_eq => free previous ((represents.supers cls previous).1 previous_eq)
  exact ⟨_, linked_eq, represents.addLink supers_iff⟩

theorem count (represents : state.Represents ledger) {change : Totals → Totals} {more : Totals}
    (change_eq : ∀ totals, change totals = totals.plus more) :
    RunState.Represents { state with totals := change state.totals }
      (ledger + {.counted more}) := by
  apply represents.add
  case accesses =>
    rw [Ledger.accesses_eq_zero _ (by simp [Contribution.access?]), add_zero]
  case totals =>
    rw [change_eq]
    simp [Ledger.totals, Contribution.totals]
  all_goals simp

end RunState.Represents
end DalvikFacts
