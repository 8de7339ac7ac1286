import DalvikFacts.Fact.Store
import DalvikFacts.Method.Extract

/-!
# Footprints

What an action on the state of a method may touch: the parts of the state that it may change, and
the relations that it may write rows to.  Everything else is left alone, and notices are about
methods.  What still waits is reported at the end of a body only.
-/

namespace DalvikFacts

/-- A part of the state of a method. -/
inductive MethodPart
  | declared
  | counters
  | indices
  | edges
  | result
  | zeroed
  | newArray
  | fills
  | switches
  | catches
  | accesses
  deriving DecidableEq

/-- Whether two states agree on a part. -/
def MethodPart.Same : MethodPart → MethodState → MethodState → Prop
  | declared, s, t => s.declared = t.declared
  | counters, s, t => s.counters = t.counters
  | indices, s, t => s.addresses.indices = t.addresses.indices
  | edges, s, t => s.addresses.edges = t.addresses.edges
  | result, s, t => s.carry.result = t.carry.result
  | zeroed, s, t => s.carry.zeroed = t.carry.zeroed
  | newArray, s, t => s.carry.newArray = t.carry.newArray
  | fills, s, t => s.fills = t.fills
  | switches, s, t => s.switches = t.switches
  | catches, s, t => s.catches = t.catches
  | accesses, s, t => s.accesses = t.accesses

namespace MethodPart

theorem Same.refl (part : MethodPart) (s : MethodState) : part.Same s s := by
  cases part <;> rfl

theorem Same.trans {part : MethodPart} {s t u : MethodState} (first : part.Same s t)
    (second : part.Same t u) : part.Same s u := by
  cases part <;> exact Eq.trans first second

end MethodPart

/-- Events are rows of the given relations, and notices about methods. -/
structure Within (relations : List Relation) (events : List Event) : Prop where
  facts : ∀ fact, .fact fact ∈ events → fact.relation ∈ relations
  notices : ∀ notice, .notice notice ∈ events → ∃ id about, notice = .method id about

namespace Within

variable {relations wider : List Relation} {events others : List Event}

theorem nil : Within relations [] where
  facts _ member := by simp at member
  notices _ member := by simp at member

theorem factsOf_eq_nil (quiet : Within [] events) : factsOf events = [] :=
  List.eq_nil_iff_forall_not_mem.2 fun fact member =>
    List.not_mem_nil (quiet.facts fact ((mem_factsOf _).1 member))

theorem append (early : Within relations events) (late : Within relations others) :
    Within relations (events ++ others) where
  facts fact member := (List.mem_append.1 member).elim (early.facts fact) (late.facts fact)
  notices notice member :=
    (List.mem_append.1 member).elim (early.notices notice) (late.notices notice)

theorem mono (subset : relations ⊆ wider) (within : Within relations events) :
    Within wider events where
  facts fact member := subset (within.facts fact member)
  notices := within.notices

theorem rowsOf_eq_nil (within : Within relations events) {relation : Relation}
    (absent : relation ∉ relations) : rowsOf relation events = [] := by
  apply DalvikFacts.rowsOf_eq_nil
  intro fact member relation_eq
  exact absent (relation_eq ▸ within.facts fact member)

end Within

/-- A report about entries that still wait: the method, what they are, and how many. -/
def Notice.report? : Notice → Option (String × String × Nat)
  | .method id (.residual what count _) => some (id, what, count)
  | _ => none

/-- The reports about entries that still wait. -/
def reportsOf (events : List Event) : List (String × String × Nat) :=
  (noticesOf events).filterMap Notice.report?

@[simp]
theorem reportsOf_nil : reportsOf [] = [] :=
  rfl

@[simp]
theorem reportsOf_append (events others : List Event) :
    reportsOf (events ++ others) = reportsOf events ++ reportsOf others := by
  simp [reportsOf]

/-- An action changes no part of the state but the given ones, and emits rows of the given relations
only, beside notices about methods.  It does not report entries that still wait. -/
structure Footprint {α : Type} (parts : List MethodPart) (relations : List Relation)
    (action : MethodEmit α) : Prop where
  frame : ∀ state, ∀ part ∉ parts, part.Same (action.run state).state state
  within : ∀ state, Within relations (action.run state).events
  quiet : ∀ state, reportsOf (action.run state).events = []

namespace Footprint

variable {α β : Type} {parts : List MethodPart} {relations : List Relation}
  {action : MethodEmit α}

theorem pure (value : α) : Footprint parts relations (Pure.pure value) where
  frame _ part _ := .refl part _
  within _ := .nil
  quiet _ := rfl

theorem bind {next : α → MethodEmit β} (first : Footprint parts relations action)
    (rest : ∀ value, Footprint parts relations (next value)) :
    Footprint parts relations (action >>= next) where
  frame state part absent :=
    ((rest _).frame _ part absent).trans (first.frame state part absent)
  within state := (first.within state).append ((rest _).within _)
  quiet state := by
    rw [Emit.run_bind, reportsOf_append, first.quiet, (rest _).quiet, List.append_nil]

theorem get : Footprint parts relations (get : MethodEmit MethodState) where
  frame _ part _ := .refl part _
  within _ := .nil
  quiet _ := rfl

theorem modifyGet {change : MethodState → α × MethodState}
    (same : ∀ state, ∀ part ∉ parts, part.Same (change state).2 state) :
    Footprint parts relations (modifyGet change : MethodEmit α) where
  frame := same
  within _ := .nil
  quiet _ := rfl

theorem modify {change : MethodState → MethodState}
    (same : ∀ state, ∀ part ∉ parts, part.Same (change state) state) :
    Footprint parts relations (modify change : MethodEmit PUnit) where
  frame := same
  within _ := .nil
  quiet _ := rfl

theorem row {relation : Relation} {columns : List String} (known : relation ∈ relations) :
    Footprint parts relations (Emit.row relation columns) where
  frame _ part _ := .refl part _
  within _ :=
    { facts := fun fact member => by
        simp only [Emit.row, Emit.run_event, List.mem_singleton, Event.fact.injEq] at member
        rw [member]
        exact known
      notices := fun _ member => by simp [Emit.row] at member }
  quiet _ := rfl

theorem notice (cx : MethodContext) {about : MethodNotice}
    (other : (Notice.method cx.id about).report? = none) :
    Footprint parts relations (cx.notice about : MethodEmit Unit) where
  frame _ part _ := .refl part _
  within _ :=
    { facts := fun _ member => by simp [MethodContext.notice, Emit.notice] at member
      notices := fun notice member => by
        simp only [MethodContext.notice, Emit.notice, Emit.run_event, List.mem_singleton,
          Event.notice.injEq] at member
        exact ⟨cx.id, about, member⟩ }
  quiet _ := by
    simp [reportsOf, noticesOf, MethodContext.notice, Emit.notice, Event.notice?, other]

theorem ite {condition : Prop} [Decidable condition] {other : MethodEmit α}
    (yes : Footprint parts relations action) (no : Footprint parts relations other) :
    Footprint parts relations (if condition then action else other) := by
  split
  · exact yes
  · exact no

theorem guarded {condition : Prop} [Decidable condition] {later : MethodEmit β}
    (first : Footprint parts relations action) (rest : Footprint parts relations later) :
    Footprint parts relations (if condition then action >>= fun _ => later else later) :=
  .ite (.bind first fun _ => rest) rest

theorem forM {items : List β} {each : β → MethodEmit PUnit}
    (one : ∀ item, Footprint parts relations (each item)) :
    Footprint parts relations (items.forM each) := by
  induction items with
  | nil => exact .pure ()
  | cons item rest induction => exact (one item).bind fun _ => induction

theorem mapM_option {each : β → MethodEmit α} (one : ∀ item, Footprint parts relations (each item))
    (item : Option β) : Footprint parts relations (item.mapM each) := by
  cases item with
  | none => exact .pure none
  | some item =>
    rw [Option.mapM_some, map_eq_pure_bind]
    exact (one item).bind fun value => .pure (some value)

end Footprint

end DalvikFacts
