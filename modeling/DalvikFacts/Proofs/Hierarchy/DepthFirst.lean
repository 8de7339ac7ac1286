import DalvikFacts.Proofs.Hierarchy.ClassGraph

/-!
# Depth-first searches of class graphs

A depth-first search passes a new node next, from the latest passed one that leads to a new node.
It passes what can be reached, each node once.  On the graph of a hierarchy, where no class has more
than one link, it has no choice: it passes the lineage of the class at which it starts, so the first
class on it that has a field is the class that declares the field.
-/

namespace DalvikFacts

section Search

variable {α : Type} {leads : α → α → Prop} {start : α} {order passed : List α} {node : α}

/-- What a depth-first search may have passed, in order.  The next node is a new one to which the
latest passed node leads that leads to a new node at all. -/
inductive Searched (leads : α → α → Prop) (start : α) : List α → Prop
  | start : Searched leads start [start]
  | pass {front back : List α} {parent node : α}
      (searched : Searched leads start (front ++ parent :: back)) (link : leads parent node)
      (new : node ∉ front ++ parent :: back)
      (exhausted : ∀ later ∈ back, ∀ next, leads later next → next ∈ front ++ parent :: back) :
      Searched leads start (front ++ parent :: back ++ [node])

/-- A depth-first search that has ended: no passed node leads to a new one. -/
structure DepthFirst (leads : α → α → Prop) (start : α) (order : List α) : Prop where
  searched : Searched leads start order
  complete : ∀ node ∈ order, ∀ next, leads node next → next ∈ order

namespace Searched

variable (searched : Searched leads start passed)

include searched

theorem start_mem : start ∈ passed := by
  induction searched with
  | start => exact List.mem_cons_self
  | pass _ _ _ _ induction => exact List.mem_append_left _ induction

theorem nodup : passed.Nodup := by
  induction searched with
  | start => exact List.nodup_singleton _
  | pass _ _ new _ induction =>
    rw [← List.concat_eq_append, List.nodup_concat]
    exact ⟨new, induction⟩

theorem reachable (member : node ∈ passed) : Relation.ReflTransGen leads start node := by
  induction searched generalizing node with
  | start =>
    obtain rfl := List.mem_singleton.1 member
    exact .refl
  | pass _ link _ _ induction =>
    rcases List.mem_append.1 member with earlier | last
    · exact induction earlier
    · obtain rfl := List.mem_singleton.1 last
      exact (induction (List.mem_append_right _ List.mem_cons_self)).tail link

theorem exists_chain (functional : ∀ node first second, leads node first → leads node second →
    first = second) : ∃ rest, passed = start :: rest ∧ passed.IsChain leads := by
  induction searched with
  | start => exact ⟨[], rfl, .singleton _⟩
  | @pass front back parent node _ link new _ induction =>
    obtain ⟨rest, passed_eq, chain⟩ := induction
    obtain rfl : back = [] := by
      cases back with
      | nil => rfl
      | cons next back =>
        have known : leads parent next := (List.isChain_append_cons_cons.1 chain).2.1
        obtain rfl := functional _ _ _ known link
        exact absurd (by simp) new
    refine ⟨rest ++ [node], by rw [passed_eq, List.cons_append], ?_⟩
    refine chain.append (.singleton node) fun last last_eq other other_eq => ?_
    rw [List.getLast?_concat] at last_eq
    cases last_eq
    cases other_eq
    exact link

end Searched

theorem DepthFirst.mem_iff (depthFirst : DepthFirst leads start order) :
    node ∈ order ↔ Relation.ReflTransGen leads start node := by
  constructor
  · exact depthFirst.searched.reachable
  · intro reached
    induction reached with
    | refl => exact depthFirst.searched.start_mem
    | tail _ link induction => exact depthFirst.complete _ induction _ link

end Search

namespace ClassGraph

/-! ## Searching with a stack -/

/-- The links whose sources were not passed. -/
def ahead (graph : ClassGraph) (passed : List Nat) : Nat :=
  graph.links.countP fun link => link.1 ∉ passed

theorem length_above_add_ahead (graph : ClassGraph) {place : Nat} {passed : List Nat}
    (new : place ∉ passed) :
    (graph.above place).length + graph.ahead (passed ++ [place]) = graph.ahead passed := by
  unfold above ahead
  rw [List.length_map, ← List.countP_eq_length_filter]
  induction graph.links with
  | nil => rfl
  | cons link links induction =>
    rw [List.countP_cons, List.countP_cons, List.countP_cons, ← induction]
    by_cases own : link.1 = place
    · simp [own, new]
      omega
    · simp [own]
      omega

/-- The places that a search passes in all, which takes places from a stack, leaves out those that
it has passed, and puts the super classes of the others that are new on the stack. -/
def pass (graph : ClassGraph) (passed : List Nat) : List Nat → List Nat
  | [] => passed
  | place :: stack =>
    if place ∈ passed then graph.pass passed stack
    else
      let fresh := (graph.above place).filter (· ∉ passed ++ [place])
      graph.pass (passed ++ [place]) (fresh.reverse ++ stack)
termination_by stack => graph.ahead passed + stack.length
decreasing_by
  · simp
  · have fewer := graph.length_above_add_ahead ‹place ∉ passed›
    have pushed := List.length_filter_le (· ∉ passed ++ [place]) (graph.above place)
    simp only [List.length_append, List.length_reverse, List.length_cons]
    omega

/-- The places that are passed by a depth-first search from a place. -/
def passes (graph : ClassGraph) (start : Nat) : List Nat :=
  graph.pass [] [start]

/-- One place has a link to another one. -/
def Linked (graph : ClassGraph) (place target : Nat) : Prop :=
  target ∈ graph.above place

/-- What a stack holds in the course of a search: everything new that a passed place leads to, and
what is found on top of a place comes from the places passed behind its parent. -/
structure Stacked (graph : ClassGraph) (start : Nat) (passed stack : List Nat) : Prop where
  searched : Searched graph.Linked start passed
  waiting : ∀ place ∈ passed, ∀ next, graph.Linked place next → next ∈ passed ∨ next ∈ stack
  parents : ∀ top place below, stack = top ++ place :: below →
    ∃ front parent back, passed = front ++ parent :: back ∧ graph.Linked parent place ∧
      ∀ later ∈ back, ∀ next, graph.Linked later next → next ∈ passed ∨ next ∈ top

namespace Stacked

variable {graph : ClassGraph} {start place : Nat} {passed stack : List Nat}

/-- A place that was passed is dropped from the stack. -/
theorem drop (stacked : graph.Stacked start passed (place :: stack)) (known : place ∈ passed) :
    graph.Stacked start passed stack where
  searched := stacked.searched
  waiting other member next link := by
    rcases stacked.waiting other member next link with inside | waits
    · exact .inl inside
    · rcases List.mem_cons.1 waits with rfl | later
      · exact .inl known
      · exact .inr later
  parents top other below stack_eq := by
    obtain ⟨front, parent, back, passed_eq, link, covered⟩ :=
      stacked.parents (place :: top) other below (congrArg _ stack_eq)
    refine ⟨front, parent, back, passed_eq, link, fun later member next next_link => ?_⟩
    rcases covered later member next next_link with inside | waits
    · exact .inl inside
    · rcases List.mem_cons.1 waits with rfl | above
      · exact .inl known
      · exact .inr above

theorem searched_concat (stacked : graph.Stacked start passed (place :: stack))
    (new : place ∉ passed) : Searched graph.Linked start (passed ++ [place]) := by
  obtain ⟨front, parent, back, passed_eq, link, covered⟩ := stacked.parents [] place stack rfl
  have searched := stacked.searched
  subst passed_eq
  refine searched.pass link new fun later member next next_link => ?_
  rcases covered later member next next_link with inside | above
  · exact inside
  · cases above

theorem mem_or_mem_fresh {next : Nat} (link : graph.Linked place next) :
    next ∈ passed ++ [place] ∨
      next ∈ ((graph.above place).filter (· ∉ passed ++ [place])).reverse := by
  by_cases inside : next ∈ passed ++ [place]
  · exact .inl inside
  · refine .inr (List.mem_reverse.2 (List.mem_filter.2 ⟨link, ?_⟩))
    exact decide_eq_true inside

theorem mem_or_below {fresh top below : List Nat} {other : Nat}
    (stack_eq : fresh ++ stack = top ++ other :: below) :
    other ∈ fresh ∨ ∃ rest, top = fresh ++ rest ∧ stack = rest ++ other :: below := by
  rcases List.append_eq_append_iff.1 stack_eq with below_fresh | ⟨rest, fresh_eq, rest_eq⟩
  · exact .inr below_fresh
  · cases rest with
    | nil => exact .inr ⟨[], by simp [fresh_eq], by simpa using rest_eq.symm⟩
    | cons first rest =>
      cases rest_eq
      exact .inl (by simp [fresh_eq])

/-- A place that is passed leaves what is new behind it on the stack. -/
theorem push (stacked : graph.Stacked start passed (place :: stack))
    (searched : Searched graph.Linked start (passed ++ [place])) :
    graph.Stacked start (passed ++ [place])
      (((graph.above place).filter (· ∉ passed ++ [place])).reverse ++ stack) where
  searched := searched
  waiting other member next link := by
    rcases List.mem_append.1 member with earlier | last
    · rcases stacked.waiting other earlier next link with inside | waits
      · exact .inl (List.mem_append_left _ inside)
      · rcases List.mem_cons.1 waits with rfl | later
        · exact .inl List.mem_concat_self
        · exact .inr (List.mem_append_right _ later)
    · obtain rfl := List.mem_singleton.1 last
      exact (mem_or_mem_fresh link).imp_right (List.mem_append_left _)
  parents top other below stack_eq := by
    rcases mem_or_below stack_eq with fresh | ⟨rest, top_eq, stack_eq⟩
    · refine ⟨passed, place, [], rfl, ?_, fun later member => nomatch member⟩
      exact List.mem_of_mem_filter (List.mem_reverse.1 fresh)
    · obtain ⟨front, parent, back, passed_eq, link, covered⟩ :=
        stacked.parents (place :: rest) other below (congrArg _ stack_eq)
      refine ⟨front, parent, back ++ [place], by simp [passed_eq], link, ?_⟩
      intro later member next next_link
      rw [top_eq]
      rcases List.mem_append.1 member with earlier | last
      · rcases covered later earlier next next_link with inside | waits
        · exact .inl (List.mem_append_left _ inside)
        · rcases List.mem_cons.1 waits with rfl | above
          · exact .inl List.mem_concat_self
          · exact .inr (List.mem_append_right _ above)
      · obtain rfl := List.mem_singleton.1 last
        exact (mem_or_mem_fresh next_link).imp_right (List.mem_append_left _)

/-- The search starts with one place, and what it leads to on the stack. -/
theorem initial (graph : ClassGraph) (start : Nat) :
    graph.Stacked start [start] ((graph.above start).filter (· ∉ [start])).reverse where
  searched := .start
  waiting other member next link := by
    obtain rfl := List.mem_singleton.1 member
    exact @mem_or_mem_fresh graph other [] next link
  parents top other below stack_eq := by
    refine ⟨[], start, [], rfl, ?_, fun later member => nomatch member⟩
    have fresh : other ∈ ((graph.above start).filter (· ∉ [start])).reverse := by
      rw [stack_eq]
      exact List.mem_append_right _ List.mem_cons_self
    exact List.mem_of_mem_filter (List.mem_reverse.1 fresh)

theorem depthFirst (stacked : graph.Stacked start passed stack) :
    DepthFirst graph.Linked start (graph.pass passed stack) := by
  fun_induction pass graph passed stack with
  | case1 passed =>
    refine ⟨stacked.searched, fun place member next link => ?_⟩
    exact (stacked.waiting place member next link).resolve_right List.not_mem_nil
  | case2 passed place stack known induction => exact induction (stacked.drop known)
  | case3 passed place stack new fresh induction =>
    exact induction (stacked.push (stacked.searched_concat new))

end Stacked

theorem depthFirst_passes (graph : ClassGraph) (start : Nat) :
    DepthFirst graph.Linked start (graph.passes start) := by
  have first : graph.passes start =
      graph.pass [start] ((graph.above start).filter (· ∉ [start])).reverse := by
    simp [passes, pass]
  rw [first]
  exact (Stacked.initial graph start).depthFirst

/-! ## Searching for a class -/

open Hierarchy (Command linkIn? definesIn)

/-- The classes at some places. -/
def namesOf (graph : ClassGraph) (places : List Nat) : List String :=
  places.filterMap (graph.names[·]?)

/-- The first class with a property that a search passes from the place of a class; without such a
place there is none. -/
def firstPassed? (graph : ClassGraph) (search : ClassGraph → Nat → List Nat)
    (property : String → Bool) (cls : String) : Option String := do
  let start ← graph.places[cls]?
  (graph.namesOf (search graph start)).find? property

section Names

variable {graph : ClassGraph} {cls : String} {place start : Nat} {order rest : List Nat}

theorem mem_namesOf_iff :
    cls ∈ graph.namesOf order ↔ ∃ place ∈ order, graph.names[place]? = some cls :=
  List.mem_filterMap

theorem nodup_namesOf (distinct : order.Nodup) : (graph.namesOf order).Nodup := by
  refine distinct.filterMap fun first second name first_named second_named => ?_
  have first_place := (graph.places_iff name first).2 first_named
  have second_place := (graph.places_iff name second).2 second_named
  exact Option.some.inj (first_place.symm.trans second_place)

theorem Single.linked_functional (single : graph.Single) (place first second : Nat)
    (first_link : graph.Linked place first) (second_link : graph.Linked place second) :
    first = second := by
  have same := List.inj_on_of_nodup_map single (mem_above_iff.1 first_link)
    (mem_above_iff.1 second_link) rfl
  exact congrArg Prod.snd same

theorem exists_chain_namesOf (named : graph.names[place]? = some cls)
    (chain : (place :: rest).IsChain graph.Linked) :
    ∃ above, graph.namesOf (place :: rest) = cls :: above ∧
      (cls :: above).IsChain graph.HasLink := by
  induction rest generalizing place cls with
  | nil => exact ⟨[], by simp [namesOf, named], .singleton cls⟩
  | cons target rest induction =>
    obtain ⟨link, rest_chain⟩ := List.isChain_cons_cons.1 chain
    have member := mem_above_iff.1 link
    have inside : target < graph.names.size := (graph.links_inside _ member).2
    have target_named := Array.getElem?_eq_getElem inside
    obtain ⟨above, names_eq, above_chain⟩ := induction target_named rest_chain
    refine ⟨graph.names[target] :: above, ?_, ?_⟩
    · rw [namesOf, List.filterMap_cons_some named, ← namesOf, names_eq]
    · exact List.isChain_cons_cons.2 ⟨⟨_, member, named, target_named⟩, above_chain⟩

/-- A search passes the lineage of the class that it starts from. -/
theorem Follows.exists_lineage {commands : List Command} (follows : graph.Follows commands)
    (named : graph.names[start]? = some cls) (depthFirst : DepthFirst graph.Linked start order) :
    ∃ above, graph.namesOf order = cls :: above ∧ Lineage (linkIn? commands) cls above := by
  obtain ⟨rest, rfl, chain⟩ := depthFirst.searched.exists_chain follows.single.linked_functional
  obtain ⟨above, names_eq, above_chain⟩ := exists_chain_namesOf named chain
  refine ⟨above, names_eq, ?_, ?_, ?_⟩
  · exact above_chain.imp fun sub superName => (follows.links sub superName).1
  · rw [← names_eq]
    exact nodup_namesOf depthFirst.searched.nodup
  · intro passed member superName inherits
    obtain ⟨⟨source, target⟩, link, source_named, target_named⟩ :=
      (follows.links passed superName).2 inherits
    rw [← names_eq, mem_namesOf_iff] at member ⊢
    obtain ⟨place, place_mem, place_named⟩ := member
    have place_eq := (graph.places_iff passed place).2 place_named
    rw [(graph.places_iff passed source).2 source_named] at place_eq
    cases place_eq
    exact ⟨target, depthFirst.complete source place_mem target (mem_above_iff.2 link), target_named⟩

end Names

/-! ## Places of known classes -/

section Known

variable {commands : List Command} {field : FieldSig} {cls name : String}

theorem named_perform {graph : ClassGraph} {place : Nat} (named : graph.names[place]? = some name)
    (command : Command) : (graph.perform command).names[place]? = some name := by
  cases command with
  | linkSuper cls superName =>
    rw [perform, linkSuper]
    dsimp only
    split
    next => split <;> exact named_enter named cls
    next => exact named_enter (named_enter named cls) superName
  | defineFields cls fields => exact named_enter named cls
  | _ => exact named

theorem exists_named_of_definesIn (defined : definesIn commands field cls = true) :
    ∃ place : Nat, (history commands).names[place]? = some cls := by
  induction commands using List.reverseRecOn with
  | nil => cases defined
  | append_singleton commands command induction =>
    rw [history_concat]
    rw [definesIn, List.any_append, Bool.or_eq_true, List.any_cons, List.any_nil,
      Bool.or_false] at defined
    rcases defined with earlier | last
    · obtain ⟨place, named⟩ := induction earlier
      exact ⟨place, named_perform named command⟩
    · cases command with
      | defineFields owner fields =>
        simp only [Command.defines, Bool.and_eq_true, beq_iff_eq] at last
        obtain ⟨rfl, -⟩ := last
        exact ⟨_, ((history commands).enter owner).named⟩
      | _ => cases last

theorem unknown_of_places_eq_none (absent : (history commands).places[cls]? = none) :
    linkIn? commands cls = none ∧ definesIn commands field cls = false := by
  have unnamed : ∀ place : Nat, (history commands).names[place]? ≠ some cls := by
    intro place named
    rw [((history commands).places_iff cls place).2 named] at absent
    cases absent
  constructor
  · rw [Option.eq_none_iff_forall_ne_some]
    intro superName linked
    obtain ⟨link, -, named, -⟩ := ((follows_history commands).links cls superName).2 linked
    exact unnamed link.1 named
  · rw [Bool.eq_false_iff]
    intro defined
    obtain ⟨place, named⟩ := exists_named_of_definesIn defined
    exact unnamed place named

end Known

end ClassGraph

namespace Hierarchy

/-- A search of the class graph finds the class that declares a field: it passes the lineage of the
class of the reference, when that one is known. -/
theorem exists_lineage_search {search : ClassGraph → Nat → List Nat}
    (depthFirst : ∀ (graph : ClassGraph) (start : Nat), start < graph.names.size →
      DepthFirst graph.Linked start (search graph start))
    (commands : List Command) (field : FieldSig) :
    ∃ above, Lineage (linkIn? commands) field.owner above ∧
      (∀ start, (ClassGraph.history commands).places[field.owner]? = some start →
        (ClassGraph.history commands).namesOf (search (ClassGraph.history commands) start) =
          field.owner :: above) ∧
      (ClassGraph.history commands).firstPassed? search (definesIn commands field) field.owner =
        (field.owner :: above).find? (definesIn commands field) := by
  cases place_eq : (ClassGraph.history commands).places[field.owner]? with
  | none =>
    obtain ⟨unlinked, undefined⟩ :=
      @ClassGraph.unknown_of_places_eq_none commands field _ place_eq
    have lineage : Lineage (linkIn? commands) field.owner [] := by
      refine ⟨.singleton _, List.nodup_singleton _, fun passed member superName inherits => ?_⟩
      obtain rfl := List.mem_singleton.1 member
      rw [Inherits, unlinked] at inherits
      cases inherits
    refine ⟨[], lineage, ?_, ?_⟩
    · intro start known
      cases known
    · rw [ClassGraph.firstPassed?, place_eq, List.find?_singleton, undefined]
      rfl
  | some start =>
    have named := ((ClassGraph.history commands).places_iff field.owner start).1 place_eq
    have searches := depthFirst (ClassGraph.history commands) start
      (ClassGraph.lt_size_of_named named)
    obtain ⟨above, names_eq, lineage⟩ :=
      (ClassGraph.follows_history commands).exists_lineage named searches
    refine ⟨above, lineage, ?_, ?_⟩
    · intro other other_eq
      cases other_eq
      exact names_eq
    · rw [ClassGraph.firstPassed?, place_eq, ← names_eq]
      rfl

/-- In every history, a field access is written by the first conclusion behind the command that
queues it, and by no other: the conclusions write what waits for them, in the order of the queue,
each as a row of its instruction, index, variables and method, and what they write with what still
waits is all that was queued.  The field of the row is that of the first class with such a field
that a depth-first search of the class graph, as it is then, passes from the class of the reference.
The search passes each class that can be reached through super classes once, and ends.  Without such
a class, as when the class of the reference is unknown, the field is that of the reference. -/
theorem history_accesses (search : ClassGraph → Nat → List Nat)
    (depthFirst : ∀ (graph : ClassGraph) (start : Nat), start < graph.names.size →
      DepthFirst graph.Linked start (search graph start))
    (commands : List Command) :
    (factsOf (history commands).events = (conclusions commands).flatMap fun (known, phantoms) =>
      ((waiting known).map fun access =>
        ⟨access.relation, [access.insn, toString access.index, access.var] ++
          access.base.toList ++
            [(history known).state.resolvedId access.field, access.method]⟩) ++
          (history known).state.phantomFacts phantoms) ∧
    (commands.flatMap Command.queued =
      ((conclusions commands).flatMap fun (known, _) => waiting known) ++ waiting commands) ∧
    ∀ (known : List Command) (ref : FieldRef),
      let field := FieldSig.ofRef ref
      let graph := ClassGraph.history known
      ∃ above, Lineage (linkIn? known) field.owner above ∧
        (∀ cls, cls ∈ field.owner :: above ↔ Reaches (linkIn? known) field.owner cls) ∧
        (∀ start, graph.places[field.owner]? = some start →
          graph.namesOf (search graph start) = field.owner :: above) ∧
        graph.firstPassed? search (definesIn known field) field.owner =
          (field.owner :: above).find? (definesIn known field) ∧
        (history known).state.resolvedId field =
          match graph.firstPassed? search (definesIn known field) field.owner with
          | some cls => Identifier.field cls field.type field.name
          | none => field.id := by
  refine ⟨factsOf_history commands, queued_history commands, fun known ref => ?_⟩
  intro field graph
  obtain ⟨above, lineage, names_eq, first_eq⟩ := exists_lineage_search depthFirst known field
  have id_eq := resolvedId_ofRef (history known).state ref
  rw [declaringClass?_history lineage] at id_eq
  rw [← first_eq] at id_eq
  exact ⟨above, lineage, fun cls => lineage.mem_iff, names_eq, first_eq, id_eq⟩

/-- The field that is stored through a class that inherits it. -/
def inheritedSize (owner : String) : FieldRef :=
  ⟨.object owner, "size", .primitive .int⟩

/-- Two classes that are each other's super class.  A field of the one is stored through the other,
before and after it is defined. -/
def roundabout : List Command :=
  let store (index : Nat) : Command :=
    .queueAccesses [{ relation := .storeInstanceField, insn := "m/put", index, var := "m/v0",
                      base := some "m/v1", field := .ofRef (inheritedSize "B"), method := "m" }]
  [.linkSuper "B" "A", .linkSuper "A" "B", store 3, .conclude false,
    .defineFields "A" [.ofRef (inheritedSize "A")], store 7, .conclude false]

/-- The field of a class is found from the other class of the cycle, once it is defined. -/
theorem history_accesses_roundabout :
    (∀ (graph : ClassGraph) (start : Nat), start < graph.names.size →
      DepthFirst graph.Linked start (graph.passes start)) ∧
    factsOf (history roundabout).events =
      [⟨.storeInstanceField, ["m/put", "3", "m/v0", "m/v1", "<B: int size>", "m"]⟩,
        ⟨.storeInstanceField, ["m/put", "7", "m/v0", "m/v1", "<A: int size>", "m"]⟩] := by
  have depthFirst : ∀ (graph : ClassGraph) (start : Nat), start < graph.names.size →
      DepthFirst graph.Linked start (graph.passes start) :=
    fun graph start _ => graph.depthFirst_passes start
  obtain ⟨facts_eq, -, resolves⟩ := history_accesses ClassGraph.passes depthFirst roundabout
  have before : (history (roundabout.take 3)).state.resolvedId (.ofRef (inheritedSize "B")) =
      "<B: int size>" := by
    obtain ⟨above, -, -, -, first_eq, id_eq⟩ := resolves (roundabout.take 3) (inheritedSize "B")
    have nowhere := first_eq.trans
      (List.find?_eq_none.2 fun cls _ => by simp [definesIn, roundabout, Command.defines])
    rw [nowhere] at id_eq
    exact id_eq
  have after : (history (roundabout.take 6)).state.resolvedId (.ofRef (inheritedSize "B")) =
      "<A: int size>" := by
    obtain ⟨above, -, reaches, -, first_eq, id_eq⟩ :=
      resolves (roundabout.take 6) (inheritedSize "B")
    have inherits : Inherits (linkIn? (roundabout.take 6)) "B" "A" := rfl
    have passed : "A" ∈ "B" :: above := (reaches "A").2 (.single inherits)
    have only : ∀ cls, definesIn (roundabout.take 6) (.ofRef (inheritedSize "B")) cls = true →
        cls = "A" := by
      intro cls defined
      simp only [definesIn, roundabout, List.take_succ_cons, List.take_zero, List.any_cons,
        Command.defines, List.any_nil, Bool.false_or, Bool.or_false, Bool.and_eq_true,
        beq_iff_eq] at defined
      exact defined.1.symm
    have defined : definesIn (roundabout.take 6) (.ofRef (inheritedSize "B")) "A" = true := by
      decide
    obtain ⟨cls, found⟩ := Option.isSome_iff_exists.1 (List.find?_isSome.2 ⟨"A", passed, defined⟩)
    obtain rfl := only cls (List.find?_some found)
    rw [first_eq.trans found] at id_eq
    exact id_eq
  refine ⟨depthFirst, facts_eq.trans ?_⟩
  change [(⟨.storeInstanceField, ["m/put", "3", "m/v0", "m/v1",
      (history (roundabout.take 3)).state.resolvedId (.ofRef (inheritedSize "B")), "m"]⟩ : Fact),
    ⟨.storeInstanceField, ["m/put", "7", "m/v0", "m/v1",
      (history (roundabout.take 6)).state.resolvedId (.ofRef (inheritedSize "B")), "m"]⟩] = _
  rw [before, after]

end Hierarchy

end DalvikFacts
