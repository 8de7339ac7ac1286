import DalvikFacts.Proofs.Hierarchy.History

/-!
# Hierarchies as graphs

The super classes of a hierarchy can be kept as a graph: the classes get places in the order in
which they are entered, a table tells the place of a name, and links are added between places.
Nothing in such a graph rules out two links from one class, of which the later one would be read.
Registrations add a link only to a class that has none, so the super class of a class is the first
one that it was given, whatever else is registered, and a refused link leaves everything as it was.
-/

namespace DalvikFacts

/-- Classes with links to super classes, as a graph. -/
structure ClassGraph where
  /-- The names of the classes, in the order in which they were entered. -/
  names : Array String
  /-- The place of each class among the names. -/
  places : Std.HashMap String Nat
  /-- The links from the place of a class to that of a super class, the latest one first. -/
  links : List (Nat × Nat)
  places_iff : ∀ (name : String) (place : Nat),
    places[name]? = some place ↔ names[place]? = some name
  links_inside : ∀ link ∈ links, link.1 < names.size ∧ link.2 < names.size

namespace ClassGraph

/-- No class was entered. -/
def empty : ClassGraph where
  names := #[]
  places := {}
  links := []
  places_iff := by simp
  links_inside := by simp

/-- A graph in which a class has a place. -/
structure Entry (name : String) where
  graph : ClassGraph
  place : Nat
  named : graph.names[place]? = some name

/-- Adds a class that has no place yet behind the others. -/
def push (graph : ClassGraph) (name : String) (absent : graph.places[name]? = none) :
    ClassGraph where
  names := graph.names.push name
  places := graph.places.insert name graph.names.size
  links := graph.links
  places_iff other place := by
    have unnamed : ∀ earlier : Nat, graph.names[earlier]? ≠ some name := by
      intro earlier named
      rw [← graph.places_iff, absent] at named
      cases named
    rw [Std.HashMap.getElem?_insert, Array.getElem?_push]
    by_cases same : name = other
    · subst same
      by_cases last : place = graph.names.size <;> simp [last, unnamed, eq_comm]
    · rw [if_neg (by simpa using same), graph.places_iff]
      by_cases last : place = graph.names.size <;> simp [last, same]
  links_inside link member := by
    have inside := graph.links_inside link member
    rw [Array.size_push]
    omega

/-- Looks up the place of a class, which is added if it has none. -/
def enter (graph : ClassGraph) (name : String) : Entry name :=
  match place_eq : graph.places[name]? with
  | some place => ⟨graph, place, (graph.places_iff name place).1 place_eq⟩
  | none => ⟨graph.push name place_eq, graph.names.size, by simp [push]⟩

/-- Adds a link between two places. -/
def connect (graph : ClassGraph) (source target : Nat)
    (inside : source < graph.names.size ∧ target < graph.names.size) : ClassGraph where
  names := graph.names
  places := graph.places
  links := (source, target) :: graph.links
  places_iff := graph.places_iff
  links_inside := by simpa using ⟨inside, fun first second => graph.links_inside (first, second)⟩

/-- The places of the super classes of a place, that of the latest link first. -/
def above (graph : ClassGraph) (place : Nat) : List Nat :=
  (graph.links.filter fun link => link.1 == place).map Prod.snd

/-- The super class that is read at a place. -/
def superAt? (graph : ClassGraph) (place : Nat) : Option String :=
  (graph.above place).head?.bind fun target => graph.names[target]?

/-- The super class that is read for a class. -/
def superOf? (graph : ClassGraph) (cls : String) : Option String :=
  graph.places[cls]?.bind graph.superAt?

/-- A class has a link to a super class. -/
def HasLink (graph : ClassGraph) (cls superName : String) : Prop :=
  ∃ link ∈ graph.links, graph.names[link.1]? = some cls ∧ graph.names[link.2]? = some superName

/-- No class has more than one link. -/
def Single (graph : ClassGraph) : Prop :=
  (graph.links.map Prod.fst).Nodup

/-! ## Places -/

section Places

variable {graph : ClassGraph} {name other : String} {place : Nat}

theorem lt_size_of_named (named : graph.names[place]? = some name) :
    place < graph.names.size :=
  (Array.getElem?_eq_some_iff.1 named).1

theorem named_enter_iff (inside : place < graph.names.size) :
    (graph.enter name).graph.names[place]? = some other ↔ graph.names[place]? = some other := by
  rw [enter]
  split
  next => rfl
  next absent =>
    change (graph.names.push name)[place]? = _ ↔ _
    rw [Array.getElem?_push, if_neg (Nat.ne_of_lt inside)]

theorem named_enter (named : graph.names[place]? = some other) (name : String) :
    (graph.enter name).graph.names[place]? = some other :=
  (named_enter_iff (lt_size_of_named named)).2 named

@[simp]
theorem links_enter (graph : ClassGraph) (name : String) :
    (graph.enter name).graph.links = graph.links := by
  rw [enter]
  split <;> rfl

theorem enter_of_named (named : graph.names[place]? = some name) :
    (graph.enter name).graph = graph := by
  have known := (graph.places_iff name place).2 named
  rw [enter]
  split
  next => rfl
  next absent => rw [known] at absent; cases absent

end Places

/-- Registers the super class of a class; it cannot change any more. -/
def linkSuper (graph : ClassGraph) (cls superName : String) :
    Except ExtractionError Unit × ClassGraph :=
  let source := graph.enter cls
  match source.graph.superAt? source.place with
  | some previous =>
    if previous = superName then (.ok (), source.graph)
    else (.error (.superClassConflict cls previous superName), source.graph)
  | none =>
    let target := source.graph.enter superName
    have source_named := named_enter source.named superName
    (.ok (), target.graph.connect source.place target.place
      ⟨lt_size_of_named source_named, lt_size_of_named target.named⟩)

/-! ## Links -/

section Links

variable {graph : ClassGraph} {cls superName : String} {place target : Nat}

theorem mem_above_iff : target ∈ graph.above place ↔ (place, target) ∈ graph.links := by
  simp [above]

theorem hasLink_enter_iff (name : String) :
    (graph.enter name).graph.HasLink cls superName ↔ graph.HasLink cls superName := by
  rw [HasLink, HasLink, links_enter]
  apply exists_congr
  intro link
  apply and_congr_right
  intro member
  obtain ⟨source_inside, target_inside⟩ := graph.links_inside link member
  rw [named_enter_iff source_inside, named_enter_iff target_inside]

theorem hasLink_connect_iff {source : Nat} {other found : String}
    (inside : source < graph.names.size ∧ target < graph.names.size)
    (source_named : graph.names[source]? = some cls)
    (target_named : graph.names[target]? = some superName) :
    (graph.connect source target inside).HasLink other found ↔
      graph.HasLink other found ∨ cls = other ∧ superName = found := by
  refine (List.exists_mem_cons_iff ..).trans (or_comm.trans (or_congr_right ?_))
  change (graph.names[source]? = _ ∧ graph.names[target]? = _) ↔ _
  rw [source_named, target_named, Option.some.injEq, Option.some.injEq]

theorem Single.enter (single : graph.Single) (name : String) : (graph.enter name).graph.Single := by
  rwa [Single, links_enter]

theorem Single.head?_above_iff (single : graph.Single) :
    (graph.above place).head? = some target ↔ (place, target) ∈ graph.links := by
  constructor
  · intro head_eq
    exact mem_above_iff.1 (List.mem_of_head? head_eq)
  · intro member
    obtain ⟨first, first_eq⟩ : ∃ first, (graph.above place).head? = some first :=
      Option.isSome_iff_exists.1 (List.isSome_head?.2 (List.ne_nil_of_mem (mem_above_iff.2 member)))
    have first_member := mem_above_iff.1 (List.mem_of_head? first_eq)
    have same := List.inj_on_of_nodup_map single first_member member rfl
    cases same
    exact first_eq

theorem Single.superAt?_eq_some_iff (single : graph.Single)
    (named : graph.names[place]? = some cls) :
    graph.superAt? place = some superName ↔ graph.HasLink cls superName := by
  rw [superAt?, Option.bind_eq_some_iff]
  constructor
  · rintro ⟨target, head_eq, target_named⟩
    exact ⟨(place, target), single.head?_above_iff.1 head_eq, named, target_named⟩
  · rintro ⟨⟨source, target⟩, member, source_named, target_named⟩
    have source_eq : source = place := by
      have known := (graph.places_iff cls source).2 source_named
      rw [(graph.places_iff cls place).2 named] at known
      exact (Option.some.inj known).symm
    subst source_eq
    exact ⟨target, single.head?_above_iff.2 member, target_named⟩

theorem Single.superOf?_eq_some_iff (single : graph.Single) :
    graph.superOf? cls = some superName ↔ graph.HasLink cls superName := by
  rw [superOf?, Option.bind_eq_some_iff]
  constructor
  · rintro ⟨place, known, super_eq⟩
    exact (single.superAt?_eq_some_iff ((graph.places_iff cls place).1 known)).1 super_eq
  · intro linked
    obtain ⟨link, -, named, -⟩ := id linked
    exact ⟨link.1, (graph.places_iff cls link.1).2 named,
      (single.superAt?_eq_some_iff named).2 linked⟩

theorem notMem_sources (unread : graph.superAt? place = none) :
    place ∉ graph.links.map Prod.fst := by
  intro member
  obtain ⟨⟨source, target⟩, link_mem, rfl⟩ := List.mem_map.1 member
  have above_ne : graph.above source ≠ [] := List.ne_nil_of_mem (mem_above_iff.2 link_mem)
  obtain ⟨first, rest, above_eq⟩ := List.exists_cons_of_ne_nil above_ne
  have first_mem : (source, first) ∈ graph.links := mem_above_iff.1 (above_eq ▸ List.mem_cons_self)
  have inside := (graph.links_inside _ first_mem).2
  rw [superAt?, above_eq] at unread
  simp [Array.getElem?_eq_getElem inside] at unread

end Links

/-! ## Registrations -/

section LinkSuper

variable {graph : ClassGraph} {cls superName previous : String} (single : graph.Single)

include single

theorem linkSuper_of_linked (linked : graph.HasLink cls previous) :
    graph.linkSuper cls superName =
      (if previous = superName then .ok ()
        else .error (.superClassConflict cls previous superName), graph) := by
  obtain ⟨link, -, named, -⟩ := id linked
  have same := enter_of_named named
  have read : (graph.enter cls).graph.superAt? (graph.enter cls).place = some previous := by
    apply ((single.enter cls).superAt?_eq_some_iff (graph.enter cls).named).2
    exact (hasLink_enter_iff cls).2 linked
  rw [linkSuper, read]
  dsimp only
  rw [same]
  split <;> rfl

/-- A class without super class gets one, and no other class does. -/
theorem linkSuper_of_unlinked (unlinked : ∀ other, ¬ graph.HasLink cls other) :
    (graph.linkSuper cls superName).1 = .ok () ∧ (graph.linkSuper cls superName).2.Single ∧
      ∀ other found, (graph.linkSuper cls superName).2.HasLink other found ↔
        graph.HasLink other found ∨ cls = other ∧ superName = found := by
  have unread : (graph.enter cls).graph.superAt? (graph.enter cls).place = none := by
    rw [Option.eq_none_iff_forall_ne_some]
    intro found read
    apply unlinked found
    apply (hasLink_enter_iff cls).1
    exact ((single.enter cls).superAt?_eq_some_iff (graph.enter cls).named).1 read
  have fresh := notMem_sources unread
  rw [linkSuper, unread]
  refine ⟨rfl, ?_, fun other found => ?_⟩
  · change ((graph.enter cls).place ::
      ((graph.enter cls).graph.enter superName).graph.links.map Prod.fst).Nodup
    rw [links_enter]
    exact List.nodup_cons.2 ⟨fresh, single.enter cls⟩
  · have source_named := named_enter (graph.enter cls).named superName
    have target_named := ((graph.enter cls).graph.enter superName).named
    have inside := And.intro (lt_size_of_named source_named) (lt_size_of_named target_named)
    refine (hasLink_connect_iff inside source_named target_named).trans (or_congr_left ?_)
    exact (hasLink_enter_iff superName).trans (hasLink_enter_iff cls)

end LinkSuper

/-! ## Histories -/

open Hierarchy (Command linkIn?)

/-- Carries out a command, as far as it concerns the graph. -/
def perform (graph : ClassGraph) : Command → ClassGraph
  | .linkSuper cls superName => (graph.linkSuper cls superName).2
  | .defineFields cls _ => (graph.enter cls).graph
  | _ => graph

/-- The graph after some commands. -/
def history (commands : List Command) : ClassGraph :=
  commands.foldl perform empty

theorem history_concat (commands : List Command) (command : Command) :
    history (commands ++ [command]) = (history commands).perform command :=
  List.foldl_concat ..

/-- A graph has the links that some commands have told it first. -/
structure Follows (graph : ClassGraph) (commands : List Command) : Prop where
  single : graph.Single
  links : ∀ cls superName, graph.HasLink cls superName ↔ linkIn? commands cls = some superName

theorem follows_empty : empty.Follows [] where
  single := List.nodup_nil
  links cls superName := by simp [HasLink, empty, linkIn?]

namespace Follows

variable {graph : ClassGraph} {commands : List Command} (follows : graph.Follows commands)

include follows

theorem superOf?_eq (cls : String) : graph.superOf? cls = linkIn? commands cls := by
  apply Option.ext
  intro superName
  rw [follows.single.superOf?_eq_some_iff, follows.links]

theorem of_unlinking {next : ClassGraph} {command : Command} (single : next.Single)
    (links : ∀ cls superName, next.HasLink cls superName ↔ graph.HasLink cls superName)
    (unlinking : ∀ cls, command.link? cls = none) : next.Follows (commands ++ [command]) where
  single := single
  links cls superName := by
    rw [links, follows.links, Hierarchy.linkIn?_concat, unlinking, Option.or_none]

/-- A graph follows its commands after one more. -/
theorem perform (command : Command) : (graph.perform command).Follows (commands ++ [command]) := by
  cases command with
  | linkSuper cls superName =>
    cases known : linkIn? commands cls with
    | some previous =>
      have linked := (follows.links cls previous).2 known
      rw [ClassGraph.perform, linkSuper_of_linked follows.single linked]
      refine ⟨follows.single, fun other found => ?_⟩
      rw [follows.links, Hierarchy.linkIn?_concat]
      by_cases same : cls = other
      · rw [← same, known, Option.some_or]
      · rw [Command.link?, if_neg same, Option.or_none]
    | none =>
      have unlinked : ∀ other, ¬ graph.HasLink cls other := by
        intro other linked
        rw [follows.links, known] at linked
        cases linked
      obtain ⟨-, single, links⟩ := linkSuper_of_unlinked follows.single unlinked
      refine ⟨single, fun other found => (links other found).trans ?_⟩
      rw [follows.links, Hierarchy.linkIn?_concat]
      by_cases same : cls = other
      · subst same
        simp [known, Command.link?]
      · simp [same, Command.link?]
  | defineFields cls fields =>
    exact follows.of_unlinking (follows.single.enter cls) (fun _ _ => hasLink_enter_iff cls)
      fun _ => rfl
  | _ => exact follows.of_unlinking follows.single (fun _ _ => Iff.rfl) fun _ => rfl

end Follows

theorem follows_history (commands : List Command) : (history commands).Follows commands := by
  induction commands using List.reverseRecOn with
  | nil => exact follows_empty
  | append_singleton commands command induction =>
    rw [history_concat]
    exact induction.perform command

section Answers

variable {graph : ClassGraph} {commands : List Command} {cls first : String}
  (follows : graph.Follows commands)

include follows

theorem Follows.linkSuper_of_linked (linked : linkIn? commands cls = some first)
    (superName : String) :
    graph.linkSuper cls superName =
      (if first = superName then .ok () else .error (.superClassConflict cls first superName),
        graph) :=
  ClassGraph.linkSuper_of_linked follows.single ((follows.links cls first).2 linked)

theorem Follows.linkSuper_of_unlinked (unlinked : linkIn? commands cls = none)
    (superName : String) : (graph.linkSuper cls superName).1 = .ok () := by
  apply And.left
  apply ClassGraph.linkSuper_of_unlinked follows.single
  intro other linked
  rw [follows.links, unlinked] at linked
  cases linked

end Answers

end ClassGraph

namespace Hierarchy

section Answers

variable {hierarchy : Hierarchy} {cls first : String}

theorem run_perform_linkSuper (linked : hierarchy.superOf? cls = some first)
    (superName : String) :
    (Command.linkSuper cls superName).perform.run hierarchy = ⟨(), hierarchy, []⟩ := by
  rw [Command.perform, Emit.run_bind, Emit.run_get, linkSuper_of_superOf? linked]
  by_cases same : first = superName <;> simp [same]

end Answers

/-- Single inheritance.  Whatever the commands were, no class has more than one link to a super
class, in the graph with its table of names as in the registry: the super class of a class is the
one that the first link of the class has given to it.  The first link of a class succeeds.  From
then on the super class stays, whatever follows; the same link again succeeds, a link to another
super class is refused and names the class, its super class and the other one, and neither changes
anything. -/
theorem single_inheritance (commands : List Command) (cls : String) :
    let registry := (history commands).state
    let graph := ClassGraph.history commands
    (graph.Single ∧
      (∀ superName, graph.HasLink cls superName ↔ linkIn? commands cls = some superName) ∧
      graph.superOf? cls = linkIn? commands cls ∧ registry.superOf? cls = linkIn? commands cls) ∧
    (linkIn? commands cls = none → ∀ superName,
      (graph.linkSuper cls superName).1 = .ok () ∧
      ∃ linked, registry.linkSuper cls superName = .ok linked) ∧
    ∀ first, linkIn? commands cls = some first →
      (∀ later, (ClassGraph.history (commands ++ later)).superOf? cls = some first ∧
        (history (commands ++ later)).state.superOf? cls = some first) ∧
      (graph.linkSuper cls first = (.ok (), graph) ∧
        registry.linkSuper cls first = .ok registry) ∧
      (∀ other, other ≠ first →
        graph.linkSuper cls other = (.error (.superClassConflict cls first other), graph) ∧
        registry.linkSuper cls other = .error (.superClassConflict cls first other)) ∧
      ∀ superName, ClassGraph.history (commands ++ [.linkSuper cls superName]) = graph ∧
        history (commands ++ [.linkSuper cls superName]) = history commands := by
  intro registry graph
  have follows := ClassGraph.follows_history commands
  have super_eq : registry.superOf? cls = linkIn? commands cls :=
    (holds_history commands).supers cls
  refine ⟨⟨follows.single, follows.links cls, follows.superOf?_eq cls, super_eq⟩, ?_, ?_⟩
  · intro unlinked superName
    refine ⟨follows.linkSuper_of_unlinked unlinked superName, ?_⟩
    exact ⟨_, linkSuper_of_new (super_eq.trans unlinked) superName⟩
  · intro first linked
    have graph_answers := follows.linkSuper_of_linked linked
    have registry_answers := linkSuper_of_superOf? (super_eq.trans linked)
    refine ⟨fun later => ?_, ?_, fun other differs => ?_, fun superName => ?_⟩
    · have kept : linkIn? (commands ++ later) cls = some first := by
        rw [linkIn?_append, linked, Option.some_or]
      rw [(ClassGraph.follows_history _).superOf?_eq, (holds_history _).supers, kept]
      exact ⟨rfl, rfl⟩
    · rw [graph_answers, registry_answers, if_pos rfl, if_pos rfl]
      exact ⟨rfl, rfl⟩
    · rw [graph_answers, registry_answers, if_neg differs.symm, if_neg differs.symm]
      exact ⟨rfl, rfl⟩
    · rw [ClassGraph.history_concat, ClassGraph.perform, graph_answers, history_concat,
        run_perform_linkSuper (super_eq.trans linked)]
      dsimp only
      rw [List.append_nil]
      exact ⟨rfl, rfl⟩

/-- Two classes that are each other's super class, and one that is its own. -/
def loops : List Command :=
  [.linkSuper "B" "A", .linkSuper "A" "B", .defineFields "C" [], .linkSuper "C" "C"]

/-- A class that was first known as a super class has one of its own, which stays. -/
theorem single_inheritance_loops :
    linkIn? loops "A" = some "B" ∧ linkIn? loops "D" = none ∧ "C" ≠ "B" ∧
    (history loops).state.linkSuper "A" "C" = .error (.superClassConflict "A" "B" "C") ∧
    (ClassGraph.history loops).linkSuper "A" "C" =
      (.error (.superClassConflict "A" "B" "C"), ClassGraph.history loops) ∧
    ((ClassGraph.history loops).linkSuper "D" "A").1 = .ok () := by
  have linked : linkIn? loops "A" = some "B" := rfl
  have unlinked : linkIn? loops "D" = none := rfl
  have differs : "C" ≠ "B" := by decide
  obtain ⟨-, -, refused⟩ := single_inheritance loops "A"
  obtain ⟨-, accepted, -⟩ := single_inheritance loops "D"
  obtain ⟨-, -, conflicts, -⟩ := refused "B" linked
  obtain ⟨graph_eq, registry_eq⟩ := conflicts "C" differs
  exact ⟨linked, unlinked, differs, registry_eq, graph_eq, (accepted unlinked "A").1⟩

end Hierarchy

end DalvikFacts
