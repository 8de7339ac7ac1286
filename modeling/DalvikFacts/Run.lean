import DalvikFacts.Class.Extract
import DalvikFacts.Hierarchy

/-!
# Runs

A run extracts the facts of containers.  The classes of a container are taken in groups, each by a
worker; every class is reported to the hierarchy, which outlives the run.  The workers share the
signatures of the container, the hierarchy and the counters, and a schedule tells how their steps
are interleaved.  At the end the facts that depend on the hierarchy are written.
-/

namespace DalvikFacts

/-- What a run counts on its way. -/
structure Totals where
  classes : Nat
  methods : Nat
  instructions : Nat
  failures : Nat
  deriving DecidableEq

/-- The statistics of a run. -/
structure Stats where
  containers : Nat
  totals : Totals
  phantoms : PhantomCounts
  deriving DecidableEq

/-- The state of a run. -/
structure RunState where
  hierarchy : Hierarchy
  totals : Totals
  /-- The number of groups that failed. -/
  errors : Nat

/-- An action of a run. -/
abbrev RunEmit := Emit RunState

/-- What the workers on a container share: the signatures looked up, and the state of the run. -/
structure WorkState where
  cache : SignatureCache
  run : RunState

/-- What a worker does, in atomic steps. -/
abbrev Work := Script (Emit WorkState)

/-- The turns of the workers on each container. -/
abbrev Schedule := List (List Nat)

namespace Totals

/-- Nothing is counted. -/
def zero : Totals := ⟨0, 0, 0, 0⟩

/-- Counts a class. -/
def addClass (totals : Totals) : Totals :=
  { totals with classes := totals.classes + 1 }

/-- Counts methods. -/
def addMethods (totals : Totals) (count : Nat) : Totals :=
  { totals with methods := totals.methods + count }

/-- Counts instructions. -/
def addInstructions (totals : Totals) (count : Nat) : Totals :=
  { totals with instructions := totals.instructions + count }

/-- Counts failures. -/
def addFailures (totals : Totals) (count : Nat) : Totals :=
  { totals with failures := totals.failures + count }

end Totals

namespace Work

/-- A step on the signatures of the container. -/
def onCache {α : Type} (action : Emit SignatureCache α) : Emit WorkState α :=
  ⟨fun ⟨cache, run⟩ =>
    let inner := action.run cache
    ⟨inner.value, ⟨inner.state, run⟩, inner.events⟩⟩

/-- A step on the hierarchy. -/
def onHierarchy {α : Type} (action : StateM Hierarchy α) : Work α :=
  .atom ⟨fun ⟨cache, hierarchy, totals, errors⟩ =>
    let (value, hierarchy) := action.run hierarchy
    ⟨value, ⟨cache, hierarchy, totals, errors⟩, []⟩⟩

/-- A change of the hierarchy, in one step. -/
def register (change : Hierarchy → Hierarchy) : Work Unit :=
  onHierarchy (modify change)

/-- A change of the counters, in one step. -/
def count (change : Totals → Totals) : Work Unit :=
  .atom ⟨fun ⟨cache, hierarchy, totals, errors⟩ =>
    ⟨(), ⟨cache, hierarchy, change totals, errors⟩, []⟩⟩

/-- Emits a notice. -/
def notice (notice : Notice) : Work Unit :=
  Script.emit [.notice notice]

/-- Counts a group that failed. -/
def countError : Work Unit :=
  .atom ⟨fun ⟨cache, hierarchy, totals, errors⟩ =>
    ⟨(), ⟨cache, hierarchy, totals, errors + 1⟩, []⟩⟩

/-- Does an extraction on the signatures of the container. -/
def ofExtract {α : Type} (action : Extract α) : ExceptT ExtractionError Work α :=
  ExceptT.mk (action.run.hoist fun _ => onCache)

end Work

namespace Hierarchy

/-- Looks up the field at a position, and registers the reference to it. -/
def lookUpField (known : Hierarchy × SignatureCache) (entry : FieldRef × Nat) :
    Hierarchy × SignatureCache :=
  let found := known.2.ofField entry.2 entry.1
  (known.1.referField found.1.value, found.2)

/-- Looks up a method, and registers the reference to it. -/
def lookUpMethod (known : Hierarchy × SignatureCache) (ref : MethodRef) :
    Hierarchy × SignatureCache :=
  let found := known.2.ofMethod ref
  (known.1.referMethod found.1.value.id, found.2)

/-- Registers all references of the tables of a container; their signatures are looked up. -/
def reportReferences (hierarchy : Hierarchy) (container : Container) (cache : SignatureCache) :
    Hierarchy × SignatureCache :=
  let (hierarchy, cache) := container.fields.toList.zipIdx.foldl lookUpField (hierarchy, cache)
  let hierarchy := container.types.toList.foldl referType hierarchy
  container.methods.toList.foldl lookUpMethod (hierarchy, cache)

end Hierarchy

namespace Run

/-- Counts an extracted class. -/
def countClass (cls : ExtractedClass) : Work Unit := do
  Work.count Totals.addClass
  Work.count (·.addMethods cls.methods)
  Work.count (·.addInstructions cls.instructions)
  Work.count (·.addFailures cls.failures)

/-- Registers the super class of a class. -/
def reportSuperClass (cls superName : String) : ExceptT ExtractionError Work Unit :=
  ExceptT.mk <| Work.onHierarchy fun hierarchy =>
    match hierarchy.linkSuper cls superName with
    | .ok linked => (.ok (), linked)
    | .error error => (.error error, hierarchy)

/-- Reports an extracted class to the hierarchy.  A second super class is refused, after the methods
and field accesses of the class are registered and before its fields are. -/
def report (cls : ExtractedClass) : ExceptT ExtractionError Work Unit := do
  Work.register (·.defineMethods cls.definedMethods)
  Work.register (·.queueAccesses cls.accesses)
  match cls.superClass with
  | none => pure ()
  | some superName => reportSuperClass cls.name superName
  Work.register (·.defineFields cls.name cls.definedFields)

/-- Extracts a class and reports it to the hierarchy. -/
def extractClass (options : Options) (container : Container) (cls : ClassDef) :
    ExceptT ExtractionError Work Unit := do
  let extracted ← Work.ofExtract (cls.extract options container)
  countClass extracted
  report extracted

/-- Extracts the classes of a group.  A failing class is reported and left out, or ends the group
when failures are to stop it. -/
def extractGroup (options : Options) (container : Container) :
    List ClassDef → ExceptT ExtractionError Work Unit
  | [] => return ()
  | cls :: rest => do
    match ← Script.attempt (extractClass options container cls) with
    | .ok () => extractGroup options container rest
    | .error error =>
      if options.failFast then throw error
      else
        Work.notice (.classSkipped cls.name error)
        Work.count (·.addFailures 1)
        extractGroup options container rest

/-- The worker on a group of classes, who counts it when it fails. -/
def worker (options : Options) (container : Container) (group : List ClassDef) : Work Unit := do
  match ← (extractGroup options container group).run with
  | .ok () => return ()
  | .error error =>
    Work.notice (.groupFailed error)
    Work.countError

/-- Cuts a list into pieces of the given size, of which the last one may be shorter. -/
def groupsOf {α : Type} (size : Nat) (items : List α) : List (List α) :=
  match items with
  | [] => []
  | item :: rest => (item :: rest.take (size - 1)) :: groupsOf size (rest.drop (size - 1))
termination_by items.length
decreasing_by simp only [List.length_drop, List.length_cons]; omega

/-- The classes of a container that are extracted. -/
def accepted (options : Options) (container : Container) : List ClassDef :=
  container.classes.filter fun cls => options.accepts cls.name

/-- Extracts the classes of a container with one worker a group, and returns the signatures looked
up. -/
def extractClasses (options : Options) (container : Container) (turns : List Nat) :
    RunEmit SignatureCache := ⟨fun state =>
  let groups := groupsOf options.groupSize (accepted options container)
  let workers := groups.map (worker options container)
  let outcome := (Script.interleave turns workers).run ⟨.empty, state⟩
  ⟨outcome.state.cache, outcome.state.run, outcome.events⟩⟩

/-- Extracts a container. -/
def extractContainer (options : Options) (container : Container) (turns : List Nat) :
    RunEmit Unit := do
  Emit.notice (.containerStarted container.name container.classes.length)
  let cache ← extractClasses options container turns
  let cache ← modifyGet fun state =>
    let (hierarchy, cache) := state.hierarchy.reportReferences container cache
    (cache, { state with hierarchy })
  if !container.methodHandles.isEmpty then
    Emit.notice (.methodHandles container.name container.methodHandles.size)
  Emit.notice (.signatures cache.size)

/-- Extracts containers one after the other, and returns their number.  When failures are to stop
the run, the containers behind the first failing one are left out. -/
def extractContainers (options : Options) : Schedule → List Container → RunEmit Nat
  | _, [] => return 0
  | schedule, container :: rest => do
    if options.failFast && 0 < (← get).errors then
      Emit.notice (.containerSkipped container.name)
      extractContainers options schedule.tail rest
    else
      extractContainer options container (schedule.headD [])
      return (← extractContainers options schedule.tail rest) + 1

/-- Emits the facts that depend on the hierarchy, and tells what the run came to. -/
def finish (options : Options) (count : Nat) : RunEmit (Except ExtractionError Stats) := do
  let phantoms ← Emit.zoom RunState.hierarchy (fun hierarchy state => { state with hierarchy })
    (Hierarchy.conclude options.phantoms)
  let state ← get
  let totals := state.totals
  Emit.notice (.totals totals.classes totals.methods totals.instructions)
  if 0 < state.errors then return .error (.failed state.errors)
  if 0 < totals.failures then Emit.notice (.failuresSkipped totals.failures)
  return .ok { containers := count, totals, phantoms }

/-- Emits all facts of containers, the workers taking turns by a schedule. -/
def runUnder (schedule : Schedule) (options : Options) (containers : List Container) :
    Emit Hierarchy (Except ExtractionError Stats) := ⟨fun hierarchy =>
  let body : RunEmit (Except ExtractionError Stats) := do
    let count ← extractContainers options schedule containers
    finish options count
  let outcome := body.run ⟨hierarchy, .zero, 0⟩
  ⟨outcome.value, outcome.state.hierarchy, outcome.events⟩⟩

/-- Emits all facts of containers, one group of classes after the other. -/
def run (options : Options) (containers : List Container) :
    Emit Hierarchy (Except ExtractionError Stats) :=
  runUnder [] options containers

end Run
end DalvikFacts
