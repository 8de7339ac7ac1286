import DalvikFacts.Proofs.Method.Decoding

/-!
# Queued edges

The edges that a run through instructions queues.  A branch queues one edge without key; a switch
payload queues edges with keys, in relations of their own; other instructions queue nothing.
-/

namespace DalvikFacts

/-- A branch: the relation of its rows, the kind of its identifier, and its offset. -/
structure Branch where
  relation : Relation
  kind : String
  offset : Int
  deriving DecidableEq

/-- An instruction read as a branch. -/
def Instr.branch? : Instr → Option Branch
  | goto _ offset => some ⟨.goto, "goto", offset⟩
  | branch _ _ _ offset | branchZero _ _ offset => some ⟨.branch, "if", offset⟩
  | _ => none

/-- The edge of a branch. -/
def LocatedInstr.branchEdge? (method : String) (here : LocatedInstr) : Option Edge :=
  here.instr.branch?.map fun branch =>
    { relation := branch.relation, insn := Identifier.instruction method branch.kind here.index,
      index := here.index, key := none, target := Address.offset? here.address branch.offset }

/-- Edges without key are those of branches; the cases of switches have relations of their own. -/
def Edge.WellFormed (edge : Edge) : Prop :=
  match edge.key with
  | none => edge.relation = .goto ∨ edge.relation = .branch
  | some _ => edge.relation = .tableSwitchTarget ∨ edge.relation = .lookupSwitchTarget

/-- The relations of edges. -/
def edgeRelations : List Relation :=
  [.goto, .branch, .tableSwitchTarget, .lookupSwitchTarget]

/-- The relations of the rows that wait for the end of a body. -/
def lateRelations : List Relation :=
  .dexInstructionAddressMap :: edgeRelations

theorem Edge.WellFormed.relation_mem {edge : Edge} (wellFormed : edge.WellFormed) :
    edge.relation ∈ edgeRelations := by
  unfold WellFormed at wellFormed
  split at wellFormed <;> rcases wellFormed with relation_eq | relation_eq <;>
    simp [edgeRelations, relation_eq]

theorem AddressMap.relation_mem_of_edgeEvent {map : AddressMap} {method : String} {edge : Edge}
    (wellFormed : edge.WellFormed) {fact : Fact}
    (event_eq : map.edgeEvent method edge = .fact fact) : fact.relation ∈ edgeRelations := by
  unfold AddressMap.edgeEvent at event_eq
  split at event_eq <;> cases event_eq
  exact wellFormed.relation_mem

/-- An address map with well-formed edges writes to the relations that wait for the end. -/
theorem AddressMap.relation_mem_of_write {map : AddressMap} {method : String}
    (wellFormed : ∀ edge ∈ map.edges.toList, edge.WellFormed) {fact : Fact}
    (member : .fact fact ∈ ((map.write method : Emit Unit Unit).run ()).events) :
    fact.relation ∈ lateRelations := by
  rw [AddressMap.run_write] at member
  rcases List.mem_append.1 member with member | member
  · obtain ⟨entry, -, fact_eq⟩ := List.mem_map.1 member
    cases fact_eq
    exact List.mem_cons_self
  · obtain ⟨edge, edge_mem, event_eq⟩ := List.mem_map.1 member
    exact List.mem_cons_of_mem _ (relation_mem_of_edgeEvent (wellFormed edge edge_mem) event_eq)

theorem Edge.WellFormed.relation_ne {edge : Edge} (wellFormed : edge.WellFormed)
    (keyed : edge.key.isNone = false) {relation : Relation}
    (of_branches : relation = .goto ∨ relation = .branch) : edge.relation ≠ relation := by
  unfold WellFormed at wellFormed
  split at wellFormed
  next key_eq => simp [key_eq] at keyed
  next => rcases wellFormed with relation_eq | relation_eq <;>
    rcases of_branches with rfl | rfl <;> simp [relation_eq]

theorem Instr.branch?_relation {instr : Instr} {branch : Branch}
    (found : instr.branch? = some branch) :
    branch.relation = .goto ∨ branch.relation = .branch := by
  unfold branch? at found
  split at found <;> cases found <;> simp

theorem LocatedInstr.branchEdge?_of_branch {method : String} {here : LocatedInstr}
    {branch : Branch} (branch_eq : here.instr.branch? = some branch) :
    here.branchEdge? method = some
      { relation := branch.relation, insn := Identifier.instruction method branch.kind here.index,
        index := here.index, key := none, target := MethodContext.branchTarget? here } := by
  have offset_eq : here.instr.targetOffset? = some branch.offset := by
    unfold Instr.branch? at branch_eq
    split at branch_eq <;> cases branch_eq <;> simp [Instr.targetOffset?, *]
  rw [branchEdge?, branch_eq, MethodContext.branchTarget?, offset_eq]
  rfl

theorem LocatedInstr.branchEdge?_wellFormed {method : String} {here : LocatedInstr} {edge : Edge}
    (found : here.branchEdge? method = some edge) : edge.WellFormed := by
  obtain ⟨branch, branch_eq, rfl⟩ := Option.map_eq_some_iff.1 found
  exact Instr.branch?_relation branch_eq

namespace MethodContext

/-- The edges queued by an instruction: those without key are that of the branch, if it is one. -/
structure Queues (cx : MethodContext) (instrs : List LocatedInstr) (queued : List Edge) : Prop where
  branches : queued.filter (·.key.isNone) = instrs.filterMap (·.branchEdge? cx.id)
  wellFormed : ∀ edge ∈ queued, edge.WellFormed

variable {cx : MethodContext} {here : LocatedInstr}

theorem Queues.append {instrs rest : List LocatedInstr} {queued others : List Edge}
    (first : cx.Queues instrs queued) (second : cx.Queues rest others) :
    cx.Queues (instrs ++ rest) (queued ++ others) where
  branches := by rw [List.filter_append, List.filterMap_append, first.branches, second.branches]
  wellFormed edge member :=
    (List.mem_append.1 member).elim (first.wellFormed edge) (second.wellFormed edge)

theorem queues_of_branch {edge : Edge} (found : here.branchEdge? cx.id = some edge) :
    cx.Queues [here] [edge] where
  branches := by
    obtain ⟨branch, -, rfl⟩ := Option.map_eq_some_iff.1 found
    simp [found]
  wellFormed other member := by
    rw [List.mem_singleton.1 member]
    exact LocatedInstr.branchEdge?_wellFormed found

theorem queues_of_cases (none_eq : here.instr.branch? = none) (kind : SwitchKind)
    (cases : List (Int × Int)) (uses : List SwitchUse) :
    cx.Queues [here] (uses.flatMap (cx.caseEdges kind cases)) where
  branches := by
    have keyed : (uses.flatMap (cx.caseEdges kind cases)).filter (·.key.isNone) = [] := by
      rw [List.filter_eq_nil_iff]
      intro edge member
      obtain ⟨use, -, edge_mem⟩ := List.mem_flatMap.1 member
      obtain ⟨⟨key, offset⟩, -, rfl⟩ := List.mem_map.1 edge_mem
      simp
    simp [keyed, LocatedInstr.branchEdge?, none_eq]
  wellFormed edge member := by
    obtain ⟨use, -, edge_mem⟩ := List.mem_flatMap.1 member
    obtain ⟨⟨key, offset⟩, -, rfl⟩ := List.mem_map.1 edge_mem
    cases kind
    · exact .inl rfl
    · exact .inr rfl

theorem queues_of_none (none_eq : here.instr.branch? = none) : cx.Queues [here] [] where
  branches := by simp [LocatedInstr.branchEdge?, none_eq]
  wellFormed _ member := by simp at member

theorem edges_queueBranch (relation : Relation) (insn : String) (state : MethodState) :
    ((queueBranch here relation insn).run state).state.addresses.edges =
      state.addresses.edges.push
        { relation, insn, index := here.index, key := none, target := branchTarget? here } :=
  rfl

theorem edges_writeBranch (test : TestOp) (left : Reg) (right : Option Reg) (state : MethodState) :
    ((cx.writeBranch here test left right).run state).state.addresses.edges =
      ((queueBranch here .branch (cx.insn "if" here.index)).run state).state.addresses.edges :=
  (footprint_writeTest cx _ test left right (List.mem_singleton_self _)).frame _ .edges (by simp)

theorem edges_writeSwitchPayload (kind : SwitchKind) (cases : List (Int × Int))
    (state : MethodState) :
    ((cx.writeSwitchPayload here kind cases).run state).state.addresses.edges.toList =
      state.addresses.edges.toList ++
        (state.switches.waitingAt here.address).flatMap (cx.caseEdges kind cases) := by
  have queued : ∀ state : MethodState, ∀ edges,
      ((modify (·.withAddresses (·.queueAll edges)) : MethodEmit Unit).run
          state).state.addresses.edges.toList = state.addresses.edges.toList ++ edges :=
    fun _ _ => Array.toList_appendList
  unfold writeSwitchPayload
  rw [Emit.run_bind, Emit.run_bind]
  dsimp only
  split
  · rw [Emit.run_bind]
    exact queued _ _
  · exact queued _ _

/-- The edges that a planned action queues are those of its instruction. -/
theorem Planned.queues {result : Option PendingResult} {action : MethodEmit Unit}
    (planned : cx.Planned here result action) (state : MethodState) :
    ∃ queued, (action.run state).state.addresses.edges.toList =
        state.addresses.edges.toList ++ queued ∧
      cx.Queues [here] queued := by
  by_cases touched : .edges ∈ here.instr.parts
  · -- an instruction of one branch queues the edge of that branch
    have queues_one : ∀ branch, here.instr.branch? = some branch →
        (action.run state).state.addresses.edges = ((queueBranch here branch.relation
          (cx.insn branch.kind here.index)).run state).state.addresses.edges →
        ∃ queued, (action.run state).state.addresses.edges.toList =
            state.addresses.edges.toList ++ queued ∧ cx.Queues [here] queued := by
      intro branch branch_eq pushed
      refine ⟨_, ?_, queues_of_branch (LocatedInstr.branchEdge?_of_branch branch_eq)⟩
      rw [pushed, edges_queueBranch, Array.toList_push]
      rfl
    unfold Planned at planned
    cases instr_eq : here.instr with
    | goto form offset =>
      simp only [instr_eq] at planned
      subst planned
      exact queues_one ⟨.goto, "goto", offset⟩ (by rw [instr_eq]; rfl) rfl
    | branch test left right offset =>
      simp only [instr_eq] at planned
      subst planned
      exact queues_one ⟨.branch, "if", offset⟩ (by rw [instr_eq]; rfl)
        (edges_writeBranch test left (some right) state)
    | branchZero test left offset =>
      simp only [instr_eq] at planned
      subst planned
      exact queues_one ⟨.branch, "if", offset⟩ (by rw [instr_eq]; rfl)
        (edges_writeBranch test left none state)
    | packedSwitchPayload firstKey targets =>
      simp only [instr_eq] at planned
      subst planned
      exact ⟨_, edges_writeSwitchPayload .packed _ state,
        queues_of_cases (by rw [instr_eq]; rfl) .packed _ _⟩
    | sparseSwitchPayload keys targets =>
      simp only [instr_eq] at planned
      subst planned
      exact ⟨_, edges_writeSwitchPayload .sparse _ state,
        queues_of_cases (by rw [instr_eq]; rfl) .sparse _ _⟩
    | _ => simp [instr_eq, Instr.parts] at touched
  · refine ⟨[], ?_, queues_of_none ?_⟩
    · rw [List.append_nil, planned.footprint.frame state .edges touched]
    · generalize here.instr = instr at touched ⊢
      cases instr <;> first | rfl | simp [Instr.parts] at touched

/-- A run through instructions queues their edges behind the others, in the order of the
instructions. -/
theorem Decodes.queues {instrs : List LocatedInstr} {state final : MethodState}
    {events : List Event} (run : cx.Decodes instrs state events final) :
    ∃ queued, final.addresses.edges.toList = state.addresses.edges.toList ++ queued ∧
      cx.Queues instrs queued := by
  induction run with
  | nil => exact ⟨[], by simp, ⟨rfl, by simp⟩⟩
  | @cons here rest state final events action planned later induction =>
    obtain ⟨queued, first_eq, first⟩ := planned.queues (state.reach here.address here.index)
    obtain ⟨others, rest_eq, second⟩ := induction
    refine ⟨queued ++ others, ?_, first.append second⟩
    rw [rest_eq, first_eq, List.append_assoc]
    rfl

theorem Decodes.queues_entry {instrs : List LocatedInstr} {events : List Event}
    {final : MethodState} (run : cx.Decodes instrs cx.entryState events final) :
    cx.Queues instrs final.addresses.edges.toList := by
  obtain ⟨queued, edges_eq, queues⟩ := run.queues
  have entry_eq : cx.entryState.addresses.edges = #[] := cx.entryState_same .edges (by simp)
  rw [edges_eq, entry_eq]
  exact queues

end MethodContext

end DalvikFacts
