import DalvikFacts.Proofs.Run.Ledger

/-!
# Pools of workers

A worker leaves a ledger when each of its steps adds a part of it to whatever the workers before
have left, and the whole is the same however the others go on in between.  Then a pool leaves the
sum of the ledgers of its workers, whatever turns they take.
-/

namespace DalvikFacts

namespace Script

variable {σ α β : Type} {holds : Ledger → σ → Prop} {good : α → Prop} {mid : β → Prop}

/-- Whatever others do between the steps, the script comes to a good value and leaves the ledger. -/
def Leaves (holds : Ledger → σ → Prop) (good : α → Prop) : Script (Emit σ) α → Ledger → Prop
  | done value, ledger => good value ∧ ledger = 0
  | step action next, ledger => ∀ before state, holds before state →
    ∃ now later, ledger = now + later ∧ holds (before + now) (action.run state).state ∧
      now.facts = factsOf (action.run state).events ∧
      (next (action.run state).value).Leaves holds good later

namespace Leaves

variable {ledger others : Ledger}

theorem pure {value : α} (holds_value : good value) :
    (Pure.pure value : Script (Emit σ) α).Leaves holds good 0 :=
  ⟨holds_value, rfl⟩

theorem bind {script : Script (Emit σ) β} {next : β → Script (Emit σ) α}
    (first : script.Leaves holds mid ledger)
    (rest : ∀ value, mid value → (next value).Leaves holds good others) :
    (script >>= next).Leaves holds good (ledger + others) := by
  induction script generalizing ledger with
  | done value =>
    obtain ⟨holds_value, rfl⟩ := first
    rw [zero_add]
    exact rest value holds_value
  | step action follow induction =>
    intro before state holds_before
    obtain ⟨now, later, rfl, holds_now, facts_eq, leaves⟩ := first before state holds_before
    exact ⟨now, later + others, add_assoc .., holds_now, facts_eq, induction _ leaves⟩

theorem atom {action : Emit σ α}
    (adds : ∀ before state, holds before state → good (action.run state).value ∧
      holds (before + ledger) (action.run state).state ∧
      ledger.facts = factsOf (action.run state).events) :
    (Script.atom action).Leaves holds good ledger := by
  intro before state holds_before
  obtain ⟨holds_value, holds_now, facts_eq⟩ := adds before state holds_before
  exact ⟨ledger, 0, (add_zero ledger).symm, holds_now, facts_eq, holds_value, rfl⟩

/-- Nobody interrupting it, a script leaves its ledger. -/
theorem perform {script : Script (Emit σ) α} (leaves : script.Leaves holds good ledger)
    {before : Ledger} {state : σ} (holds_before : holds before state) :
    good (script.perform state).value ∧
      holds (before + ledger) (script.perform state).state ∧
      ledger.facts = factsOf (script.perform state).events := by
  induction script generalizing ledger before state with
  | done value =>
    obtain ⟨holds_value, rfl⟩ := leaves
    rw [add_zero]
    exact ⟨holds_value, holds_before, rfl⟩
  | step action next induction =>
    obtain ⟨now, later, rfl, holds_now, facts_eq, rest⟩ := leaves before state holds_before
    obtain ⟨holds_value, holds_last, rest_eq⟩ := induction _ rest holds_now
    rw [perform_step]
    refine ⟨holds_value, ?_, ?_⟩
    · rw [← add_assoc]
      exact holds_last
    · rw [Ledger.facts_add, facts_eq, rest_eq, factsOf_append, Multiset.coe_add]

end Leaves

/-- What a pool of workers leaves, each with the ledger that it leaves. -/
def poolLedger (pool : List (Script (Emit σ) Unit × Ledger)) : Ledger :=
  (pool.map Prod.snd).sum

theorem poolLedger_split (front back : List (Script (Emit σ) Unit × Ledger))
    (worker : Script (Emit σ) Unit × Ledger) :
    poolLedger (front ++ worker :: back) = worker.2 + poolLedger (front ++ back) := by
  simp only [poolLedger, List.map_append, List.map_cons, List.sum_append, List.sum_cons]
  rw [add_left_comm]

theorem exists_split {pool : List (Script (Emit σ) Unit × Ledger)} {turn : Nat}
    {script : Script (Emit σ) Unit} (found : (pool.map Prod.fst)[turn]? = some script) :
    ∃ front ledger back, pool = front ++ (script, ledger) :: back ∧ front.length = turn := by
  rw [List.getElem?_map, Option.map_eq_some_iff] at found
  obtain ⟨⟨script, ledger⟩, worker_eq, rfl⟩ := found
  obtain ⟨inside, worker_eq⟩ := List.getElem?_eq_some_iff.1 worker_eq
  refine ⟨pool.take turn, ledger, pool.drop (turn + 1), ?_, List.length_take_of_le inside.le⟩
  rw [← worker_eq]
  simp

theorem forM_perform {pool : List (Script (Emit σ) Unit × Ledger)}
    (leaves : ∀ worker ∈ pool, worker.1.Leaves holds (fun _ => True) worker.2)
    {before : Ledger} {state : σ} (holds_before : holds before state) :
    let outcome := ((pool.map Prod.fst).forM fun script => ⟨script.perform⟩ : Emit σ Unit).run state
    holds (before + poolLedger pool) outcome.state ∧
      (poolLedger pool).facts = factsOf outcome.events := by
  induction pool generalizing before state with
  | nil => exact ⟨by simpa [poolLedger] using holds_before, rfl⟩
  | cons worker rest induction =>
    obtain ⟨-, holds_now, facts_eq⟩ := (leaves worker (by simp)).perform holds_before
    obtain ⟨holds_last, rest_eq⟩ :=
      induction (fun other member => leaves other (by simp [member])) holds_now
    refine ⟨?_, ?_⟩
    · rw [poolLedger, List.map_cons, List.sum_cons, ← add_assoc]
      exact holds_last
    · rw [poolLedger, List.map_cons, List.sum_cons, Ledger.facts_add, facts_eq]
      refine Eq.trans ?_ (congrArg _ (factsOf_append ..).symm)
      rw [← Multiset.coe_add]
      exact congrArg _ rest_eq

/-- Whatever turns the workers take, a pool leaves the sum of their ledgers. -/
theorem interleave_leaves (turns : List Nat) {pool : List (Script (Emit σ) Unit × Ledger)}
    (leaves : ∀ worker ∈ pool, worker.1.Leaves holds (fun _ => True) worker.2)
    {before : Ledger} {state : σ} (holds_before : holds before state) :
    let outcome := (interleave turns (pool.map Prod.fst)).run state
    holds (before + poolLedger pool) outcome.state ∧
      (poolLedger pool).facts = factsOf outcome.events := by
  induction turns generalizing pool before state with
  | nil => exact forM_perform leaves holds_before
  | cons turn turns induction =>
    unfold interleave
    split
    next action next found =>
      obtain ⟨front, ledger, back, rfl, rfl⟩ := exists_split found
      -- the turn takes a part off the ledger of its worker
      obtain ⟨now, later, rfl, holds_now, facts_eq, rest⟩ :=
        leaves (step action next, ledger) (by simp) before state holds_before
      have remaining : ∀ worker ∈ front ++ (next (action.run state).value, later) :: back,
          worker.1.Leaves holds (fun _ => True) worker.2 := by
        intro worker member
        rcases List.mem_append.1 member with member | member
        · exact leaves worker (by simp [member])
        · rcases List.mem_cons.1 member with rfl | member
          · exact rest
          · exact leaves worker (by simp [member])
      have set_eq :
          ((front ++ (step action next, now + later) :: back).map Prod.fst).set front.length
              (next (action.run state).value) =
            (front ++ (next (action.run state).value, later) :: back).map Prod.fst := by
        simp
      obtain ⟨holds_last, rest_eq⟩ := induction remaining holds_now
      rw [poolLedger_split] at holds_last rest_eq ⊢
      dsimp only at holds_last rest_eq ⊢
      rw [Emit.run_bind, set_eq]
      refine ⟨?_, ?_⟩
      · rw [add_assoc before, ← add_assoc now later] at holds_last
        exact holds_last
      · rw [add_assoc, Ledger.facts_add, facts_eq, rest_eq, factsOf_append, Multiset.coe_add]
    next => exact induction leaves holds_before

/-- The ways to interleave the workers of a pool: as long as one is not done, any such worker takes
its next step. -/
inductive Interleaved : List (Script (Emit σ) Unit) → σ → List Event → σ → Prop
  | finished {pool : List (Script (Emit σ) Unit)} (state : σ)
      (all_done : ∀ script ∈ pool, script = done ()) : Interleaved pool state [] state
  | turn {γ : Type} {front back : List (Script (Emit σ) Unit)} {action : Emit σ γ}
      {next : γ → Script (Emit σ) Unit} {state final : σ} {events : List Event}
      (later : Interleaved (front ++ next (action.run state).value :: back)
        (action.run state).state events final) :
      Interleaved (front ++ step action next :: back) state ((action.run state).events ++ events)
        final

/-- Lists of turns tell all ways to interleave the workers of a pool. -/
theorem Interleaved.exists_turns {pool : List (Script (Emit σ) Unit)} {state final : σ}
    {events : List Event} (interleaved : Interleaved pool state events final) :
    ∃ turns, (interleave turns pool).run state = ⟨(), final, events⟩ := by
  induction interleaved with
  | @finished pool state all_done =>
    refine ⟨[], ?_⟩
    induction pool with
    | nil => rfl
    | cons script rest induction =>
      obtain rfl := all_done script (by simp)
      have rest_eq := induction fun other member => all_done other (by simp [member])
      change (interleave [] rest).run state = _ at rest_eq
      change (⟨(), ((interleave [] rest).run state).state,
        [] ++ ((interleave [] rest).run state).events⟩ : Emitted σ Unit) = _
      rw [rest_eq]
      rfl
  | @turn γ front back action next state final events later induction =>
    obtain ⟨turns, run_eq⟩ := induction
    refine ⟨front.length :: turns, ?_⟩
    have found : (front ++ step action next :: back)[front.length]? = some (step action next) := by
      simp
    have set_eq : (front ++ step action next :: back).set front.length
        (next (action.run state).value) = front ++ next (action.run state).value :: back := by
      simp
    unfold interleave
    rw [found]
    dsimp only
    rw [Emit.run_bind, set_eq, run_eq]

end Script

end DalvikFacts
