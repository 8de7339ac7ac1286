import DalvikFacts.Proofs.Outcome
import DalvikFacts.Proofs.Run.Ledger
import Mathlib.Algebra.Group.Prod

/-!
# Accounts of workers

What a worker leaves may depend on what the others have left before: on a super class that was
registered meanwhile.  So its account is not known beforehand, but only that it fits: whatever the
others do between the steps of a script, the account of what it has left at its end fits the value
that it comes to.  Then the account of a pool is made of one that fits for each of its workers.
-/

namespace DalvikFacts

/-- Whether an event is a row, or tells that a class is skipped. -/
def Event.isTiding : Event → Bool
  | .fact _ => true
  | .notice found => found.skipped?.isSome

/-- The rows and the skipped classes among events, in no order. -/
def tidingsOf (events : List Event) : Multiset Event :=
  (events.filter Event.isTiding : List Event)

@[simp]
theorem tidingsOf_nil : tidingsOf [] = 0 :=
  rfl

@[simp]
theorem tidingsOf_append (events others : List Event) :
    tidingsOf (events ++ others) = tidingsOf events + tidingsOf others := by
  simp [tidingsOf]

/-- The classes that are skipped, and why. -/
def skippedOf (events : List Event) : List (String × ExtractionError) :=
  (noticesOf events).filterMap Notice.skipped?

@[simp]
theorem skippedOf_append (events others : List Event) :
    skippedOf (events ++ others) = skippedOf events ++ skippedOf others := by
  simp [skippedOf]

theorem PlainEvents.tidingsOf_eq {events : List Event} (plain : PlainEvents events) :
    tidingsOf events = (factsOf events).map Event.fact := by
  induction events with
  | nil => rfl
  | cons event rest induction =>
    have rest_eq := induction
      { facts := fun fact member => plain.facts fact (List.mem_cons_of_mem _ member)
        notices := fun notice member => plain.notices notice (List.mem_cons_of_mem _ member) }
    unfold tidingsOf at rest_eq ⊢
    cases event with
    | fact fact =>
      rw [factsOf_cons_fact, List.map_cons, List.filter_cons_of_pos rfl, ← Multiset.cons_coe,
        rest_eq, Multiset.cons_coe]
    | notice notice =>
      have quiet : ¬ (Event.notice notice).isTiding = true := by
        simp [Event.isTiding, plain.notices notice List.mem_cons_self]
      rw [factsOf_cons_notice, List.filter_cons_of_neg quiet, rest_eq]

/-- What is left: entries, and the rows and skipped classes that are told. -/
abbrev Account := Ledger × Multiset Event

namespace Account

/-- The rows that are told. -/
def facts (account : Account) : Multiset Fact :=
  account.2.filterMap Event.fact?

/-- The skipped classes that are told. -/
def skipped (account : Account) : Multiset (String × ExtractionError) :=
  account.2.filterMap fun event => event.notice?.bind Notice.skipped?

variable (account others : Account)

@[simp]
theorem facts_add : facts (account + others) = account.facts + others.facts :=
  Multiset.filterMap_add ..

@[simp]
theorem skipped_add : skipped (account + others) = account.skipped + others.skipped :=
  Multiset.filterMap_add ..

theorem facts_eq {account : Account} {events : List Event} (told : tidingsOf events = account.2) :
    account.facts = factsOf events := by
  unfold facts factsOf
  rw [← told, tidingsOf, Multiset.filterMap_coe, List.filterMap_filter]
  congr 2
  funext event
  cases event with
  | fact fact => rfl
  | notice notice => exact ite_self none

theorem skipped_eq {account : Account} {events : List Event} (told : tidingsOf events = account.2) :
    account.skipped = skippedOf events := by
  unfold skipped skippedOf noticesOf
  rw [← told, tidingsOf, Multiset.filterMap_coe, List.filterMap_filter, List.filterMap_filterMap]
  congr 2
  funext event
  cases event with
  | fact fact => rfl
  | notice notice =>
    cases skipped_eq : notice.skipped? <;> simp [Event.isTiding, Event.notice?, skipped_eq]

end Account

/-- An account is made of parts, one for each of the demands, which it fits. -/
inductive MadeOf : List (Account → Prop) → Account → Prop
  | nil : MadeOf [] 0
  | cons {fits : Account → Prop} {rest : List (Account → Prop)} {part others : Account}
      (fit : fits part) (made : MadeOf rest others) : MadeOf (fits :: rest) (part + others)

namespace MadeOf

variable {fits : Account → Prop} {front back demands others : List (Account → Prop)}
  {account second now : Account}

theorem append (first_made : MadeOf demands account) (second_made : MadeOf others second) :
    MadeOf (demands ++ others) (account + second) := by
  induction first_made with
  | nil => simpa using second_made
  | cons fit made induction =>
    rw [List.cons_append, add_assoc]
    exact .cons fit induction

/-- Where one more part belongs to one of the demands, it belongs to the whole. -/
theorem insert (made : MadeOf (front ++ (fun later => fits (now + later)) :: back) account) :
    MadeOf (front ++ fits :: back) (now + account) := by
  induction front generalizing account with
  | nil =>
    cases made with
    | cons fit rest =>
      rw [← add_assoc]
      exact .cons fit rest
  | cons other front induction =>
    cases made with
    | cons fit rest =>
      rw [add_left_comm]
      exact .cons fit (induction rest)

theorem flatten {groups : List (List (Account → Prop))}
    (made : MadeOf (groups.map MadeOf) account) :
    MadeOf groups.flatten account := by
  induction groups generalizing account with
  | nil => exact made
  | cons group rest induction =>
    cases made with
    | cons fit made => exact fit.append (induction made)

theorem zero (fits_zero : ∀ fits ∈ demands, fits 0) : MadeOf demands 0 := by
  induction demands with
  | nil => exact .nil
  | cons fits rest induction =>
    rw [List.forall_mem_cons] at fits_zero
    rw [← add_zero 0]
    exact .cons fits_zero.1 (induction fits_zero.2)

/-- What fits nothing but one account each makes their sum, as long as it stays below a ledger. -/
theorem eq_sum {ι : Type} {items : List ι} {fits : ι → Account → Prop} {value : ι → Account}
    {whole : Ledger} (made : MadeOf (items.map fits) account) (below : account.1 ≤ whole)
    (only : ∀ item ∈ items, ∀ part, fits item part → part.1 ≤ whole → part = value item) :
    account = (items.map value).sum := by
  induction items generalizing account with
  | nil => cases made; rfl
  | cons item rest induction =>
    rw [List.forall_mem_cons] at only
    cases made with
    | @cons _ _ part others fit made =>
      have part_below : part.1 ≤ whole := le_trans (Multiset.le_add_right _ _) below
      have others_below : others.1 ≤ whole := le_trans (Multiset.le_add_left _ _) below
      rw [List.map_cons, List.sum_cons, only.1 part fit part_below,
        induction made others_below only.2]

theorem exists_of_mem {ι : Type} {items : List ι} {fits : ι → Account → Prop} {item : ι}
    (made : MadeOf (items.map fits) account) (member : item ∈ items) :
    ∃ part, fits item part ∧ part.1 ≤ account.1 := by
  induction items generalizing account with
  | nil => cases member
  | cons first rest induction =>
    cases made with
    | @cons _ _ part others fit made =>
      rcases List.mem_cons.1 member with rfl | member
      · exact ⟨part, fit, Multiset.le_add_right _ _⟩
      · obtain ⟨found, found_fit, below⟩ := induction made member
        exact ⟨found, found_fit, le_trans below (Multiset.le_add_left _ _)⟩

theorem exists_of_entry {ι : Type} {items : List ι} {fits : ι → Account → Prop}
    {entry : Contribution} (made : MadeOf (items.map fits) account) (entered : entry ∈ account.1) :
    ∃ item ∈ items, ∃ part, fits item part ∧ entry ∈ part.1 ∧ part.2 ≤ account.2 := by
  induction items generalizing account with
  | nil => cases made; exact absurd entered (Multiset.notMem_zero _)
  | cons item rest induction =>
    cases made with
    | @cons _ _ part others fit made =>
      rcases Multiset.mem_add.1 entered with here | there
      · exact ⟨item, List.mem_cons_self, part, fit, here, Multiset.le_add_right _ _⟩
      · obtain ⟨later, member, found, found_fits, found_mem, below⟩ := induction made there
        exact ⟨later, List.mem_cons_of_mem _ member, found, found_fits, found_mem,
          le_trans below (Multiset.le_add_left _ _)⟩

end MadeOf

namespace Script

variable {σ α β : Type} {holds : Ledger → σ → Prop} {fits : α → Account → Prop}
  {mid : β → Account → Prop}

/-- Whatever others do between the steps, what the script leaves fits the value it comes to. -/
def Accounts (holds : Ledger → σ → Prop) :
    Script (Emit σ) α → (α → Account → Prop) → Prop
  | done value, fits => fits value 0
  | step action next, fits => ∀ before state, holds before state →
    ∃ now : Ledger, holds (before + now) (action.run state).state ∧
      (next (action.run state).value).Accounts holds fun value later =>
        fits value ((now, tidingsOf (action.run state).events) + later)

namespace Accounts

theorem mono {wider : α → Account → Prop} {script : Script (Emit σ) α}
    (accounts : script.Accounts holds fits) (wide : ∀ value account, fits value account →
      wider value account) : script.Accounts holds wider := by
  induction script generalizing fits wider with
  | done value => exact wide value 0 accounts
  | step action next induction =>
    intro before state holds_before
    obtain ⟨now, holds_now, later⟩ := accounts before state holds_before
    exact ⟨now, holds_now, induction _ later fun value account => wide value _⟩

theorem pure {value : α} (fit : fits value 0) :
    (Pure.pure value : Script (Emit σ) α).Accounts holds fits :=
  fit

theorem bind {script : Script (Emit σ) β} {next : β → Script (Emit σ) α}
    (first : script.Accounts holds mid) (rest : ∀ value part, mid value part →
      (next value).Accounts holds fun last later => fits last (part + later)) :
    (script >>= next).Accounts holds fits := by
  induction script generalizing mid fits with
  | done value => simpa using rest value 0 first
  | step action follow induction =>
    intro before state holds_before
    obtain ⟨now, holds_now, later⟩ := first before state holds_before
    refine ⟨now, holds_now, induction _ later fun value part fit => ?_⟩
    refine (rest value _ fit).mono fun last account last_fits => ?_
    rwa [add_assoc] at last_fits

theorem atom {action : Emit σ α}
    (adds : ∀ before state, holds before state → ∃ now : Ledger,
      holds (before + now) (action.run state).state ∧
      fits (action.run state).value (now, tidingsOf (action.run state).events)) :
    (Script.atom action).Accounts holds fits := by
  intro before state holds_before
  obtain ⟨now, holds_now, fit⟩ := adds before state holds_before
  exact ⟨now, holds_now, by rwa [Script.Accounts, add_zero]⟩

/-- Nobody interrupting it, a script leaves an account that fits its value. -/
theorem perform {script : Script (Emit σ) α} (accounts : script.Accounts holds fits)
    {before : Ledger} {state : σ} (holds_before : holds before state) :
    ∃ account, fits (script.perform state).value account ∧
      holds (before + account.1) (script.perform state).state ∧
      tidingsOf (script.perform state).events = account.2 := by
  induction script generalizing fits before state with
  | done value => exact ⟨0, accounts, by simpa using holds_before, rfl⟩
  | step action next induction =>
    obtain ⟨now, holds_now, later⟩ := accounts before state holds_before
    obtain ⟨account, fit, holds_last, told⟩ := induction _ later holds_now
    rw [perform_step]
    refine ⟨_, fit, ?_, ?_⟩
    · rw [Prod.fst_add, ← add_assoc]
      exact holds_last
    · rw [tidingsOf_append, told]
      rfl

end Accounts

/-- A worker, and what has to fit the account of what it leaves. -/
abbrev Demanded (σ : Type) := Script (Emit σ) Unit × (Account → Prop)

variable {pool : List (Demanded σ)} {before : Ledger} {state : σ}

theorem forM_perform_accounts
    (accounts : ∀ worker ∈ pool, worker.1.Accounts holds fun _ => worker.2)
    (holds_before : holds before state) :
    let outcome := ((pool.map Prod.fst).forM fun script => ⟨script.perform⟩ : Emit σ Unit).run state
    ∃ account, MadeOf (pool.map Prod.snd) account ∧ holds (before + account.1) outcome.state ∧
      tidingsOf outcome.events = account.2 := by
  induction pool generalizing before state with
  | nil => exact ⟨0, .nil, by simpa using holds_before, rfl⟩
  | cons worker rest induction =>
    rw [List.forall_mem_cons] at accounts
    obtain ⟨part, fit, holds_now, told⟩ := accounts.1.perform holds_before
    obtain ⟨others, made, holds_last, rest_told⟩ := induction accounts.2 holds_now
    refine ⟨part + others, .cons fit made, ?_, ?_⟩
    · rw [Prod.fst_add, ← add_assoc]
      exact holds_last
    · exact (tidingsOf_append ..).trans (congrArg₂ _ told rest_told)

/-- Whatever turns the workers take, the account of a pool is made of theirs. -/
theorem interleave_accounts (turns : List Nat)
    (accounts : ∀ worker ∈ pool, worker.1.Accounts holds fun _ => worker.2)
    (holds_before : holds before state) :
    let outcome := (interleave turns (pool.map Prod.fst)).run state
    ∃ account, MadeOf (pool.map Prod.snd) account ∧ holds (before + account.1) outcome.state ∧
      tidingsOf outcome.events = account.2 := by
  induction turns generalizing pool before state with
  | nil => exact forM_perform_accounts accounts holds_before
  | cons turn turns induction =>
    unfold interleave
    split
    next action next found =>
      obtain ⟨front, fits, back, rfl, rfl⟩ :
          ∃ front fits back, pool = front ++ (step action next, fits) :: back ∧
            front.length = turn := by
        rw [List.getElem?_map, Option.map_eq_some_iff] at found
        obtain ⟨⟨script, fits⟩, worker_eq, rfl⟩ := found
        obtain ⟨inside, worker_eq⟩ := List.getElem?_eq_some_iff.1 worker_eq
        refine ⟨pool.take turn, fits, pool.drop (turn + 1), ?_, List.length_take_of_le inside.le⟩
        rw [← worker_eq]
        simp
      -- the turn takes a part off what has to fit
      obtain ⟨now, holds_now, later⟩ :=
        accounts (step action next, fits) (by simp) before state holds_before
      have remaining : ∀ worker ∈ front ++ ((next (action.run state).value,
          fun later => fits ((now, tidingsOf (action.run state).events) + later)) ::
            back : List (Demanded σ)), worker.1.Accounts holds fun _ => worker.2 := by
        intro worker member
        rcases List.mem_append.1 member with member | member
        · exact accounts worker (by simp [member])
        · rcases List.mem_cons.1 member with rfl | member
          · exact later
          · exact accounts worker (by simp [member])
      obtain ⟨account, made, holds_last, told⟩ := induction remaining holds_now
      rw [List.map_append, List.map_cons] at made holds_last told
      refine ⟨(now, tidingsOf (action.run state).events) + account, ?_, ?_, ?_⟩
      · rw [List.map_append, List.map_cons]
        exact made.insert
      · rw [Emit.run_bind, Prod.fst_add, ← add_assoc]
        simpa using holds_last
      · rw [Emit.run_bind, tidingsOf_append]
        simpa using told
    next => exact induction accounts holds_before

end Script

end DalvikFacts
