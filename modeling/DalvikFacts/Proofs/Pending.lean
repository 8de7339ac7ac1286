import DalvikFacts.Pending
import Mathlib.Data.List.Basic

/-!
# Histories of pending references

A table of pending references is the list of its entries with the addresses that they wait for.
What becomes of an entry is settled when it is registered: the first taker of its address that
comes later gets it, and without such a taker it waits until the end.
-/

namespace DalvikFacts.Pending

variable {ι α : Type}

/-! ## Entries by address -/

/-- The entries waiting for an address. -/
def entriesAt (address : Address) (entries : List (Address × α)) : List α :=
  (entries.filter (·.1 == address)).map Prod.snd

/-- The entries waiting for other addresses. -/
def without (address : Address) (entries : List (Address × α)) : List (Address × α) :=
  entries.filter (·.1 != address)

/-- A table holds the entries of a list, those of one address in the order of the list. -/
def Holds (pending : Pending α) (entries : List (Address × α)) : Prop :=
  ∀ address, pending.waitingAt address = entriesAt address entries

theorem entriesAt_without {first second : Address} (distinct : first ≠ second)
    (entries : List (Address × α)) :
    entriesAt first (without second entries) = entriesAt first entries := by
  unfold entriesAt without
  rw [List.filter_filter]
  congr 1
  refine List.filter_congr fun entry _ => ?_
  by_cases here : entry.1 = first <;> simp [here, distinct]

theorem entriesAt_without_self (address : Address) (entries : List (Address × α)) :
    entriesAt address (without address entries) = [] := by
  simp [entriesAt, without, List.filter_filter]

theorem entriesAt_append_without_perm (address : Address) (entries : List (Address × α)) :
    (entriesAt address entries ++ (without address entries).map Prod.snd).Perm
      (entries.map Prod.snd) := by
  have split := List.filter_append_perm (fun entry : Address × α => entry.1 == address) entries
  have mapped := split.map Prod.snd
  rw [List.map_append] at mapped
  exact mapped

/-- Entries taken address by address are all entries. -/
theorem flatMap_entriesAt_perm {addresses : List Address} (nodup : addresses.Nodup)
    {entries : List (Address × α)} (covered : ∀ entry ∈ entries, entry.1 ∈ addresses) :
    (addresses.flatMap fun address => entriesAt address entries).Perm
      (entries.map Prod.snd) := by
  induction addresses generalizing entries with
  | nil =>
    have entries_eq : entries = [] :=
      List.eq_nil_iff_forall_not_mem.2 fun entry member => by simpa using covered entry member
    rw [entries_eq]
    exact .refl _
  | cons address rest induction =>
    obtain ⟨fresh, rest_nodup⟩ := List.nodup_cons.1 nodup
    have others : ∀ entry ∈ without address entries, entry.1 ∈ rest := by
      intro entry member
      obtain ⟨inside, elsewhere⟩ := List.mem_filter.1 member
      exact (List.mem_cons.1 (covered entry inside)).resolve_left (by simpa using elsewhere)
    have rest_eq : (rest.flatMap fun other => entriesAt other entries) =
        rest.flatMap fun other => entriesAt other (without address entries) := by
      refine List.flatMap_congr fun other member => ?_
      have distinct : other ≠ address := fun same => fresh (same ▸ member)
      exact (entriesAt_without distinct entries).symm
    rw [List.flatMap_cons, rest_eq]
    exact ((induction rest_nodup others).append_left _).trans
      (entriesAt_append_without_perm address entries)

theorem waitingAt_register (pending : Pending α) (address other : Address) (entry : α) :
    (pending.register address entry).waitingAt other =
      if address = other then pending.waitingAt address ++ [entry]
      else pending.waitingAt other := by
  unfold waitingAt register
  rw [Std.TreeMap.getD_insert]
  simp only [Std.compare_eq_iff_eq]
  rfl

theorem waitingAt_release (pending : Pending α) (address other : Address) :
    (pending.release address).waitingAt other =
      if address = other then [] else pending.waitingAt other := by
  unfold waitingAt release
  rw [Std.TreeMap.getD_erase]
  simp only [Std.compare_eq_iff_eq]

theorem mem_waitingAt_register {pending : Pending α} {address other : Address} {entry added : α}
    (member : entry ∈ (pending.register address added).waitingAt other) :
    entry ∈ pending.waitingAt other ∨ entry = added := by
  rw [waitingAt_register] at member
  split at member
  next same => simpa [same] using member
  next => exact .inl member

theorem mem_waitingAt_release {pending : Pending α} {address other : Address} {entry : α}
    (member : entry ∈ (pending.release address).waitingAt other) :
    entry ∈ pending.waitingAt other := by
  rw [waitingAt_release] at member
  split at member
  · cases member
  · exact member

theorem holds_empty : (empty : Pending α).Holds [] := by
  intro address
  simp [waitingAt, empty, entriesAt]

namespace Holds

variable {pending : Pending α} {entries : List (Address × α)} (holds : pending.Holds entries)

include holds

theorem register (address : Address) (entry : α) :
    (pending.register address entry).Holds (entries ++ [(address, entry)]) := by
  intro other
  rw [waitingAt_register, holds address, holds other]
  by_cases same : address = other
  · subst same
    simp [entriesAt]
  · simp [entriesAt, same]

theorem release (address : Address) :
    (pending.release address).Holds (without address entries) := by
  intro other
  rw [waitingAt_release, holds other]
  by_cases same : address = other
  · subst same
    simp [entriesAt_without_self]
  · simp [entriesAt_without (Ne.symm same), same]

theorem entries_perm : pending.entries.Perm (entries.map Prod.snd) := by
  have entries_eq : pending.entries =
      pending.waiting.keys.flatMap fun address => entriesAt address entries := by
    unfold Pending.entries
    rw [← Std.TreeMap.map_fst_toList_eq_keys, List.flatMap_map]
    refine List.flatMap_congr fun pair member => ?_
    have found := Std.TreeMap.mem_toList_iff_getElem?_eq_some.1 member
    rw [← holds, waitingAt, Std.TreeMap.getD_eq_getD_getElem?, found, Option.getD_some]
  rw [entries_eq]
  refine flatMap_entriesAt_perm Std.TreeMap.nodup_keys fun entry member => ?_
  rw [Std.TreeMap.mem_keys]
  by_contra absent
  have nothing := holds entry.1
  rw [waitingAt, Std.TreeMap.getD_eq_fallback absent] at nothing
  have here : entry.2 ∈ entriesAt entry.1 entries :=
    List.mem_map.2 ⟨entry, List.mem_filter.2 ⟨member, by simp⟩, rfl⟩
  rw [← nothing] at here
  cases here

theorem residual_eq : pending.residual = entries.length := by
  rw [residual, holds.entries_perm.length_eq, List.length_map]

end Holds

/-- Checking that nothing is left gives the number of entries that wait, and reports it unless it is
zero. -/
theorem run_reportResidual {σ : Type} (pending : Pending α) (what method : String) (state : σ) :
    (pending.reportResidual what method).run state =
      ⟨pending.residual, state,
        if 0 < pending.residual then
          [.notice (.method method (.residual what pending.residual pending.addresses))]
        else []⟩ := by
  unfold reportResidual
  dsimp only
  split <;> rfl

/-! ## Histories -/

/-- Something done to a table. -/
inductive Operation (ι α : Type)
  /-- An entry starts to wait for an address. -/
  | register (address : Address) (entry : α)
  /-- All entries of an address are handed out to a taker. -/
  | take (address : Address) (taker : ι)
  deriving DecidableEq

namespace Operation

/-- The entry that starts to wait. -/
def registered? : Operation ι α → Option α
  | register _ entry => some entry
  | take .. => none

/-- The taker of the entries of an address. -/
def takerOf? (address : Address) : Operation ι α → Option ι
  | register .. => none
  | take other taker => if other = address then some taker else none

end Operation

/-- The entries that still wait after operations. -/
def remaining : List (Address × α) → List (Operation ι α) → List (Address × α)
  | waiting, [] => waiting
  | waiting, .register address entry :: rest => remaining (waiting ++ [(address, entry)]) rest
  | waiting, .take address _ :: rest => remaining (without address waiting) rest

/-- What is handed out during operations, and to which takers. -/
def handOut : List (Address × α) → List (Operation ι α) → List (ι × α)
  | _, [] => []
  | waiting, .register address entry :: rest => handOut (waiting ++ [(address, entry)]) rest
  | waiting, .take address taker :: rest =>
    (entriesAt address waiting).map (taker, ·) ++ handOut (without address waiting) rest

/-- The first taker of an address. -/
def firstTaker? (address : Address) (operations : List (Operation ι α)) : Option ι :=
  operations.findSome? (·.takerOf? address)

/-- Each registered entry with the taker that gets it, if there is one. -/
def fates : List (Operation ι α) → List (Option ι × α)
  | [] => []
  | .register address entry :: rest => (firstTaker? address rest, entry) :: fates rest
  | .take .. :: rest => fates rest

/-- The fates of entries that wait already. -/
def fatesOf (waiting : List (Address × α)) (operations : List (Operation ι α)) :
    List (Option ι × α) :=
  waiting.map fun entry => (firstTaker? entry.1 operations, entry.2)

theorem remaining_append (waiting : List (Address × α)) (first second : List (Operation ι α)) :
    remaining waiting (first ++ second) = remaining (remaining waiting first) second := by
  induction first generalizing waiting with
  | nil => rfl
  | cons operation rest induction => cases operation <;> exact induction _

theorem handOut_append (waiting : List (Address × α)) (first second : List (Operation ι α)) :
    handOut waiting (first ++ second) =
      handOut waiting first ++ handOut (remaining waiting first) second := by
  induction first generalizing waiting with
  | nil => rfl
  | cons operation rest induction =>
    cases operation with
    | register address entry => exact induction _
    | take address taker =>
      rw [List.cons_append, handOut, handOut, remaining, induction, List.append_assoc]

theorem fatesOf_register (waiting : List (Address × α)) (address : Address) (entry : α)
    (rest : List (Operation ι α)) :
    fatesOf (waiting ++ [(address, entry)]) rest ++ fates rest =
      fatesOf waiting (.register address entry :: rest) ++
        fates (.register address entry :: rest) := by
  simp [fatesOf, fates, firstTaker?, Operation.takerOf?]

/-- A taker gets the entries of its address, and decides nothing for the others. -/
theorem fatesOf_take_perm (waiting : List (Address × α)) (address : Address) (taker : ι)
    (rest : List (Operation ι α)) :
    ((entriesAt address waiting).map (some taker, ·) ++
        fatesOf (without address waiting) rest).Perm
      (fatesOf waiting (.take address taker :: rest)) := by
  have taken : (entriesAt address waiting).map (some taker, ·) =
      fatesOf (waiting.filter (·.1 == address)) (.take address taker :: rest) := by
    unfold entriesAt fatesOf
    rw [List.map_map]
    refine List.map_congr_left fun entry member => ?_
    obtain ⟨-, here⟩ := List.mem_filter.1 member
    have address_eq : address = entry.1 := (beq_iff_eq.1 here).symm
    simp [firstTaker?, Operation.takerOf?, address_eq]
  have left : fatesOf (without address waiting) rest =
      fatesOf (without address waiting) (.take address taker :: rest) := by
    unfold fatesOf
    refine List.map_congr_left fun entry member => ?_
    obtain ⟨-, elsewhere⟩ := List.mem_filter.1 member
    have address_ne : address ≠ entry.1 := fun same => by simp [same] at elsewhere
    simp [firstTaker?, Operation.takerOf?, address_ne]
  rw [taken, left]
  unfold fatesOf without
  rw [← List.map_append]
  exact (List.filter_append_perm _ waiting).map _

/-- Every entry is handed out to the first later taker of its address, and to no other. -/
theorem handOut_perm (waiting : List (Address × α)) (operations : List (Operation ι α)) :
    (handOut waiting operations).Perm
      ((fatesOf waiting operations ++ fates operations).filterMap fun fate =>
        fate.1.map (·, fate.2)) := by
  induction operations generalizing waiting with
  | nil =>
    have nothing : (fatesOf waiting ([] : List (Operation ι α))).filterMap
        (fun fate => fate.1.map (·, fate.2)) = [] := by
      rw [List.filterMap_eq_nil_iff]
      intro fate member
      obtain ⟨entry, -, rfl⟩ := List.mem_map.1 member
      rfl
    rw [handOut, fates, List.append_nil, nothing]
  | cons operation rest induction =>
    cases operation with
    | register address entry =>
      rw [handOut, ← fatesOf_register]
      exact induction _
    | take address taker =>
      have split := (fatesOf_take_perm waiting address taker rest).filterMap
        fun fate => fate.1.map (·, fate.2)
      rw [List.filterMap_append, List.filterMap_map] at split
      rw [handOut, fates, List.filterMap_append]
      refine List.Perm.trans ?_ (split.append_right _)
      rw [List.append_assoc, ← List.filterMap_append]
      refine List.Perm.append ?_ (induction _)
      rw [← List.filterMap_eq_map]
      exact .refl _

/-- The entries without a later taker of their address are those that still wait. -/
theorem remaining_perm (waiting : List (Address × α)) (operations : List (Operation ι α)) :
    ((remaining waiting operations).map Prod.snd).Perm
      (((fatesOf waiting operations ++ fates operations).filter (·.1.isNone)).map Prod.snd) := by
  induction operations generalizing waiting with
  | nil =>
    have all_wait : (fatesOf waiting ([] : List (Operation ι α))).filter (·.1.isNone) =
        fatesOf waiting [] := by
      rw [List.filter_eq_self]
      intro fate member
      obtain ⟨entry, -, rfl⟩ := List.mem_map.1 member
      rfl
    rw [remaining, fates, List.append_nil, all_wait, fatesOf, List.map_map]
    exact .refl _
  | cons operation rest induction =>
    cases operation with
    | register address entry =>
      rw [remaining, ← fatesOf_register]
      exact induction _
    | take address taker =>
      have split :=
        ((fatesOf_take_perm waiting address taker rest).filter (·.1.isNone)).map Prod.snd
      rw [remaining, fates, List.filter_append, List.map_append]
      refine List.Perm.trans ?_ (split.append_right _)
      have taken : ((entriesAt address waiting).map (some taker, ·)).filter (·.1.isNone) = [] := by
        simp [List.filter_eq_nil_iff]
      rw [List.filter_append, taken, List.nil_append, ← List.map_append, ← List.filter_append]
      exact induction _

end DalvikFacts.Pending
