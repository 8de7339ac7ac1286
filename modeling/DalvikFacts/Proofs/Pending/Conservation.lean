import DalvikFacts.Proofs.Pending
import Mathlib.Data.List.Induction

/-!
# Conservation of pending entries

Whatever is registered in a table of pending references is returned once or still waits: the first
later operation that takes its address returns it, among the others of that address in the order
of their registration, and until then it counts among the entries that wait.
-/

namespace DalvikFacts.Pending

variable {ι α : Type}

/-! ## Operations on a table -/

/-- The table after an operation. -/
def perform (pending : Pending α) : Operation ι α → Pending α
  | .register address entry => pending.register address entry
  | .take address _ => pending.release address

/-- What an operation returns: a take what waits for its address, a registration nothing. -/
def answer (pending : Pending α) : Operation ι α → List α
  | .register .. => []
  | .take address _ => pending.waitingAt address

/-- The table after operations on a fresh one. -/
def after (operations : List (Operation ι α)) : Pending α :=
  operations.foldl perform empty

/-- What each operation returns, one after the other. -/
def answersFrom : Pending α → List (Operation ι α) → List (List α)
  | _, [] => []
  | pending, operation :: rest =>
    pending.answer operation :: answersFrom (pending.perform operation) rest

/-- What each operation on a fresh table returns. -/
def answers (operations : List (Operation ι α)) : List (List α) :=
  answersFrom empty operations

theorem after_concat (operations : List (Operation ι α)) (operation : Operation ι α) :
    after (operations ++ [operation]) = (after operations).perform operation := by
  simp [after]

theorem answersFrom_concat (pending : Pending α) (operations : List (Operation ι α))
    (operation : Operation ι α) :
    answersFrom pending (operations ++ [operation]) =
      answersFrom pending operations ++ [(operations.foldl perform pending).answer operation] := by
  induction operations generalizing pending with
  | nil => rfl
  | cons first rest induction =>
    rw [List.cons_append, answersFrom, answersFrom, induction]
    rfl

theorem answers_concat (operations : List (Operation ι α)) (operation : Operation ι α) :
    answers (operations ++ [operation]) =
      answers operations ++ [(after operations).answer operation] :=
  answersFrom_concat _ _ _

/-! ## Registrations -/

/-- An entry that starts to wait for an address, with the number of operations before. -/
structure Registration (α : Type) where
  position : Nat
  address : Address
  entry : α

/-- The registration that an operation is. -/
def Operation.registration? : Operation ι α × Nat → Option (Registration α)
  | (.register address entry, position) => some ⟨position, address, entry⟩
  | (.take .., _) => none

/-- Whether an operation takes the entries of an address. -/
def Operation.takes (address : Address) : Operation ι α → Bool
  | .register .. => false
  | .take other _ => address == other

/-- The registrations among operations, in order. -/
def registrations (operations : List (Operation ι α)) : List (Registration α) :=
  operations.zipIdx.filterMap Operation.registration?

/-- The position of the first operation behind a registration that takes its address. -/
def Registration.takenAt? (operations : List (Operation ι α)) (registration : Registration α) :
    Option Nat :=
  ((operations.drop (registration.position + 1)).findIdx? (·.takes registration.address)).map
    (registration.position + 1 + ·)

/-- The operation at a position takes the entries of an address. -/
def TakesAt (operations : List (Operation ι α)) (address : Address) (position : Nat) : Prop :=
  ∃ taker, operations[position]? = some (.take address taker)

/-- The registrations whose entries were not taken. -/
def untaken (operations : List (Operation ι α)) : List (Registration α) :=
  (registrations operations).filter (·.takenAt? operations = none)

variable {operations : List (Operation ι α)} {operation : Operation ι α}
  {registration : Registration α} {position : Nat}

theorem registrations_concat :
    registrations (operations ++ [operation]) =
      registrations operations ++
        (Operation.registration? (operation, operations.length)).toList := by
  rw [registrations, List.zipIdx_append, List.filterMap_append, Nat.zero_add]
  cases operation <;> rfl

theorem position_lt (member : registration ∈ registrations operations) :
    registration.position < operations.length := by
  obtain ⟨⟨operation, position⟩, pair_mem, registered⟩ := List.mem_filterMap.1 member
  have inside := List.snd_lt_of_mem_zipIdx pair_mem
  cases operation with
  | register address entry =>
    cases registered
    exact inside
  | take => cases registered

theorem takesAt_iff {address : Address} :
    TakesAt operations address position ↔
      ∃ inside : position < operations.length, operations[position].takes address := by
  constructor
  · rintro ⟨taker, found⟩
    obtain ⟨inside, operation_eq⟩ := List.getElem?_eq_some_iff.1 found
    exact ⟨inside, operation_eq ▸ beq_self_eq_true address⟩
  · rintro ⟨inside, takes⟩
    cases operation_eq : operations[position] with
    | register => rw [operation_eq] at takes; cases takes
    | take other taker =>
      rw [operation_eq] at takes
      obtain rfl : address = other := beq_iff_eq.1 takes
      exact ⟨taker, List.getElem?_eq_some_iff.2 ⟨inside, operation_eq⟩⟩

/-- An entry is taken by the first operation behind its registration that takes its address. -/
theorem takenAt?_eq_some_iff :
    registration.takenAt? operations = some position ↔
      registration.position < position ∧ TakesAt operations registration.address position ∧
        ∀ between, registration.position < between → between < position →
          ¬ TakesAt operations registration.address between := by
  have reach : ∀ {index}, registration.position + 1 + index < operations.length ↔
      index < (operations.drop (registration.position + 1)).length := by
    intro index
    rw [List.length_drop]
    omega
  unfold Registration.takenAt?
  rw [Option.map_eq_some_iff]
  simp only [List.findIdx?_eq_some_iff_getElem, List.getElem_drop, takesAt_iff]
  constructor
  · rintro ⟨index, ⟨inside, takes, first⟩, rfl⟩
    refine ⟨by omega, ⟨reach.2 inside, takes⟩, fun between behind before => ?_⟩
    obtain ⟨earlier, rfl⟩ := Nat.exists_eq_add_of_le behind
    rintro ⟨_, takes_earlier⟩
    exact first earlier (by omega) takes_earlier
  · rintro ⟨behind, ⟨inside, takes⟩, first⟩
    obtain ⟨index, rfl⟩ := Nat.exists_eq_add_of_le behind
    refine ⟨index, ⟨reach.1 inside, takes, fun earlier before takes_earlier => ?_⟩, rfl⟩
    exact first (registration.position + 1 + earlier) (by omega) (by omega)
      ⟨by omega, takes_earlier⟩

theorem takenAt?_lt (taken : registration.takenAt? operations = some position) :
    position < operations.length := by
  obtain ⟨-, takes, -⟩ := takenAt?_eq_some_iff.1 taken
  exact (takesAt_iff.1 takes).1

theorem takenAt?_concat (member : registration ∈ registrations operations) :
    registration.takenAt? (operations ++ [operation]) =
      (registration.takenAt? operations).or
        (if operation.takes registration.address then some operations.length else none) := by
  have inside := position_lt member
  unfold Registration.takenAt?
  rw [List.drop_append_of_le_length inside, List.findIdx?_append, List.findIdx?_singleton]
  cases (operations.drop (registration.position + 1)).findIdx? (·.takes registration.address) with
  | some index => rfl
  | none =>
    cases operation.takes registration.address with
    | false => rfl
    | true =>
      simp
      omega

theorem takenAt?_of_last
    (last : Operation.registration? (operation, operations.length) = some registration) :
    registration.takenAt? (operations ++ [operation]) = none := by
  have position_eq : registration.position = operations.length := by
    cases operation <;> cases last
    rfl
  unfold Registration.takenAt?
  rw [position_eq, List.drop_eq_nil_of_le (by simp)]
  rfl

theorem filter_concat (time : Option Nat) :
    (registrations (operations ++ [operation])).filter
        (·.takenAt? (operations ++ [operation]) = time) =
      (registrations operations).filter (fun registration =>
        (registration.takenAt? operations).or
          (if operation.takes registration.address then some operations.length else none) = time) ++
      if time = none then (Operation.registration? (operation, operations.length)).toList
      else [] := by
  rw [registrations_concat, List.filter_append]
  congr 1
  · refine List.filter_congr fun registration member => ?_
    rw [takenAt?_concat member]
  · cases last_eq : Operation.registration? (operation, operations.length) with
    | none => cases time <;> rfl
    | some registration => cases time <;> simp [takenAt?_of_last last_eq]

theorem filter_concat_of_lt (inside : position < operations.length) :
    (registrations (operations ++ [operation])).filter
        (·.takenAt? (operations ++ [operation]) = some position) =
      (registrations operations).filter (·.takenAt? operations = some position) := by
  rw [filter_concat, if_neg (by simp), List.append_nil]
  refine List.filter_congr fun registration _ => ?_
  cases registration.takenAt? operations with
  | some earlier => rfl
  | none =>
    have later : operations.length ≠ position := Nat.ne_of_gt inside
    by_cases takes : operation.takes registration.address <;> simp [takes, later]

theorem filter_concat_last :
    (registrations (operations ++ [operation])).filter
        (·.takenAt? (operations ++ [operation]) = some operations.length) =
      (untaken operations).filter (operation.takes ·.address) := by
  rw [filter_concat, if_neg (by simp), List.append_nil, untaken, List.filter_filter]
  refine List.filter_congr fun registration _ => ?_
  cases taken_eq : registration.takenAt? operations with
  | some earlier =>
    have before : earlier ≠ operations.length := Nat.ne_of_lt (takenAt?_lt taken_eq)
    simp [before]
  | none => cases operation.takes registration.address <;> simp

theorem untaken_concat :
    untaken (operations ++ [operation]) =
      (untaken operations).filter (!operation.takes ·.address) ++
        (Operation.registration? (operation, operations.length)).toList := by
  rw [untaken, filter_concat, if_pos rfl, untaken, List.filter_filter]
  congr 1
  refine List.filter_congr fun registration _ => ?_
  cases registration.takenAt? operations with
  | some earlier => simp
  | none => cases operation.takes registration.address <;> simp

/-! ## Conservation -/

/-- The entries of registrations, by address. -/
def Registration.waits (registration : Registration α) : Address × α :=
  (registration.address, registration.entry)

theorem entriesAt_map_waits (address : Address) (given : List (Registration α)) :
    entriesAt address (given.map Registration.waits) =
      (given.filter (·.address == address)).map Registration.entry := by
  rw [entriesAt, List.filter_map, List.map_map]
  rfl

theorem without_map_waits (address : Address) (given : List (Registration α)) :
    without address (given.map Registration.waits) =
      (given.filter (·.address != address)).map Registration.waits := by
  rw [without, List.filter_map]
  rfl

theorem holds_after (operations : List (Operation ι α)) :
    (after operations).Holds ((untaken operations).map Registration.waits) := by
  induction operations using List.reverseRecOn with
  | nil => exact holds_empty
  | append_singleton operations operation induction =>
    rw [after_concat, untaken_concat]
    cases operation with
    | register address entry =>
      have kept : (untaken operations).filter
          (!(Operation.register address entry : Operation ι α).takes ·.address) =
            untaken operations := List.filter_eq_self.2 fun _ _ => rfl
      rw [kept, List.map_append]
      exact induction.register address entry
    | take address taker =>
      rw [Operation.registration?, Option.toList_none, List.append_nil]
      exact without_map_waits address _ ▸ induction.release address

theorem answer_after (operations : List (Operation ι α)) (operation : Operation ι α) :
    (after operations).answer operation =
      ((untaken operations).filter (operation.takes ·.address)).map Registration.entry := by
  cases operation with
  | register address entry =>
    have nothing : (untaken operations).filter
        ((Operation.register address entry : Operation ι α).takes ·.address) = [] :=
      List.filter_eq_nil_iff.2 fun _ _ => Bool.false_ne_true
    rw [nothing]
    rfl
  | take address taker =>
    rw [answer, holds_after operations address, entriesAt_map_waits]
    rfl

theorem answers_eq (operations : List (Operation ι α)) :
    answers operations = (List.range operations.length).map fun position =>
      ((registrations operations).filter (·.takenAt? operations = some position)).map
        Registration.entry := by
  induction operations using List.reverseRecOn with
  | nil => rfl
  | append_singleton operations operation induction =>
    rw [answers_concat, induction, List.length_append, List.length_singleton, List.range_succ,
      List.map_append, List.map_singleton, filter_concat_last, answer_after]
    congr 1
    -- The earlier answers stay, as one operation more takes nothing from those before.
    refine List.map_congr_left fun position member => ?_
    rw [filter_concat_of_lt (List.mem_range.1 member)]

theorem length_registrations (operations : List (Operation ι α)) :
    (registrations operations).length =
      (answers operations).flatten.length + (untaken operations).length := by
  induction operations using List.reverseRecOn with
  | nil => rfl
  | append_singleton operations operation induction =>
    have parted := (untaken operations).length_eq_length_filter_add (operation.takes ·.address)
    rw [registrations_concat, answers_concat, untaken_concat, answer_after, List.flatten_append,
      List.flatten_singleton, List.length_append, List.length_append, List.length_append,
      List.length_map, induction]
    omega

/-! ## Reports -/

/-- No address is kept that nothing waits for. -/
def Tidy (pending : Pending α) : Prop :=
  ∀ address ∈ pending.addresses, pending.waitingAt address ≠ []

theorem tidy_empty : (empty : Pending α).Tidy := by
  intro address member
  simp [addresses, empty] at member

theorem Tidy.perform {pending : Pending α} (tidy : pending.Tidy) (operation : Operation ι α) :
    (pending.perform operation).Tidy := by
  intro other member
  cases operation with
  | register address entry =>
    rw [Pending.perform, waitingAt_register]
    split
    next => simp
    next distinct =>
      refine tidy other (Std.TreeMap.mem_keys.2 ?_)
      have kept := Std.TreeMap.mem_insert.1 (Std.TreeMap.mem_keys.1 member)
      exact kept.resolve_left (mt Std.compare_eq_iff_eq.1 distinct)
  | take address taker =>
    obtain ⟨distinct, kept⟩ := Std.TreeMap.mem_erase.1 (Std.TreeMap.mem_keys.1 member)
    rw [Pending.perform, waitingAt_release, if_neg (mt Std.compare_eq_iff_eq.2 distinct)]
    exact tidy other (Std.TreeMap.mem_keys.2 kept)

theorem tidy_after (operations : List (Operation ι α)) : (after operations).Tidy := by
  induction operations using List.reverseRecOn with
  | nil => exact tidy_empty
  | append_singleton operations operation induction =>
    rw [after_concat]
    exact induction.perform operation

theorem mem_addresses_after {address : Address} :
    address ∈ (after operations).addresses ↔
      ∃ registration ∈ untaken operations, registration.address = address := by
  have waits_iff : (after operations).waitingAt address ≠ [] ↔
      ∃ registration ∈ untaken operations, registration.address = address := by
    rw [holds_after operations address, entriesAt_map_waits, Ne, List.map_eq_nil_iff,
      List.filter_eq_nil_iff]
    simp
  rw [← waits_iff]
  refine ⟨tidy_after operations address, fun waits => ?_⟩
  by_contra absent
  exact waits (Std.TreeMap.getD_eq_fallback (mt Std.TreeMap.mem_keys.2 absent))

theorem pairwise_addresses (pending : Pending α) : pending.addresses.Pairwise (· < ·) :=
  Std.TreeMap.ordered_keys.imp Std.compare_eq_lt.1

/-- Entries are conserved, whatever is done to a fresh table.  A take returns, in the order of their
registration, the entries for which it is the first later take of their address, and so each entry
is returned by that take and by no other one.  At every moment the entries that wait are those not
returned yet; checking that nothing is left gives their number, and reports it as an error, with
their addresses, exactly when it is not zero. -/
theorem entries_conserved (operations : List (Operation ι α)) :
    (∀ (registration : Registration α) (position : Nat),
      registration.takenAt? operations = some position ↔
        registration.position < position ∧ TakesAt operations registration.address position ∧
          ∀ between, registration.position < between → between < position →
            ¬ TakesAt operations registration.address between) ∧
    (answers operations = (List.range operations.length).map fun position =>
      ((registrations operations).filter (·.takenAt? operations = some position)).map
        Registration.entry) ∧
    ∀ count,
      let past := operations.take count
      let left := (registrations past).filter (·.takenAt? past = none)
      let table := after past
      table.residual = left.length ∧
      (registrations past).length = (answers past).flatten.length + table.residual ∧
      ∀ {σ : Type} (state : σ) (what method : String),
        ∃ addresses : List Address,
          let found := Notice.method method (.residual what left.length addresses)
          addresses.Pairwise (· < ·) ∧
          (∀ address, address ∈ addresses ↔ ∃ entry ∈ left, entry.address = address) ∧
          found.level = .error ∧
          (table.reportResidual what method).run state =
            ⟨left.length, state, if 0 < left.length then [.notice found] else []⟩ := by
  refine ⟨fun _ _ => takenAt?_eq_some_iff, answers_eq operations, fun count => ?_⟩
  intro past left table
  have residual_eq : table.residual = left.length := by
    rw [(holds_after past).residual_eq, List.length_map]
    rfl
  refine ⟨residual_eq, ?_, fun state what method => ?_⟩
  · rw [residual_eq]
    exact length_registrations past
  · refine ⟨table.addresses, table.pairwise_addresses, fun _ => mem_addresses_after, rfl, ?_⟩
    rw [run_reportResidual, residual_eq]

/-- Entries of one address are returned together, and one that comes later waits. -/
example :
    answers [.register 8 'a', .register 8 'b', .take 8 (), .register 8 'c', .take 12 ()] =
      [[], [], ['a', 'b'], [], []] :=
  rfl

end DalvikFacts.Pending
