import DalvikFacts.Proofs.Memo
import Mathlib.Data.Set.Card
import Mathlib.Logic.Function.Basic

/-!
# Crowds around a memo

Workers who look up keys in one memo take their steps in any order.  A look-up reads the memo, and
adds the value of its key in a second step if it has missed it; others may have added the value in
between.  Every worker gets the object that was added first, so there is one for each key.
-/

namespace DalvikFacts

theorem Memo.encard_keys {κ α : Type} [BEq κ] [Hashable κ] [LawfulBEq κ] (memo : Memo κ α) :
    {key | ∃ shared, memo.find? key = some shared}.encard = memo.size := by
  classical
  have keys_eq : {key | ∃ shared, memo.find? key = some shared} = memo.entries.keys.toFinset := by
    ext key
    rw [Set.mem_ofPred_eq, ← mem_entries_iff, Finset.mem_coe, List.mem_toFinset,
      Std.HashMap.mem_keys]
  rw [keys_eq, Set.encard_coe_eq_coe_finsetCard,
    List.toFinset_card_of_nodup Std.HashMap.nodup_keys, Std.HashMap.length_keys, size]

/-! ## Phases of a look-up -/

/-- What a look-up has left to do: to read the memo, to add what it has missed, or nothing. -/
inductive Phase (κ α : Type)
  | reading (key : κ)
  | adding (key : κ) (value : α)
  | returned (outcome : Except MissingEntry (Shared α))

namespace Phase

variable {κ α : Type}

/-- The first phase of a look-up, whose key may be missing. -/
def opening : Except MissingEntry κ → Phase κ α
  | .ok key => reading key
  | .error missing => returned (.error missing)

/-- The turns that a look-up takes at most. -/
def turnsLeft : Phase κ α → Nat
  | reading _ => 2
  | adding _ _ => 1
  | returned _ => 0

theorem turnsLeft_opening (wanted : Except MissingEntry κ) :
    (opening wanted : Phase κ α).turnsLeft ≤ 2 := by
  cases wanted with
  | ok key => exact Nat.le_refl 2
  | error missing => exact Nat.zero_le 2

variable [BEq κ] [Hashable κ]

/-- A step of a look-up, which makes the value of a key that it misses. -/
def advance (make : κ → Except MissingEntry α) (memo : Memo κ α) :
    Phase κ α → Phase κ α × Memo κ α
  | reading key =>
    match memo.find? key with
    | some found => (returned (.ok found), memo)
    | none =>
      match make key with
      | .ok value => (adding key value, memo)
      | .error missing => (returned (.error missing), memo)
  | adding key value => (returned (.ok (memo.findOrAdd key value).1), (memo.findOrAdd key value).2)
  | returned outcome => (returned outcome, memo)

/-- A phase that a look-up of a key may be in. -/
def Fits (make : κ → Except MissingEntry α) (memo : Memo κ α) (wanted : Except MissingEntry κ) :
    Phase κ α → Prop
  | reading key => wanted = .ok key
  | adding key value => wanted = .ok key ∧ make key = .ok value
  | returned (.ok shared) => ∃ key, wanted = .ok key ∧ memo.find? key = some shared
  | returned (.error missing) => wanted.bind make = .error missing

variable {make : κ → Except MissingEntry α} {memo : Memo κ α} {wanted : Except MissingEntry κ}
  {phase : Phase κ α}

theorem fits_opening : (opening wanted).Fits make memo wanted := by
  cases wanted with
  | ok key => rfl
  | error missing => rfl

theorem turnsLeft_advance (make : κ → Except MissingEntry α) (memo : Memo κ α) (phase : Phase κ α) :
    (phase.advance make memo).1.turnsLeft ≤ phase.turnsLeft - 1 := by
  cases phase with
  | reading key =>
    rw [advance]
    split
    next => exact Nat.zero_le _
    next => split <;> simp [turnsLeft]
  | _ => exact Nat.zero_le _

theorem Fits.mono {grown : Memo κ α} (fits : phase.Fits make memo wanted)
    (kept : ∀ {key shared}, memo.find? key = some shared → grown.find? key = some shared) :
    phase.Fits make grown wanted := by
  match phase, fits with
  | reading key, fits => exact fits
  | adding key value, fits => exact fits
  | returned (.ok shared), ⟨key, wanted_eq, found⟩ => exact ⟨key, wanted_eq, kept found⟩
  | returned (.error missing), fits => exact fits

end Phase

/-! ## Crowds around a memo -/

/-- Workers who look up keys in one memo. -/
structure Crowd (ι κ α : Type) [BEq κ] [Hashable κ] where
  memo : Memo κ α
  phases : ι → Phase κ α

namespace Crowd

variable {ι κ α : Type} [BEq κ] [Hashable κ]

/-- Nothing is looked up yet. -/
def start (wanted : ι → Except MissingEntry κ) : Crowd ι κ α where
  memo := .empty
  phases i := .opening (wanted i)

/-- Every object has a place of its own, is good for its key and was given to a worker who asked for
it, and no worker has got anything else. -/
structure Sound (make : κ → Except MissingEntry α) (wanted : ι → Except MissingEntry κ)
    (crowd : Crowd ι κ α) : Prop where
  numbered : crowd.memo.Numbered
  made : crowd.memo.Keeps fun key value => make key = .ok value
  fits : ∀ i, (crowd.phases i).Fits make crowd.memo (wanted i)
  asked : ∀ {key shared}, crowd.memo.find? key = some shared →
    ∃ i, wanted i = .ok key ∧ crowd.phases i = .returned (.ok shared)

variable {make : κ → Except MissingEntry α} {wanted : ι → Except MissingEntry κ}
  {crowd : Crowd ι κ α} {i j : ι}

theorem sound_start : (start wanted : Crowd ι κ α).Sound make wanted where
  numbered := Memo.numbered_empty
  made := Memo.keeps_empty
  fits _ := Phase.fits_opening
  asked found := by cases Memo.find?_empty.symm.trans found

/-! ### What the workers get -/

section Outcomes

variable (sound : crowd.Sound make wanted)

include sound

theorem Sound.found {shared : Shared α} (returned_eq : crowd.phases i = .returned (.ok shared)) :
    ∃ key, wanted i = .ok key ∧ crowd.memo.find? key = some shared := by
  have fits := sound.fits i
  rwa [returned_eq] at fits

/-- A look-up gets the contents of its key, or the reason why there are none. -/
theorem Sound.contents {outcome : Except MissingEntry (Shared α)}
    (returned_eq : crowd.phases i = .returned outcome) :
    outcome.map Shared.value = (wanted i).bind make := by
  cases outcome with
  | error missing =>
    have fits := sound.fits i
    rw [returned_eq] at fits
    exact fits.symm
  | ok shared =>
    obtain ⟨key, wanted_eq, found⟩ := sound.found returned_eq
    rw [wanted_eq]
    exact (sound.made key shared found).symm

/-- Two look-ups get one object exactly when they ask for the same key. -/
theorem Sound.slot_eq_iff {first second : Shared α}
    (first_eq : crowd.phases i = .returned (.ok first))
    (second_eq : crowd.phases j = .returned (.ok second)) :
    first.slot = second.slot ↔ wanted i = wanted j := by
  obtain ⟨key, wanted_eq, found⟩ := sound.found first_eq
  obtain ⟨other, other_eq, other_found⟩ := sound.found second_eq
  constructor
  · intro slot_eq
    rw [wanted_eq, other_eq, sound.numbered.injective found other_found slot_eq]
  · intro same
    have key_eq : key = other := by
      rw [wanted_eq, other_eq] at same
      exact Except.ok.inj same
    rw [key_eq, other_found] at found
    cases found
    rfl

variable [LawfulBEq κ] in
/-- There is one object for each key that some look-up has found. -/
theorem Sound.encard_found :
    {key | ∃ i shared, wanted i = .ok key ∧ crowd.phases i = .returned (.ok shared)}.encard =
      crowd.memo.size := by
  rw [← Memo.encard_keys]
  congr 1
  ext key
  constructor
  · rintro ⟨i, shared, wanted_eq, returned_eq⟩
    obtain ⟨other, other_eq, found⟩ := sound.found returned_eq
    rw [wanted_eq] at other_eq
    cases other_eq
    exact ⟨shared, found⟩
  · rintro ⟨shared, found⟩
    obtain ⟨i, wanted_eq, returned_eq⟩ := sound.asked found
    exact ⟨i, shared, wanted_eq, returned_eq⟩

end Outcomes

/-! ### Turns -/

section Turns

variable [DecidableEq ι]

/-- What has become of the phase of one worker and of the memo. -/
def move (crowd : Crowd ι κ α) (i : ι) (moved : Phase κ α × Memo κ α) : Crowd ι κ α where
  memo := moved.2
  phases := Function.update crowd.phases i moved.1

/-- A worker takes a step. -/
def turn (make : κ → Except MissingEntry α) (crowd : Crowd ι κ α) (i : ι) : Crowd ι κ α :=
  crowd.move i ((crowd.phases i).advance make crowd.memo)

/-- What the workers have come to after some turns. -/
def after (make : κ → Except MissingEntry α) (wanted : ι → Except MissingEntry κ)
    (turns : List ι) : Crowd ι κ α :=
  turns.foldl (turn make) (start wanted)

theorem after_concat (turns : List ι) (i : ι) :
    (after make wanted (turns ++ [i]) : Crowd ι κ α) = (after make wanted turns).turn make i :=
  List.foldl_concat ..

variable {moved : Phase κ α × Memo κ α}

theorem phases_move_self : (crowd.move i moved).phases i = moved.1 :=
  Function.update_self ..

theorem phases_move_of_ne (other : j ≠ i) : (crowd.move i moved).phases j = crowd.phases j :=
  Function.update_of_ne other ..

/-- A worker goes on without changing the memo. -/
theorem Sound.move (sound : crowd.Sound make wanted) {phase : Phase κ α}
    (fits : phase.Fits make crowd.memo (wanted i))
    (still : ∀ shared, crowd.phases i = .returned (.ok shared) →
      phase = .returned (.ok shared)) :
    (crowd.move i (phase, crowd.memo)).Sound make wanted where
  numbered := sound.numbered
  made := sound.made
  fits j := by
    by_cases own : j = i
    · subst own
      rwa [phases_move_self]
    · rw [phases_move_of_ne own]
      exact sound.fits j
  asked found := by
    obtain ⟨j, wanted_eq, returned_eq⟩ := sound.asked found
    refine ⟨j, wanted_eq, ?_⟩
    by_cases own : j = i
    · subst own
      rw [phases_move_self]
      exact still _ returned_eq
    · rwa [phases_move_of_ne own]

/-- Two turns are enough for a look-up. -/
theorem turnsLeft_after (turns : List ι) (i : ι) :
    ((after make wanted turns : Crowd ι κ α).phases i).turnsLeft ≤ 2 - turns.count i := by
  induction turns using List.reverseRecOn with
  | nil => exact Phase.turnsLeft_opening (wanted i)
  | append_singleton turns j induction =>
    rw [after_concat, turn, List.count_append]
    by_cases own : i = j
    · subst own
      rw [phases_move_self, List.count_singleton_self]
      have less := Phase.turnsLeft_advance make (after make wanted turns).memo
        ((after make wanted turns).phases i)
      omega
    · rw [phases_move_of_ne own, List.count_singleton, if_neg (by simpa using Ne.symm own)]
      exact induction

/-- A look-up that does not find its key leaves the memo as it is. -/
theorem Sound.memo_turn (sound : crowd.Sound make wanted) {missing : MissingEntry}
    (lost : (wanted i).bind make = .error missing) :
    (crowd.turn make i).memo = crowd.memo := by
  have fits := sound.fits i
  rw [Crowd.turn, Crowd.move]
  cases phase_eq : crowd.phases i with
  | reading key =>
    rw [Phase.advance]
    cases crowd.memo.find? key with
    | some found => rfl
    | none => cases make key <;> rfl
  | adding key value =>
    rw [phase_eq] at fits
    rw [fits.1] at lost
    cases fits.2.symm.trans lost
  | returned outcome => rfl

variable [LawfulBEq κ]

/-- A worker adds what was missing, unless somebody has added it meanwhile. -/
theorem Sound.add (sound : crowd.Sound make wanted) {key : κ} {value : α}
    (phase_eq : crowd.phases i = .adding key value) :
    (crowd.move i ((Phase.adding key value).advance make crowd.memo)).Sound make wanted := by
  have fits := sound.fits i
  rw [phase_eq] at fits
  obtain ⟨wanted_eq, made_eq⟩ := fits
  constructor
  case numbered => exact sound.numbered.findOrAdd
  case made => exact (sound.made.findOrAdd made_eq).2
  case fits =>
    intro j
    by_cases own : j = i
    · subst own
      rw [phases_move_self]
      exact ⟨key, wanted_eq, Memo.find?_findOrAdd_eq_some_iff.2 (.inr ⟨rfl, rfl⟩)⟩
    · rw [phases_move_of_ne own]
      exact (sound.fits j).mono fun found => Memo.find?_findOrAdd_eq_some_iff.2 (.inl found)
  case asked =>
    intro other shared found
    rcases Memo.find?_findOrAdd_eq_some_iff.1 found with old | ⟨rfl, rfl⟩
    · obtain ⟨j, asked_eq, returned_eq⟩ := sound.asked old
      -- whoever has an old object is somebody else, as this worker has returned only now
      have own : j ≠ i := by
        rintro rfl
        rw [phase_eq] at returned_eq
        cases returned_eq
      exact ⟨j, asked_eq, (phases_move_of_ne own).trans returned_eq⟩
    · exact ⟨i, wanted_eq, phases_move_self⟩

theorem Sound.turn (sound : crowd.Sound make wanted) (i : ι) :
    (crowd.turn make i).Sound make wanted := by
  have fits := sound.fits i
  rw [Crowd.turn]
  cases phase_eq : crowd.phases i with
  | reading key =>
    rw [phase_eq] at fits
    -- nobody has an object from a worker who reads, so none is lost
    have still : ∀ {phase : Phase κ α}, ∀ shared, crowd.phases i = .returned (.ok shared) →
        phase = .returned (.ok shared) := by
      intro phase shared returned_eq
      rw [phase_eq] at returned_eq
      cases returned_eq
    rw [Phase.advance]
    cases found_eq : crowd.memo.find? key with
    | some found => exact sound.move ⟨key, fits, found_eq⟩ still
    | none =>
      cases made_eq : make key with
      | ok value => exact sound.move ⟨fits, made_eq⟩ still
      | error missing =>
        have wanted_eq : wanted i = .ok key := fits
        have lost : (wanted i).bind make = .error missing := by
          rw [wanted_eq]
          exact made_eq
        exact sound.move lost still
  | adding key value => exact sound.add phase_eq
  | returned outcome =>
    rw [phase_eq] at fits
    exact sound.move fits fun shared returned_eq => phase_eq.symm.trans returned_eq

theorem sound_after (turns : List ι) :
    (after make wanted turns : Crowd ι κ α).Sound make wanted := by
  induction turns using List.reverseRecOn with
  | nil => exact sound_start
  | append_singleton turns i induction =>
    rw [after_concat]
    exact induction.turn i

end Turns

end Crowd
end DalvikFacts
