import DalvikFacts.Proofs.Method.Failure

/-!
# Arguments

The registers of an invocation are split into slots: one for the receiver, and one or two for each
parameter.  They are split exactly when there are enough of them, and then an argument is the
register at the slot where its parameter begins.
-/

namespace DalvikFacts

/-! ## Slots -/

theorem Descriptor.width_pos (type : Descriptor) : 0 < type.width := by
  unfold width
  split <;> omega

theorem Descriptor.totalWidth_append (types others : List Descriptor) :
    totalWidth (types ++ others) = totalWidth types + totalWidth others := by
  induction types with
  | nil => exact (Nat.zero_add _).symm
  | cons type rest induction =>
    rw [List.cons_append, totalWidth, totalWidth, induction]
    omega

/-- The number of slots that a receiver takes, if there is one. -/
def receiverSlots (hasReceiver : Bool) : Nat :=
  if hasReceiver then 1 else 0

/-- The slot where a parameter begins, behind the receiver and the parameters before it. -/
def argumentSlot (hasReceiver : Bool) (params : List Descriptor) (position : Nat) : Nat :=
  receiverSlots hasReceiver + Descriptor.totalWidth (params.take position)

theorem argumentSlot_length (hasReceiver : Bool) (params : List Descriptor) :
    argumentSlot hasReceiver params params.length =
      receiverSlots hasReceiver + Descriptor.totalWidth params := by
  rw [argumentSlot, List.take_length]

theorem argumentSlot_lt (hasReceiver : Bool) {params : List Descriptor} {position : Nat}
    (inside : position < params.length) :
    argumentSlot hasReceiver params position < argumentSlot hasReceiver params params.length := by
  have own := params[position].width_pos
  have total_eq := Descriptor.totalWidth_append (params.take position) (params.drop position)
  rw [List.take_append_drop, List.drop_eq_getElem_cons inside, Descriptor.totalWidth] at total_eq
  rw [argumentSlot_length, argumentSlot]
  omega

/-- The slots of successive parameters, all at once. -/
theorem MethodContext.slotsFrom_eq (slot : Nat) (types : List Descriptor) :
    slotsFrom slot types = (List.range types.length).map fun position =>
      slot + Descriptor.totalWidth (types.take position) := by
  induction types generalizing slot with
  | nil => rfl
  | cons type rest induction =>
    rw [slotsFrom, induction, List.length_cons, List.range_succ_eq_map, List.map_cons, List.map_map]
    refine congrArg (slot :: ·) (List.map_congr_left fun position _ => ?_)
    rw [Function.comp_apply, List.take_succ_cons, Descriptor.totalWidth]
    omega

/-! ## Splitting of registers -/

namespace Arguments

variable {regs : List Reg} {types : List Descriptor}

theorem length_firstRegisters (enough : Descriptor.totalWidth types ≤ regs.length) :
    (firstRegisters regs types).length = types.length := by
  induction types generalizing regs with
  | nil => cases regs <;> rfl
  | cons type rest induction =>
    have own := type.width_pos
    rw [Descriptor.totalWidth] at enough
    cases regs with
    | nil =>
      rw [List.length_nil] at enough
      omega
    | cons reg others =>
      rw [List.length_cons] at enough
      have enough_later : Descriptor.totalWidth rest ≤ (others.drop (type.width - 1)).length := by
        rw [List.length_drop]
        omega
      rw [firstRegisters, List.length_cons, List.length_cons, induction enough_later]

/-- The register of a parameter stands behind those of the parameters before it. -/
theorem getElem?_firstRegisters (enough : Descriptor.totalWidth types ≤ regs.length)
    {position : Nat} (inside : position < types.length) :
    (firstRegisters regs types)[position]? =
      regs[Descriptor.totalWidth (types.take position)]? := by
  induction types generalizing regs position with
  | nil => cases inside
  | cons type rest induction =>
    have own := type.width_pos
    rw [Descriptor.totalWidth] at enough
    cases regs with
    | nil =>
      rw [List.length_nil] at enough
      omega
    | cons reg others =>
      rw [List.length_cons] at enough inside
      cases position with
      | zero => rfl
      | succ position =>
        have enough_later : Descriptor.totalWidth rest ≤ (others.drop (type.width - 1)).length := by
          rw [List.length_drop]
          omega
        have behind : type.width + Descriptor.totalWidth (rest.take position) =
            type.width - 1 + Descriptor.totalWidth (rest.take position) + 1 := by
          omega
        calc
          (firstRegisters (reg :: others) (type :: rest))[position + 1]?
              = (firstRegisters (others.drop (type.width - 1)) rest)[position]? := rfl
          _ = (others.drop (type.width - 1))[Descriptor.totalWidth (rest.take position)]? :=
            induction enough_later (by omega)
          _ = others[type.width - 1 + Descriptor.totalWidth (rest.take position)]? :=
            List.getElem?_drop
          _ = (reg :: others)[type.width + Descriptor.totalWidth (rest.take position)]? := by
            rw [behind, List.getElem?_cons_succ]

end Arguments

namespace ArgumentShape

variable {shape : ArgumentShape}

/-- There are registers for the receiver and for all parameters. -/
def Fits (shape : ArgumentShape) : Prop :=
  argumentSlot shape.hasReceiver shape.params shape.params.length ≤ shape.registers.length

theorem fits_iff : shape.Fits ↔ ¬ shape.lacksReceiver ∧ ¬ shape.lacksArguments := by
  obtain ⟨registers, params, hasReceiver⟩ := shape
  unfold Fits lacksReceiver lacksArguments slots
  rw [argumentSlot_length, receiverSlots]
  cases hasReceiver with
  | false => simp
  | true =>
    cases registers with
    | nil => simp
    | cons receiver others =>
      simp only [List.length_cons, if_true, reduceCtorEq, and_false, not_false_eq_true, true_and]
      omega

theorem shortage?_eq_none_iff (method : String) : shape.shortage? method = none ↔ shape.Fits := by
  rw [fits_iff, ← not_or, ← shape.shortage?_isSome_iff method, Option.not_isSome_iff_eq_none]

theorem split_of_fits (fits : shape.Fits) (method : String) :
    Arguments.split method shape.registers shape.params shape.hasReceiver =
      .ok shape.arguments := by
  rw [shape.split_eq, (shortage?_eq_none_iff method).2 fits]

example : Arguments.split "" [⟨0⟩, ⟨1⟩, ⟨2⟩, ⟨3⟩] [.primitive .long, .primitive .int] true =
    .ok ⟨some ⟨0⟩, [⟨1⟩, ⟨3⟩]⟩ :=
  rfl

/-- Registers that do not fit are refused for want of a receiver, or else of arguments. -/
theorem split_of_not_fits (misfit : ¬ shape.Fits) (method : String) :
    Arguments.split method shape.registers shape.params shape.hasReceiver =
      .error (if shape.lacksReceiver then .missingReceiver method
        else .missingArguments method (Descriptor.totalWidth shape.params)
          (shape.registers.length - receiverSlots shape.hasReceiver)) := by
  rw [shape.split_eq, shortage?]
  by_cases lacking : shape.lacksReceiver
  · rw [if_pos lacking, if_pos lacking]
  · have short : shape.lacksArguments := by
      by_contra enough
      exact misfit (fits_iff.2 ⟨lacking, enough⟩)
    rw [if_neg lacking, if_neg lacking, if_pos short]
    rfl

theorem totalWidth_le_of_fits (fits : shape.Fits) :
    Descriptor.totalWidth shape.params ≤
      (shape.registers.drop (receiverSlots shape.hasReceiver)).length := by
  unfold Fits at fits
  rw [argumentSlot_length] at fits
  rw [List.length_drop]
  omega

theorem length_arguments (fits : shape.Fits) :
    shape.arguments.params.length = shape.params.length :=
  Arguments.length_firstRegisters (totalWidth_le_of_fits fits)

theorem getElem?_arguments (fits : shape.Fits) {position : Nat}
    (inside : position < shape.params.length) :
    shape.arguments.params[position]? =
      shape.registers[argumentSlot shape.hasReceiver shape.params position]? := by
  have taken := Arguments.getElem?_firstRegisters (totalWidth_le_of_fits fits) inside
  rw [List.getElem?_drop] at taken
  exact taken

theorem isSome_receiver (fits : shape.Fits) :
    shape.arguments.receiver.isSome = shape.hasReceiver := by
  have received := (fits_iff.1 fits).1
  unfold arguments
  dsimp only
  split
  next receives =>
    cases registers_eq : shape.registers with
    | nil => exact absurd ⟨receives, registers_eq⟩ received
    | cons => exact receives.symm
  next unreceived => simp [unreceived]

/-- With more registers, an invocation hands over the same ones. -/
theorem arguments_surplus (fits : shape.Fits) (surplus : List Reg) :
    let wider := { shape with registers := shape.registers ++ surplus }
    wider.Fits ∧ wider.arguments = shape.arguments := by
  intro wider
  have wider_fits : wider.Fits := by
    unfold Fits at fits ⊢
    rw [List.length_append]
    exact Nat.le_add_right_of_le fits
  have receiver_eq : wider.arguments.receiver = shape.arguments.receiver := by
    have received := (fits_iff.1 fits).1
    change (if shape.hasReceiver then (shape.registers ++ surplus).head? else none) =
      if shape.hasReceiver then shape.registers.head? else none
    split
    next receives =>
      have some_register : shape.registers ≠ [] := fun none => received ⟨receives, none⟩
      rw [List.head?_append_of_ne_nil _ some_register]
    next => rfl
  have params_eq : wider.arguments.params = shape.arguments.params := by
    apply List.ext_getElem?
    intro position
    by_cases inside : position < shape.params.length
    · have slot_lt : argumentSlot shape.hasReceiver shape.params position <
          shape.registers.length :=
        Nat.lt_of_lt_of_le (argumentSlot_lt shape.hasReceiver inside) fits
      rw [getElem?_arguments fits inside, getElem?_arguments wider_fits inside,
        List.getElem?_append_left slot_lt]
    · rw [List.getElem?_eq_none, List.getElem?_eq_none]
      · rw [length_arguments fits]
        omega
      · rw [length_arguments wider_fits]
        exact Nat.not_lt.1 inside
  exact ⟨wider_fits, congrArg₂ Arguments.mk receiver_eq params_eq⟩

theorem settlesTo_split {α : Type} {container : Container} {next : Arguments → Lookup α}
    {outcome : Except ExtractionError α} {method : String} (fits : shape.Fits)
    (rest : (next shape.arguments).SettlesTo container outcome) :
    (Lookup.ofExcept (Arguments.split method shape.registers shape.params shape.hasReceiver) >>=
      next).SettlesTo container outcome := by
  rw [split_of_fits fits method]
  exact .bind_ok (.pure _) rest

end ArgumentShape

/-- A position that is not missing has its entry. -/
theorem Container.exists_entry {α : Type} {container : Container} {table : Table} {index : Nat}
    (entries : Array α) (size_eq : container.tableSize table = entries.size)
    (present : ¬ container.lacks ⟨table, index⟩) :
    ∃ found, entries[index]? = some found ∧ Container.entry table entries index = .ok found := by
  rcases Container.entry_cases table entries index with
    ⟨found, get_eq, found_eq, -⟩ | ⟨-, -, beyond⟩
  · exact ⟨found, get_eq, found_eq⟩
  · refine absurd ?_ present
    rw [Container.lacks, size_eq]
    exact decide_eq_true beyond

end DalvikFacts
