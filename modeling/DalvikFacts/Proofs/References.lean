import DalvikFacts.Proofs.Descriptor
import DalvikFacts.Proofs.Identifier
import DalvikFacts.Proofs.Signature
import Mathlib.Data.List.Basic

/-!
# References told apart

The identifier of a method or of a field is put together from source names and the member's name,
which may be any text.  A plain source name ends before the next blank, and the list of parameters
starts at the last parenthesis and is cut at its commas.  So identifiers tell entries of the tables
of a container whose types are plain, and no more than that: the source name of a class called
`int` is that of the primitive type.
-/

namespace DalvikFacts

/-- A method reference made of plain types. -/
structure MethodRef.Plain (ref : MethodRef) : Prop where
  owner : ref.owner.Plain
  params : ∀ type ∈ ref.params, type.Plain
  returnType : ref.returnType.Plain

/-- A field reference made of plain types. -/
structure FieldRef.Plain (ref : FieldRef) : Prop where
  owner : ref.owner.Plain
  type : ref.type.Plain

namespace Identifier

/-- Names that hold no commas are told from the list of them, apart from a single empty name. -/
theorem commaList_inj {names others : List String}
    (names_free : ∀ name ∈ names, ',' ∉ name.toList ∧ name ≠ "")
    (others_free : ∀ name ∈ others, ',' ∉ name.toList ∧ name ≠ "")
    (same : commaList names = commaList others) : names = others := by
  -- Cutting the list gives the names back, but it gives one empty name for no names.
  have cut : ∀ names : List String, (∀ name ∈ names, ',' ∉ name.toList ∧ name ≠ "") →
      (commaList names).toList.splitOn ',' =
        if names = [] then [[]] else names.map String.toList := by
    intro names free
    unfold commaList
    rw [String.toList_intercalate]
    split
    next none_eq => rw [none_eq]; rfl
    next some_ne =>
      refine List.splitOn_intercalate ',' ?_ (List.map_eq_nil_iff.not.2 some_ne)
      intro letters member
      obtain ⟨name, name_mem, rfl⟩ := List.mem_map.1 member
      exact (free name name_mem).1
  have not_blank : ∀ names : List String, (∀ name ∈ names, ',' ∉ name.toList ∧ name ≠ "") →
      names.map String.toList ≠ [[]] := by
    intro names free blank
    obtain ⟨name, rfl, letters⟩ := List.map_eq_singleton_iff.1 blank
    exact (free name (List.mem_singleton_self _)).2 (String.toList_inj.1 letters)
  have pieces := congrArg (fun text => text.toList.splitOn ',') same
  simp only [cut names names_free, cut others others_free] at pieces
  split at pieces <;> split at pieces
  next names_eq others_eq => rw [names_eq, others_eq]
  next => exact absurd pieces.symm (not_blank others others_free)
  next => exact absurd pieces (not_blank names names_free)
  next => exact List.map_injective_iff.2 (fun _ _ => String.toList_inj.1) pieces

variable {owner type name : String} {params : List String}

theorem toList_parenthesized (names : List String) :
    (parenthesized names).toList = '(' :: (commaList names).toList ++ [')'] := by
  unfold parenthesized
  rw [String.toList_append, String.toList_append]
  rfl

theorem toList_field (owner type name : String) :
    (field owner type name).toList =
      '<' :: (owner.toList ++ ':' :: ' ' :: (type.toList ++ ' ' :: (name.toList ++ ['>']))) := by
  simp [field]

theorem method_eq_field (owner type name : String) (params : List String) :
    method owner type name params = field owner type (name ++ parenthesized params) := by
  simp [method, field, String.append_assoc]

theorem field_inj {other kind member : String}
    (owner_free : ' ' ∉ owner.toList) (other_free : ' ' ∉ other.toList)
    (type_free : ' ' ∉ type.toList) (kind_free : ' ' ∉ kind.toList)
    (same : field owner type name = field other kind member) :
    owner = other ∧ type = kind ∧ name = member := by
  have letters := congrArg String.toList same
  rw [toList_field, toList_field] at letters
  have rest := List.tail_eq_of_cons_eq letters
  -- The colon belongs to what stands before the first blank.
  rw [List.append_cons, List.append_cons other.toList] at rest
  have colon_free : ∀ {text : String}, ' ' ∉ text.toList → ' ' ∉ text.toList ++ [':'] := by
    intro text free
    simpa using free
  obtain ⟨owner_eq, rest⟩ := append_cons_inj_of_not_mem_left (colon_free owner_free)
    (colon_free other_free) rest
  obtain ⟨type_eq, rest⟩ := append_cons_inj_of_not_mem_left type_free kind_free rest
  exact ⟨String.toList_inj.1 (List.append_cancel_right owner_eq), String.toList_inj.1 type_eq,
    String.toList_inj.1 (List.append_cancel_right rest)⟩

theorem append_parenthesized_inj {member : String} {others : List String}
    (params_free : '(' ∉ (commaList params).toList) (others_free : '(' ∉ (commaList others).toList)
    (same : name ++ parenthesized params = member ++ parenthesized others) :
    name = member ∧ commaList params = commaList others := by
  have letters := congrArg String.toList same
  rw [String.toList_append, String.toList_append, toList_parenthesized, toList_parenthesized]
    at letters
  have closed_free : ∀ {text : String}, '(' ∉ text.toList → '(' ∉ text.toList ++ [')'] := by
    intro text free
    simpa using free
  obtain ⟨name_eq, params_eq⟩ := append_cons_inj_of_not_mem (closed_free params_free)
    (closed_free others_free) letters
  exact ⟨String.toList_inj.1 name_eq, String.toList_inj.1 (List.append_cancel_right params_eq)⟩

end Identifier

theorem Descriptor.paren_not_mem_commaList {types : List Descriptor}
    (plain : ∀ type ∈ types, type.Plain) :
    '(' ∉ (Identifier.commaList (types.map sourceName)).toList := by
  intro member
  rcases mem_toList_intercalate member with comma | ⟨name, name_mem, in_name⟩
  · exact absurd comma (by decide)
  · obtain ⟨type, type_mem, rfl⟩ := List.mem_map.1 name_mem
    exact (plain type type_mem).not_mem_sourceName (by decide) in_name

theorem Descriptor.sourceNames_inj {types others : List Descriptor}
    (plain : ∀ type ∈ types, type.Plain) (others_plain : ∀ type ∈ others, type.Plain)
    (same : types.map sourceName = others.map sourceName) : types = others := by
  induction types generalizing others with
  | nil => exact (List.map_eq_nil_iff.1 same.symm).symm
  | cons type types induction =>
    obtain ⟨other, others, rfl, name_eq, names_eq⟩ := List.map_eq_cons_iff.1 same.symm
    rw [List.forall_mem_cons] at plain others_plain
    rw [plain.1.sourceName_inj others_plain.1 name_eq.symm,
      induction plain.2 others_plain.2 names_eq.symm]

theorem Descriptor.commaList_inj {types others : List Descriptor}
    (plain : ∀ type ∈ types, type.Plain) (others_plain : ∀ type ∈ others, type.Plain)
    (same : Identifier.commaList (types.map sourceName) =
      Identifier.commaList (others.map sourceName)) : types = others := by
  have separate : ∀ {types : List Descriptor}, (∀ type ∈ types, type.Plain) →
      ∀ name ∈ types.map sourceName, ',' ∉ name.toList ∧ name ≠ "" := by
    intro types plain name member
    obtain ⟨type, type_mem, rfl⟩ := List.mem_map.1 member
    exact ⟨(plain type type_mem).not_mem_sourceName (by decide),
      (plain type type_mem).sourceName_ne_empty⟩
  have names_eq := Identifier.commaList_inj (separate plain) (separate others_plain) same
  exact sourceNames_inj plain others_plain names_eq

theorem MethodSig.id_inj {ref other : MethodRef} (plain : ref.Plain) (other_plain : other.Plain)
    (same : (MethodSig.ofRef ref).id = (MethodSig.ofRef other).id) : ref = other := by
  simp only [ofRef, Identifier.method_eq_field] at same
  obtain ⟨owner_eq, return_eq, member_eq⟩ := Identifier.field_inj
    (plain.owner.not_mem_sourceName (by decide)) (other_plain.owner.not_mem_sourceName (by decide))
    (plain.returnType.not_mem_sourceName (by decide))
    (other_plain.returnType.not_mem_sourceName (by decide)) same
  obtain ⟨name_eq, params_eq⟩ := Identifier.append_parenthesized_inj
    (Descriptor.paren_not_mem_commaList plain.params)
    (Descriptor.paren_not_mem_commaList other_plain.params) member_eq
  cases ref
  cases other
  congr
  · exact plain.owner.sourceName_inj other_plain.owner owner_eq
  · exact Descriptor.commaList_inj plain.params other_plain.params params_eq
  · exact plain.returnType.sourceName_inj other_plain.returnType return_eq

theorem FieldSig.id_inj {ref other : FieldRef} (plain : ref.Plain) (other_plain : other.Plain)
    (same : (FieldSig.ofRef ref).id = (FieldSig.ofRef other).id) : ref = other := by
  obtain ⟨owner_eq, type_eq, name_eq⟩ := Identifier.field_inj
    (plain.owner.not_mem_sourceName (by decide)) (other_plain.owner.not_mem_sourceName (by decide))
    (plain.type.not_mem_sourceName (by decide)) (other_plain.type.not_mem_sourceName (by decide))
    same
  cases ref
  cases other
  congr
  · exact plain.owner.sourceName_inj other_plain.owner owner_eq
  · exact plain.type.sourceName_inj other_plain.type type_eq

namespace SignatureCache

variable {container : Container} {cache : SignatureCache}

theorem Knows.run_shared (knows : cache.Knows container) {α : Type} {lookup : Lookup (Shared α)}
    {value : α}
    (settles : (lookup >>= fun shared => pure shared.value).SettlesTo container (.ok value)) :
    (∃ slot, (lookup.run.run.run cache).1 = .ok ⟨slot, value⟩) ∧
      (lookup.run.run.run cache).2.Knows container := by
  obtain ⟨value_eq, kept⟩ := settles.run knows
  change ((lookup >>= fun shared => pure shared.value).run.run.run cache).1 = _ at value_eq
  change ((lookup >>= fun shared => pure shared.value).run.run.run cache).2.Knows container at kept
  rw [Lookup.run_bind] at value_eq kept
  generalize lookup.run.run.run cache = found at value_eq kept ⊢
  rcases found with ⟨error | ⟨slot, found⟩, later⟩
  · cases value_eq
  · cases value_eq
    exact ⟨⟨slot, rfl⟩, kept⟩

theorem Knows.method_found (knows : cache.Knows container) {index : Nat} {ref : MethodRef}
    (ref_eq : container.methodAt index = .ok ref) :
    (∃ slot, ((method container index).run.run.run cache).1 = .ok ⟨slot, .ofRef ref⟩) ∧
      ((method container index).run.run.run cache).2.Knows container :=
  knows.run_shared (settlesTo_method_bind ref_eq fun _ value_eq => value_eq ▸ .pure _)

theorem Knows.field_found (knows : cache.Knows container) {index : Nat} {ref : FieldRef}
    (ref_eq : container.fieldAt index = .ok ref) :
    (∃ slot, ((field container index).run.run.run cache).1 = .ok ⟨slot, .ofRef ref⟩) ∧
      ((field container index).run.run.run cache).2.Knows container :=
  knows.run_shared (settlesTo_field_bind ref_eq fun _ value_eq => value_eq ▸ .pure _)

/-- Whatever was looked up before, two look-ups of methods give the same identifier for equal
references only, as long as the references are made of plain types; and so for fields. -/
theorem ids_eq_iff (knows : cache.Knows container) :
    (∀ index position ref other,
      container.methodAt index = .ok ref → container.methodAt position = .ok other →
      ref.Plain → other.Plain →
      let first := (method container index).run.run.run cache
      let second := (method container position).run.run.run first.2
      ∃ sig later : Shared MethodSig, first.1 = .ok sig ∧ second.1 = .ok later ∧
        (sig.value.id = later.value.id ↔ ref = other)) ∧
    ∀ index position ref other,
      container.fieldAt index = .ok ref → container.fieldAt position = .ok other →
      ref.Plain → other.Plain →
      let first := (field container index).run.run.run cache
      let second := (field container position).run.run.run first.2
      ∃ sig later : Shared FieldSig, first.1 = .ok sig ∧ second.1 = .ok later ∧
        (sig.value.id = later.value.id ↔ ref = other) := by
  constructor
  · intro index position ref other ref_eq other_eq plain other_plain first second
    obtain ⟨⟨slot, found⟩, kept⟩ := knows.method_found ref_eq
    obtain ⟨⟨place, later_found⟩, -⟩ := kept.method_found other_eq
    exact ⟨_, _, found, later_found, MethodSig.id_inj plain other_plain, fun same => same ▸ rfl⟩
  · intro index position ref other ref_eq other_eq plain other_plain first second
    obtain ⟨⟨slot, found⟩, kept⟩ := knows.field_found ref_eq
    obtain ⟨⟨place, later_found⟩, -⟩ := kept.field_found other_eq
    exact ⟨_, _, found, later_found, FieldSig.id_inj plain other_plain, fun same => same ▸ rfl⟩

end SignatureCache

/-- Methods and fields that differ in one type, which is `int`, `long` or a class called `int`. -/
def overloads : Container where
  name := "overloads.dex"
  types := #[]
  strings := #[]
  fields := #[⟨.object "a/B", "g", .primitive .int⟩, ⟨.object "a/B", "g", .primitive .long⟩,
    ⟨.object "a/B", "g", .object "int"⟩]
  methods := #[⟨.object "a/B", "f", [.primitive .int], .void⟩,
    ⟨.object "a/B", "f", [.primitive .long], .void⟩, ⟨.object "a/B", "f", [.object "int"], .void⟩]
  protos := #[]
  methodHandles := #[]
  callSites := #[]
  classes := []

/-- An overload for another primitive type has an identifier of its own. -/
theorem ids_eq_iff_overloads :
    let owner := Descriptor.object "a/B"
    let int : MethodRef := ⟨owner, "f", [.primitive .int], .void⟩
    let long : MethodRef := ⟨owner, "f", [.primitive .long], .void⟩
    overloads.methodAt 0 = .ok int ∧ overloads.methodAt 1 = .ok long ∧ int.Plain ∧ long.Plain ∧
      let first := (SignatureCache.method overloads 0).run.run.run .empty
      let second := (SignatureCache.method overloads 1).run.run.run first.2
      ∃ sig later : Shared MethodSig, first.1 = .ok sig ∧ second.1 = .ok later ∧
        (sig.value.id = later.value.id ↔ int = long) := by
  have owner_plain : (Descriptor.object "a/B").Plain :=
    ⟨by decide, by decide, fun kind => by cases kind <;> decide, by decide,
      by simp [Descriptor.isSeparator]⟩
  have plain : ∀ kind, MethodRef.Plain ⟨.object "a/B", "f", [.primitive kind], .void⟩ := by
    intro kind
    refine ⟨owner_plain, fun type member => ?_, trivial⟩
    rw [List.mem_singleton.1 member]
    trivial
  exact ⟨rfl, rfl, plain _, plain _,
    (SignatureCache.ids_eq_iff SignatureCache.knows_empty).1 0 1 _ _ rfl rfl (plain _) (plain _)⟩

/-- The overload for a class called `int` is merged with that for the primitive type, and so are
two fields. -/
theorem ids_merged_overloads :
    (∃ ref other, overloads.methodAt 0 = .ok ref ∧ overloads.methodAt 2 = .ok other ∧
      ref.params ≠ other.params ∧ (MethodSig.ofRef ref).id = (MethodSig.ofRef other).id) ∧
    ∃ ref other, overloads.fieldAt 0 = .ok ref ∧ overloads.fieldAt 2 = .ok other ∧
      ref.type ≠ other.type ∧ (FieldSig.ofRef ref).id = (FieldSig.ofRef other).id :=
  ⟨⟨_, _, rfl, rfl, by decide, by decide⟩, _, _, rfl, rfl, by decide, by decide⟩

end DalvikFacts
