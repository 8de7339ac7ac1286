import DalvikFacts.Descriptor

/-!
# Source names told apart

The source name of a type does not always tell the type: a class may be called like a primitive
type, and a dot may stand for a slash.  It does as long as all classes have plain names, which are
no words for other types and hold nothing that source names and identifiers use themselves.
-/

namespace DalvikFacts

theorem Primitive.keyword_injective : Function.Injective Primitive.keyword := by
  intro first second same
  cases first <;> cases second <;> first | rfl | exact absurd same (by decide)

namespace Descriptor

/-- Whether a character separates the parts of source names or of identifiers. -/
def isSeparator (c : Char) : Bool :=
  c == '.' || c == ' ' || c == '(' || c == ','

/-- A class name that is not empty, reads like no other kind of type and holds no separator. -/
structure PlainName (name : String) : Prop where
  nonempty : name ≠ ""
  not_void : name ≠ "void"
  not_keyword : ∀ kind : Primitive, name ≠ kind.keyword
  not_array : ¬ "[]".toList <:+ name.toList
  unseparated : ∀ c ∈ name.toList, isSeparator c = false

/-- A type made of a class of a plain name, or of none. -/
def Plain : Descriptor → Prop
  | void | primitive _ => True
  | object name => PlainName name
  | array element => element.Plain

/-! ## Dotted names -/

theorem toList_dotted (name : String) :
    (dotted name).toList = name.toList.map fun c => if c = '/' then '.' else c := by
  simp [dotted]

theorem mem_dotted {name : String} {c : Char} (member : c ∈ (dotted name).toList)
    (not_dot : c ≠ '.') : c ∈ name.toList := by
  rw [toList_dotted] at member
  obtain ⟨letter, letter_mem, rfl⟩ := List.mem_map.1 member
  split at not_dot
  · exact absurd rfl not_dot
  next not_slash => rwa [if_neg not_slash]

theorem map_dotted {name : String} (free : '.' ∉ name.toList) :
    ((dotted name).toList.map fun c => if c = '.' then '/' else c) = name.toList := by
  rw [toList_dotted, List.map_map]
  refine (List.map_congr_left fun c member => ?_).trans (List.map_id _)
  have not_dot : c ≠ '.' := fun dot => free (dot ▸ member)
  by_cases slash : c = '/'
  · simp [slash]
  · simp [slash, not_dot]

theorem dotted_inj {name other : String} (name_free : '.' ∉ name.toList)
    (other_free : '.' ∉ other.toList) (same : dotted name = dotted other) : name = other := by
  rw [← String.toList_inj, ← map_dotted name_free, ← map_dotted other_free, same]

theorem dotted_of_not_mem {name : String} (free : '/' ∉ name.toList) : dotted name = name := by
  rw [← String.toList_inj, toList_dotted]
  refine (List.map_congr_left fun c member => ?_).trans (List.map_id _)
  have not_slash : c ≠ '/' := fun slash => free (slash ▸ member)
  exact if_neg not_slash

theorem brackets_suffix {name : String} (suffix : "[]".toList <:+ (dotted name).toList) :
    "[]".toList <:+ name.toList := by
  rw [toList_dotted, List.suffix_map_iff] at suffix
  obtain ⟨ending, ending_suffix, dotted_ending⟩ := suffix
  have bracket_of : ∀ c ∈ ending, (if c = '/' then '.' else c) = c := by
    intro c member
    have dotted_mem : (if c = '/' then '.' else c) ∈ "[]".toList := by
      rw [dotted_ending]
      exact List.mem_map_of_mem member
    split at dotted_mem
    · exact absurd dotted_mem (by decide)
    next not_slash => exact if_neg not_slash
  rw [List.map_congr_left bracket_of, List.map_id'] at dotted_ending
  exact dotted_ending ▸ ending_suffix

/-! ## Source names -/

namespace PlainName

variable {name : String} (plain : PlainName name)

include plain

theorem not_mem {c : Char} (separator : isSeparator c = true) : c ∉ name.toList := by
  intro member
  rw [plain.unseparated c member] at separator
  cases separator

theorem dotted_ne {word : String} (word_ne : name ≠ word) (undotted : '.' ∉ word.toList)
    (unslashed : '/' ∉ word.toList) : dotted name ≠ word := by
  intro same
  rw [← dotted_of_not_mem unslashed] at same
  exact word_ne (dotted_inj (plain.not_mem rfl) undotted same)

end PlainName

/-- Separators other than the dot do not stand in source names. -/
theorem Plain.not_mem_sourceName {type : Descriptor} (plain : type.Plain) {c : Char}
    (outer : c ∈ [' ', '(', ',']) : c ∉ type.sourceName.toList := by
  have outer_cases : c = ' ' ∨ c = '(' ∨ c = ',' := by simpa using outer
  induction type with
  | void => rcases outer_cases with rfl | rfl | rfl <;> decide
  | primitive kind => cases kind <;> rcases outer_cases with rfl | rfl | rfl <;> decide
  | object name =>
    intro member
    have separator : isSeparator c = true := by rcases outer_cases with rfl | rfl | rfl <;> rfl
    have not_dot : c ≠ '.' := by rcases outer_cases with rfl | rfl | rfl <;> decide
    exact PlainName.not_mem plain separator (mem_dotted member not_dot)
  | array element induction =>
    rw [sourceName, String.toList_append, List.mem_append, not_or]
    refine ⟨induction plain, ?_⟩
    rcases outer_cases with rfl | rfl | rfl <;> decide

theorem Plain.brackets_suffix_iff {type : Descriptor} (plain : type.Plain) :
    "[]".toList <:+ type.sourceName.toList ↔ type.isArray = true := by
  cases type with
  | void => decide
  | primitive kind => cases kind <;> decide
  | object name =>
    exact iff_of_false (fun suffix => PlainName.not_array plain (brackets_suffix suffix))
      Bool.false_ne_true
  | array element =>
    refine iff_of_true ?_ rfl
    rw [sourceName, String.toList_append]
    exact List.suffix_append ..

theorem Plain.sourceName_ne_array {type element : Descriptor} (plain : type.Plain)
    (array_plain : (array element).Plain) (not_array : type.isArray = false) :
    type.sourceName ≠ (array element).sourceName := by
  intro same
  have brackets := array_plain.brackets_suffix_iff.2 rfl
  rw [← same, plain.brackets_suffix_iff, not_array] at brackets
  cases brackets

theorem Plain.sourceName_ne_empty {type : Descriptor} (plain : type.Plain) :
    type.sourceName ≠ "" := by
  cases type with
  | void => decide
  | primitive kind => cases kind <;> decide
  | object name =>
    intro empty
    have letters := congrArg String.toList empty
    rw [sourceName, toList_dotted] at letters
    exact PlainName.nonempty plain (String.toList_inj.1 (List.map_eq_nil_iff.1 letters))
  | array element =>
    intro empty
    have letters := congrArg String.toList empty
    rw [sourceName, String.toList_append] at letters
    simp at letters

/-- Types made of classes of plain names are told from their source names. -/
theorem Plain.sourceName_inj {type other : Descriptor} (plain : type.Plain)
    (other_plain : other.Plain) (same : type.sourceName = other.sourceName) : type = other := by
  have void_ne : ∀ kind : Primitive, "void" ≠ kind.keyword := by
    intro kind
    cases kind <;> decide
  have object_ne_void : ∀ {name}, PlainName name → dotted name ≠ "void" := fun plain =>
    plain.dotted_ne plain.not_void (by decide) (by decide)
  have object_ne_keyword : ∀ {name}, PlainName name → ∀ kind : Primitive,
      dotted name ≠ kind.keyword := fun plain kind =>
    plain.dotted_ne (plain.not_keyword kind) (by cases kind <;> decide) (by cases kind <;> decide)
  induction type generalizing other with
  | void =>
    cases other with
    | void => rfl
    | primitive kind => exact absurd same (void_ne kind)
    | object name => exact absurd same.symm (object_ne_void other_plain)
    | array => exact absurd same (plain.sourceName_ne_array other_plain rfl)
  | primitive kind =>
    cases other with
    | void => exact absurd same.symm (void_ne kind)
    | primitive second => exact congrArg primitive (Primitive.keyword_injective same)
    | object name => exact absurd same.symm (object_ne_keyword other_plain kind)
    | array => exact absurd same (plain.sourceName_ne_array other_plain rfl)
  | object name =>
    cases other with
    | void => exact absurd same (object_ne_void plain)
    | primitive kind => exact absurd same (object_ne_keyword plain kind)
    | object second =>
      exact congrArg object
        (dotted_inj (PlainName.not_mem plain rfl) (PlainName.not_mem other_plain rfl) same)
    | array => exact absurd same (plain.sourceName_ne_array other_plain rfl)
  | array element induction =>
    cases other with
    | array second =>
      have letters := congrArg String.toList same
      rw [sourceName, sourceName, String.toList_append, String.toList_append] at letters
      have element_eq := String.toList_inj.1 (List.append_cancel_right letters)
      have second_plain : second.Plain := other_plain
      rw [induction plain second_plain element_eq]
    | _ => exact absurd same.symm (other_plain.sourceName_ne_array plain rfl)

end Descriptor
end DalvikFacts
