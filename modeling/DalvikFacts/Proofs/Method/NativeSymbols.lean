import DalvikFacts.Proofs.Identifier
import DalvikFacts.Proofs.Method.CallingConvention

/-!
# Symbols of native methods

A native method is linked under the words of its class and of its name, joined by underscores.  The
dots of a class and the underscores of a name look alike in a symbol, so methods whose words are the
same share one, however the words are put together.  Where no name has an underscore, the symbol
tells the class and the name.
-/

namespace DalvikFacts

namespace Identifier

/-! ## Words -/

/-- The words of a class name: what stands between its dots and underscores. -/
def ownerWords (owner : String) : List (List Char) :=
  owner.toList.splitOnP fun c => c = '.' || c = '_'

/-- The words of a method name: what stands between its underscores. -/
def nameWords (name : String) : List (List Char) :=
  name.toList.splitOn '_'

/-- A character of a class name in a symbol. -/
def linkedChar (c : Char) : Char :=
  if c = '.' then '_' else c

theorem toList_nativeSymbol (owner name : String) :
    (nativeSymbol owner name).toList =
      "Java_".toList ++ (owner.toList.map linkedChar ++ '_' :: name.toList) := by
  simp only [nativeSymbol, String.toList_append, String.toList_ofList, List.append_assoc]
  rfl

theorem nativeSymbol_eq_iff_linked {owner name other method : String} :
    nativeSymbol owner name = nativeSymbol other method ↔
      owner.toList.map linkedChar ++ '_' :: name.toList =
        other.toList.map linkedChar ++ '_' :: method.toList := by
  rw [← String.toList_inj, toList_nativeSymbol, toList_nativeSymbol, List.append_cancel_left_eq]

theorem splitOn_map_linkedChar (letters : List Char) :
    (letters.map linkedChar).splitOn '_' = letters.splitOnP fun c => c = '.' || c = '_' := by
  induction letters with
  | nil => rfl
  | cons c rest induction =>
    rw [List.map_cons, List.splitOn_cons_eq_if_modifyHead, List.splitOnP_cons_eq_if_modifyHead,
      induction, linkedChar]
    by_cases dot : c = '.' <;> simp [dot]

theorem nativeSymbol_eq_iff {owner name other method : String} :
    nativeSymbol owner name = nativeSymbol other method ↔
      ownerWords owner ++ nameWords name = ownerWords other ++ nameWords method := by
  have words : ∀ owner name : String,
      (owner.toList.map linkedChar ++ '_' :: name.toList).splitOn '_' =
        ownerWords owner ++ nameWords name := by
    intro owner name
    rw [List.splitOn_append_cons_self, splitOn_map_linkedChar]
    rfl
  rw [nativeSymbol_eq_iff_linked, ← words, ← words]
  refine ⟨congrArg _, fun same => ?_⟩
  have joined := congrArg (List.intercalate ['_']) same
  rwa [List.intercalate_splitOn, List.intercalate_splitOn] at joined

theorem nativeSymbol_eq_iff_of_owner {owner name method : String} :
    nativeSymbol owner name = nativeSymbol owner method ↔ name = method := by
  rw [nativeSymbol_eq_iff_linked, List.append_cancel_left_eq, List.cons_inj_right,
    String.toList_inj]

theorem map_linkedChar_inj {letters others : List Char} (letters_free : '_' ∉ letters)
    (others_free : '_' ∉ others) (same : letters.map linkedChar = others.map linkedChar) :
    letters = others := by
  have read_back : ∀ {letters : List Char}, '_' ∉ letters →
      (letters.map linkedChar).map (fun c => if c = '_' then '.' else c) = letters := by
    intro letters free
    rw [List.map_map]
    refine (List.map_congr_left fun c member => ?_).trans (List.map_id letters)
    have no_underscore : c ≠ '_' := fun same => free (same ▸ member)
    by_cases dot : c = '.' <;> simp [linkedChar, dot, no_underscore]
  rw [← read_back letters_free, same, read_back others_free]

theorem nativeSymbol_eq_iff_of_not_mem {owner name other method : String}
    (owner_free : '_' ∉ owner.toList) (name_free : '_' ∉ name.toList)
    (other_free : '_' ∉ other.toList) (method_free : '_' ∉ method.toList) :
    nativeSymbol owner name = nativeSymbol other method ↔ owner = other ∧ name = method := by
  rw [nativeSymbol_eq_iff_linked]
  constructor
  · intro same
    obtain ⟨owner_eq, name_eq⟩ := append_cons_inj_of_not_mem name_free method_free same
    exact ⟨String.toList_inj.1 (map_linkedChar_inj owner_free other_free owner_eq),
      String.toList_inj.1 name_eq⟩
  · rintro ⟨rfl, rfl⟩
    rfl

end Identifier

namespace MethodContext

variable {cx : MethodContext}

/-- The rows of the symbol of a method. -/
def symbolRows (cx : MethodContext) : List (List String) :=
  if cx.definition.isNative then [[cx.id, Identifier.nativeSymbol cx.sig.owner cx.sig.name]]
  else []

theorem rowsIn_nativeMethodId_headerOutputs :
    rowsIn .nativeMethodId (factsAmong cx.headerOutputs) = cx.symbolRows := by
  have parameters : (cx.parameters.flatMap fun parameter =>
      rowsIn .nativeMethodId (factsAmong (cx.parameterOutputs parameter))) = [] := by
    rw [List.flatMap_eq_nil_iff]
    intro parameter _
    simp [parameterOutputs, factsAmong_map_row, rowsIn_map]
  have receiver : rowsIn .nativeMethodId (factsAmong cx.thisOutputs) = [] := by simp [thisOutputs]
  have returned : rowsIn .nativeMethodId
      (factsAmong (if !cx.sig.returnsVoid then cx.nativeReturnOutputs else [])) = [] := by
    split <;> simp [nativeReturnOutputs]
  rw [rowsIn_headerOutputs_eq (by decide), parameters, receiver, ite_self, List.nil_append,
    List.nil_append, nativeOutputs, factsAmong_cons_row, rowsIn_cons, returned]
  rfl

theorem rowsOf_nativeMethodId_extract (cache : SignatureCache) :
    rowsOf .nativeMethodId (cx.extract.run.perform cache).events = cx.symbolRows := by
  rw [rowsOf_extract_eq_header (by decide) (by decide), rowsIn_nativeMethodId_headerOutputs]

end MethodContext

open Identifier

/-- Two methods share a symbol exactly when the words of their classes and names are the same: those
of the class end at its dots and underscores, those of the name at its underscores.  So a symbol
tells the names within one class, and it tells class and name where neither has an underscore.  The
extraction of a native method of the class and name has one row with the symbol, and that of another
method none. -/
theorem native_symbols (owner name other method : String) :
    (nativeSymbol owner name = nativeSymbol other method ↔
      ownerWords owner ++ nameWords name = ownerWords other ++ nameWords method) ∧
    (nativeSymbol owner name = nativeSymbol owner method ↔ name = method) ∧
    ('_' ∉ owner.toList → '_' ∉ name.toList → '_' ∉ other.toList → '_' ∉ method.toList →
      (nativeSymbol owner name = nativeSymbol other method ↔ owner = other ∧ name = method)) ∧
    ∀ (container : Container) (definition : MethodDef) (ref : MethodRef) (cache : SignatureCache),
      cache.Knows container → container.methodAt definition.method = .ok ref →
      ref.owner.sourceName = owner → ref.name = name →
      rowsOf .nativeMethodId ((definition.extract container).run cache).events =
        if definition.isNative then [[(MethodSig.ofRef ref).id, nativeSymbol owner name]]
        else [] := by
  refine ⟨nativeSymbol_eq_iff, nativeSymbol_eq_iff_of_owner, nativeSymbol_eq_iff_of_not_mem, ?_⟩
  rintro container definition ref cache knows ref_eq rfl rfl
  obtain ⟨cx, create_eq, -, rfl, rfl, sig_eq⟩ := MethodContext.exists_create knows ref_eq
  have run_eq : (cx.definition.extract cx.container).run.perform cache = _ :=
    Extract.perform_bind_of_ok cache create_eq
  obtain ⟨-, -, quiet, -⟩ := cx.create_outcome create_eq
  have outcome_eq : (cx.definition.extract cx.container).run cache = _ := run_eq
  rw [outcome_eq, rowsOf_append, quiet.rowsOf_eq_nil List.not_mem_nil, List.nil_append,
    MethodContext.rowsOf_nativeMethodId_extract, MethodContext.symbolRows, MethodContext.id,
    sig_eq]
  rfl

/-- Two classes, the name of one of which begins with that of the other. -/
def linkedContainer : Container :=
  { loneContainer with
    methods := #[⟨.object "a/b", "c", [], .void⟩, ⟨.object "a", "b_c", [], .void⟩] }

/-- The native method with an index. -/
def linkedMethod (method : Nat) : MethodDef :=
  { loneMethod [] with method, flags := ⟨0x109⟩, code := none }

/-- Native methods of two classes are bound to one symbol, as one of the names has an underscore;
methods without underscores are not. -/
theorem native_symbols_linked :
    let rowsOfMethod (method : Nat) :=
      rowsOf .nativeMethodId (((linkedMethod method).extract linkedContainer).run .empty).events
    rowsOfMethod 0 = [["<a.b: void c()>", "Java_a_b_c"]] ∧
      rowsOfMethod 1 = [["<a: void b_c()>", "Java_a_b_c"]] ∧
      nativeSymbol "a.b" "c" ≠ nativeSymbol "a" "b" := by
  obtain ⟨-, -, told, rows⟩ := native_symbols "a.b" "c" "a" "b"
  obtain ⟨-, -, -, other_rows⟩ := native_symbols "a" "b_c" "a.b" "c"
  refine ⟨?_, ?_, fun same => ?_⟩
  · exact rows linkedContainer (linkedMethod 0) _ .empty SignatureCache.knows_empty rfl rfl rfl
  · exact other_rows linkedContainer (linkedMethod 1) _ .empty SignatureCache.knows_empty
      rfl rfl rfl
  · obtain ⟨owner_eq, -⟩ :=
      (told (by decide) (by decide) (by decide) (by decide)).1 same
    exact absurd owner_eq (by decide)

/-- Whether a character is an ASCII letter, an underscore or a dollar sign. -/
def Identifier.isLetter (c : Char) : Bool :=
  c.isAlpha || c = '_' || c = '$'

/-- Whether characters are an identifier: a letter, and then letters and digits. -/
def Identifier.isIdentifier : List Char → Bool
  | [] => false
  | first :: rest => isLetter first && rest.all fun c => isLetter c || c.isDigit

/-- Whether a text is a class name: identifiers separated by dots. -/
def Identifier.isClassName (text : String) : Bool :=
  (text.toList.splitOn '.').all isIdentifier

/-- Method `b_c` of class `a` and method `c` of class `a.b` have the same symbol. -/
theorem native_symbols_merged :
    ¬ ∀ owner name other method : String, isClassName owner → isIdentifier name.toList →
      isClassName other → isIdentifier method.toList →
      nativeSymbol owner name = nativeSymbol other method → owner = other ∧ name = method := by
  intro told
  obtain ⟨owner_eq, -⟩ := told "a" "b_c" "a.b" "c" (by decide) (by decide) (by decide) (by decide)
    (by decide)
  exact absurd owner_eq (by decide)

end DalvikFacts
