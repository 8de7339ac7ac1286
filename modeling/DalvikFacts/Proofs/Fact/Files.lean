import DalvikFacts.Fact.Store
import DalvikFacts.Proofs.Identifier
import DalvikFacts.Proofs.Reading
import Mathlib.Data.List.Basic

/-!
# Fact files read back

A file is read by cutting it at line breaks, each line at tabulations, and by undoing the escapes of
each column.  Escapes hold neither line breaks nor tabulations, so what is read are the rows that
were added, whatever texts their columns are: a file of facts and a store of the same facts agree.
-/

namespace DalvikFacts

namespace Row

/-! ## Reading -/

/-- The character that is written as a backslash and a letter. -/
def unescapeChar? : Char → Option Char
  | '\\' => some '\\'
  | '"' => some '"'
  | 't' => some '\t'
  | 'n' => some '\n'
  | 'r' => some '\r'
  | _ => none

/-- The characters of a column without its escapes, unless a backslash starts no escape. -/
def unescape? : List Char → Option (List Char)
  | [] => some []
  | ['\\'] => none
  | '\\' :: letter :: rest =>
    match unescapeChar? letter with
    | some c => (c :: ·) <$> unescape? rest
    | none => none
  | c :: rest => (c :: ·) <$> unescape? rest

/-- The columns of a line. -/
def columns? (line : List Char) : Option (List String) :=
  (line.splitOn '\t').mapM fun column => String.ofList <$> unescape? column

/-- The rows of a file, the last of which ends in a line break. -/
def rows? (text : String) : Option (List (List String)) :=
  let lines := text.toList.splitOn '\n'
  if lines.getLast? = some [] then lines.dropLast.mapM columns? else none

/-! ## Writing -/

/-- The line of some columns, without its line break. -/
def body (columns : List String) : String :=
  String.intercalate "\t" (columns.map escape)

/-- The line of some columns. -/
def line (columns : List String) : String :=
  body columns ++ "\n"

theorem escapeChar_of_not_isEscaped {c : Char} (unescaped : isEscaped c = false) :
    escapeChar c = [c] := by
  simp only [isEscaped, Bool.or_eq_false_iff, beq_eq_false_iff_ne] at unescaped
  simp [escapeChar, unescaped]

theorem escape_eq (column : String) :
    escape column = String.ofList (column.toList.flatMap escapeChar) := by
  unfold escape
  split
  · rfl
  next unescaped =>
    have single : ∀ c ∈ column.toList, escapeChar c = [c] := by
      intro c member
      apply escapeChar_of_not_isEscaped
      simpa using fun escaped => unescaped (List.any_eq_true.2 ⟨c, member, escaped⟩)
    rw [List.flatMap_congr single, List.flatMap_singleton', String.ofList_toList]

theorem toList_escape (column : String) :
    (escape column).toList = column.toList.flatMap escapeChar := by
  rw [escape_eq, String.toList_ofList]

theorem not_mem_escape {c : Char} (breaking : c = '\t' ∨ c = '\n') (column : String) :
    c ∉ (escape column).toList := by
  rw [toList_escape, List.mem_flatMap]
  rintro ⟨letter, -, member⟩
  unfold escapeChar at member
  rcases breaking with rfl | rfl <;> split_ifs at member
  all_goals
    first
    | exact absurd member (by decide)
    | exact absurd (List.mem_singleton.1 member).symm ‹_›

namespace Written

variable (written : Written)

theorem add_add (first second : String) :
    (written.add first).add second = written.add (first ++ second) := by
  simp [add, String.append_assoc, Nat.add_assoc]

theorem add_addColumns (first : String) (columns : List String) :
    (written.add first).addColumns columns =
      written.add (String.intercalate "\t" (first :: columns.map escape)) := by
  induction columns generalizing first with
  | nil => rfl
  | cons column columns induction =>
    rw [addColumns, add_add, add_add, induction, List.map_cons, String.intercalate_cons_append,
      String.intercalate_cons_append, String.intercalate_cons_cons, String.append_assoc]

end Written

theorem write_eq (text : String) (columns : List String) :
    write text columns = ⟨text ++ line columns, (line columns).utf8ByteSize⟩ := by
  have start : ∀ piece, Written.add ⟨text, 0⟩ piece = ⟨text ++ piece, piece.utf8ByteSize⟩ := by
    intro piece
    simp [Written.add]
  cases columns with
  | nil => exact start "\n"
  | cons column columns =>
    dsimp only [write]
    rw [Written.add_addColumns, Written.add_add, start]
    rfl

/-! ## Reading what was written -/

theorem unescape?_cons {c : Char} (plain : c ≠ '\\') (rest : List Char) :
    unescape? (c :: rest) = (c :: ·) <$> unescape? rest := by
  rw [unescape?.eq_def]
  split
  next impossible => cases impossible
  next same => exact absurd (List.cons.inj same).1 plain
  next same => exact absurd (List.cons.inj same).1 plain
  next same => cases same; rfl

theorem unescape?_escapeChar_append (c : Char) (rest : List Char) :
    unescape? (escapeChar c ++ rest) = (c :: ·) <$> unescape? rest := by
  by_cases escaped : isEscaped c
  · simp only [isEscaped, Bool.or_eq_true, beq_iff_eq] at escaped
    rcases escaped with (((rfl | rfl) | rfl) | rfl) | rfl <;> rfl
  · have plain : c ≠ '\\' := by
      rintro rfl
      exact escaped rfl
    rw [escapeChar_of_not_isEscaped (Bool.eq_false_iff.2 escaped)]
    exact unescape?_cons plain rest

theorem unescape?_toList_escape (column : String) :
    unescape? (escape column).toList = some column.toList := by
  rw [toList_escape]
  induction column.toList with
  | nil => rfl
  | cons c rest induction =>
    rw [List.flatMap_cons, unescape?_escapeChar_append, induction]
    rfl

theorem columns?_body {columns : List String} (filled : columns ≠ []) :
    columns? (body columns).toList = some columns := by
  have pieces : (body columns).toList.splitOn '\t' =
      columns.map fun column => (escape column).toList := by
    unfold body
    rw [String.toList_intercalate, List.map_map]
    refine List.splitOn_intercalate '\t' ?_ (fun none_eq => filled (List.map_eq_nil_iff.1 none_eq))
    intro piece member
    obtain ⟨column, -, rfl⟩ := List.mem_map.1 member
    exact not_mem_escape (.inl rfl) column
  unfold columns?
  rw [pieces, List.mapM_map]
  have read : ((fun column => String.ofList <$> unescape? column) ∘
      fun column => (escape column).toList) = fun column => pure (id column) := by
    funext column
    rw [Function.comp_apply, unescape?_toList_escape]
    exact congrArg some String.ofList_toList
  rw [read, List.mapM_pure, List.map_id]
  rfl

theorem newline_not_mem_body (columns : List String) : '\n' ∉ (body columns).toList := by
  intro member
  rcases mem_toList_intercalate member with in_tab | ⟨text, text_mem, in_text⟩
  · exact absurd in_tab (by decide)
  · obtain ⟨column, -, rfl⟩ := List.mem_map.1 text_mem
    exact not_mem_escape (.inr rfl) column in_text

theorem rows?_eq (text : String) : rows? text = (Text.lines? text).bind (·.mapM columns?) := by
  unfold rows? Text.lines?
  dsimp only
  split <;> rfl

theorem rows?_join {rows : List (List String)} (filled : ∀ columns ∈ rows, columns ≠ []) :
    rows? (String.join (rows.map line)) = some rows := by
  have unbroken : ∀ text ∈ rows.map body, Text.Unbroken text := by
    intro text member
    obtain ⟨columns, -, rfl⟩ := List.mem_map.1 member
    exact newline_not_mem_body columns
  have lines := Text.lines?_join unbroken
  rw [List.map_map, List.map_map] at lines
  have read : (rows.map fun columns => (body columns).toList).mapM columns? = some rows := by
    clear lines unbroken
    induction rows with
    | nil => rfl
    | cons columns rows induction =>
      rw [List.forall_mem_cons] at filled
      rw [List.map_cons, List.mapM_cons, columns?_body filled.1, induction filled.2]
      rfl
  exact (rows?_eq _).trans ((congrArg (Option.bind · _) lines).trans read)

end Row

/-! ## Adding rows -/

namespace FactFiles

variable (files : FactFiles)

theorem text_add (fact : Fact) (relation : Relation) :
    (files.add fact).text relation =
      files.text relation ++ if fact.relation = relation then Row.line fact.columns else "" := by
  unfold text add
  rw [Std.HashMap.getD_alter]
  by_cases same : fact.relation = relation
  · subst same
    simp [Row.write_eq, Std.HashMap.getD_eq_getD_getElem?]
  · simp [same]

theorem text_foldl_add (facts : List Fact) (relation : Relation) :
    (facts.foldl add files).text relation =
      files.text relation ++ String.join ((rowsIn relation facts).map Row.line) := by
  induction facts generalizing files with
  | nil => simp
  | cons fact facts induction =>
    rw [List.foldl_cons, induction, text_add, rowsIn_cons, List.map_append, String.join_append,
      ← String.append_assoc]
    by_cases same : fact.relation = relation <;> simp [same]

end FactFiles

theorem FactStore.rows_foldl_add (facts : List Fact) (relation : Relation) :
    (facts.foldl add empty).rows relation = rowsIn relation facts := by
  have kept : ∀ store : FactStore, (facts.foldl add store).facts.toList =
      store.facts.toList ++ facts := by
    induction facts with
    | nil => simp
    | cons fact facts induction =>
      intro store
      rw [List.foldl_cons, induction]
      simp [add]
  unfold rows
  rw [kept]
  rfl

/-- What a sink of facts is asked for. -/
inductive SinkCall
  /-- A row of a relation. -/
  | add (relation : Relation) (columns : List String)
  /-- The rows of a string constant. -/
  | stringConstant (constant : String)

namespace SinkCall

/-- The facts that a call adds, in order. -/
def facts : SinkCall → List Fact
  | add relation columns => [⟨relation, columns⟩]
  | stringConstant constant =>
    let raw := StringConstant.encode constant
    let id := StringConstant.identifier raw
    [⟨.stringRaw, [id, raw]⟩, ⟨.stringConstant, [id]⟩]

/-- Makes a call. -/
def emit {σ : Type} : SinkCall → Emit σ Unit
  | add relation columns => Emit.row relation columns
  | stringConstant constant => discard (Emit.stringConstant constant)

theorem factsOf_emit {σ : Type} (call : SinkCall) (state : σ) :
    factsOf (call.emit.run state).events = call.facts := by
  cases call <;> rfl

theorem factsOf_forM_emit {σ : Type} (calls : List SinkCall) (state : σ) :
    factsOf ((calls.forM emit).run state).events = calls.flatMap facts := by
  induction calls generalizing state with
  | nil => rfl
  | cons call calls induction =>
    change factsOf ((call.emit >>= fun _ => calls.forM emit).run state).events = _
    rw [Emit.run_bind, factsOf_append, factsOf_emit, induction, List.flatMap_cons]

theorem columns_ne_nil {calls : List SinkCall} (filled : ∀ relation, add relation [] ∉ calls)
    {fact : Fact} (member : fact ∈ calls.flatMap facts) : fact.columns ≠ [] := by
  obtain ⟨call, call_mem, fact_mem⟩ := List.mem_flatMap.1 member
  cases call with
  | add relation columns =>
    cases List.mem_singleton.1 fact_mem
    rintro rfl
    exact filled relation call_mem
  | stringConstant constant =>
    rcases List.mem_pair.1 fact_mem with rfl | rfl <;> exact List.cons_ne_nil _ _

end SinkCall

/-- After any calls that add at least one column each, the file of a relation is read back as the
rows that a store holds after the same calls, which are those that were added, and it is empty if
there are none.  The bytes of a row are counted as they are written, and a column is written
character by character. -/
theorem files_read_back (calls : List SinkCall) (filled : ∀ relation, .add relation [] ∉ calls) :
    let facts := factsOf ((calls.forM SinkCall.emit : Emit Unit Unit).run ()).events
    let files := facts.foldl FactFiles.add .empty
    let store := facts.foldl FactStore.add .empty
    (∀ relation, Row.rows? (files.text relation) = some (store.rows relation) ∧
      store.rows relation = rowsIn relation (calls.flatMap SinkCall.facts) ∧
      (files.text relation = "" ↔ store.rows relation = [])) ∧
    (∀ text columns, Row.write text columns =
      ⟨text ++ Row.line columns, (Row.line columns).utf8ByteSize⟩) ∧
    ∀ column, Row.escape column = String.ofList (column.toList.flatMap Row.escapeChar) := by
  intro facts files store
  have facts_eq : facts = calls.flatMap SinkCall.facts := SinkCall.factsOf_forM_emit calls ()
  refine ⟨fun relation => ?_, Row.write_eq, Row.escape_eq⟩
  have rows_eq : store.rows relation = rowsIn relation facts :=
    FactStore.rows_foldl_add facts relation
  have text_eq : files.text relation = String.join ((rowsIn relation facts).map Row.line) := by
    refine (FactFiles.text_foldl_add .empty facts relation).trans ?_
    simp [FactFiles.text, FactFiles.empty]
  have columns_ne : ∀ columns ∈ rowsIn relation facts, columns ≠ [] := by
    intro columns member
    obtain ⟨fact, fact_mem, rfl⟩ := List.mem_map.1 member
    exact SinkCall.columns_ne_nil filled (facts_eq ▸ List.mem_of_mem_filter fact_mem)
  have read := Row.rows?_join columns_ne
  rw [rows_eq, text_eq]
  refine ⟨read, facts_eq ▸ rfl, ?_, ?_⟩
  · intro blank
    rw [blank] at read
    exact (Option.some.inj read).symm
  · intro none_eq
    rw [none_eq]
    rfl

/-- Rows of three relations, one of them without rows, with columns that hold what escapes are made
of, what they stand for, and nothing. -/
theorem files_read_back_breaks :
    let calls : List SinkCall :=
      [.add .goto ["a\tb", "\\t", ""], .stringConstant " \n", .add .goto ["\"", "é\r"]]
    let facts := factsOf ((calls.forM SinkCall.emit : Emit Unit Unit).run ()).events
    let files := facts.foldl FactFiles.add .empty
    let store := facts.foldl FactStore.add .empty
    (∀ relation, .add relation [] ∉ calls) ∧
      Row.rows? (files.text .goto) = some (store.rows .goto) ∧
      store.rows .goto = [["a\tb", "\\t", ""], ["\"", "é\r"]] ∧ files.text .branch = "" := by
  intro calls facts files store
  have filled : ∀ relation, SinkCall.add relation [] ∉ calls := by
    intro relation member
    simp [calls] at member
  have back := (files_read_back calls filled).1
  obtain ⟨read, rows_eq, -⟩ := back .goto
  obtain ⟨-, none_eq, blank_iff⟩ := back .branch
  exact ⟨filled, read, rows_eq, blank_iff.2 none_eq⟩

end DalvikFacts
