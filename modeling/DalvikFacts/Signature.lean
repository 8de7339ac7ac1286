import DalvikFacts.Error
import DalvikFacts.Identifier
import DalvikFacts.Script
import Std.Data.HashMap

/-!
# Signatures

Method and field references with the names they have in facts.  A `SignatureCache` keeps the
signatures made for a container, in the order in which they were first looked up: methods by
reference, so that equal entries of the method table share one signature, and fields by position.
A look-up reads the cache, and adds the signature in a second step if it is not there.
-/

namespace DalvikFacts

/-- A method reference with its names. -/
structure MethodSig where
  id : String
  owner : String
  name : String
  params : List String
  paramTypes : List Descriptor
  returnType : String
  returnsVoid : Bool
  descriptor : String
  deriving DecidableEq

/-- A field reference with its names. -/
structure FieldSig where
  id : String
  owner : String
  name : String
  type : String
  deriving DecidableEq

namespace MethodSig

/-- The signature of a method reference. -/
def ofRef (ref : MethodRef) : MethodSig :=
  let owner := ref.owner.sourceName
  let params := ref.params.map Descriptor.sourceName
  let returnType := ref.returnType.sourceName
  { id := Identifier.method owner returnType ref.name params
    owner, name := ref.name, params, paramTypes := ref.params, returnType
    returnsVoid := ref.returnType == .void
    descriptor := ref.descriptor }

/-- The number of parameters. -/
def arity (sig : MethodSig) : Nat := sig.params.length

/-- The class and the name, which is the kind of the instructions that invoke the method. -/
def qualifiedName (sig : MethodSig) : String :=
  sig.owner ++ "." ++ sig.name

/-- The parameter list between parentheses. -/
def paramList (sig : MethodSig) : String :=
  Identifier.parenthesized sig.params

/-- The number of registers of the parameters, without the receiver. -/
def width (sig : MethodSig) : Nat :=
  Descriptor.totalWidth sig.paramTypes

end MethodSig

/-- The signature of a field reference. -/
def FieldSig.ofRef (ref : FieldRef) : FieldSig :=
  let owner := ref.owner.sourceName
  let type := ref.type.sourceName
  { id := Identifier.field owner type ref.name, owner, name := ref.name, type }

/-- A shared object: what it holds, and the place where it is kept. -/
structure Shared (α : Type) where
  slot : Nat
  value : α

/-- Values made once for each key.  They get their places in the order of their first use. -/
structure Memo (κ α : Type) [BEq κ] [Hashable κ] where
  entries : Std.HashMap κ (Shared α)

namespace Memo

variable {κ α : Type} [BEq κ] [Hashable κ]

/-- Nothing is kept. -/
def empty : Memo κ α := ⟨{}⟩

/-- The value kept for a key. -/
def find? (memo : Memo κ α) (key : κ) : Option (Shared α) :=
  memo.entries[key]?

/-- The number of keys. -/
def size (memo : Memo κ α) : Nat := memo.entries.size

/-- The value kept for a key, which is the given one if the key is new. -/
def findOrAdd (memo : Memo κ α) (key : κ) (value : α) : Shared α × Memo κ α :=
  match memo.find? key with
  | some found => (found, memo)
  | none => (⟨memo.size, value⟩, ⟨memo.entries.insert key ⟨memo.size, value⟩⟩)

end Memo

/-- The signatures of a container that were looked up so far. -/
structure SignatureCache where
  methods : Memo MethodRef MethodSig
  fields : Memo Nat FieldSig

/-- A look-up that may fail, and fills the signature cache in atomic steps. -/
abbrev Lookup := ExceptT ExtractionError (Script (StateM SignatureCache))

/-- One access to the signature cache. -/
def Lookup.access {α : Type} (action : StateM SignatureCache α) : Lookup α :=
  ExceptT.lift (.atom action)

/-- An entry of a table, its absence being an extraction error. -/
def Lookup.entry {α : Type} (found : Except MissingEntry α) : Lookup α :=
  match found with
  | .ok value => pure value
  | .error missing => throw (.missingEntry missing)

theorem Lookup.run_bind {α β : Type} (lookup : Lookup α) (next : α → Lookup β)
    (cache : SignatureCache) :
    (lookup >>= next).run.run.run cache =
      match lookup.run.run.run cache with
      | (.ok value, cache) => (next value).run.run.run cache
      | (.error error, cache) => (.error error, cache) := by
  rw [ExceptT.run_bind, Script.run_bind, StateT.run_bind]
  generalize lookup.run.run.run cache = outcome
  rcases outcome with ⟨error | value, cache⟩ <;> rfl

namespace SignatureCache

/-- Nothing was looked up. -/
def empty : SignatureCache := ⟨.empty, .empty⟩

/-- The number of signatures. -/
def size (cache : SignatureCache) : Nat :=
  cache.methods.size + cache.fields.size

/-- The signature of a method reference, which is made if it is not kept yet. -/
def ofMethod (cache : SignatureCache) (ref : MethodRef) : Shared MethodSig × SignatureCache :=
  let (found, methods) := cache.methods.findOrAdd ref (.ofRef ref)
  (found, { cache with methods })

/-- The signature of the field reference at a position, which is made if it is not kept yet. -/
def ofField (cache : SignatureCache) (index : Nat) (ref : FieldRef) :
    Shared FieldSig × SignatureCache :=
  let (found, fields) := cache.fields.findOrAdd index (.ofRef ref)
  (found, { cache with fields })

/-- The signature of the method at a position. -/
def method (container : Container) (index : Nat) : Lookup (Shared MethodSig) := do
  let ref ← Lookup.entry (container.methodAt index)
  match ← Lookup.access fun cache => (cache.methods.find? ref, cache) with
  | some found => return found
  | none => Lookup.access fun cache => cache.ofMethod ref

/-- The signature of the field at a position; one that was looked up before is found at once. -/
def field (container : Container) (index : Nat) : Lookup (Shared FieldSig) := do
  match ← Lookup.access fun cache => (cache.fields.find? index, cache) with
  | some found => return found
  | none =>
    let ref ← Lookup.entry (container.fieldAt index)
    Lookup.access fun cache => cache.ofField index ref

end SignatureCache
end DalvikFacts
