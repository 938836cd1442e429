import ImageLinker.BuildError

/-!
# Name tables

A one-to-one relation between names and symbols. An entry is never changed or removed, and an entry
whose name or symbol is already taken is refused.
-/

namespace ImageLinker

/-- Names with their symbols, the newest first. -/
structure NameTable where
  entries : List (String × SymbolId) := []
  names_nodup : (entries.map Prod.fst).Nodup := by simp
  ids_nodup : (entries.map Prod.snd).Nodup := by simp
deriving DecidableEq, Repr

namespace NameTable

def size (t : NameTable) : Nat :=
  t.entries.length

def isEmpty (t : NameTable) : Bool :=
  t.entries.isEmpty

/-- The symbol with the given name. -/
def get? (t : NameTable) (name : String) : Option SymbolId :=
  t.entries.lookup name

/-- The name of the given symbol. -/
def name? (t : NameTable) (id : SymbolId) : Option String :=
  (t.entries.find? fun entry => entry.2 == id).map Prod.fst

def contains (t : NameTable) (name : String) : Bool :=
  (t.get? name).isSome

/-- Adds a name, unless it or its symbol is already in the table. -/
def insert (t : NameTable) (name : String) (id : SymbolId) : Except BuildError NameTable :=
  if h : name ∈ t.entries.map Prod.fst ∨ id ∈ t.entries.map Prod.snd then
    .error (.duplicateSymbol name)
  else
    .ok {
      entries := (name, id) :: t.entries
      names_nodup := List.nodup_cons.mpr ⟨fun hn => h (.inl hn), t.names_nodup⟩
      ids_nodup := List.nodup_cons.mpr ⟨fun hi => h (.inr hi), t.ids_nodup⟩ }

/-- The entries in order of their symbols. -/
def sorted (t : NameTable) : List (String × SymbolId) :=
  t.entries.mergeSort fun a b => decide (a.2.index ≤ b.2.index)

end NameTable

/-- The names of a program. Functions and blocks have tables of their own, so that a function may
be named like a block of another. -/
structure Names where
  functions : NameTable := {}
  labels : NameTable := {}
deriving DecidableEq, Repr

namespace Names

/-- The function of the given name, or failing that the block. -/
def lookup? (n : Names) (name : String) : Option SymbolId :=
  n.functions.get? name <|> n.labels.get? name

end Names

end ImageLinker
