import FixedFunction.Loader.Basic

/-!
# The loader cache

A cache compiles each vertex format once and keeps the loader under its format.  Entries are
numbered in the order in which they were made, and the number of an entry is the identity of its
loader.

**Results.**
* `Cache.compile`: the number of the loader of a format, or the refusal of the format, and the
  cache afterwards.
-/

namespace FixedFunction

/-- Compiled loaders by their formats. -/
structure Cache where
  /-- The formats with their loaders, in the order of compilation. -/
  entries : Array (VertexFormat × Loader) := #[]

namespace Cache

/-- The cache before any compilation. -/
def empty : Cache := {}

/-- Number of compiled loaders. -/
def size (c : Cache) : Nat :=
  c.entries.size

/-- Whether nothing was compiled. -/
def isEmpty (c : Cache) : Bool :=
  c.size == 0

/-- The loader with the given number. -/
def loader? (c : Cache) (id : Nat) : Option Loader :=
  (c.entries[id]?).map Prod.snd

/-- The number of the entry of a format. -/
def find? (c : Cache) (f : VertexFormat) : Option Nat :=
  c.entries.findIdx? fun e => e.1 = f

/-- The cache with one more entry. -/
def insert (c : Cache) (f : VertexFormat) (l : Loader) : Cache :=
  ⟨c.entries.push (f, l)⟩

/-- The number of the loader of a format, which is compiled if the cache does not have it, and the
cache afterwards. -/
def compile (c : Cache) (f : VertexFormat) : Except Error Nat × Cache :=
  match c.find? f with
  | some id => (.ok id, c)
  | none =>
    match Loader.compile f with
    | .ok l => (.ok c.size, c.insert f l)
    | .error e => (.error e, c)

end Cache
end FixedFunction
