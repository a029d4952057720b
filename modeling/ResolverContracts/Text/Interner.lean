import ResolverContracts.Entries
/-!
# Names

Some names have a meaning of their own: those of the scalars that every schema has, and those with
two underscores in front, which are kept for introspection.

A name that occurs many times in a schema is stored once and referred to by its number. The store has
two tables. One lists the names seen so far, in order of first appearance, and the number of a name is
its place there; the other finds the number of a name. The built-in scalars are in both from the start,
because every schema may use them without declaring them.

Numbers are handed out as handles of 32 bits.
-/

set_option autoImplicit false

namespace ResolverContracts

/-- The scalars that every schema has. -/
def builtinScalars : List String := ["Int", "Float", "String", "Boolean", "ID"]

/-- Whether a name is that of a scalar every schema has. -/
def isBuiltinScalar (name : String) : Bool := builtinScalars.contains name

/-- Whether a name is kept for introspection: those with two underscores in front are. -/
def isReservedName (name : String) : Bool := name.toList.take 2 == ['_', '_']

/-- A store of names: the names by their numbers, and the numbers by their names. -/
structure Interner where
  names : List String
  numbers : List (String × Nat)

namespace Interner

/-- The store that knows no name. -/
def empty : Interner := ⟨[], []⟩

/-- The number of a name, and the store that knows it: a new name goes to the end of both tables. -/
def intern (i : Interner) (name : String) : Nat × Interner :=
  match Entries.get? name i.numbers with
  | some number => (number, i)
  | none =>
    let number := i.names.length
    (number, ⟨i.names ++ [name], Entries.put name number i.numbers⟩)

/-- The name that has a number; the empty name if there is none. -/
def get (i : Interner) (number : Nat) : String := i.names.getD number ""

/-- The handle of a name, and the store that knows it. All numbers that need more than 32 bits share
the last handle. -/
def issue (i : Interner) (name : String) : UInt32 × Interner :=
  let (number, next) := i.intern name
  (.ofNatClamp number, next)

/-- The name behind a handle; the empty name behind a handle that was never given out. -/
def resolve (i : Interner) (handle : UInt32) : String := i.get handle.toNat

/-- Number of names known. -/
def size (i : Interner) : Nat := i.names.length

/-- Whether no name is known. -/
def isEmpty (i : Interner) : Bool := i.names.isEmpty

/-- The store after a list of names was interned from the left. -/
def internAll (i : Interner) (names : List String) : Interner :=
  names.foldl (fun i name => (i.intern name).2) i

/-- The store that knows the built-in scalars only. -/
def initial : Interner := empty.internAll builtinScalars

/-- The store that names were added to from the left, behind the built-in scalars. -/
def ofNames (names : List String) : Interner := initial.internAll names

end Interner

end ResolverContracts
