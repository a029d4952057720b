import ResolverContracts.Config.Symbol
import ResolverContracts.Entries
/-!
# Symbols by name

A section of a configuration gives symbols to names. Names keep the order in which they were first
given; giving a symbol to a name again replaces the symbol where it is.
-/

set_option autoImplicit false

namespace ResolverContracts

/-- Names with their symbols, in order. -/
structure SymbolMap where
  entries : List (String × Symbol)
  deriving DecidableEq

namespace SymbolMap

/-- No name. -/
def empty : SymbolMap := ⟨[]⟩

/-- The symbol of a name. -/
def get? (m : SymbolMap) (name : String) : Option Symbol := Entries.get? name m.entries

/-- Whether a name has a symbol. -/
def contains (m : SymbolMap) (name : String) : Bool := m.entries.any (·.1 == name)

/-- The names, in order. -/
def names (m : SymbolMap) : List String := m.entries.map (·.1)

/-- Gives a symbol to a name. -/
def insert (m : SymbolMap) (name : String) (symbol : Symbol) : SymbolMap :=
  ⟨Entries.put name symbol m.entries⟩

/-- A name is contained when it has a symbol. -/
theorem contains_eq_isSome (m : SymbolMap) (name : String) :
    m.contains name = (m.get? name).isSome := by
  rw [contains, get?, Entries.get?, Option.isSome_map, List.isSome_find?]

/-- A name has the symbol it was last given. -/
theorem get?_insert_self (m : SymbolMap) (name : String) (symbol : Symbol) :
    (m.insert name symbol).get? name = some symbol :=
  Entries.get?_put_self name symbol m.entries

/-- Other names keep their symbols. -/
theorem get?_insert_of_ne (m : SymbolMap) {name other : String} (symbol : Symbol)
    (hne : name ≠ other) : (m.insert name symbol).get? other = m.get? other :=
  Entries.get?_put_of_ne symbol m.entries hne

/-- Giving a symbol to a name moves no other name. -/
theorem names_insert (m : SymbolMap) (name : String) (symbol : Symbol) :
    (m.insert name symbol).names =
      if m.names.contains name then m.names else m.names ++ [name] :=
  Entries.map_fst_put name symbol m.entries

end SymbolMap

end ResolverContracts
