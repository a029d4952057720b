import ResolverContracts.Document.Parse
import ResolverContracts.Schema.Lowering
/-!
# Loading a schema

`Catalogue.load` is the way from a text to a catalogue that can be relied on. A text that does not
parse is refused with the faults of its form alone; what its definitions would mean is not asked.
-/

set_option autoImplicit false

namespace ResolverContracts

/-- Why a text is no schema: everything that was found. -/
structure SchemaError where
  diagnostics : Diagnostics

/-- The refusal in one line. -/
def SchemaError.message (e : SchemaError) : String :=
  "schema is invalid (" ++ toString e.diagnostics.errorCount ++ " error(s))"

/-- The catalogue of a schema text. -/
def Catalogue.load (text : String) : Except SchemaError Catalogue :=
  let parsed := Document.parse text
  if parsed.diagnostics.hasErrors then .error ⟨parsed.diagnostics⟩
  else
    let lowered := parsed.document.lower
    if lowered.diagnostics.hasErrors then .error ⟨lowered.diagnostics⟩
    else .ok lowered.catalogue

end ResolverContracts
