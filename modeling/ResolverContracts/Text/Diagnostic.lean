import ResolverContracts.Text.Span
/-!
# Diagnostics

What is wrong with a text is told by diagnostics: a code that stays the same over versions, a title,
perhaps a sentence of help, and labels that point into the text. The first label is the place an
editor jumps to. `Diagnostics` collects them in the order of their discovery; that order is part of
the answer, so nothing here sorts.
-/

set_option autoImplicit false

namespace ResolverContracts

/-- How bad a finding is. -/
inductive Severity
  /-- Nothing can be generated. -/
  | error
  /-- Reported, and generation goes on. -/
  | warning
  deriving DecidableEq

/-- A remark at a place of the text. -/
structure Label where
  span : Span
  text : String

/-- One finding. -/
structure Diagnostic where
  severity : Severity
  code : String
  title : String
  help : Option String
  labels : List Label

namespace Diagnostic

/-- An error without help. -/
def error (code title : String) (labels : List Label) : Diagnostic :=
  ⟨.error, code, title, none, labels⟩

/-- The place of the first label. -/
def primarySpan (d : Diagnostic) : Option Span := d.labels.head?.map (·.span)

end Diagnostic

/-! ## Codes of the findings this library reports -/

namespace Code

/-- A token other than the one required. -/
def unexpectedToken : String := "E0001"
/-- The text ends too early. -/
def unexpectedEnd : String := "E0002"
/-- The text is not of the form required. -/
def invalidForm : String := "E0003"
/-- A name that no type has. -/
def undefinedType : String := "E0010"
/-- An extension of nothing, or of something else. -/
def undefinedExtensionTarget : String := "E0011"
/-- A second definition of a type or of the schema. -/
def duplicateType : String := "E0012"
/-- A second member of one name. -/
def duplicateMember : String := "E0013"
/-- A type is implemented that is no interface. -/
def notAnInterface : String := "E0014"
/-- A name kept for introspection. -/
def reservedName : String := "E0015"
/-- A type where its kind is not allowed. -/
def wrongPosition : String := "E0020"

end Code

/-- A diagnostic joined with the file it is about, as a terminal shows it: of its labels only the
first is kept, as an offset and a length. -/
structure FileReport where
  code : String
  title : String
  help : Option String
  file : String
  label : String
  place : Option (Nat × Nat)

/-- The headline of a report. -/
def FileReport.text (r : FileReport) : String := "[" ++ r.code ++ "] " ++ r.title

/-- A diagnostic as a report about a file. -/
def Diagnostic.toReport (d : Diagnostic) (file : String) : FileReport where
  code := d.code
  title := d.title
  help := d.help
  file := file
  label := (d.labels.head?.map (·.text)).getD ""
  place := d.primarySpan.map fun s => (s.start, s.length)

/-- Findings in order of discovery. -/
structure Diagnostics where
  items : List Diagnostic

namespace Diagnostics

/-- Nothing found. -/
def empty : Diagnostics := ⟨[]⟩

/-- One more finding. -/
def add (ds : Diagnostics) (d : Diagnostic) : Diagnostics := ⟨ds.items ++ [d]⟩

/-- One more error, with one label. -/
def addError (ds : Diagnostics) (code title : String) (span : Span) (label : String) : Diagnostics :=
  ds.add (.error code title [⟨span, label⟩])

/-- All findings of both, those of the second behind. -/
def extend (ds others : Diagnostics) : Diagnostics := ⟨ds.items ++ others.items⟩

/-- The errors among the findings. -/
def errors (ds : Diagnostics) : List Diagnostic := ds.items.filter (·.severity == .error)

/-- The warnings among the findings. -/
def warnings (ds : Diagnostics) : List Diagnostic := ds.items.filter (·.severity == .warning)

/-- Whether an error was found. -/
def hasErrors (ds : Diagnostics) : Bool := ds.items.any (·.severity == .error)

/-- Number of errors. -/
def errorCount (ds : Diagnostics) : Nat := ds.errors.length

/-- Number of warnings. -/
def warningCount (ds : Diagnostics) : Nat := ds.warnings.length

/-- Whether a finding has this code. -/
def containsCode (ds : Diagnostics) (code : String) : Bool := ds.items.any (·.code == code)

/-- Number of findings. -/
def size (ds : Diagnostics) : Nat := ds.items.length

/-- Whether nothing was found. -/
def isEmpty (ds : Diagnostics) : Bool := ds.items.isEmpty

/-- Errors are found exactly when their number is not zero. -/
theorem hasErrors_iff (ds : Diagnostics) : ds.hasErrors = true ↔ 0 < ds.errorCount := by
  simp only [hasErrors, errorCount, errors, List.length_pos_iff_exists_mem, List.mem_filter,
    List.any_eq_true]

end Diagnostics

end ResolverContracts
