import ResolverContracts.Config.Symbol
import ResolverContracts.Text.Binary64
import ResolverContracts.Text.Quoted
/-!
# Errors of a configuration

Why a text is no configuration. A text that ends too early and one that is malformed are told apart,
and beyond that nothing is said about its form. What is said in words is that a value is of a wrong
type, that a reference is none, and that a section is unknown or there twice.
-/

set_option autoImplicit false

namespace ResolverContracts

/-! ## Numbers in messages -/

/-- `count` zeros. -/
def zeros (count : Nat) : String := String.ofList (List.replicate count '0')

/-- A finite double in the fewest digits that read back. It is written by position from `1e-5` up to,
and without, `1e16`, then with a point in any case; other numbers get an exponent with its sign. -/
def floatText (negative : Bool) (bits : Nat) : String :=
  let sign := if negative then "-" else ""
  let magnitude :=
    if bits = 0 then "0.0"
    else
      let (digits, power) := Binary64.shortestDecimal bits
      let ds := Nat.toDigits 10 digits
      let point : Int := ds.length + power
      let text := String.ofList ds
      if 0 ≤ power ∧ point ≤ 16 then text ++ zeros power.toNat ++ ".0"
      else if 0 < point ∧ point ≤ 16 then
        String.ofList (ds.take point.toNat) ++ "." ++ String.ofList (ds.drop point.toNat)
      else if -5 < point ∧ point ≤ 0 then "0." ++ zeros (-point).toNat ++ text
      else
        let mantissa := match ds with
          | [d] => String.ofList [d]
          | d :: later => String.ofList (d :: '.' :: later)
          | [] => ""
        mantissa ++ (if 0 < point then "e+" else "e") ++ toString (point - 1)
  sign ++ magnitude

/-! ## Wrong types -/

/-- What a place in a configuration requires. -/
inductive Expected
  /-- A whole configuration. -/
  | configuration
  | text
  /-- Names with texts. -/
  | table
  deriving DecidableEq

/-- The requirement in words. -/
def Expected.label : Expected → String
  | configuration => "struct MappingConfig"
  | text => "a string"
  | table => "a map"

/-- What was there instead. -/
inductive Found
  | null
  | truth (value : Bool)
  | integer (value : Int)
  /-- A number that is no integer of 64 bits, as the sign and the pattern of a double. -/
  | floating (negative : Bool) (bits : Nat)
  | text (value : String)
  | sequence
  | table
  deriving DecidableEq

/-- A found value in words. -/
def Found.label : Found → String
  | null => "null"
  | truth value => "boolean `" ++ (if value then "true" else "false") ++ "`"
  | integer value => "integer `" ++ toString value ++ "`"
  | floating negative bits => "floating point `" ++ floatText negative bits ++ "`"
  | text value => "string " ++ quoted value
  | sequence => "sequence"
  | table => "map"

/-! ## Sections -/

/-- The parts of a configuration. -/
inductive Section
  | contextType | scalars | mappers | enumValues
  deriving DecidableEq

namespace Section

/-- The key of a section. -/
def key : Section → String
  | contextType => "contextType"
  | scalars => "scalars"
  | mappers => "mappers"
  | enumValues => "enumValues"

/-- Every section once, in the order in which a sequence gives them. -/
def all : List Section := [contextType, scalars, mappers, enumValues]

/-- The section of a key. -/
def ofKey? (key : String) : Option Section := all.find? (·.key == key)

/-- Reading the key of a section gives the section back. -/
theorem ofKey?_key (s : Section) : ofKey? s.key = some s := by cases s <;> decide

end Section

/-! ## Errors -/

/-- Why a text is no configuration. -/
inductive ConfigError
  /-- The text ends too early. -/
  | ended
  /-- The text is not of the form required. -/
  | malformed
  | wrongType (found : Found) (expected : Expected)
  | badSymbol (error : SymbolError)
  | unknownSection (key : String)
  | repeatedSection (part : Section)
  /-- An enum is replaced by a type expression, which cannot be exported again. -/
  | enumWithoutModule (name : String)
  deriving DecidableEq

/-- What is said about an error of the content. Errors of the form have nothing to say. -/
def ConfigError.message : ConfigError → String
  | ended => ""
  | malformed => ""
  | wrongType found expected => "invalid type: " ++ found.label ++ ", expected " ++ expected.label
  | badSymbol error => error.message
  | unknownSection key =>
    "unknown field `" ++ key ++ "`, expected one of " ++
      ", ".intercalate (Section.all.map fun s => "`" ++ s.key ++ "`")
  | repeatedSection part => "duplicate field `" ++ part.key ++ "`"
  | enumWithoutModule name =>
    "enum override for `" ++ name ++ "` must import from a module (`path#Symbol`)"

end ResolverContracts
