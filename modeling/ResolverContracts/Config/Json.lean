import ResolverContracts.Config.Error
import ResolverContracts.Text.Span
/-!
# Reading configuration texts

A configuration is written in JSON and read from the left without a tree in between: the first thing
that is wrong, in the order of the text, is the error. So a reader takes what it needs off the front
of the text and answers with the rest, or with an error. The rest is a final part of what it was
given, which is what the loops over members and elements end by.

The form is strict: no commas at the end, no comments, no control characters in strings, and pairs of
surrogates only in pairs.
-/

set_option autoImplicit false

namespace ResolverContracts

/-! ## Readers -/

/-- An answer and the rest of a text. -/
abbrev Rest (α : Type) (cs : List Char) : Type := { r : α × List Char // r.2 <:+ cs }

/-- Reads off the front of a text. -/
def JsonReader (α : Type) : Type := (cs : List Char) → Except ConfigError (Rest α cs)

namespace JsonReader

variable {α β : Type}

instance : Monad JsonReader where
  pure a := fun cs => .ok ⟨(a, cs), List.suffix_refl _⟩
  bind r next := fun cs =>
    match r cs with
    | .error e => .error e
    | .ok ⟨(a, rest), h⟩ =>
      match next a rest with
      | .error e => .error e
      | .ok ⟨out, h'⟩ => .ok ⟨out, h'.trans h⟩

/-- Gives up. -/
def fail (e : ConfigError) : JsonReader α := fun _ => .error e

/-- The rest seen from a longer text. -/
def since {cs ds : List Char} (r : Except ConfigError (Rest α cs)) (h : cs <:+ ds) :
    Except ConfigError (Rest α ds) :=
  r.map fun ⟨out, h'⟩ => ⟨out, h'.trans h⟩

/-- A blank between parts. -/
def isJsonBlank (c : Char) : Bool := c == ' ' || c == '\t' || c == '\r' || c == '\n'

/-- The next character behind blanks, which stays where it is. -/
def peek : JsonReader (Option Char) := fun cs =>
  let rest := cs.dropWhile isJsonBlank
  .ok ⟨(rest.head?, rest), List.dropWhile_suffix _⟩

/-- Takes one character, whatever it is. -/
def skipOne : JsonReader Unit := fun cs => .ok ⟨((), cs.tail), List.tail_suffix _⟩

/-! ## Strings -/

/-- The value of a hexadecimal digit. -/
def hexValue? (c : Char) : Option Nat :=
  if c.isDigit then some (c.toNat - '0'.toNat)
  else if 'a' ≤ c && c ≤ 'f' then some (c.toNat - 'a'.toNat + 10)
  else if 'A' ≤ c && c ≤ 'F' then some (c.toNat - 'A'.toNat + 10)
  else none

/-- The value of four hexadecimal digits. -/
def hexValue4? (a b c d : Char) : Option Nat := do
  return ((← hexValue? a) * 16 + (← hexValue? b)) * 256 + (← hexValue? c) * 16 + (← hexValue? d)

/-- Bytes of a text, counted up to four. -/
def hasFourBytes (cs : List Char) : Bool := 4 ≤ byteLength cs

/-- Four hexadecimal digits. With less than four bytes left the text has ended, whatever they are. -/
def readHex4 : JsonReader Nat := fun cs =>
  match cs with
  | a :: b :: c :: d :: rest =>
    match hexValue4? a b c d with
    | some n => .ok ⟨(n, rest), ⟨[a, b, c, d], rfl⟩⟩
    | none => .error .malformed
  | short => .error (if hasFourBytes short then .malformed else .ended)

/-- Takes a certain character. -/
def readExactly (expected : Char) : JsonReader Unit := fun cs =>
  match cs with
  | [] => .error .ended
  | c :: rest => if c = expected then .ok ⟨((), rest), List.suffix_cons _ _⟩ else .error .malformed

/-- The character that a code point escape stands for. A code point beyond 16 bits is written as a
pair of surrogates; a surrogate alone stands for nothing. -/
def readCodePoint : JsonReader Char := do
  let high ← readHex4
  if 0xdc00 ≤ high ∧ high ≤ 0xdfff then fail .malformed
  else if high < 0xd800 ∨ 0xdbff < high then return Char.ofNat high
  else
    readExactly '\\'
    readExactly 'u'
    let low ← readHex4
    if low < 0xdc00 ∨ 0xdfff < low then fail .malformed
    else return Char.ofNat (0x10000 + (high - 0xd800) * 0x400 + (low - 0xdc00))

/-- The character that a letter behind a backslash stands for. -/
def escapedChar? : Char → Option Char
  | '"' => some '"'
  | '\\' => some '\\'
  | '/' => some '/'
  | 'b' => some '\x08'
  | 'f' => some '\x0c'
  | 'n' => some '\n'
  | 'r' => some '\r'
  | 't' => some '\t'
  | _ => none

/-- The character that an escape stands for, behind the backslash. -/
def readEscape : JsonReader Char := fun cs =>
  match cs with
  | [] => .error .ended
  | 'u' :: rest => since (readCodePoint rest) (List.suffix_cons _ _)
  | c :: rest =>
    match escapedChar? c with
    | some e => .ok ⟨(e, rest), List.suffix_cons _ _⟩
    | none => .error .malformed

/-- The characters of a string behind its opening quote, up to and with the closing one. -/
def readStringChars (cs : List Char) : Except ConfigError (Rest (List Char) cs) :=
  match cs with
  | [] => .error .ended
  | '"' :: rest => .ok ⟨([], rest), List.suffix_cons _ _⟩
  | '\\' :: rest =>
    match readEscape rest with
    | .error e => .error e
    | .ok ⟨(c, rest'), h⟩ =>
      have : rest'.length ≤ rest.length := h.length_le
      match readStringChars rest' with
      | .error e => .error e
      | .ok ⟨(later, final), h'⟩ =>
        .ok ⟨(c :: later, final), (h'.trans h).trans (List.suffix_cons _ _)⟩
  | c :: rest =>
    if c < ' ' then .error .malformed
    else
      match readStringChars rest with
      | .error e => .error e
      | .ok ⟨(later, final), h⟩ => .ok ⟨(c :: later, final), h.trans (List.suffix_cons _ _)⟩
termination_by cs.length

/-- A string behind its opening quote. -/
def readString : JsonReader String := do
  let cs ← (readStringChars : JsonReader (List Char))
  return String.ofList cs

/-! ## Numbers

A number is read only to say that it is not wanted, but what is said shows how it was understood:
its first digits as one number of 64 bits, the digits that do not fit dropped, and the power of ten
applied in doubles. -/

/-- Largest number of 64 bits. -/
def maxWord : Nat := 18446744073709551615

/-- Adds digits to a number while the result fits 64 bits: the number, and the digits left over. -/
def addDigits (n : Nat) : List Char → Nat × List Char
  | [] => (n, [])
  | d :: ds =>
    let next := 10 * n + (d.toNat - '0'.toNat)
    if next ≤ maxWord then addDigits next ds else (n, d :: ds)

/-- A double times a power of ten, or through it. Small enough powers are taken at once, others in
steps of 308 until nothing is left of the number. A number out of range is malformed. -/
def scaled (bits : Nat) (power : Int) : Except ConfigError Nat :=
  if 308 < power then
    if bits = 0 then .ok 0 else .error .malformed
  else if 0 ≤ power then
    let product := Binary64.mul bits (Binary64.ofDecimal 1 power)
    if product = Binary64.infinity then .error .malformed else .ok product
  else if -308 ≤ power then .ok (Binary64.div bits (Binary64.ofDecimal 1 (-power)))
  else if bits = 0 then .ok 0
  else scaled (Binary64.div bits (Binary64.ofDecimal 1 308)) (power + 308)
termination_by (-power).toNat
decreasing_by omega

/-- A number that is no integer. -/
def floating (negative : Bool) (significand : Nat) (power : Int) : Except ConfigError Found :=
  (scaled (Binary64.ofRatio significand 1) power).map (.floating negative)

/-- Largest exponent that is understood as one. -/
def maxExponent : Int := 2147483647

/-- A number with an exponent, from behind the mark of the exponent on. -/
def withExponent (negative : Bool) (significand : Nat) (power : Int) (cs : List Char) :
    Except ConfigError Found :=
  let (down, cs) := match cs with
    | '+' :: cs => (false, cs)
    | '-' :: cs => (true, cs)
    | cs => (false, cs)
  let digits := cs.takeWhile Char.isDigit
  if digits.isEmpty then .error (if cs.isEmpty then .ended else .malformed)
  else
    let exponent : Int := digits.foldl (fun n d => 10 * n + (d.toNat - '0'.toNat)) 0
    if maxExponent < exponent then
      if significand ≠ 0 ∧ !down then .error .malformed else .ok (.floating negative 0)
    else floating negative significand (if down then power - exponent else power + exponent)

/-- What follows the digits of a number: an exponent, or nothing more of it. -/
def withTail (negative : Bool) (significand : Nat) (power : Int) (cs : List Char) :
    Except ConfigError Found :=
  match cs with
  | 'e' :: cs | 'E' :: cs => withExponent negative significand power cs
  | _ => floating negative significand power

/-- A number with a point, from behind the point on. -/
def withFraction (negative : Bool) (significand : Nat) (power : Int) (cs : List Char) :
    Except ConfigError Found :=
  let digits := cs.takeWhile Char.isDigit
  if digits.isEmpty then .error (if cs.isEmpty then .ended else .malformed)
  else
    let (significand, dropped) := addDigits significand digits
    withTail negative significand (power - (digits.length - dropped.length : Nat))
      (cs.drop digits.length)

/-- An integer of 64 bits, with its sign if it has one. Minus zero is none, and a number below the
least one is none either. -/
def wholeNumber (negative : Bool) (n : Nat) : Found :=
  if negative then
    if 0 < n ∧ n ≤ Binary64.signBit then .integer (-(n : Int))
    else .floating true (Binary64.ofRatio n 1)
  else .integer n

/-- A number behind its sign. -/
def numberFound (negative : Bool) (cs : List Char) : Except ConfigError Found :=
  let digits := cs.takeWhile Char.isDigit
  let rest := cs.drop digits.length
  if digits.isEmpty then .error (if cs.isEmpty then .ended else .malformed)
  else if digits.head? = some '0' ∧ 1 < digits.length then .error .malformed
  else
    let (significand, dropped) := addDigits 0 digits
    match rest with
    | '.' :: rest => withFraction negative significand dropped.length rest
    | 'e' :: rest | 'E' :: rest => withExponent negative significand dropped.length rest
    | _ =>
      if dropped.isEmpty then .ok (wholeNumber negative significand)
      else floating negative significand dropped.length

/-! ## Values of a wrong type -/

/-- A word that must be there in full. -/
def readWord (word : List Char) : JsonReader Unit :=
  word.foldr (fun c later => do readExactly c; later) (pure ())

/-- A number behind its sign, which is not taken. -/
def readNumber (negative : Bool) : JsonReader Found := fun cs =>
  (numberFound negative cs).map fun f => ⟨(f, cs), List.suffix_refl _⟩

/-- What stands where something else is required. It is read as far as its type shows. -/
def readFound : JsonReader Found := do
  match ← peek with
  | some 'n' => do readWord ['n', 'u', 'l', 'l']; return .null
  | some 't' => do readWord ['t', 'r', 'u', 'e']; return .truth true
  | some 'f' => do readWord ['f', 'a', 'l', 's', 'e']; return .truth false
  | some '-' => do skipOne; readNumber true
  | some '"' => do skipOne; return .text (← readString)
  | some '[' => return .sequence
  | some '{' => return .table
  | some c => if c.isDigit then readNumber false else fail .malformed
  | none => fail .malformed

/-- Refuses what stands here, because something else is required. -/
def refuse (expected : Expected) : JsonReader α := do
  let found ← readFound
  fail (.wrongType found expected)

/-- A required string. -/
def readText : JsonReader String := do
  match ← peek with
  | none => fail .ended
  | some '"' => do
    skipOne
    readString
  | some _ => refuse .text

/-! ## Members and elements -/

/-- The colon behind a key. -/
def readColon : JsonReader Unit := do
  match ← peek with
  | none => fail .ended
  | some ':' => skipOne
  | some _ => fail .malformed

/-- Goes on at the key of a member; `cs` begins behind the quote that opens it. -/
def memberAt (member : String → α → JsonReader α) (state : α) (cs : List Char) :
    Except ConfigError (Rest α cs) :=
  (do let key ← readString; member key state : JsonReader α) cs

/-- The members of an object behind its opening brace, up to and with the closing one. Each member
is read from behind its key on, and changes a state. -/
def readMembers (member : String → α → JsonReader α) (isFirst : Bool) (state : α) (cs : List Char) :
    Except ConfigError (Rest α cs) :=
  have hb : cs.dropWhile isJsonBlank <:+ cs := List.dropWhile_suffix _
  match hcs : cs.dropWhile isJsonBlank with
  | [] => .error .ended
  | '}' :: rest => .ok ⟨(state, rest), by
      rw [hcs] at hb; exact (List.suffix_cons _ _).trans hb⟩
  | c :: rest =>
    have hr : rest <:+ cs := by rw [hcs] at hb; exact (List.suffix_cons _ _).trans hb
    have hlt : rest.length < cs.length := by
      rw [hcs] at hb; exact Nat.lt_of_lt_of_le (Nat.lt_succ_self _) hb.length_le
    if isFirst then
      if c = '"' then
        match memberAt member state rest with
        | .error e => .error e
        | .ok ⟨(next, final), h⟩ =>
          have : final.length ≤ rest.length := h.length_le
          since (readMembers member false next final) (h.trans hr)
      else .error .malformed
    else if c = ',' then
      have hb' : rest.dropWhile isJsonBlank <:+ rest := List.dropWhile_suffix _
      match hrest : rest.dropWhile isJsonBlank with
      | [] => .error .ended
      | '"' :: key =>
        have hk : key <:+ rest := by rw [hrest] at hb'; exact (List.suffix_cons _ _).trans hb'
        match memberAt member state key with
        | .error e => .error e
        | .ok ⟨(next, final), h⟩ =>
          have : final.length ≤ key.length := h.length_le
          have := hk.length_le
          since (readMembers member false next final) ((h.trans hk).trans hr)
      | _ :: _ => .error .malformed
    else .error .malformed
termination_by cs.length

/-- The members of an object behind its opening brace. -/
def readObject (member : String → α → JsonReader α) (state : α) : JsonReader α :=
  readMembers member true state

/-- Whether another element of an array follows; its closing bracket stays where it is. -/
def hasElement (isFirst : Bool) : JsonReader Bool := do
  match ← peek with
  | none => fail .ended
  | some ']' => return false
  | some c =>
    if isFirst then return true
    else if c = ',' then do
      skipOne
      match ← peek with
      | none => fail .ended
      | some ']' => fail .malformed
      | some _ => return true
    else fail .malformed

/-- The end of an array. More elements than wanted make the text malformed. -/
def endArray : JsonReader Unit := do
  match ← peek with
  | none => fail .ended
  | some ']' => skipOne
  | some _ => fail .malformed

/-- The end of the text. -/
def endText : JsonReader Unit := do
  match ← peek with
  | none => return ()
  | some _ => fail .malformed

end JsonReader

end ResolverContracts
