/-!
# Spans

Places in a text are counted in bytes of its UTF-8 form, because that is what an editor that opens
the file at an offset needs. A text itself is handled as a list of characters, so a place is worth
something only where a character begins; `dropBytes` and `takeBytes` make that explicit by giving
`none` anywhere else, and `Span.slice` turns every such case into the empty text.

Places are natural numbers without a bound. They stand for counters of 32 bits, so what is said here is
meant for texts of less than 4 GiB; where a counter would run over is not described.

The two facts that carry the accounting are `byteLength_append` and `dropBytes_append`: cutting a
text off after the bytes of its first part gives back its second part.
-/

set_option autoImplicit false

namespace ResolverContracts

/-! ## Bytes of a text -/

/-- Number of bytes of a text in UTF-8. -/
def byteLength : List Char → Nat
  | [] => 0
  | c :: cs => c.utf8Size + byteLength cs

/-- Bytes add up over concatenation. -/
theorem byteLength_append (xs ys : List Char) :
    byteLength (xs ++ ys) = byteLength xs + byteLength ys := by
  induction xs with
  | nil => simp [byteLength]
  | cons c xs ih => simp [byteLength, ih, Nat.add_assoc]

/-- A text without bytes has no characters, since every character takes at least one byte. -/
theorem byteLength_eq_zero {cs : List Char} : byteLength cs = 0 ↔ cs = [] := by
  cases cs with
  | nil => simp [byteLength]
  | cons c cs =>
    have := c.utf8Size_pos
    simp [byteLength]
    omega

/-- What is left of a text after its first `n` bytes, if a character begins there or the text ends
there. -/
def dropBytes : List Char → Nat → Option (List Char)
  | cs, 0 => some cs
  | [], _ + 1 => none
  | c :: cs, n + 1 =>
    if c.utf8Size ≤ n + 1 then dropBytes cs (n + 1 - c.utf8Size) else none

/-- The first `n` bytes of a text, if they are whole characters. -/
def takeBytes : List Char → Nat → Option (List Char)
  | _, 0 => some []
  | [], _ + 1 => none
  | c :: cs, n + 1 =>
    if c.utf8Size ≤ n + 1 then (takeBytes cs (n + 1 - c.utf8Size)).map (c :: ·) else none

/-- Dropping the bytes of the first part of a text leaves the second part. -/
theorem dropBytes_append (xs ys : List Char) : dropBytes (xs ++ ys) (byteLength xs) = some ys := by
  induction xs with
  | nil => cases ys <;> rfl
  | cons c xs ih =>
    have hc := c.utf8Size_pos
    obtain ⟨n, hn⟩ : ∃ n, c.utf8Size + byteLength xs = n + 1 := ⟨c.utf8Size + byteLength xs - 1, by omega⟩
    have hr : n + 1 - c.utf8Size = byteLength xs := by omega
    simp only [List.cons_append, byteLength, hn, dropBytes, hr, ih]
    rw [if_pos (by omega)]

/-- Taking the bytes of the first part of a text gives the first part. -/
theorem takeBytes_append (xs ys : List Char) : takeBytes (xs ++ ys) (byteLength xs) = some xs := by
  induction xs with
  | nil => cases ys <;> rfl
  | cons c xs ih =>
    have hc := c.utf8Size_pos
    obtain ⟨n, hn⟩ : ∃ n, c.utf8Size + byteLength xs = n + 1 := ⟨c.utf8Size + byteLength xs - 1, by omega⟩
    have hr : n + 1 - c.utf8Size = byteLength xs := by omega
    simp only [List.cons_append, byteLength, hn, takeBytes, hr, ih]
    rw [if_pos (by omega)]
    rfl

/-! ## Spans -/

/-- The bytes of a text from `start` up to, and without, `stop`. In a text of less than 4 GiB both fit
into 32 bits. -/
structure Span where
  start : Nat
  stop : Nat
  deriving DecidableEq, Inhabited

namespace Span

/-- The span of no bytes at a place: where something is missing. -/
def emptyAt (place : Nat) : Span := ⟨place, place⟩

/-- Number of bytes covered. -/
def length (s : Span) : Nat := s.stop - s.start

/-- Covers no byte. -/
def isEmpty (s : Span) : Bool := s.start == s.stop

/-- The part of a text that a span covers. A span that leaves the text, runs backwards or cuts a
character in two covers the empty text. -/
def slice (s : Span) (text : List Char) : List Char :=
  if s.start ≤ s.stop then
    ((dropBytes text s.start).bind (takeBytes · s.length)).getD []
  else []

/-- A text in three parts is sliced to its middle part by the span of that part. -/
theorem slice_append (xs ys zs : List Char) :
    slice ⟨byteLength xs, byteLength xs + byteLength ys⟩ (xs ++ ys ++ zs) = ys := by
  have hlen : (⟨byteLength xs, byteLength xs + byteLength ys⟩ : Span).length = byteLength ys := by
    simp [length]
  simp only [slice, hlen, List.append_assoc, dropBytes_append, Option.bind_some, takeBytes_append,
    Option.getD_some]
  rw [if_pos (Nat.le_add_right _ _)]

end Span

end ResolverContracts
