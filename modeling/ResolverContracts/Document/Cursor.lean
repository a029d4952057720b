import ResolverContracts.Document.Fault
/-!
# Reading tokens

A cursor stands between the tokens already taken and those still ahead, and keeps the faults found
on the way. A `Reader` goes on from any cursor: it always answers, whatever it meets, and the tokens
it leaves ahead are the last ones of those it found ahead. The type says so, which is why the loops
below need no bound: an item either takes a token or has one taken for it.

At the end of the text stands a token of its own. It can be taken like any other, which changes
nothing but the place where the last taken token ended.
-/

set_option autoImplicit false

namespace ResolverContracts

/-! ## Cursors -/

/-- A place between tokens. -/
structure Cursor where
  /-- The tokens taken, the last one first. -/
  taken : List Token
  ahead : List Token
  /-- Number of tokens ahead, so that nobody has to count them. -/
  left : Nat
  /-- Where the text ends. -/
  stop : Nat
  /-- The faults found, in order. -/
  faults : List Fault
  left_eq : left = ahead.length

namespace Cursor

/-- Before the first token of a text. -/
def start (tokens : List Token) (stop : Nat) : Cursor where
  taken := []
  ahead := tokens
  left := tokens.length
  stop := stop
  faults := []
  left_eq := rfl

/-- The token the cursor stands at. -/
def current (c : Cursor) : Token := c.ahead.headD (.endAt c.stop)

/-- The kind of the current token. -/
def kind (c : Cursor) : TokenKind := c.current.kind

/-- Takes the current token. -/
def advance (c : Cursor) : Cursor :=
  { c with
    taken := c.current :: c.taken
    ahead := c.ahead.tail
    left := c.left - 1
    left_eq := by simp [c.left_eq] }

/-- Adds a fault at the current token. -/
def report (c : Cursor) (cause : Cause) : Cursor :=
  { c with faults := c.faults ++ [⟨cause, c.kind, c.current.span⟩] }

/-- Where the last taken token ended, or the start of the text before the first one. -/
def lastStop (c : Cursor) : Nat := (c.taken.head?.map (·.span.stop)).getD 0

/-- The place from `start` to the end of the last taken token. Where nothing was taken since, the
place is empty. -/
def spanFrom (c : Cursor) (start : Nat) : Span := ⟨start, max c.lastStop start⟩

/-- Whether the cursor is at this token, or there is no token left. -/
def atEndOf (c : Cursor) (close : TokenKind) : Bool := c.ahead.isEmpty || c.kind == close

theorem advance_ahead_suffix (c : Cursor) : c.advance.ahead <:+ c.ahead := List.tail_suffix _

/-- Taking a token that is there leaves one less ahead. -/
theorem length_advance_ahead_lt {c : Cursor} (h : c.ahead ≠ []) :
    c.advance.ahead.length < c.ahead.length := by
  have := List.length_pos_iff.mpr h
  simp only [advance, List.length_tail]
  omega

/-- At punctuation, a token is ahead. -/
theorem ahead_ne_nil_of_punct {c : Cursor} {p : Punctuator} (h : c.kind = .punct p) :
    c.ahead ≠ [] := by
  intro hn
  simp [kind, current, hn, Token.endAt] at h

end Cursor

/-! ## Readers -/

/-- An answer, and a cursor not before `c`. -/
abbrev Step (c : Cursor) (α : Type) : Type := { r : α × Cursor // r.2.ahead <:+ c.ahead }

/-- Goes on from any cursor. -/
def Reader (α : Type) : Type := (c : Cursor) → Step c α

namespace Step

variable {α β : Type} {c : Cursor}

/-- An answer without a move. -/
def here (a : α) : Step c α := ⟨(a, c), List.suffix_refl _⟩

/-- A step made from a later cursor, seen from an earlier one. -/
def since {d : Cursor} (s : Step d α) (h : d.ahead <:+ c.ahead) : Step c α := ⟨s.1, s.2.trans h⟩

/-- Goes on behind a step. -/
def andThen (s : Step c α) (next : α → Reader β) : Step c β :=
  (next s.1.1 s.1.2).since s.2

end Step

namespace Reader

variable {α β : Type}

instance : Monad Reader where
  pure a := fun _ => .here a
  bind r next := fun c => (r c).andThen next

/-- The answer and the cursor of a reader, without the evidence. -/
def run (r : Reader α) (c : Cursor) : α × Cursor := (r c).1

@[simp] theorem run_pure (a : α) (c : Cursor) : run (pure a) c = (a, c) := rfl

/-- One reader after the other: the second goes on where the first stopped. -/
@[simp] theorem run_bind (r : Reader α) (next : α → Reader β) (c : Cursor) :
    run (r >>= next) c = run (next (run r c).1) (run r c).2 := rfl

/-- A reader leaves a final part of the tokens ahead. -/
theorem run_ahead_suffix (r : Reader α) (c : Cursor) : (run r c).2.ahead <:+ c.ahead := (r c).2

/-! ## Single tokens -/

/-- The current token. -/
def current : Reader Token := fun c => .here c.current

/-- The place where the current token starts. -/
def place : Reader Nat := fun c => .here c.current.span.start

/-- Takes the current token. -/
def advance : Reader Unit := fun c => ⟨((), c.advance), c.advance_ahead_suffix⟩

/-- Adds a fault at the current token. -/
def report (cause : Cause) : Reader Unit := fun c => ⟨((), c.report cause), List.suffix_refl _⟩

/-- Adds a complaint at the current token. -/
def complain (about : Complaint) : Reader Unit := report (.complaint about)

/-- The place from `start` to the end of the last taken token. -/
def spanFrom (start : Nat) : Reader Span := fun c => .here (c.spanFrom start)

/-- Takes the current token if it is of this kind, and tells whether it did. -/
def eat (kind : TokenKind) : Reader Bool := do
  if (← current).kind = kind then
    advance
    return true
  else
    return false

/-- Takes a token of this kind, or reports it as missing. -/
def expect (kind : TokenKind) : Reader Unit := do
  unless ← eat kind do report (.missing kind)

/-! ## Loops -/

/-- Where reading of items goes on: behind the item if it took a token, else behind one token
more. -/
def pastItem (before after : Cursor) : Cursor :=
  if after.left < before.left then after else after.advance

theorem pastItem_ahead_suffix {before after : Cursor} (h : after.ahead <:+ before.ahead) :
    (pastItem before after).ahead <:+ before.ahead := by
  unfold pastItem
  split
  · exact h
  · exact after.advance_ahead_suffix.trans h

/-- An item uses up a token, by itself or not. -/
theorem length_pastItem_lt {before after : Cursor} (h : after.ahead <:+ before.ahead)
    (hb : before.ahead ≠ []) : (pastItem before after).ahead.length < before.ahead.length := by
  unfold pastItem
  rw [before.left_eq, after.left_eq]
  split
  · assumption
  · next hn =>
    have hl := h.length_le
    have hp := List.length_pos_iff.mpr hb
    have ha : after.ahead ≠ [] := List.length_pos_iff.mp (by omega)
    have := Cursor.length_advance_ahead_lt ha
    omega

/-- Items up to a closing token or the end of the text. The item reader is asked only at cursors
with fewer than `bound` tokens ahead, so that a reader of nested items can ask for itself. -/
def itemsBelow (bound : Nat) (close : TokenKind)
    (item : (c : Cursor) → c.ahead.length < bound → Step c α) (c : Cursor)
    (h : c.ahead.length < bound) : Step c (List α) :=
  if hc : c.atEndOf close then .here []
  else
    let r := item c h
    let next := pastItem c r.1.2
    have hb : c.ahead ≠ [] := fun hn => hc (by simp [Cursor.atEndOf, hn])
    have hlt : next.ahead.length < c.ahead.length := length_pastItem_lt r.2 hb
    let rest := itemsBelow bound close item next (Nat.lt_trans hlt h)
    ⟨(r.1.1 :: rest.1.1, rest.1.2), rest.2.trans (pastItem_ahead_suffix r.2)⟩
termination_by c.ahead.length

/-- Items up to a closing token or the end of the text. An item that takes no token has one skipped,
so that no text can hold the loop up. -/
def itemsUntil (close : TokenKind) (item : Reader α) : Reader (List α) := fun c =>
  itemsBelow (c.left + 1) close (fun c _ => item c) c
    (Nat.lt_succ_of_le (Nat.le_of_eq c.left_eq.symm))

/-- Items in brackets: those up to the closing token, which is required. -/
def itemsIn (close : Punctuator) (item : Reader α) : Reader (List α) := do
  let items ← itemsUntil (.punct close) item
  expect (.punct close)
  return items

/-- One item behind each `mark` in a row. The item is told where its mark stood. -/
def eachAfter (mark : Punctuator) (item : Nat → Reader α) (c : Cursor) : Step c (List α) :=
  if hm : c.kind = .punct mark then
    let r := (item c.current.span.start c.advance).since c.advance_ahead_suffix
    have : r.1.2.ahead.length < c.ahead.length :=
      Nat.lt_of_le_of_lt (item c.current.span.start c.advance).2.length_le
        (Cursor.length_advance_ahead_lt (Cursor.ahead_ne_nil_of_punct hm))
    let rest := eachAfter mark item r.1.2
    ⟨(r.1.1 :: rest.1.1, rest.1.2), rest.2.trans r.2⟩
  else .here []
termination_by c.ahead.length

/-- One item, and one more behind each `mark` that follows. A mark in front of the first item is
allowed. -/
def separated (mark : Punctuator) (item : Reader α) : Reader (List α) := do
  let _ ← eat (.punct mark)
  let first ← item
  let others ← (eachAfter mark fun _ => item : Reader (List α))
  return first :: others

/-! ## Skipping -/

/-- Takes tokens up to this punctuation or the end of the text. -/
def skipTo (mark : Punctuator) (c : Cursor) : Step c Unit :=
  if hc : c.atEndOf (.punct mark) then .here ()
  else
    have hb : c.ahead ≠ [] := fun hn => hc (by simp [Cursor.atEndOf, hn])
    have := Cursor.length_advance_ahead_lt hb
    (skipTo mark c.advance).since c.advance_ahead_suffix
termination_by c.ahead.length

/-- How deep in braces the text is behind a token, if it is `depth` deep before it. -/
def depthBehind (depth : Nat) (kind : TokenKind) : Nat :=
  match kind with
  | .punct .braceOpen => depth + 1
  | .punct .braceClose => depth - 1
  | _ => depth

/-- Takes tokens until one is taken that leaves all braces closed, or the text ends. -/
def skipBlock (depth : Nat) (c : Cursor) : Step c Unit :=
  if hb : c.ahead = [] then .here ()
  else
    let deeper := depthBehind depth c.kind
    if deeper = 0 then ⟨((), c.advance), c.advance_ahead_suffix⟩
    else
      have := Cursor.length_advance_ahead_lt hb
      (skipBlock deeper c.advance).since c.advance_ahead_suffix
termination_by c.ahead.length

end Reader

end ResolverContracts
