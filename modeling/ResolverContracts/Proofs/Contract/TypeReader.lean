import ResolverContracts.Proofs.Contract.Levels
/-!
# Reading types back

A written type is a row of words and signs, and how they belong together is a matter of precedence:
brackets behind a type bind tighter than the word `readonly` in front of it, and that binds tighter
than the bar of a union; parentheses and angle brackets group. `TypeReader` reads a row by these rules,
one token after the other, with what stands around in a stack.

How a reader gets on with some tokens depends on where they stand. `Fills`, `Lists` and `Makes` say it
for the three places that there are, and have a rule for each sign. A type without parts is one token,
whatever its text.
-/

set_option autoImplicit false

namespace ResolverContracts

/-! ## Tokens -/

/-- A word or a sign of a written type. -/
inductive TypeToken
  /-- The text of a type without parts. -/
  | atom (text : String)
  /-- A pair of brackets behind an element. -/
  | brackets
  | readonly
  | bar
  | null
  | undefined
  /-- The name of a generic list, with the angle bracket. -/
  | openList (access : Access)
  | closeList
  | openParen
  | closeParen
  deriving DecidableEq

namespace TypeToken

/-- A token as it is written. -/
def text : TypeToken → String
  | atom text => text
  | brackets => "[]"
  | readonly => "readonly "
  | bar => " | "
  | null => "null"
  | undefined => "undefined"
  | openList .readonly => "ReadonlyArray<"
  | openList .mutable => "Array<"
  | closeList => ">"
  | openParen => "("
  | closeParen => ")"

/-- A row of tokens as it is written. -/
def join (ts : List TypeToken) : String := String.join (ts.map text)

/-- The texts of the types without parts in a row. -/
def atoms (ts : List TypeToken) : List String :=
  ts.filterMap fun
    | atom text => some text
    | _ => none

variable {ts us : List TypeToken} {s : String}

@[simp] theorem join_nil : join [] = "" := rfl

@[simp] theorem join_cons (t : TypeToken) : join (t :: ts) = t.text ++ join ts := String.join_cons

theorem join_singleton (t : TypeToken) : join [t] = t.text := by
  rw [join_cons]
  exact String.append_empty

@[simp] theorem join_append : join (ts ++ us) = join ts ++ join us := by
  rw [join, List.map_append, String.join_append]
  rfl

@[simp] theorem atoms_append : atoms (ts ++ us) = atoms ts ++ atoms us := List.filterMap_append

end TypeToken

namespace TypeExpr

open TypeToken

mutual

/-- A type as a row of tokens. -/
def tokens : TypeExpr → List TypeToken
  | primitive type => [atom type.text]
  | named ref => [atom ref.name]
  | emptyRecord => [atom "\x7b\x7d"]
  | parameter name => [atom name]
  | list element .generic access => openList access :: element.tokens ++ [closeList]
  | list element .suffix access =>
    let inner := element.tokens
    (match access with
      | .readonly => [readonly]
      | .mutable => []) ++
    (if element.needsParens then openParen :: inner ++ [closeParen] else inner) ++ [brackets]
  | union [] => [atom "never"]
  | union (type :: types) => type.tokens ++ alternativesTokens types
  | nullable inner => inner.tokens ++ [bar, null, bar, undefined]

/-- The members of a union behind the first one. -/
def alternativesTokens : List TypeExpr → List TypeToken
  | [] => []
  | type :: types => bar :: type.tokens ++ alternativesTokens types

end

mutual

/-- The tokens of a type are its text. -/
theorem join_tokens : ∀ t : TypeExpr, join t.tokens = t.render
  | primitive _ => join_singleton _
  | named _ => join_singleton _
  | emptyRecord => rfl
  | .parameter _ => join_singleton _
  | list element .generic access => by
    cases access
    all_goals simp [tokens, render, TypeToken.text, join_tokens element, String.append_assoc]
  | list element .suffix access => by
    cases access
    all_goals
      cases hparens : element.needsParens
      all_goals
        simp [tokens, render, TypeToken.text, join_tokens element, hparens, String.append_assoc]
  | union [] => rfl
  | union (type :: types) => by
    simp [tokens, render, join_tokens type, join_alternativesTokens types]
  | nullable inner => by
    simp [tokens, render, TypeToken.text, join_tokens inner]

theorem join_alternativesTokens : ∀ types : List TypeExpr,
    join (alternativesTokens types) = renderAlternatives types
  | [] => rfl
  | type :: types => by
    simp [alternativesTokens, renderAlternatives, TypeToken.text, join_tokens type,
      join_alternativesTokens types, String.append_assoc]

end

/-- Types without parts are atoms. -/
theorem tokens_of_isLeaf {t : TypeExpr} (h : t.isLeaf = true) : t.tokens = [atom t.render] := by
  cases t with
  | list element form access => nomatch h
  | union members => nomatch h
  | nullable inner => nomatch h
  | _ => rfl

/-- A union of one type is written as that type, so that each further alternative brings its own bar. -/
theorem tokens_unionOf (type : TypeExpr) (types : List TypeExpr) :
    (unionOf (type :: types)).tokens = type.tokens ++ types.flatMap fun t => bar :: t.tokens := by
  have halternatives (types : List TypeExpr) :
      alternativesTokens types = types.flatMap fun t => bar :: t.tokens := by
    induction types with
    | nil => rfl
    | cons type types ih => rw [alternativesTokens, ih, List.flatMap_cons]
  cases types with
  | nil => exact (List.append_nil _).symm
  | cons next types => exact congrArg (type.tokens ++ ·) (halternatives (next :: types))

end TypeExpr

/-! ## Reading

What is read lies in a stack. Innermost is the union that is being read: its alternatives, and what
there is of the next one. Below are the unions around, each with the bracket that was opened there. -/

namespace TypeReader

/-- An alternative of a union. -/
inductive Operand
  | type (t : TypeExpr)
  | null
  | undefined

/-- The type that an alternative is. -/
def Operand.type? : Operand → Option TypeExpr
  | type t => some t
  | _ => none

/-- The union of alternatives, the last one first. -/
def unionOf? (operands : List Operand) : Option TypeExpr :=
  match operands.mapM Operand.type? with
  | some (type :: types) => some (.unionOf (type :: types).reverse)
  | _ => none

/-- The type of alternatives, the last one first. Nothing is allowed if this is said at the end. -/
def ofAlternatives : List Operand → Option TypeExpr
  | .undefined :: .null :: operands => (unionOf? operands).map .nullable
  | operands => unionOf? operands

/-- A union of which a part has been read. -/
structure Pending where
  /-- The alternatives in front of the last bar, the last one first. -/
  before : List Operand
  /-- Whether the word `readonly` stands in front of the next alternative. -/
  isReadonly : Bool
  /-- The next alternative, as far as it has been read. -/
  last : Option Operand

namespace Pending

/-- A union of which nothing has been read. -/
def start : Pending := ⟨[], false, none⟩

/-- The alternatives, the last one first. All brackets come before the word `readonly`, so it is about
the outermost ones. -/
def alternatives (p : Pending) : Option (List Operand) :=
  match p.isReadonly, p.last with
  | false, some operand => some (operand :: p.before)
  | true, some (.type (.list element .suffix .mutable)) =>
    some (.type (.list element .suffix .readonly) :: p.before)
  | _, _ => none

/-- The type of a union that has been read. -/
def type? (p : Pending) : Option TypeExpr := p.alternatives.bind ofAlternatives

end Pending

/-- A bracket around a type. -/
inductive Opening
  | paren
  | list (access : Access)

/-- What a type in a bracket becomes. -/
def Opening.enclose : Opening → TypeExpr → TypeExpr
  | paren, t => t
  | list access, t => .list t .generic access

/-- What has been read. -/
structure State where
  /-- The innermost union. -/
  inner : Pending
  /-- The unions around, from the inside. -/
  outer : List (Opening × Pending)

namespace State

/-- Before the first token. -/
def start : State := ⟨.start, []⟩

/-- Reads an alternative. -/
def fill (s : State) (operand : Operand) : Option State :=
  match s.inner.last with
  | none => some { s with inner := { s.inner with last := some operand } }
  | some _ => none

/-- Reads an opening bracket. -/
def enter (s : State) (opening : Opening) : Option State :=
  match s.inner.last with
  | none => some ⟨.start, (opening, s.inner) :: s.outer⟩
  | some _ => none

/-- Reads the bracket that closes an opening one. -/
def leave (s : State) (opening : Opening) (around : State) : Option State :=
  s.inner.type?.bind fun t => around.fill (.type (opening.enclose t))

end State

/-- Reads a token. Brackets go to what is in front of them, and a bar ends an alternative. -/
def step (s : State) : TypeToken → Option State
  | .atom text => s.fill (.type (.declared text))
  | .null => s.fill .null
  | .undefined => s.fill .undefined
  | .brackets =>
    match s.inner.last with
    | some (.type t) =>
      some { s with inner := { s.inner with last := some (.type (.list t .suffix .mutable)) } }
    | _ => none
  | .readonly =>
    match s.inner.isReadonly, s.inner.last with
    | false, none => some { s with inner := { s.inner with isReadonly := true } }
    | _, _ => none
  | .bar => s.inner.alternatives.map fun operands => { s with inner := ⟨operands, false, none⟩ }
  | .openParen => s.enter .paren
  | .openList access => s.enter (.list access)
  | .closeParen =>
    match s.outer with
    | (.paren, around) :: outer => s.leave .paren ⟨around, outer⟩
    | _ => none
  | .closeList =>
    match s.outer with
    | (.list access, around) :: outer => s.leave (.list access) ⟨around, outer⟩
    | _ => none

/-- Reads tokens. -/
def run (s : State) (ts : List TypeToken) : Option State := ts.foldlM step s

/-- Reads a type, and nothing but the type. -/
def read (ts : List TypeToken) : Option TypeExpr :=
  (run .start ts).bind fun s => if s.outer.isEmpty then s.inner.type? else none

@[simp] theorem run_nil (s : State) : run s [] = some s := rfl

@[simp] theorem run_cons (s : State) (t : TypeToken) (ts : List TypeToken) :
    run s (t :: ts) = (step s t).bind fun s => run s ts := rfl

@[simp] theorem run_append (s : State) (ts us : List TypeToken) :
    run s (ts ++ us) = (run s ts).bind fun s => run s us := List.foldlM_append

/-- Brackets come before `readonly`, and that before a bar. -/
example : read [.readonly, .atom "A", .brackets, .brackets, .bar, .atom "B", .brackets] =
    some (.union [.list (.list (.declared "A") .suffix .mutable) .suffix .readonly,
      .list (.declared "B") .suffix .mutable]) := rfl

/-! ## What tokens are read as

There are three places for a type. It can be one alternative, some alternatives, or all that there is
between two brackets. -/

variable {ts us : List TypeToken} {t u : TypeExpr} {types : List TypeExpr}

/-- The tokens are read as one alternative, wherever an alternative can stand. -/
def Fills (ts : List TypeToken) (t : TypeExpr) : Prop :=
  ∀ before isReadonly outer, run ⟨⟨before, isReadonly, none⟩, outer⟩ ts =
    some ⟨⟨before, isReadonly, some (.type t)⟩, outer⟩

/-- The tokens are read as alternatives, each of them a type. -/
def Lists (ts : List TypeToken) (types : List TypeExpr) : Prop :=
  ∀ outer, ∃ inner, run ⟨.start, outer⟩ ts = some ⟨inner, outer⟩ ∧
    inner.alternatives = some (types.map .type).reverse

/-- The tokens are read as a type, up to the bracket behind it. -/
def Makes (ts : List TypeToken) (t : TypeExpr) : Prop :=
  ∀ outer, ∃ inner, run ⟨.start, outer⟩ ts = some ⟨inner, outer⟩ ∧ inner.type? = some t

/-- Alternatives that are all types, none of them a literal, make the union of these types, in the order
of the text: the stack has the last one first. -/
theorem unionOf?_types (hne : types ≠ []) :
    unionOf? (types.map Operand.type).reverse = some (.unionOf types) := by
  have htypes (types : List TypeExpr) : (types.map Operand.type).mapM Operand.type? = some types := by
    induction types with
    | nil => rfl
    | cons type types ih => simp [ih, Operand.type?]
  obtain ⟨type, others, hreverse⟩ := List.exists_cons_of_ne_nil (List.reverse_ne_nil_iff.mpr hne)
  rw [unionOf?, ← List.map_reverse, htypes, hreverse]
  show some (TypeExpr.unionOf (type :: others).reverse) = _
  rw [← hreverse, List.reverse_reverse]

/-- With neither `null` nor `undefined` among the alternatives nothing becomes optional. -/
theorem ofAlternatives_types (hne : types ≠ []) :
    ofAlternatives (types.map Operand.type).reverse = some (.unionOf types) := by
  rw [← unionOf?_types hne, ← List.map_reverse]
  cases types.reverse with
  | nil => rfl
  | cons type others => rfl

theorem Fills.lists (h : Fills ts t) : Lists ts [t] :=
  fun outer => ⟨_, h [] false outer, rfl⟩

theorem Lists.makes (h : Lists ts types) (hne : types ≠ []) : Makes ts (.unionOf types) := by
  intro outer
  obtain ⟨inner, hrun, halternatives⟩ := h outer
  refine ⟨inner, hrun, ?_⟩
  rw [Pending.type?, halternatives]
  exact ofAlternatives_types hne

/-- At the outermost place no bracket is open, so what is made there is what the tokens are read as. -/
theorem Makes.read (h : Makes ts t) : read ts = some t := by
  obtain ⟨inner, hrun, htype⟩ := h []
  rw [TypeReader.read, State.start, hrun]
  exact htype

/-! ### A rule for each sign -/

theorem fills_atom (text : String) : Fills [.atom text] (.declared text) := fun _ _ _ => rfl

/-- In parentheses a whole union is one alternative, whatever stands around. -/
theorem Makes.parens (h : Makes ts t) : Fills (.openParen :: ts ++ [.closeParen]) t := by
  intro before isReadonly outer
  obtain ⟨inner, hrun, htype⟩ := h ((.paren, ⟨before, isReadonly, none⟩) :: outer)
  have hopen : step ⟨⟨before, isReadonly, none⟩, outer⟩ .openParen =
      some ⟨.start, (.paren, ⟨before, isReadonly, none⟩) :: outer⟩ := rfl
  have hclose : step ⟨inner, (.paren, ⟨before, isReadonly, none⟩) :: outer⟩ .closeParen =
      some ⟨⟨before, isReadonly, some (.type t)⟩, outer⟩ := by
    show inner.type?.bind _ = _
    rw [htype]
    rfl
  simp [hopen, hrun, hclose]

/-- The generic form needs no parentheses: its own brackets hold a union together. -/
theorem Makes.generic (h : Makes ts t) (access : Access) :
    Fills (.openList access :: ts ++ [.closeList]) (.list t .generic access) := by
  intro before isReadonly outer
  obtain ⟨inner, hrun, htype⟩ := h ((.list access, ⟨before, isReadonly, none⟩) :: outer)
  have hopen : step ⟨⟨before, isReadonly, none⟩, outer⟩ (.openList access) =
      some ⟨.start, (.list access, ⟨before, isReadonly, none⟩) :: outer⟩ := rfl
  have hclose : step ⟨inner, (.list access, ⟨before, isReadonly, none⟩) :: outer⟩ .closeList =
      some ⟨⟨before, isReadonly, some (.type (.list t .generic access))⟩, outer⟩ := by
    show inner.type?.bind _ = _
    rw [htype]
    rfl
  simp [hopen, hrun, hclose]

/-- Brackets take what stands directly in front of them, whatever is in front of that. -/
theorem Fills.brackets (h : Fills ts t) : Fills (ts ++ [.brackets]) (.list t .suffix .mutable) := by
  intro before isReadonly outer
  rw [run_append, h]
  rfl

/-- The word in front is read before it is known what it belongs to. -/
theorem Fills.readonly (h : Fills ts t) :
    Lists (.readonly :: ts ++ [.brackets]) [.list t .suffix .readonly] := by
  intro outer
  refine ⟨⟨[], true, some (.type (.list t .suffix .mutable))⟩, ?_, rfl⟩
  have hreadonly : step ⟨.start, outer⟩ .readonly = some ⟨⟨[], true, none⟩, outer⟩ := rfl
  rw [List.cons_append, run_cons, hreadonly, Option.bind_some, run_append, h]
  rfl

/-- A bar closes the alternative in front of it, and the next one is read from the start. -/
theorem Lists.bar (h : Lists ts types) (hu : Fills us u) :
    Lists (ts ++ .bar :: us) (types ++ [u]) := by
  intro outer
  obtain ⟨inner, hrun, halternatives⟩ := h outer
  have hbar : step ⟨inner, outer⟩ .bar =
      some ⟨⟨(types.map .type).reverse, false, none⟩, outer⟩ := by
    rw [step, halternatives]
    rfl
  refine ⟨⟨(types.map .type).reverse, false, some (.type u)⟩, ?_, ?_⟩
  · rw [run_append, hrun, Option.bind_some, run_cons, hbar, Option.bind_some, hu]
  · simp [Pending.alternatives]

/-- That nothing is allowed is said behind all alternatives. -/
theorem Lists.nullable (h : Lists ts types) (hne : types ≠ []) :
    Makes (ts ++ [.bar, .null, .bar, .undefined]) (.nullable (.unionOf types)) := by
  intro outer
  obtain ⟨inner, hrun, halternatives⟩ := h outer
  refine ⟨⟨.null :: (types.map .type).reverse, false, some .undefined⟩, ?_, ?_⟩
  · rw [run_append, hrun, Option.bind_some, run_cons, step, halternatives]
    rfl
  · show (unionOf? _).map TypeExpr.nullable = _
    rw [unionOf?_types hne]
    rfl

end TypeReader

end ResolverContracts
