import ResolverContracts.Proofs.Document.Braces
import ResolverContracts.Proofs.Document.Grammar
/-!
# The grammar of operations and fragments

Which rows of tokens are operations and fragments: the definitions that are run against a schema and have
no place in one. `Executable.Written p ls` says that the row `ls` is a part of the sort `p`, with one rule
for each production, and `ExecutableWritten head body` puts the parts of a definition together. The body is
the selection set in braces that every such definition ends with, and the head is all that stands in front
of it.

Brackets may be empty here, a constant may mention a variable, and a description may stand in front of
whatever has a keyword. So there are no fewer definitions than in any edition of the language.

Whatever a part is, its braces are closed in it (`Executable.Written.balanced`).
-/

set_option autoImplicit false

namespace ResolverContracts

open Lexeme (word keyword mark)

/-! ## Parts -/

namespace Executable

/-- The sorts of parts. -/
inductive Part
  /-- Parts of one sort, one behind the other. -/
  | several (part : Part)
  | value
  /-- A name and a value: a field of an object or an argument. -/
  | pair
  | arguments
  | directive
  | default
  /-- A variable with its type. -/
  | parameter
  | parameters
  /-- Another name for what a field answers, if it has one. -/
  | label
  /-- The type a fragment is for, if it names one. -/
  | condition
  | selection
  /-- The selections in braces. -/
  | selectionSet
  /-- The selections of a field, if it has any. -/
  | subselection
  /-- The name of an operation, if it has one. -/
  | title

/-- The rows that are a part of a sort. -/
inductive Written : Part → List Lexeme → Prop
  | nil {p : Part} : Written (.several p) []
  | cons {p : Part} {ls more : List Lexeme} (h : Written p ls) (hmore : Written (.several p) more) :
      Written (.several p) (ls ++ more)
  | reference (name : String) : Written .value [mark .dollar, word name]
  | literal {l : Lexeme} (h : l.kind ∈ [TokenKind.int, .float, .string, .blockString]) :
      Written .value [l]
  /-- A constant that is a word, or an enum value. -/
  | symbol (text : String) : Written .value [word text]
  | list {ls : List Lexeme} (h : Written (.several .value) ls) :
      Written .value (mark .bracketOpen :: (ls ++ [mark .bracketClose]))
  | object {ls : List Lexeme} (h : Written (.several .pair) ls) :
      Written .value (mark .braceOpen :: (ls ++ [mark .braceClose]))
  | pair (name : String) {value : List Lexeme} (h : Written .value value) :
      Written .pair (word name :: mark .colon :: value)
  | noArguments : Written .arguments []
  | arguments {ls : List Lexeme} (h : Written (.several .pair) ls) :
      Written .arguments (mark .parenOpen :: (ls ++ [mark .parenClose]))
  | directive (name : String) {arguments : List Lexeme} (h : Written .arguments arguments) :
      Written .directive (mark .atSign :: word name :: arguments)
  | noDefault : Written .default []
  | default {value : List Lexeme} (h : Written .value value) :
      Written .default (mark .equals :: value)
  | parameter {d : Option Description} {t : TypeNode} {description type default directives : List Lexeme}
      (name : String) (hdescription : DescriptionWritten d description) (htype : t.Written type)
      (hdefault : Written .default default) (hdirectives : Written (.several .directive) directives) :
      Written .parameter (description ++
        mark .dollar :: word name :: mark .colon :: (type ++ (default ++ directives)))
  | noParameters : Written .parameters []
  | parameters {ls : List Lexeme} (h : Written (.several .parameter) ls) :
      Written .parameters (mark .parenOpen :: (ls ++ [mark .parenClose]))
  | noLabel : Written .label []
  | label (name : String) : Written .label [word name, mark .colon]
  | field {label arguments directives fields : List Lexeme} (name : String)
      (hlabel : Written .label label) (harguments : Written .arguments arguments)
      (hdirectives : Written (.several .directive) directives)
      (hfields : Written .subselection fields) :
      Written .selection (label ++ word name :: (arguments ++ (directives ++ fields)))
  | spread {directives : List Lexeme} {name : String} (hname : name ≠ "on")
      (hdirectives : Written (.several .directive) directives) :
      Written .selection (mark .ellipsis :: word name :: directives)
  | inlineFragment {condition directives fields : List Lexeme}
      (hcondition : Written .condition condition)
      (hdirectives : Written (.several .directive) directives)
      (hfields : Written .selectionSet fields) :
      Written .selection (mark .ellipsis :: (condition ++ (directives ++ fields)))
  | noCondition : Written .condition []
  | condition (type : String) : Written .condition [keyword .on, word type]
  | selectionSet {ls : List Lexeme} (h : Written (.several .selection) ls) :
      Written .selectionSet (mark .braceOpen :: (ls ++ [mark .braceClose]))
  | noSubselection : Written .subselection []
  | subselection {ls : List Lexeme} (h : Written .selectionSet ls) : Written .subselection ls
  | noTitle : Written .title []
  | title (name : String) : Written .title [word name]

end Executable

/-! ## Definitions -/

/-- An operation or a fragment, as what stands in front of its selection set and the selection set. -/
inductive ExecutableWritten : List Lexeme → List Lexeme → Prop
  /-- A query of which nothing but the selections is written. -/
  | shorthand {body : List Lexeme} (hbody : Executable.Written .selectionSet body) :
      ExecutableWritten [] body
  | operation {d : Option Description} {description title parameters directives body : List Lexeme}
      (hdescription : DescriptionWritten d description) (operation : Operation)
      (htitle : Executable.Written .title title) (hparameters : Executable.Written .parameters parameters)
      (hdirectives : Executable.Written (.several .directive) directives)
      (hbody : Executable.Written .selectionSet body) :
      ExecutableWritten
        (description ++ word operation.keyword :: (title ++ (parameters ++ directives))) body
  | fragment {d : Option Description} {description directives body : List Lexeme} {name : String}
      (hdescription : DescriptionWritten d description) (hname : name ≠ "on") (type : String)
      (hdirectives : Executable.Written (.several .directive) directives)
      (hbody : Executable.Written .selectionSet body) :
      ExecutableWritten
        (description ++ keyword .fragment :: word name :: keyword .on :: word type :: directives) body

/-! ## Braces -/

theorem Lexeme.noBrace_keyword (k : Keyword) : (keyword k).NoBrace := word_text k ▸ noBrace_word k.text

theorem DescriptionWritten.balanced {d : Option Description} {ls : List Lexeme}
    (h : DescriptionWritten d ls) : Balanced ls := by
  cases h with
  | absent => exact .nil
  | present hstring => cases hstring <;> exact .single ⟨nofun, nofun⟩

/-- A description is no mark. -/
theorem DescriptionWritten.mark_not_mem {d : Option Description} {ls : List Lexeme} {p : Punctuator}
    (h : DescriptionWritten d ls) : mark p ∉ ls := by
  cases h with
  | absent => exact List.not_mem_nil
  | present hstring => cases hstring <;> exact fun hmem => nomatch List.mem_singleton.mp hmem

theorem TypeNode.Written.balanced {t : TypeNode} {ls : List Lexeme} (h : t.Written ls) :
    Balanced ls := by
  have hopen := Lexeme.noBrace_mark (p := .bracketOpen) nofun nofun
  have hclose := Lexeme.noBrace_mark (p := .bracketClose) nofun nofun
  have hbang := Lexeme.noBrace_mark (p := .bang) nofun nofun
  induction h with
  | named name => exact .single (Lexeme.noBrace_word _)
  | nonNullNamed name => exact .cons (Lexeme.noBrace_word _) (.single hbang)
  | list _ _ ih => exact .between hopen ih hclose
  | nonNullList _ _ _ ih =>
    exact .cons hopen (.append ih (.cons hclose (.single hbang)))

/-- **A part closes its braces.** One case for each rule of the grammar. -/
theorem Executable.Written.balanced {p : Part} {ls : List Lexeme} (h : Written p ls) :
    Balanced ls := by
  have hword := Lexeme.noBrace_word
  have hmark {p : Punctuator} (hopen : p ≠ .braceOpen) (hclose : p ≠ .braceClose) :
      (mark p).NoBrace := Lexeme.noBrace_mark hopen hclose
  induction h with
  | nil | noArguments | noDefault | noParameters | noLabel | noCondition | noSubselection | noTitle =>
    exact .nil
  | cons _ _ ih ihmore => exact .append ih ihmore
  | reference name => exact .cons (hmark nofun nofun) (.single (hword name))
  | literal hkind =>
    -- None of the four kinds is punctuation.
    refine .single ⟨fun h => ?_, fun h => ?_⟩
    · rw [h] at hkind
      exact absurd hkind (by decide)
    · rw [h] at hkind
      exact absurd hkind (by decide)
  | symbol text | title text => exact .single (hword text)
  | list _ ih | arguments _ ih | parameters _ ih =>
    exact .between (hmark nofun nofun) ih (hmark nofun nofun)
  | object _ ih | selectionSet _ ih => exact .block ih
  | pair name _ ih => exact .cons (hword name) (.cons (hmark nofun nofun) ih)
  | directive name _ ih => exact .cons (hmark nofun nofun) (.cons (hword name) ih)
  | default _ ih => exact .cons (hmark nofun nofun) ih
  | parameter name hdescription htype _ _ ihdefault ihdirectives =>
    refine .append hdescription.balanced (.cons (hmark nofun nofun) (.cons (hword name) ?_))
    exact .cons (hmark nofun nofun) (.append htype.balanced (.append ihdefault ihdirectives))
  | label name => exact .cons (hword name) (.single (hmark nofun nofun))
  | field name _ _ _ _ ihlabel iharguments ihdirectives ihfields =>
    exact .append ihlabel (.cons (hword name) (.append iharguments (.append ihdirectives ihfields)))
  | spread _ _ ih => exact .cons (hmark nofun nofun) (.cons (hword _) ih)
  | inlineFragment _ _ _ ihcondition ihdirectives ihfields =>
    exact .cons (hmark nofun nofun) (.append ihcondition (.append ihdirectives ihfields))
  | condition type => exact .cons (Lexeme.noBrace_keyword .on) (.single (hword type))
  | subselection _ ih => exact ih

/-- A selection set is a block. -/
theorem Executable.Written.exists_block {ls : List Lexeme} (h : Written .selectionSet ls) :
    ∃ inner, ls = mark .braceOpen :: (inner ++ [mark .braceClose]) ∧ Balanced inner := by
  cases h with
  | selectionSet h => exact ⟨_, rfl, h.balanced⟩

/-- The kinds of the tokens that executable definitions start with, apart from a description. -/
def executableKinds : List TokenKind :=
  [.keyword .query, .keyword .mutation, .keyword .subscription, .keyword .fragment, .punct .braceOpen]

/-- Where the braces of a definition are: its head is balanced, and its body is a block. -/
theorem ExecutableWritten.parts {head body : List Lexeme} (h : ExecutableWritten head body) :
    ∃ d description front inner, DescriptionWritten d description ∧ head = description ++ front ∧
      Balanced front ∧ body = mark .braceOpen :: (inner ++ [mark .braceClose]) ∧ Balanced inner ∧
      StartsAs (· ∈ executableKinds) (front ++ body) := by
  have hword := Lexeme.noBrace_word
  have hkind (o : Operation) : (word o.keyword).kind ∈ executableKinds := by cases o <;> decide
  cases h with
  | shorthand hbody =>
    obtain ⟨inner, rfl, hinner⟩ := hbody.exists_block
    exact ⟨none, [], [], inner, .absent, rfl, .nil, rfl, hinner, _, _, rfl, by decide⟩
  | operation hdescription operation htitle hparameters hdirectives hbody =>
    obtain ⟨inner, rfl, hinner⟩ := hbody.exists_block
    refine ⟨_, _, _, inner, hdescription, rfl, .cons (hword _) ?_, rfl, hinner, _, _, rfl,
      hkind operation⟩
    exact .append htitle.balanced (.append hparameters.balanced hdirectives.balanced)
  | fragment hdescription _ type hdirectives hbody =>
    obtain ⟨inner, rfl, hinner⟩ := hbody.exists_block
    refine ⟨_, _, _, inner, hdescription, rfl, ?_, rfl, hinner, _, _, rfl, by decide⟩
    exact .cons (Lexeme.noBrace_keyword _) (.cons (hword _)
      (.cons (Lexeme.noBrace_keyword _) (.cons (hword type) hdirectives.balanced)))

end ResolverContracts
