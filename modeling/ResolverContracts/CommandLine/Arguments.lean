import ResolverContracts.Config.Symbol
/-!
# Arguments

What a run is asked to do. The words of a command line stand on two levels: those in front of the
command, where only switches are known, and those behind it, where each command has options and files
of its own. Two switches are known on both levels.

A word is looked at as it comes, and what is wrong with it is said at once. A value though may still
be waited for, so a value is only looked at when the next option begins or the words end; and what is
missing or does not go together is only said at the end of a level.
-/

set_option autoImplicit false

namespace ResolverContracts

/-! ## Invocations -/

/-- How much a run says. -/
structure Verbosity where
  verbose : Bool
  quiet : Bool
  deriving DecidableEq

/-- The events that are shown. Asking for more goes before asking for less. -/
def Verbosity.logFilter (v : Verbosity) : String :=
  if v.verbose then "resgen=debug" else if v.quiet then "resgen=error" else "resgen=info"

/-- What to generate, from what. -/
structure GenerateOptions where
  schema : String
  /-- The file of the configuration, if it is not the usual one. -/
  config : Option String
  /-- The file to write. Without one the module is printed. -/
  output : Option String
  /-- The type of the context, in place of the configured one. -/
  contextType : Option Symbol
  /-- Whether the output is only compared. -/
  check : Bool
  deriving DecidableEq

/-- What a run does. -/
inductive Command
  | generate (options : GenerateOptions)
  | check (files : List String)
  | version
  deriving DecidableEq

/-- What a run is asked to do. -/
structure Invocation where
  command : Command
  verbosity : Verbosity
  deriving DecidableEq

/-- Why words ask for no run. -/
inductive ArgumentError
  /-- Help is asked for. -/
  | help
  /-- The version is asked for. -/
  | version
  /-- There is no word at all. -/
  | noArguments
  | missingCommand
  | unknownCommand (word : String)
  | unknownArgument (word : String)
  | missingArgument
  /-- Options do not go together, or one is there twice. -/
  | conflict
  /-- A value is missing or empty. -/
  | badValue
  | badContextType (error : SymbolError)
  /-- A switch is given a value. -/
  | excessValue
  deriving DecidableEq

/-! ## Options -/

/-- Options without a value. -/
inductive Switch
  | verbose | quiet | check
  deriving DecidableEq

/-- Options with a value. -/
inductive Setting
  | config | output | contextType
  deriving DecidableEq

/-- What can be said by an option. -/
inductive Choice
  | help
  | version
  | switch (switch : Switch)
  | setting (setting : Setting)
  deriving DecidableEq

/-- The word for an option. -/
def Choice.word : Choice → String
  | help => "help"
  | version => "version"
  | switch .verbose => "verbose"
  | switch .quiet => "quiet"
  | switch .check => "check"
  | setting .config => "config"
  | setting .output => "output"
  | setting .contextType => "context-type"

/-- The letter for an option. -/
def Choice.letter? : Choice → Option Char
  | help => some 'h'
  | version => some 'V'
  | switch .verbose => some 'v'
  | switch .quiet => some 'q'
  | switch .check => none
  | setting .config => some 'c'
  | setting .output => some 'o'
  | setting .contextType => none

/-- The names of the commands. -/
inductive CommandName
  | generate | check | version
  deriving DecidableEq

/-- The command of a name. -/
def CommandName.ofText? : String → Option CommandName
  | "generate" => some generate
  | "check" => some check
  | "version" => some version
  | _ => none

/-- Where a word stands. -/
inductive ArgumentLevel
  | front
  | behind (command : CommandName)
  deriving DecidableEq

namespace ArgumentLevel

/-- The options known on a level. -/
def choices : ArgumentLevel → List Choice
  | front => [.help, .version, .switch .verbose, .switch .quiet]
  | behind .generate =>
    [.help, .switch .verbose, .switch .quiet, .setting .config, .setting .output,
      .setting .contextType, .switch .check]
  | behind _ => [.help, .switch .verbose, .switch .quiet]

/-- The option of a word. -/
def ofWord? (l : ArgumentLevel) (word : String) : Option Choice := l.choices.find? (·.word == word)

/-- The option of a letter. -/
def ofLetter? (l : ArgumentLevel) (letter : Char) : Option Choice :=
  l.choices.find? (·.letter? == some letter)

/-- Whether a level has room for a file behind `count` others. -/
def takesFile (l : ArgumentLevel) (count : Nat) : Bool :=
  match l with
  | behind .generate => count == 0
  | behind .check => true
  | _ => false

end ArgumentLevel

/-! ## What is given on a level -/

/-- What is still to be looked at. -/
inductive Pending
  | nothing
  /-- The files so far. -/
  | files
  /-- A setting, with its value if that is there. -/
  | setting (setting : Setting) (value : Option String)

/-- What is given on a level. -/
structure Given where
  switches : List Switch
  config : Option String
  output : Option String
  contextType : Option Symbol
  files : List String
  pending : Pending

namespace Given

/-- Nothing is given. -/
def nothing : Given := ⟨[], none, none, none, [], .nothing⟩

/-- A path to be given to a setting that has none yet. -/
def freshPath (given : Option String) (path : String) : Except ArgumentError String :=
  if given.isSome then .error .conflict
  else if path.isEmpty then .error .badValue
  else .ok path

/-- Gives a setting a value. -/
def assign (g : Given) (setting : Setting) (value : String) : Except ArgumentError Given := do
  match setting with
  | .config => return { g with config := some (← freshPath g.config value) }
  | .output => return { g with output := some (← freshPath g.output value) }
  | .contextType =>
    if g.contextType.isSome then .error .conflict
    else return { g with contextType := some (← (Symbol.parse value).mapError .badContextType) }

/-- Looks at what was left. -/
def settle (g : Given) : Except ArgumentError Given :=
  let settled := { g with pending := .nothing }
  match g.pending with
  | .nothing => .ok g
  | .files => if g.files.any (·.isEmpty) then .error .badValue else .ok settled
  | .setting _ none => .error .badValue
  | .setting setting (some value) => settled.assign setting value

/-- Takes an option without a value. -/
def choose (g : Given) (choice : Choice) : Except ArgumentError Given := do
  let g ← g.settle
  match choice with
  | .help => .error .help
  | .version => .error .version
  | .switch switch =>
    if g.switches.contains switch then .error .conflict
    else return { g with switches := g.switches ++ [switch] }
  | .setting setting => return { g with pending := .setting setting none }

/-- Takes a setting with its value. -/
def chooseWith (g : Given) (setting : Setting) (value : String) : Except ArgumentError Given := do
  (← g.settle).assign setting value

/-- Takes the letters of a word. The letters behind that of a setting are its value. -/
def chooseLetters (l : ArgumentLevel) (word : String) (g : Given) :
    List Char → Except ArgumentError Given
  | [] => .ok g
  | c :: cs =>
    match l.ofLetter? c, cs with
    | none, _ => .error (.unknownArgument word)
    | some (.setting setting), '=' :: value => g.chooseWith setting (String.ofList value)
    | some (.setting setting), d :: value => g.chooseWith setting (String.ofList (d :: value))
    | some choice, cs => do chooseLetters l word (← g.choose choice) cs

/-- Takes a word that is the word of an option, perhaps with a value behind an equals sign. -/
def chooseWord (l : ArgumentLevel) (g : Given) (word : String) (value : Option String) :
    Except ArgumentError Given :=
  match l.ofWord? word, value with
  | none, _ => .error (.unknownArgument word)
  | some (.setting setting), some value => g.chooseWith setting value
  | some _, some _ => .error .excessValue
  | some choice, none => g.choose choice

/-- Takes a file. Those behind one another are looked at together. -/
def takeFile (l : ArgumentLevel) (g : Given) (file : String) : Except ArgumentError Given :=
  if l.takesFile g.files.length then
    match g.pending with
    | .files => .ok { g with files := g.files ++ [file] }
    | _ => do
      let g ← g.settle
      return { g with files := g.files ++ [file], pending := .files }
  else .error (.unknownArgument file)

end Given

/-! ## Words -/

/-- What a word is by its form. -/
inductive ArgumentForm
  /-- Two dashes alone: only files follow. -/
  | endOfOptions
  | word (name : String) (value : Option String)
  | letters (letters : List Char)
  | plain

/-- The form of a word. -/
def ArgumentForm.of (text : String) : ArgumentForm :=
  match text.toList with
  | ['-', '-'] => endOfOptions
  | '-' :: '-' :: cs =>
    let name := cs.takeWhile (· != '=')
    match cs.drop name.length with
    | [] => word (String.ofList name) none
    | _ :: value => word (String.ofList name) (some (String.ofList value))
  | '-' :: c :: cs => letters (c :: cs)
  | _ => plain

namespace Given

/-- Takes the words behind a command. A setting that waits for its value takes the next word that has
not the form of an option. -/
def takeWords (l : ArgumentLevel) (onlyFiles : Bool) (g : Given) : List String → Except ArgumentError Given
  | [] => g.settle
  | text :: texts =>
    match (if onlyFiles then .plain else ArgumentForm.of text), g.pending with
    | .endOfOptions, _ => takeWords l true g texts
    | .word name value, _ => do takeWords l onlyFiles (← g.chooseWord l name value) texts
    | .letters cs, _ => do takeWords l onlyFiles (← g.chooseLetters l text cs) texts
    | .plain, .setting setting none =>
      if onlyFiles then do takeWords l onlyFiles (← g.takeFile l text) texts
      else takeWords l onlyFiles { g with pending := .setting setting (some text) } texts
    | .plain, _ => do takeWords l onlyFiles (← g.takeFile l text) texts

/-- The verbosity that is asked for on a level. -/
def verbosity (g : Given) : Verbosity :=
  ⟨g.switches.contains .verbose, g.switches.contains .quiet⟩

/-- Asking for more and for less on one level does not go together. -/
def checkVerbosity (g : Given) : Except ArgumentError Unit :=
  if g.verbosity.verbose && g.verbosity.quiet then .error .conflict else .ok ()

/-- The command with what is given behind it. -/
def toCommand (g : Given) : CommandName → Except ArgumentError Command
  | .generate =>
    let check := g.switches.contains .check
    match g.files with
    | [schema] =>
      if check && g.output.isNone then .error .missingArgument
      else .ok (.generate ⟨schema, g.config, g.output, g.contextType, check⟩)
    | _ => .error .missingArgument
  | .check => if g.files.isEmpty then .error .missingArgument else .ok (.check g.files)
  | .version => .ok .version

end Given

/-! ## The whole line -/

/-- Asks for help about a command. Help is itself something to ask help about. -/
def helpAbout : List String → ArgumentError
  | [] => .help
  | [word] =>
    if word = "help" ∨ (CommandName.ofText? word).isSome then .help else .unknownCommand word
  | word :: next :: _ =>
    if word = "help" ∨ (CommandName.ofText? word).isSome then .unknownCommand next
    else .unknownCommand word

namespace Invocation

/-- The invocation of a command, with what is given in front of it and the words behind it. -/
def ofCommand (front : Given) (name : CommandName) (texts : List String) :
    Except ArgumentError Invocation := do
  let behind ← Given.nothing.takeWords (.behind name) false texts
  behind.checkVerbosity
  let command ← behind.toCommand name
  front.checkVerbosity
  let verbosity : Verbosity :=
    ⟨front.verbosity.verbose || behind.verbosity.verbose,
      front.verbosity.quiet || behind.verbosity.quiet⟩
  return ⟨command, verbosity⟩

/-- What a word in front of which `--` stands is, where a command is expected. -/
def strayWord (text : String) : ArgumentError :=
  if text = "help" ∨ (CommandName.ofText? text).isSome then .unknownArgument text
  else .unknownCommand text

/-- The invocation that words ask for, behind what is given by words in front of them. -/
def ofWords (onlyFiles : Bool) (front : Given) : List String → Except ArgumentError Invocation
  | [] => .error (if front.switches.isEmpty then .noArguments else .missingCommand)
  | text :: texts =>
    if onlyFiles then .error (strayWord text)
    else if text = "help" then .error (helpAbout texts)
    else
      match CommandName.ofText? text, ArgumentForm.of text with
      | some name, _ => ofCommand front name texts
      | none, .endOfOptions => ofWords true front texts
      | none, .word name value => do ofWords false (← front.chooseWord .front name value) texts
      | none, .letters cs => do ofWords false (← front.chooseLetters .front text cs) texts
      | none, .plain => .error (.unknownCommand text)

/-- The invocation that the words of a command line ask for. -/
def parse (texts : List String) : Except ArgumentError Invocation := ofWords false .nothing texts

end Invocation

end ResolverContracts
