import ResolverContracts.CommandLine.Arguments
import ResolverContracts.CommandLine.FileTree
import ResolverContracts.Contract.Generate
import ResolverContracts.Schema.Load
/-!
# Runs

What an invocation does. All reading comes before the one thing that may be written, so an invocation
is first turned into a plan, from what there is to read, and the plan is then carried out. A plan says
what is printed, how the run ends, and which file gets which text, if one does.

A plan looks at few files only (`Invocation.paths`), and at nothing else (`plan_congr`).
-/

set_option autoImplicit false

namespace ResolverContracts

/-! ## Failures -/

/-- Why a run fails. -/
inductive RunFailure
  | unreadable (path : String) (error : FileError)
  | badConfiguration (path : String) (error : ConfigError)
  | badSchema (path : String) (error : SchemaError)
  | notGenerated (error : GenerateError)
  | unwritable (path : String) (error : FileError)

/-- What a failure to understand a configuration is called, before it is told what is wrong. -/
def parseFailureText : String := "failed to parse configuration"

/-- An error of a configuration in words, what is behind it last. -/
def ConfigError.messages : ConfigError → List String
  | enumWithoutModule name => [(enumWithoutModule name).message]
  | error => parseFailureText :: (if error.message.isEmpty then [] else [error.message])

/-- A failure in words, what is behind it last. -/
def RunFailure.messages : RunFailure → List String
  | unreadable path error => ["failed to read " ++ path, error.message]
  | badConfiguration path error => ("invalid configuration in " ++ path) :: error.messages
  | badSchema path error => [path ++ " is invalid: " ++ error.message]
  | notGenerated error => "code generation failed" :: error.message :: error.causes
  | unwritable path error => ["failed to write " ++ path, error.message]

/-! ## Outcomes and plans -/

/-- How a run ends. -/
inductive Ending
  | exit (code : Nat)
  | failure (failure : RunFailure)

/-- What is heard of a run. -/
structure Outcome where
  /-- What is printed. -/
  output : String
  /-- What is remarked aside. -/
  remarks : List String
  ending : Ending

namespace Outcome

/-- A run that did what it was asked to do. -/
def success (output : String) : Outcome := ⟨output, [], .exit 0⟩

/-- A run that fails and prints nothing. -/
def failed (failure : RunFailure) : Outcome := ⟨"", [], .failure failure⟩

end Outcome

/-- What an invocation comes to, given what there is to read. -/
inductive Plan
  /-- Nothing is written. -/
  | finish (outcome : Outcome)
  /-- A file is written. The outcome is for the case that this succeeds. -/
  | write (path text : String) (outcome : Outcome)

/-- What reading a path gives. -/
abbrev Files := String → Except FileError String

/-- What is heard of a schema that is refused. -/
def schemaRemarks (path : String) (error : SchemaError) : List String :=
  error.diagnostics.items.map fun d => path ++ ": " ++ (d.toReport path).text

/-! ## Generating -/

/-- The name of the file that is the configuration when no other is given. -/
def usualConfig : String := "resgen.json"

namespace Files

/-- The text of a file that has to be there. -/
def require (files : Files) (path : String) : Except RunFailure String :=
  (files path).mapError (.unreadable path)

/-- The configuration in a file. -/
def overridesAt (files : Files) (path : String) : Except RunFailure Overrides := do
  (Overrides.parse (← files.require path)).mapError (.badConfiguration path)

/-- The configuration for a run: that of a file given, or of the usual one if it is there, or none. -/
def overrides (files : Files) (config : Option String) : Except RunFailure Overrides :=
  match config with
  | some path => files.overridesAt path
  | none =>
    if files usualConfig matches .error .notFound then .ok .default
    else files.overridesAt usualConfig

/-- The schema in a file. -/
def catalogueAt (files : Files) (path : String) : Except RunFailure Catalogue := do
  (Catalogue.load (← files.require path)).mapError (.badSchema path)

/-- The module that options ask for. The configuration is read before the schema. -/
def moduleFor (files : Files) (options : GenerateOptions) : Except RunFailure String := do
  let configured ← files.overrides options.config
  let overrides := { configured with
    contextType := options.contextType.getD configured.contextType }
  let catalogue ← files.catalogueAt options.schema
  (Project.generate ⟨catalogue, overrides⟩).mapError .notGenerated

end Files

/-- What there is to remark about a failure. -/
def RunFailure.remarks : RunFailure → List String
  | badSchema path error => schemaRemarks path error
  | _ => []

/-- A line that is printed unless the run is to be quiet. -/
def noteUnless (quiet : Bool) (line : String) : String := if quiet then "" else line ++ "\n"

/-- What is done with a module: it is printed, compared with a file, or written. A file that cannot be
read is compared as if it were empty. -/
def GenerateOptions.planFor (options : GenerateOptions) (files : Files) (quiet : Bool)
    (text : String) : Plan :=
  match options.output with
  | none => .finish (.success text)
  | some path =>
    if options.check then
      if (files path).toOption.getD "" = text then
        .finish (.success (noteUnless quiet ("Up to date " ++ path)))
      else .finish ⟨"", ["Out of date " ++ path], .exit 1⟩
    else .write path text (.success (noteUnless quiet ("Generated " ++ path)))

/-- Generates a module. -/
def GenerateOptions.plan (options : GenerateOptions) (files : Files) (quiet : Bool) : Plan :=
  match files.moduleFor options with
  | .error failure => .finish ⟨"", failure.remarks, .failure failure⟩
  | .ok text => options.planFor files quiet text

/-! ## Checking -/

/-- What is heard of checking files one after the other, and how many of them are no schemas. A file
that cannot be read ends the check. -/
structure CheckResult where
  output : String
  remarks : List String
  refused : Except RunFailure Nat

/-- Checks files one after the other. -/
def checkFiles (files : Files) (verbose : Bool) : List String → CheckResult
  | [] => ⟨"", [], .ok 0⟩
  | path :: paths =>
    let note (s : String) : String := if verbose then s ++ " " ++ path ++ "\n" else ""
    match files path with
    | .error e => ⟨note "Checking", [], .error (.unreadable path e)⟩
    | .ok text =>
      let later := checkFiles files verbose paths
      match Catalogue.load text with
      | .ok _ => { later with output := note "Checking" ++ note "OK" ++ later.output }
      | .error e =>
        ⟨note "Checking" ++ later.output, schemaRemarks path e ++ later.remarks,
          later.refused.map (· + 1)⟩

/-- The outcome of checking files. -/
def checkOutcome (files : Files) (verbosity : Verbosity) (paths : List String) : Outcome :=
  let result := checkFiles files verbosity.verbose paths
  let count := toString paths.length
  match result.refused with
  | .error failure => ⟨result.output, result.remarks, .failure failure⟩
  | .ok 0 =>
    let summary := noteUnless verbosity.quiet ("Success: " ++ count ++ " file(s) checked")
    ⟨result.output ++ summary, result.remarks, .exit 0⟩
  | .ok refused =>
    let summary := "Error: " ++ toString refused ++ " of " ++ count ++ " file(s) have errors"
    ⟨result.output, result.remarks ++ [summary], .exit 1⟩

/-! ## Invocations -/

/-- The version of the generator. -/
def versionText : String := "0.1.0"

namespace Invocation

/-- What an invocation comes to. -/
def plan (i : Invocation) (files : Files) : Plan :=
  match i.command with
  | .generate options => options.plan files i.verbosity.quiet
  | .check paths => .finish (checkOutcome files i.verbosity paths)
  | .version => .finish (.success ("resgen " ++ versionText ++ "\n"))

/-- The paths that an invocation may read. -/
def paths (i : Invocation) : List String :=
  match i.command with
  | .generate options =>
    [options.config.getD usualConfig, options.schema] ++ options.output.toList
  | .check paths => paths
  | .version => []

end Invocation

/-- Carries a plan out. A file that cannot be written changes nothing. -/
def Plan.perform (p : Plan) (t : FileTree) : Outcome × FileTree :=
  match p with
  | .finish outcome => (outcome, t)
  | .write path text outcome =>
    match t.write path text with
    | .ok t => (outcome, t)
    | .error e => (.failed (.unwritable path e), t)

/-- What an invocation does to a tree of files. -/
def Invocation.run (i : Invocation) (t : FileTree) : Outcome × FileTree := (i.plan t.read).perform t

/-! ## What a plan depends on -/

theorem Files.overridesAt_congr {files others : Files} {path : String}
    (h : files path = others path) : files.overridesAt path = others.overridesAt path := by
  simp only [overridesAt, require, h]

theorem Files.catalogueAt_congr {files others : Files} {path : String}
    (h : files path = others path) : files.catalogueAt path = others.catalogueAt path := by
  simp only [catalogueAt, require, h]

/-- With no configuration named, the usual place is the one file that is looked at. -/
theorem Files.overrides_congr {files others : Files} {config : Option String}
    (h : files (config.getD usualConfig) = others (config.getD usualConfig)) :
    files.overrides config = others.overrides config := by
  cases config with
  | some path => exact overridesAt_congr h
  | none =>
    have hu : files usualConfig = others usualConfig := h
    simp only [overrides, hu, overridesAt_congr hu]

/-- Once the text is made, the plan depends on the file it goes to and on no other: the file is compared
with the text, or written over. -/
theorem GenerateOptions.planFor_congr {options : GenerateOptions} {files others : Files}
    (h : ∀ path ∈ options.output, files path = others path) (quiet : Bool) (text : String) :
    options.planFor files quiet text = options.planFor others quiet text := by
  unfold planFor
  cases ho : options.output with
  | none => rfl
  | some path => simp only [h path ho]

theorem checkFiles_congr {files others : Files} (verbose : Bool) {paths : List String}
    (h : ∀ path ∈ paths, files path = others path) :
    checkFiles files verbose paths = checkFiles others verbose paths := by
  induction paths with
  | nil => rfl
  | cons path paths ih =>
    simp only [checkFiles, h path List.mem_cons_self,
      ih fun p hp => h p (List.mem_cons_of_mem _ hp)]

/-- Two views of files that agree on what an invocation may read give the same plan. -/
theorem Invocation.plan_congr (i : Invocation) {files others : Files}
    (h : ∀ path ∈ i.paths, files path = others path) : i.plan files = i.plan others := by
  unfold plan
  unfold paths at h
  split
  · next options heq =>
    rw [heq] at h
    have hc := Files.overrides_congr (h (options.config.getD usualConfig) (by simp))
    have hs := Files.catalogueAt_congr (h options.schema (by simp))
    have ho (path : String) (hp : path ∈ options.output) : files path = others path :=
      h path (by simp [Option.mem_def.mp hp])
    simp only [GenerateOptions.plan, Files.moduleFor, hc, hs, GenerateOptions.planFor_congr ho]
  · next paths heq =>
    rw [heq] at h
    simp only [checkOutcome, checkFiles_congr i.verbosity.verbose h]
  · rfl

end ResolverContracts
