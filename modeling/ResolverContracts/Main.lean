import ResolverContracts.CommandLine.Run
/-!
# The program

The thin layer around `Invocation.plan`: it reads the files that an invocation may look at, carries
the plan out and prints what is to be heard of the run. A plan depends on those files only
(`Invocation.plan_congr`), so it does not matter that they are all read beforehand.
-/

set_option autoImplicit false

namespace ResolverContracts

/-- An error of the operating system as an error of a file. -/
def fileErrorOf : IO.Error → FileError
  | .noFileOrDirectory .. => .notFound
  | .inappropriateType _ osCode _ =>
    if osCode = 21 then .isDirectory else .notDirectory
  | e => .other e.toString

/-- What reading a path gives. -/
def readPath (path : String) : IO (Except FileError String) := do
  try
    let bytes ← IO.FS.readBinFile path
    match String.fromUTF8? bytes with
    | some text => return .ok text
    | none => return .error (.other "stream did not contain valid UTF-8")
  catch e => return .error (fileErrorOf e)

/-- The files at some paths. -/
def readPaths (paths : List String) : IO Files := do
  let found ← paths.mapM fun path => do return (path, ← readPath path)
  return fun path => match found.find? (·.1 == path) with
    | some entry => entry.2
    | none => .error .notFound

/-- Carries a plan out. -/
def perform : Plan → IO Outcome
  | .finish outcome => return outcome
  | .write path text outcome => do
    try
      IO.FS.writeFile path text
      return outcome
    catch e => return .failed (.unwritable path (fileErrorOf e))

/-- Says what is to be heard of a run, and gives its exit code. -/
def tell (outcome : Outcome) : IO UInt32 := do
  IO.print outcome.output
  for remark in outcome.remarks do IO.eprintln remark
  match outcome.ending with
  | .exit code => return code.toUInt32
  | .failure failure => do
    IO.eprintln ("Error: " ++ ": ".intercalate failure.messages)
    return 1

/-- How to use the program. -/
def usage : String :=
  "Usage: resgen [-v | -q] <COMMAND>\n\n" ++
    "Commands:\n" ++
    "  generate <SCHEMA> [-c <CONFIG>] [-o <OUTPUT>] [--context-type <SPEC>] [--check]\n" ++
    "  check <FILES>...\n" ++
    "  version"

/-- What is wrong with the words of a command line. -/
def argumentErrorText : ArgumentError → String
  | .missingCommand => "a command is required"
  | .unknownCommand word => "unrecognized command '" ++ word ++ "'"
  | .unknownArgument word => "unexpected argument '" ++ word ++ "'"
  | .missingArgument => "a required argument is missing"
  | .conflict => "options cannot be used together or more than once"
  | .badValue => "a value is required"
  | .badContextType e => e.message
  | .excessValue => "unexpected value for an option without a value"
  | .help | .version | .noArguments => usage

/-- Runs the program with the words of a command line. -/
def runProgram (args : List String) : IO UInt32 := do
  match Invocation.parse args with
  | .ok invocation =>
    let files ← readPaths invocation.paths
    tell (← perform (invocation.plan files))
  | .error .help => do
    IO.println usage
    return 0
  | .error .version => do
    IO.println ("resgen " ++ versionText)
    return 0
  | .error .noArguments => do
    IO.eprintln usage
    return 2
  | .error e => do
    IO.eprintln ("error: " ++ argumentErrorText e)
    return 2

end ResolverContracts

/-- The program. -/
def main (args : List String) : IO UInt32 := ResolverContracts.runProgram args
