import ResolverContracts.Entries
/-!
# File trees

The files that a run finds, as a tree that can be reasoned about: every file has a place and a
text. A directory is there because some file is in it.

A path leads to a place from directory to directory. Every name on the way but the last one has to
be that of a directory, even if the next one goes up again.
-/

set_option autoImplicit false

namespace ResolverContracts

/-- Why a file cannot be read or written. -/
inductive FileError
  | notFound
  | isDirectory
  | notDirectory
  /-- Something that does not happen in a tree. -/
  | other (reason : String)
  deriving DecidableEq

/-- The error in words. -/
def FileError.message : FileError → String
  | notFound => "No such file or directory (os error 2)"
  | isDirectory => "Is a directory (os error 21)"
  | notDirectory => "Not a directory (os error 20)"
  | other reason => reason

/-! ## Locations and paths -/

/-- The names from the working directory to a file. Above the working directory a place begins with
`..`, and away from it with `/`. -/
abbrev Place := List String

namespace Place

/-- The place of the working directory. -/
def here : Place := []

/-- The place that everything is below. -/
def root : Place := ["/"]

/-- The place above. Nothing is above the root. -/
def parent (l : Place) : Place :=
  if l = root then root else if l.all (· == "..") then l ++ [".."] else l.dropLast

end Place

/-- A path taken apart. -/
structure Path where
  start : Place
  /-- The names between the slashes. -/
  names : List String
  /-- Whether a slash is at the end, so that only a directory can be meant. -/
  endsInSlash : Bool
  deriving DecidableEq

/-- The parts of a path. -/
def Path.ofText (text : String) : Path where
  start := if text.toList.head? = some '/' then .root else .here
  names := ((text.toList.splitOn '/').filter (!·.isEmpty)).map String.ofList
  endsInSlash := text.toList.getLast? = some '/'

/-- Whether a name leads to a directory whatever there is. -/
def isDirectoryName (name : String) : Bool := name == "." || name == ".."

/-! ## Trees -/

/-- Files with their texts. -/
structure FileTree where
  entries : List (Place × String)

namespace FileTree

/-- No files. -/
def empty : FileTree := ⟨[]⟩

/-- The text of the file at a place. -/
def text? (t : FileTree) (l : Place) : Option String := Entries.get? l t.entries

/-- Whether something is below a place. -/
def isDirectory (t : FileTree) (l : Place) : Bool :=
  t.entries.any fun e => l.isPrefixOf e.1 && l.length < e.1.length

/-- Gives the file at a place a text. -/
def put (t : FileTree) (l : Place) (text : String) : FileTree := ⟨Entries.put l text t.entries⟩

/-- A file has the text it was last given. -/
theorem text?_put_self (t : FileTree) (l : Place) (text : String) :
    (t.put l text).text? l = some text :=
  Entries.get?_put_self l text t.entries

/-- Other files keep their texts. -/
theorem text?_put_of_ne (t : FileTree) {l other : Place} (text : String) (hne : l ≠ other) :
    (t.put l text).text? other = t.text? other :=
  Entries.get?_put_of_ne text t.entries hne

/-! ## Following a path -/

/-- The place that a name leads to on the way. -/
def enter (t : FileTree) (l : Place) (name : String) : Except FileError Place :=
  if name = "." then .ok l
  else if name = ".." then .ok l.parent
  else
    let there := l ++ [name]
    if t.isDirectory there then .ok there
    else .error (if (t.text? there).isSome then .notDirectory else .notFound)

/-- The place that names lead to. None is given when they lead to a directory whatever there is. -/
def follow (t : FileTree) (l : Place) : List String → Except FileError (Option Place)
  | [] => .ok none
  | [name] => .ok (if isDirectoryName name then none else some (l ++ [name]))
  | name :: names => do t.follow (← t.enter l name) names

/-- The place that a path leads to. -/
def locate (t : FileTree) (path : String) : Except FileError (Option Place) :=
  if path.isEmpty then .error .notFound
  else
    let p := Path.ofText path
    t.follow p.start p.names

/-- The text of the file at a path. -/
def read (t : FileTree) (path : String) : Except FileError String := do
  match ← t.locate path with
  | none => .error .isDirectory
  | some l =>
    match t.text? l with
    | some text => if (Path.ofText path).endsInSlash then .error .notDirectory else .ok text
    | none => .error (if t.isDirectory l then .isDirectory else .notFound)

/-- The tree in which the file at a path has a text. The file need not be there before, but its
directory has to. -/
def write (t : FileTree) (path text : String) : Except FileError FileTree := do
  match ← t.locate path with
  | none => .error .isDirectory
  | some l =>
    if (Path.ofText path).endsInSlash || t.isDirectory l then .error .isDirectory
    else .ok (t.put l text)

end FileTree

end ResolverContracts
