import ExpressionChecker.CommandLine.Input

namespace ExpressionChecker

/-!
# A directory to run in

A run can be given a directory that holds nothing but some files.  A path is then walked along
name by name.  An empty name and a single dot stay where the walk is, and two dots leave the
directory.  Outside of it only directories are known, and none of their entries.  No name leads
further from a file, not even an empty one, so a slash behind the name of a file is an error.
-/

/-- A directory with the names of its files and their contents. -/
structure Directory where
  files : List (String × ByteArray)

namespace Directory

/-- Where a walk along a path has led. -/
inductive Location where
  | inside
  | outside
  | file (content : ByteArray)

/-- The names in a path, between its slashes. -/
def names : List Char → List (List Char)
  | [] => [[]]
  | '/' :: rest => [] :: names rest
  | c :: rest =>
    match names rest with
    | name :: later => (c :: name) :: later
    | [] => [[c]]

/-- The most bytes that a name may have. -/
def longestName : Nat := 255

/-- The most bytes that a path may have. -/
def longestPath : Nat := 4095

/-- The file of a name. -/
def find (directory : Directory) (name : String) : Except InputError Location :=
  if longestName < name.utf8ByteSize then .error .nameTooLong
  else
    match directory.files.lookup name with
    | some content => .ok (.file content)
    | none => .error .notFound

/-- Where a name leads to. -/
def step (directory : Directory) (location : Location) (name : List Char) :
    Except InputError Location :=
  match location with
  | .file _ => .error .notDirectory
  | .inside =>
    if name = [] ∨ name = ['.'] then .ok .inside
    else if name = ['.', '.'] then .ok .outside
    else directory.find (String.ofList name)
  | .outside =>
    if name = [] ∨ name = ['.'] ∨ name = ['.', '.'] then .ok .outside
    else find ⟨[]⟩ (String.ofList name)

/-- The content of the file that a path leads to. -/
def read (directory : Directory) (path : String) : Except InputError ByteArray :=
  if path = "" then .error .notFound
  else if longestPath < path.utf8ByteSize then .error .nameTooLong
  else
    let start := if path.toList.head? = some '/' then Location.outside else .inside
    match (names path.toList).foldlM directory.step start with
    | .ok (.file content) => .ok content
    | .ok _ => .error .isDirectory
    | .error error => .error error

end Directory
end ExpressionChecker
