/-
# Paths of files

A path is a text of names with slashes between them. It starts at the root or at some directory.
-/
import FormRehearsal.Text.Split

namespace FormRehearsal

/-- Names from the root. -/
abbrev FilePath := List String

namespace FilePath

/-- The names in a path. -/
def names (path : String) : FilePath :=
  ((Text.splitAt (· == '/') path.toList).map String.ofList).filter (· ≠ "")

/-- Whether a path starts at the root. -/
def isAbsolute (path : String) : Bool := path.toList.head? = some '/'

/-- Whether a path can lead to a directory only. -/
def endsOpen (path : String) : Bool := path.toList.getLast? = some '/'

/-- Where names lead to from a directory, if every name is that of a directory. -/
def resolve (directory : FilePath) (names : FilePath) : FilePath :=
  names.foldl
    (fun directory name =>
      if name = "." then directory
      else if name = ".." then directory.dropLast
      else directory ++ [name])
    directory

/-- The path of something within a directory. -/
def within (directory name : String) : String :=
  if directory.isEmpty then name
  else if endsOpen directory then directory ++ name
  else directory ++ "/" ++ name

end FilePath

end FormRehearsal
