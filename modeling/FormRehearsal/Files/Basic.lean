/-
# Files

The files that a command sees: their texts by absolute paths, the directories that are there, and the
directory that relative paths start from. A path is followed name by name; neither it nor a name in
it may be too long.

* `file?_put` : what was written is read back.
-/
import FormRehearsal.Files.Path

namespace FormRehearsal

/-- Why a file cannot be read or written. -/
inductive FileError where
  | notFound
  | notDirectory
  | isDirectory
  | nameTooLong
  /-- the path holds the character that ends one -/
  | brokenPath
  deriving DecidableEq, Repr

/-- The wording of an error. -/
def FileError.message : FileError → String
  | notFound => "No such file or directory (os error 2)"
  | notDirectory => "Not a directory (os error 20)"
  | isDirectory => "Is a directory (os error 21)"
  | nameTooLong => "File name too long (os error 36)"
  | brokenPath => "file name contained an unexpected NUL byte"

namespace FilePath

/-- The most bytes of UTF-8 in a name. -/
def nameLimit : Nat := 255

/-- The most bytes of UTF-8 in a path. -/
def pathLimit : Nat := 4095

/-- Why a path cannot be followed at all. -/
def refusal? (path : String) : Option FileError :=
  if path.toList.contains '\x00' then some .brokenPath
  else if path.isEmpty then some .notFound
  else if pathLimit < path.utf8ByteSize then some .nameTooLong
  else none

end FilePath

/-- The files that a command sees. -/
structure Files where
  /-- where relative paths start -/
  origin : FilePath
  contents : List (FilePath × String)
  /-- directories that are there whatever they hold -/
  directories : List FilePath := []
  deriving Repr

namespace Files

/-- The text of a file. -/
def file? (f : Files) (path : FilePath) : Option String :=
  (f.contents.find? (·.1 = path)).map Prod.snd

/-- Whether there is a directory. -/
def hasDirectory (f : Files) (path : FilePath) : Bool :=
  (f.origin :: f.directories).any (path.isPrefixOf ·) || f.contents.any fun entry =>
    path.isPrefixOf entry.1 && path.length < entry.1.length

/-! ## Following paths -/

/-- What a path leads to: a file with its text, or a directory. -/
inductive Place where
  | file (text : String)
  | directory
  deriving DecidableEq, Repr

/-- What a name in a directory leads to. -/
def entry (f : Files) (directory : FilePath) (name : String) : Except FileError Place :=
  if name = "." ∨ name = ".." then .ok .directory
  else if FilePath.nameLimit < name.utf8ByteSize then .error .nameTooLong
  else if f.hasDirectory (directory ++ [name]) then .ok .directory
  else
    match f.file? (directory ++ [name]) with
    | some text => .ok (.file text)
    | none => .error .notFound

/-- The directory that names lead to from a directory. -/
def walk (f : Files) (directory : FilePath) : FilePath → Except FileError FilePath
  | [] => .ok directory
  | name :: rest =>
    match f.entry directory name with
    | .ok .directory => f.walk (FilePath.resolve directory [name]) rest
    | .ok (.file _) => .error .notDirectory
    | .error e => .error e

/-- The directory of a path, and its last name; the root has none. -/
def parent (f : Files) (path : String) : Except FileError (Option (FilePath × String)) :=
  match FilePath.refusal? path with
  | some e => .error e
  | none =>
    let names := FilePath.names path
    match names.getLast? with
    | none => .ok none
    | some name =>
      let start := if FilePath.isAbsolute path then [] else f.origin
      (f.walk start names.dropLast).map fun directory => some (directory, name)

/-- What a path leads to. -/
def place (f : Files) (path : String) : Except FileError Place := do
  match ← f.parent path with
  | none => return .directory
  | some (directory, name) =>
    match ← f.entry directory name with
    | .directory => return .directory
    | .file text => if FilePath.endsOpen path then throw .notDirectory else return .file text

/-! ## Reading and writing -/

/-- The text of the file that a path leads to. -/
def read (f : Files) (path : String) : Except FileError String :=
  match f.place path with
  | .ok (.file text) => .ok text
  | .ok .directory => .error .isDirectory
  | .error e => .error e

/-- Whether a path leads to anything. -/
def isThere (f : Files) (path : String) : Bool :=
  match f.place path with
  | .ok _ => true
  | .error _ => false

/-- Whether a path leads to a file. -/
def isFile (f : Files) (path : String) : Bool :=
  match f.place path with
  | .ok (.file _) => true
  | _ => false

/-- The absolute path of a file that can be written. -/
def target (f : Files) (path : String) : Except FileError FilePath := do
  match ← f.parent path with
  | none => throw .isDirectory
  | some (directory, name) =>
    if FilePath.endsOpen path then throw .isDirectory
    match f.entry directory name with
    | .ok .directory => throw .isDirectory
    | .error .nameTooLong => throw .nameTooLong
    | _ => return directory ++ [name]

/-- The files with the text of one of them. -/
def put (f : Files) (path : FilePath) (text : String) : Files :=
  { f with contents := (path, text) :: f.contents.filter (·.1 ≠ path) }

/-- The files after one was written. -/
def write (f : Files) (path text : String) : Except FileError Files :=
  (f.target path).map (f.put · text)

/-- The files with one more, whose path starts at the origin; the directories on the way are made. -/
def give (f : Files) (path text : String) : Files :=
  let names := FilePath.names path
  let made := (List.range names.length).map fun n => FilePath.resolve f.origin (names.take n)
  { f with directories := f.directories ++ made }.put (FilePath.resolve f.origin names) text

/-- The files of some relative paths. -/
def ofRelative (origin : FilePath) (entries : List (String × String)) : Files :=
  entries.foldl (fun f (path, text) => f.give path text) ⟨origin, [], []⟩

/-! ## Writing and reading -/

/-- What was written is read back. -/
@[simp] theorem file?_put (f : Files) (path : FilePath) (text : String) :
    (f.put path text).file? path = some text := by
  simp [put, file?]

end Files

end FormRehearsal
