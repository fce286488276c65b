import InkGauge.Text.Lines

/-!
A location is the list of names that leads to it from the working directory, the last name first.
What lies above the working directory is not known, apart from being directories. Of the rest of the
system only some directories are known that are always there, and the null device, which is empty
and keeps nothing.
-/

namespace InkGauge.Files

/-- Why a file cannot be read or written. -/
inductive FileError where
  | notFound
  | isDirectory
  | notADirectory
  | nameTooLong
  /-- The path holds the character zero. -/
  | zeroInPath
  | other (reason : String)
  deriving DecidableEq

def FileError.reason : FileError → String
  | .notFound => "No such file or directory"
  | .isDirectory => "Is a directory"
  | .notADirectory => "Not a directory"
  | .nameTooLong => "File name too long"
  | .zeroInPath => "embedded null byte"
  | .other reason => reason

abbrev Location := List String

inductive Entry where
  | file (bytes : List UInt8)
  | directory
  deriving DecidableEq

structure Disk where
  files : List (Location × List UInt8)
  directories : List Location

/-- The location above. The root is above itself. -/
def Location.parent : Location → Location
  | ["/"] => ["/"]
  | [] => [".."]
  | ".." :: up => ".." :: ".." :: up
  | _ :: up => up

/-- Is the location the working directory, or below it? -/
def Location.isInside (l : Location) : Bool :=
  l.getLast? != some ".." && l.getLast? != some "/"

def nullDevice : Location := ["null", "dev", "/"]

/-- The root, and the directories that are always in it. -/
def systemDirectories : List Location :=
  ["/"] :: ["bin", "dev", "etc", "home", "tmp", "usr", "var"].map ([·, "/"])

/-- Where a name leads from a location. -/
def Location.enter (l : Location) (name : String) : Location :=
  if name = "" || name = "." then l else if name = ".." then l.parent else name :: l

/-- The names in a path. -/
def names (path : String) : List String := (Text.pieces '/' path.toList).map String.ofList

/-- Where a path starts: at the root, or in the working directory. -/
def startOf (path : String) : Location := if path.toList.head? = some '/' then ["/"] else []

/-- The most bytes that a name can have. -/
def maxNameSize : Nat := 255

/-- The most bytes that a path can have. -/
def maxPathSize : Nat := 4095

/-- A path that can be followed. -/
def checkPath (path : String) : Except FileError Unit :=
  if path.toList.contains (Char.ofNat 0) then .error .zeroInPath
  else if path = "" then .error .notFound
  else if maxPathSize < path.utf8ByteSize then .error .nameTooLong
  else .ok ()

namespace Disk

/-- Is the location above the working directory, a directory that is listed, or above anything
that is? -/
def isDirectory (d : Disk) (l : Location) : Bool :=
  l.all (· = "..") || systemDirectories.contains l || d.directories.any l.isSuffixOf
    || d.files.any fun (f, _) => f != l && l.isSuffixOf f

def entry? (d : Disk) (l : Location) : Option Entry :=
  if d.isDirectory l then some .directory
  else if l = nullDevice then some (.file [])
  else (d.files.find? (·.1 = l)).map fun (_, bytes) => .file bytes

/-- Follows names from a location. What is left behind on the way must be a directory, and a name is
looked up in it only if it is short enough. -/
def follow (d : Disk) (l : Location) : List String → Except FileError Location
  | [] => .ok l
  | name :: names =>
    match d.entry? l with
    | some .directory =>
      if maxNameSize < name.utf8ByteSize then .error .nameTooLong
      else d.follow (l.enter name) names
    | some (.file _) => .error .notADirectory
    | none => .error .notFound

/-- Where a path leads; the last name need not exist. -/
def locate (d : Disk) (path : String) : Except FileError Location := do
  checkPath path
  d.follow (startOf path) (names path)

/-- The bytes of a file. -/
def read (d : Disk) (path : String) : Except FileError (List UInt8) := do
  match d.entry? (← d.locate path) with
  | some (.file bytes) => return bytes
  | some .directory => throw .isDirectory
  | none => throw .notFound

/-- Puts a file in the place of the one at its location, or behind the others. -/
def put (l : Location) (bytes : List UInt8) :
    List (Location × List UInt8) → List (Location × List UInt8)
  | [] => [(l, bytes)]
  | (k, old) :: rest => if k = l then (k, bytes) :: rest else (k, old) :: put l bytes rest

/-- Where a path that is to be written leads. One that ends in a slash can only be a directory, and
its last name is not even looked up if the others lead to one. -/
def locateForWriting (d : Disk) (path : String) : Except FileError Location := do
  checkPath path
  if path.toList.getLast? = some '/' then
    let trimmed := (names path).reverse.dropWhile (· = "")
    match d.entry? (← d.follow (startOf path) (trimmed.drop 1).reverse) with
    | some .directory => throw .isDirectory
    | some (.file _) => throw .notADirectory
    | none => throw .notFound
  else d.follow (startOf path) (names path)

/-- Writes a file, and creates it if its directory exists. -/
def write (d : Disk) (path : String) (bytes : List UInt8) : Except FileError Disk := do
  let l ← d.locateForWriting path
  match d.entry? l with
  | some .directory => throw .isDirectory
  | _ => return if l = nullDevice then d else { d with files := put l bytes d.files }

/-- A disk with some files and directories, given by their paths from the working directory. Of the
files with one path the last counts. -/
def ofPaths (files : List (String × List UInt8)) (directories : List String) : Disk where
  files := files.foldl
    (fun kept (path, bytes) => put ((names path).foldl Location.enter []) bytes kept) []
  directories := directories.map fun path => (names path).foldl Location.enter []

end Disk

end InkGauge.Files
