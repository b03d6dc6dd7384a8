import ChipEight.Memory
import ChipEight.Failure

/-!
# Files

What a command needs to know of files (`Files`), the ways in which using one can fail (`FileError`),
and a tree of files that is given as a whole (`FileTree`), in which paths are followed name by name.
-/

namespace ChipEight

/-- What there can be at a path. -/
inductive FileKind
  | file
  | directory
  deriving DecidableEq

/-- Why a file cannot be used. -/
inductive FileError
  | missing
  | refused
  | notDirectory
  | isDirectory
  | nameTooLong
  /-- The path holds a null character, which paths end with for the system. -/
  | holdsNull
  deriving DecidableEq

namespace FileError

/-- What is wrong with a path before it is followed. -/
def ofPath? (path : String) : Option FileError :=
  if path.toList.contains '\x00' then some .holdsNull else none

/-- The error of using the file at a path. -/
def onPath (error : FileError) (path : String) : HostError :=
  let system (kind : HostError.Kind) (number : Int) (text : String) : HostError :=
    ⟨kind, [.number number, .text text, .text path]⟩
  match error with
  | missing => system .missingFile 2 "No such file or directory"
  | refused => system .permission 13 "Permission denied"
  | notDirectory => system .notDirectory 20 "Not a directory"
  | isDirectory => system .system 21 "Is a directory"
  | nameTooLong => system .system 36 "File name too long"
  | holdsNull => ⟨.value, [.text "embedded null byte"]⟩

end FileError

/-- What a command can find out about files: what there is at a path, whether it may be read or written,
and what is in it. -/
structure Files where
  kind : String → Option FileKind
  readable : String → Bool := fun _ => true
  writable : String → Bool := fun _ => true
  read : String → Except FileError Rom

/-! ## A tree of files -/

/-- The place of a file: the names on the way to it from the root. -/
abbrev Place := List String

/-- Files and directories. The working directory and those that it is in are always there. -/
structure FileTree where
  files : List (Place × Rom) := []
  directories : List Place := []

namespace FileTree

/-- The working directory. Its own name is one that no path can hold, since nobody knows it. -/
def workingDirectory : Place := ["tmp", "/"]

/-- The names of a path. -/
def names (path : String) : List String := path.splitOn "/"

/-- Where a path starts to be followed. -/
def origin (path : String) : Place := if path.startsWith "/" then [] else workingDirectory

def kindAt (tree : FileTree) (place : Place) : Option FileKind :=
  if place.isPrefixOf workingDirectory || tree.directories.contains place then some .directory
  else if tree.files.any (·.1 == place) then some .file
  else none

def maxName : Nat := 255

def maxPath : Nat := 4095

/-- What is wrong with a path, wherever it may lead to. -/
def pathError? (path : String) : Option FileError :=
  match FileError.ofPath? path with
  | some error => some error
  | none =>
    if path = "" then some .missing
    else if path.utf8ByteSize > maxPath then some .nameTooLong
    else none

/-- Follows one name. -/
def enter (tree : FileTree) (here : Place) (name : String) : Except FileError Place :=
  if tree.kindAt here ≠ some .directory then .error .notDirectory
  else if name = "" ∨ name = "." then .ok here
  else if name = ".." then .ok here.dropLast
  else if name.utf8ByteSize > maxName then .error .nameTooLong
  else if (tree.kindAt (here ++ [name])).isSome then .ok (here ++ [name])
  else .error .missing

/-- Follows a path to something that is there. -/
def locate (tree : FileTree) (path : String) : Except FileError Place :=
  match pathError? path with
  | some error => .error error
  | none => (names path).foldlM tree.enter (origin path)

/-- Where writing to a name in a directory puts the file. -/
def createIn (tree : FileTree) (here : Place) (name : String) : Except FileError Place :=
  match tree.enter here name with
  | .ok there => if tree.kindAt there = some .directory then .error .isDirectory else .ok there
  | .error .missing => .ok (here ++ [name])
  | .error error => .error error

/-- Whether a name can only be a directory's. -/
def namesDirectory (name : String) : Bool := name = "." || name = ".."

/-- Where writing to a path puts the file. The directory must be there, and the path must not name one
itself; with a slash at its end it does, whatever the name in front of that is. -/
def create (tree : FileTree) (path : String) : Except FileError Place :=
  match pathError? path with
  | some error => .error error
  | none =>
    match (names path).reverse.dropWhile (· = "") with
    | [] => .error .isDirectory
    | last :: before =>
      match before.reverse.foldlM tree.enter (origin path) with
      | .error error => .error error
      | .ok here =>
        if tree.kindAt here ≠ some .directory then .error .notDirectory
        else if namesDirectory last || path.endsWith "/" then .error .isDirectory
        else tree.createIn here last

def kind (tree : FileTree) (path : String) : Option FileKind :=
  match tree.locate path with
  | .ok place => tree.kindAt place
  | .error _ => none

/-- The bytes of the file at a path. -/
def read (tree : FileTree) (path : String) : Except FileError Rom :=
  match tree.locate path with
  | .error error => .error error
  | .ok place =>
    match tree.files.lookup place with
    | some bytes => .ok bytes
    | none => .error .isDirectory

/-- What commands can find out about the tree, in which everything may be read and written. -/
def view (tree : FileTree) : Files where
  kind := tree.kind
  read := tree.read

def insertDirectory (tree : FileTree) (place : Place) : FileTree :=
  if tree.kindAt place = some .directory then tree
  else { tree with directories := place :: tree.directories }

/-- Follows names from a place, making the directories that are missing. -/
def makeWay (tree : FileTree) (here : Place) : List String → FileTree × Place
  | [] => (tree, here)
  | name :: rest =>
    if name = "" ∨ name = "." then makeWay tree here rest
    else if name = ".." then makeWay tree here.dropLast rest
    else makeWay (tree.insertDirectory (here ++ [name])) (here ++ [name]) rest

/-- The tree with one more directory and those on the way to it. -/
def addDirectory (tree : FileTree) (path : String) : FileTree :=
  (tree.makeWay (origin path) (names path)).1

/-- The tree with one more file and the directories on the way to it. -/
def addFile (tree : FileTree) (path : String) (bytes : Rom) : FileTree :=
  let (tree, here) := tree.makeWay (origin path) (names path).dropLast
  { tree with files := (here ++ [(names path).getLastD ""], bytes) :: tree.files }

end FileTree

end ChipEight
