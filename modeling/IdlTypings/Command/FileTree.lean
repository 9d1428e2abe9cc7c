/-!
# Files

What a command knows of the file system: the files it may read, each under the names that lead to it
from the root, the directories around them, and the directory that the command runs in.
-/

namespace IdlTypings.Command

structure FileTree where
  here : List String
  files : List (List String × ByteArray)
  directories : List (List String)
  deriving Inhabited

inductive FileError where
  | notFound
  | notDirectory
  | isDirectory
  | nameTooLong
  | notText
  deriving DecidableEq, Repr

def FileError.message : FileError → String
  | .notFound => "No such file or directory (os error 2)"
  | .notDirectory => "Not a directory (os error 20)"
  | .isDirectory => "Is a directory (os error 21)"
  | .nameTooLong => "File name too long (os error 36)"
  | .notText => "stream did not contain valid UTF-8"

/-- What a name leads to. At an `absent` place a file can be made. -/
inductive Place where
  | file (path : List String) (content : ByteArray)
  | directory (path : List String)
  | absent (path : List String)

/-- The directory to go on from. -/
def Place.enter : Place → Except FileError (List String)
  | .file _ _ => .error .notDirectory
  | .directory path => .ok path
  | .absent _ => .error .notFound

/-- A path taken apart: whether it starts at the root, the names on the way, the name at its end,
and whether a slash follows that name. -/
structure Route where
  absolute : Bool
  way : List String
  last : String
  slash : Bool
  deriving DecidableEq, Repr

namespace Route

/-- The pieces between slashes. -/
def pieces (path : String) : List String := path.splitOn "/"

/-- The names in a path. Slashes in a row count as one. -/
def names (path : String) : List String :=
  (pieces path).filter fun piece => piece ≠ ""

/-- A path has at most 4095 bytes. The root is its own last name. -/
def parse (path : String) : Except FileError Route :=
  if 4095 < path.utf8ByteSize then .error .nameTooLong
  else .ok ⟨path.startsWith "/", (names path).dropLast, (names path).getLastD ".",
    path.endsWith "/"⟩

end Route

namespace FileTree

def content? (t : FileTree) (path : List String) : Option ByteArray :=
  t.files.lookup path

def isDirectory (t : FileTree) (path : List String) : Bool :=
  path.isPrefixOf t.here || t.directories.contains path ||
    t.files.any fun file => path.isPrefixOf file.1 && path ≠ file.1

/-- What a name in a directory leads to. A name has at most 255 bytes. -/
def place (t : FileTree) (directory : List String) (name : String) : Except FileError Place :=
  let path := directory ++ [name]
  if name = "." then .ok (.directory directory)
  else if name = ".." then .ok (.directory directory.dropLast)
  else if 255 < name.utf8ByteSize then .error .nameTooLong
  else
    match t.content? path with
    | some content => .ok (.file path content)
    | none => .ok (if t.isDirectory path then .directory path else .absent path)

/-- The directory at the end of `names`. -/
def walk (t : FileTree) (directory : List String) : List String → Except FileError (List String)
  | [] => .ok directory
  | name :: rest => do
      let place ← t.place directory name
      t.walk (← place.enter) rest

/-- The directory that holds the last name of a route. -/
def holder (t : FileTree) (route : Route) : Except FileError (List String) :=
  t.walk (if route.absolute then [] else t.here) route.way

def find (t : FileTree) (route : Route) : Except FileError Place := do
  t.place (← t.holder route) route.last

/-- A file is not reached by a path that ends in a slash. -/
def readText (t : FileTree) (path : String) : Except FileError String := do
  let route ← Route.parse path
  match ← t.find route with
  | .file _ content =>
      if route.slash then .error .notDirectory
      else
        match String.fromUTF8? content with
        | some text => .ok text
        | none => .error .notText
  | .directory _ => .error .isDirectory
  | .absent _ => .error .notFound

/-- Whether a path leads to anything. -/
def has (t : FileTree) (path : String) : Bool :=
  match Route.parse path >>= t.find with
  | .ok (.file _ _) => true
  | .ok (.directory _) => true
  | _ => false

def put (t : FileTree) (path : List String) (text : String) : FileTree :=
  { t with files := (path, text.toUTF8) :: t.files.filter fun file => file.1 ≠ path }

/-- A path that ends in a slash speaks of a directory, whatever its last name leads to. -/
def writeText (t : FileTree) (path text : String) : Except FileError FileTree := do
  let route ← Route.parse path
  let directory ← t.holder route
  if route.slash then .error .isDirectory
  else
    match ← t.place directory route.last with
    | .file path _ => .ok (t.put path text)
    | .absent path => .ok (t.put path text)
    | .directory _ => .error .isDirectory

/-- The files that are not in `before` with the same content. -/
def changesSince (t before : FileTree) : List (List String × ByteArray) :=
  t.files.filter fun (path, content) =>
    (before.content? path).map ByteArray.data ≠ some content.data

end FileTree

end IdlTypings.Command
