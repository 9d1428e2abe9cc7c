import IdlTypings.Command.Run

/-!
# The command

Looks at the files that the command line speaks of, runs the command on them, and writes what it
changed.
-/

namespace IdlTypings.Command

/-- What is found under a path: the content of a file, a directory, or neither. -/
inductive Found where
  | file (content : ByteArray)
  | directory
  | neither

def lookAt (path : String) : IO Found := do
  try
    return .file (← IO.FS.readBinFile path)
  catch error =>
    match error with
    | .inappropriateType .. => return .directory
    | _ => return .neither

def absolute (names : List String) : String :=
  "/" ++ "/".intercalate names

/-- Adds what is found under these names. -/
def survey (t : FileTree) (names : List String) : IO FileTree := do
  match ← lookAt (absolute names) with
  | .file content => return { t with files := (names, content) :: t.files }
  | .directory => return { t with directories := names :: t.directories }
  | .neither => return t

/-- Adds what is found on the way that these names go from a directory, and at its end. -/
def surveyNames (t : FileTree) (directory : List String) : List String → IO FileTree
  | [] => return t
  | "." :: rest => surveyNames t directory rest
  | ".." :: rest => surveyNames t directory.dropLast rest
  | name :: rest => do
      let t ← survey t (directory ++ [name])
      surveyNames t (directory ++ [name]) rest

def surveyPath (t : FileTree) (path : String) : IO FileTree :=
  surveyNames t (if path.startsWith "/" then [] else t.here) (Route.names path)

/-- The paths that a command line may read or write. -/
def pathsOf : Request → List String
  | .run a =>
      let out := a.out.getD defaultReportBase
      a.config.getD defaultConfigFile :: a.inputs ++
        [out, Report.path out]
  | _ => []

def readsStdin : Request → Bool
  | .run a => a.inputs.any isStdin
  | _ => false

partial def readAll (stream : IO.FS.Stream) (content : ByteArray) : IO ByteArray := do
  let more ← stream.read 65536
  if more.isEmpty then return content else readAll stream (content ++ more)

/-- Runs the command and carries out what it comes to. -/
def execute (arguments : List String) : IO UInt32 := do
  let request := Request.parse arguments
  let here := Route.names (toString (← IO.currentDir))
  let mut before : FileTree := ⟨here, [], []⟩
  for path in pathsOf request do
    before ← surveyPath before path
  let stdin ← if readsStdin request then readAll (← IO.getStdin) .empty else pure .empty
  let outcome := run before stdin arguments
  for (path, content) in outcome.files.changesSince before do
    IO.FS.writeBinFile (absolute path) content
  IO.print outcome.stdout
  IO.eprint outcome.stderr
  return outcome.exit.toUInt32

end IdlTypings.Command

def main (arguments : List String) : IO UInt32 :=
  IdlTypings.Command.execute arguments
