import PipeCast.Files.Tree
import PipeCast.Text.Utf8

/-!
# Changes to file trees

The operations that add, replace, move or remove entries. Each gives a new tree or
an error, and an error leaves nothing behind.
-/

set_option autoImplicit false

namespace PipeCast.Files

def put (files : Files) (location : Location) (node : Node) : Files :=
  { files with nodes := (location, node) :: files.nodes.filter fun entry => entry.1 ≠ location }

def discard (files : Files) (location : Location) : Files :=
  { files with nodes := files.nodes.filter fun entry => entry.1 ≠ location }

/-- Adds an entry where there is none. A link at the end of the path is not
followed, and counts as an entry. Only a directory may be asked for with a slash
at the end. -/
def create (files : Files) (path : List UInt8) (node : Node) : Except IoError Files := do
  checkLength path
  let parsed := Path.ofBytes path
  let (directory, name) ← files.properPlace parsed
  if (files.node? (name :: directory)).isSome then .error .alreadyThere
  else if parsed.asksDirectory && node ≠ .directory then .error .absent
  else .ok (files.put (name :: directory) node)

def makePipe (files : Files) (path : List UInt8) (mode : Mode) : Except IoError Files :=
  files.create path (.pipe (mode &&& ~~~files.mask))

def makeDirectory (files : Files) (path : List UInt8) : Except IoError Files :=
  files.create path .directory

/-- Makes a link to a target, which need not exist. -/
def makeLink (files : Files) (path target : List UInt8) : Except IoError Files :=
  if target.isEmpty then .error .absent else files.create path (.link target)

/-- Writes a file, which is made if there is none. Links are followed, also to a
place where nothing stands yet. -/
def writeFile (files : Files) (path data : List UInt8) : Except IoError Files := do
  match ← files.reach path with
  | .vacant directory name => .ok (files.put (name :: directory) (.file data))
  | .found location =>
      match files.node? location with
      | some (.file _) => .ok (files.put location (.file data))
      | some .directory => .error .isDirectory
      | _ => .ok files

/-- Removes an entry other than a directory. A link is removed itself. -/
def remove (files : Files) (path : List UInt8) : Except IoError Files := do
  checkLength path
  let parsed := Path.ofBytes path
  let (directory, name) ← files.properPlace parsed
  match files.node? (name :: directory) with
  | none => .error .absent
  | some .directory => .error .isDirectory
  | some _ =>
      if parsed.asksDirectory then .error .notDirectory
      else .ok (files.discard (name :: directory))

/-- The entries of a directory, with everything below them. -/
def below (location : Location) (entry : Location × Node) : Bool :=
  location.isSuffixOf entry.1 && location ≠ entry.1

/-- The location of an entry after everything at `source` has moved to `target`. -/
def moved (source target location : Location) : Location :=
  if source.isSuffixOf location then location.take (location.length - source.length) ++ target
  else location

/-- Moves an entry with everything below it. An entry at the new place is replaced
if both are directories, and the replaced one is empty, or neither is. -/
def rename (files : Files) (path target : List UInt8) : Except IoError Files := do
  checkLength path
  checkLength target
  let (fromDirectory, fromName) ← files.properPlace (Path.ofBytes path)
  let (toDirectory, toName) ← files.properPlace (Path.ofBytes target)
  let source := fromName :: fromDirectory
  let destination := toName :: toDirectory
  match files.node? source, files.node? destination with
  | none, _ => .error .absent
  | some node, standing =>
      if source = destination then .ok files
      else if source.isSuffixOf destination then .error .invalidArgument
      else if standing = some .directory && node ≠ .directory then .error .isDirectory
      else if standing.isSome && standing ≠ some .directory && node = .directory then
        .error .notDirectory
      else if files.nodes.any (below destination) then .error .notEmpty
      else
        .ok { files with
          nodes := ((files.discard destination).nodes).map fun entry =>
            (moved source destination entry.1, entry.2) }

def names (files : Files) (path : List UInt8) : Except IoError (List Name) := do
  match ← files.reach path with
  | .vacant _ _ => .error .absent
  | .found location =>
      if files.isDirectory location then
        .ok (files.nodes.filterMap fun entry =>
          match entry.1 with
          | [] => none
          | name :: directory => if directory = location then some name else none)
      else .error .notDirectory

def temporary : Name := Text.Utf8.bytesOf "tmp"

def work : Name := Text.Utf8.bytesOf "work"

def devices : Name := Text.Utf8.bytesOf "dev"

def deviceNames : List Name :=
  ["full", "null", "random", "urandom", "zero"].map Text.Utf8.bytesOf

def directoryNames : List Name :=
  ["etc", "home", "root", "usr", "var"].map Text.Utf8.bytesOf

/-- An empty working directory, with devices and other directories elsewhere, and the
usual mask. -/
def scratch : Files where
  nodes :=
    [([work, temporary], .directory), ([temporary], .directory), ([devices], .directory)] ++
      deviceNames.map (fun name => ([name, devices], .device)) ++
      directoryNames.map (fun name => ([name], .directory))
  workingDirectory := [work, temporary]
  mask := 0o022

end PipeCast.Files
