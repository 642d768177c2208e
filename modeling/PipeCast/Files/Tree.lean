import PipeCast.Files.Path
import PipeCast.Startup.IoError

/-!
# File trees

What stands where, and where a path leads. A location is the list of names from
an entry up to the root, innermost first, so that the parent of a location is its
tail. Links are followed up to a limit; a walk that would need more fails.
-/

set_option autoImplicit false

namespace PipeCast

namespace Files

abbrev Mode := UInt16

inductive Node where
  | directory
  | file (data : List UInt8)
  | pipe (mode : Mode)
  | device
  | link (target : List UInt8)
  deriving DecidableEq, Repr

/-- The names from an entry up to the root. The root itself has none. -/
abbrev Location := List Name

def linkLimit : Nat := 40

end Files

/-- A file tree as one process sees it. -/
structure Files where
  /-- The entries below the root. An earlier entry hides a later one. -/
  nodes : List (Files.Location × Files.Node)
  workingDirectory : Files.Location
  /-- The permissions that new entries do not get. -/
  mask : Files.Mode
  deriving DecidableEq, Repr

namespace Files

def node? (files : Files) : Location → Option Node
  | [] => some .directory
  | location => files.nodes.lookup location

def isDirectory (files : Files) (location : Location) : Bool :=
  files.node? location = some .directory

/-! ## Following a path -/

inductive Reach where
  | found (location : Location)
  /-- In a directory that lacks only the last name. -/
  | vacant (directory : Location) (name : Name)
  deriving DecidableEq, Repr

/-- The outcome of a walk up to the first link. -/
inductive Walk where
  | reached (reach : Reach)
  | failed (error : IoError)
  /-- A link in this directory, with the components that come after it. -/
  | link (directory : Location) (target : List UInt8) (rest : List Name)
  deriving DecidableEq, Repr

def walk (files : Files) (location : Location) : List Name → Walk
  | [] => .reached (.found location)
  | name :: rest =>
      if !files.isDirectory location then .failed .notDirectory
      else if name = here then walk files location rest
      else if name = parent then walk files location.tail rest
      else if nameLimit < name.length then .failed .nameTooLong
      else
        match files.node? (name :: location) with
        | none =>
            match rest with
            | [] => .reached (.vacant location name)
            | _ :: _ => .failed .absent
        | some (.link target) => .link location target rest
        | some _ => walk files (name :: location) rest

def startOf (path : Path) (directory : Location) : Location :=
  if path.fromRoot then [] else directory

/-- Walks over components and follows every link, as long as any may be followed. -/
def follow (files : Files) (links : Nat) (location : Location) (steps : List Name) :
    Except IoError Reach :=
  match files.walk location steps with
  | .reached reach => .ok reach
  | .failed error => .error error
  | .link directory target rest =>
      match links with
      | 0 => .error .tooManyLinks
      | links + 1 =>
          if target.isEmpty then .error .absent
          else
            let path := Path.ofBytes target
            follow files links (startOf path directory) (path.steps ++ rest)

def checkLength (path : List UInt8) : Except IoError Unit :=
  if path.isEmpty then .error .absent
  else if pathLimit ≤ path.length then .error .nameTooLong
  else .ok ()

/-- Where a path leads with all its links followed. -/
def reach (files : Files) (path : List UInt8) : Except IoError Reach := do
  checkLength path
  let parsed := Path.ofBytes path
  files.follow linkLimit (startOf parsed files.workingDirectory) parsed.steps

/-- What a path leads to with all its links followed. -/
def look (files : Files) (path : List UInt8) : Except IoError Node := do
  match ← files.reach path with
  | .vacant _ _ => .error .absent
  | .found location =>
      match files.node? location with
      | some node => .ok node
      | none => .error .absent

/-! ## The place of a last component -/

/-- The directory that holds a path's last component, and that component. A path
without components leads to the root and has no such place. -/
def place? (files : Files) (path : Path) : Except IoError (Option (Location × Name)) :=
  match path.components.getLast? with
  | none => .ok none
  | some name => do
      match ← files.follow linkLimit (startOf path files.workingDirectory)
          path.components.dropLast with
      | .vacant _ _ => .error .absent
      | .found directory =>
          if files.isDirectory directory then .ok (some (directory, name))
          else .error .notDirectory

/-- The place of a last component that is a name of its own. -/
def properPlace (files : Files) (path : Path) : Except IoError (Location × Name) := do
  match ← files.place? path with
  | none => .error .alreadyThere
  | some (directory, name) =>
      if name = here ∨ name = parent then .error .alreadyThere
      else if nameLimit < name.length then .error .nameTooLong
      else .ok (directory, name)

/-- What a path leads to when a link at its end is not followed. -/
def lookAtLink (files : Files) (path : List UInt8) : Except IoError Node := do
  checkLength path
  let parsed := Path.ofBytes path
  if parsed.asksDirectory then files.look path
  else
    match files.properPlace parsed with
    | .error .alreadyThere => files.look path
    | .error error => .error error
    | .ok (directory, name) =>
        match files.node? (name :: directory) with
        | some node => .ok node
        | none => .error .absent

end Files

end PipeCast
