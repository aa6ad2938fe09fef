import PulseDaq.Bytes
import PulseDaq.Files.Error
import PulseDaq.Files.Path

/-!
# Files and directories

A tree of files and directories as a value. Paths are resolved name by name: every name but the
last has to be a directory that is there.

* `Files`: what it takes to make files.
* `FileSystem.find`: what is at a path.
* `FileSystem.createNew`: a new file, never over something that is there.
* `FileSystem.createDirAll`: a directory with all directories above it.
-/

namespace PulseDaq

/-- A state in which files and directories can be made, which may fail. -/
class Files (φ : Type) where
  /-- A new file. -/
  createNew (path : String) (bytes : Bytes) : EStateM OsError φ Unit
  /-- A directory, with all directories above it that are missing. -/
  createDirAll (path : String) : EStateM OsError φ Unit

/-- What a path leads to. -/
inductive Node where
  | directory
  | file (bytes : Bytes)
  deriving DecidableEq, Repr

/-- Where something is: its name, then those of the directories around it, the root being last and
without a name. -/
abbrev Location := List String

/-- Files and directories. -/
structure FileSystem where
  /-- What there is besides the root, the latest first. -/
  entries : List (Location × Node) := []
  /-- The directory that relative paths start from. -/
  current : Location := []
  deriving DecidableEq, Repr, Inhabited

/-- What a file or directory holds. -/
def Node.read : Node → Except OsError Bytes
  | directory => .error .isDirectory
  | file bytes => .ok bytes

namespace FileSystem

/-- What is at a location. -/
def node? (fs : FileSystem) (at_ : Location) : Option Node :=
  if at_ = [] then some .directory else fs.entries.lookup at_

/-- The longest name in bytes. -/
def longestName : Nat := 255

/-- The longest path in bytes. -/
def longestPath : Nat := 4095

/-- Where names lead to from a location. The last of them need not be there. -/
def walk (fs : FileSystem) (at_ : Location) : List String → Except OsError Location
  | [] => .ok at_
  | name :: rest =>
    match fs.node? at_ with
    | none => .error .notFound
    | some (.file _) => .error .notDirectory
    | some .directory =>
      if name = "" ∨ name = "." then walk fs at_ rest
      else if name = ".." then walk fs at_.tail rest
      else if longestName < name.utf8ByteSize then .error .nameTooLong
      else walk fs (name :: at_) rest

/-- Where some names of a path lead to. -/
def resolve (fs : FileSystem) (path : String) (names : List String) : Except OsError Location :=
  if path.toList.contains '\x00' then .error .nulInPath
  else if path = "" then .error .notFound
  else if longestPath < path.utf8ByteSize then .error .nameTooLong
  else fs.walk (if Path.isAbsolute path then [] else fs.current) names

/-- Where a path leads to. One that ends with a slash leads to a directory that is there. -/
def locate (fs : FileSystem) (path : String) : Except OsError Location :=
  fs.resolve path (Path.names path)

/-- Where a path leads to that a directory may get. Slashes at its end count for nothing. -/
def locateDir (fs : FileSystem) (path : String) : Except OsError Location :=
  fs.resolve path ((Path.names path).reverse.dropWhile (· = "")).reverse

/-- Where a path leads to that a file may get. No file has a path that ends with a slash. -/
def locateFile (fs : FileSystem) (path : String) : Except OsError Location := do
  let at_ ← fs.locateDir path
  if (Path.names path).getLast? = some "" then .error .isDirectory else .ok at_

/-- What is at a path. -/
def find (fs : FileSystem) (path : String) : Except OsError Node := do
  let at_ ← fs.locate path
  match fs.node? at_ with
  | some node => .ok node
  | none => .error .notFound

/-- The bytes of a file. -/
def read (fs : FileSystem) (path : String) : Except OsError Bytes := do
  let node ← fs.find path
  node.read

/-- Put something where nothing is yet. -/
def create (node : Node) (at_ : Location) : EStateM OsError FileSystem Unit := do
  let fs ← get
  match fs.node? at_ with
  | some _ => throw .alreadyExists
  | none => set { fs with entries := (at_, node) :: fs.entries }

/-- A new file. -/
def createNew (path : String) (bytes : Bytes) : EStateM OsError FileSystem Unit := do
  create (.file bytes) (← ofExcept ((← get).locateFile path))

/-- A new directory. -/
def createDir (path : String) : EStateM OsError FileSystem Unit := do
  create .directory (← ofExcept ((← get).locateDir path))

/-- Whether a path leads to a directory. -/
def isDirectory (fs : FileSystem) (path : String) : Bool :=
  match fs.find path with
  | .ok .directory => true
  | _ => false

/-- A directory, unless it is there. -/
def ensureDir (path : String) : EStateM OsError FileSystem Unit := fun fs =>
  match createDir path fs with
  | .error e fs => if fs.isDirectory path then .ok () fs else .error e fs
  | done => done

/-- The first of some paths as a directory; the others are the paths above it. -/
def createAlong : List String → EStateM OsError FileSystem Unit
  | [] => throw (.other "failed to create whole tree")
  | path :: above => fun fs =>
    if path = "" then .ok () fs
    else
      match createDir path fs with
      | .error .notFound fs => (do createAlong above; ensureDir path) fs
      | .error e fs => if fs.isDirectory path then .ok () fs else .error e fs
      | done => done

/-- A directory, with all directories above it that are missing. -/
def createDirAll (path : String) : EStateM OsError FileSystem Unit :=
  createAlong (Path.ancestors path)

instance : Files FileSystem where
  createNew := createNew
  createDirAll := createDirAll

/-- Write a file, over what it held before, with the directories above it. -/
def put (path : String) (bytes : Bytes) : EStateM OsError FileSystem Unit := do
  createDirAll ((Path.parent? path).getD "")
  let fs ← get
  let at_ ← ofExcept (fs.locateFile path)
  match fs.node? at_ with
  | some .directory => throw .isDirectory
  | _ => set { fs with entries := (at_, .file bytes) :: fs.entries.filter fun e => e.1 ≠ at_ }

/-- Remove a file. -/
def remove (path : String) : EStateM OsError FileSystem Unit := do
  let fs ← get
  let at_ ← ofExcept (fs.locate path)
  match fs.node? at_ with
  | some .directory => throw .isDirectory
  | none => throw .notFound
  | _ => set { fs with entries := fs.entries.filter fun e => e.1 ≠ at_ }

/-- The files below the current directory with their paths, in the order of the paths. -/
def files (fs : FileSystem) : List (String × Bytes) :=
  let below := fs.entries.filterMap fun (at_, node) =>
    match node with
    | .file bytes =>
      if fs.current.isSuffixOf at_ then
        some ("/".intercalate (at_.take (at_.length - fs.current.length)).reverse, bytes)
      else none
    | .directory => none
  below.mergeSort fun a b => a.1 ≤ b.1

end FileSystem

end PulseDaq
