import Logbook.FilePath

/-!
# A tree of files

Directories and files under canonical places: the list of names from the root. A file has a number
of its own, by which a handle keeps to it when it is renamed or removed; what is appended to a
file that is no longer in the tree is seen nowhere.

Paths are resolved name by name. The first name that cannot be followed gives the error, and only
`createDirectories` and `openAppend` change the tree on the way.
-/

set_option autoImplicit false
set_option relaxedAutoImplicit false

namespace Logbook

/-- Why an operation on files failed. -/
inductive IoError where
  | notFound
  | alreadyExists
  | notDirectory
  | isDirectory
  | nameTooLong
  | nulInPath
  | notText
  deriving DecidableEq, Repr

namespace IoError

/-- The number of the error, where the system has one for it. -/
def code? : IoError → Option Nat
  | notFound => some 2
  | alreadyExists => some 17
  | notDirectory => some 20
  | isDirectory => some 21
  | nameTooLong => some 36
  | nulInPath | notText => none

/-- The kind of the error. -/
def kind : IoError → String
  | notFound => "NotFound"
  | alreadyExists => "AlreadyExists"
  | notDirectory => "NotADirectory"
  | isDirectory => "IsADirectory"
  | nameTooLong => "InvalidFilename"
  | nulInPath => "InvalidInput"
  | notText => "InvalidData"

/-- What went wrong. -/
def reason : IoError → String
  | notFound => "No such file or directory"
  | alreadyExists => "File exists"
  | notDirectory => "Not a directory"
  | isDirectory => "Is a directory"
  | nameTooLong => "File name too long"
  | nulInPath => "file name contained an unexpected NUL byte"
  | notText => "stream did not contain valid UTF-8"

/-- The text of the error. -/
def message (e : IoError) : String :=
  match e.code? with
  | some n => e.reason ++ " (os error " ++ toString n ++ ")"
  | none => e.reason

end IoError

/-- A place in the tree: the names from the root on. -/
abbrev Place := List String

/-- What stands at a place. -/
inductive Node where
  | directory
  | file (id : Nat) (content : ByteArray)

/-- The files and directories, in the order in which they were made, and the number of the next
file. The root is a directory without an entry. -/
structure FileTree where
  nodes : List (Place × Node)
  next : Nat

namespace FileTree

/-- The tree with nothing but its root. -/
def empty : FileTree := ⟨[], 0⟩

/-- What stands at a place. -/
def node? (t : FileTree) (place : Place) : Option Node :=
  if place = [] then some .directory else t.nodes.lookup place

/-- Whether a place is a directory. -/
def isDirectory (t : FileTree) (place : Place) : Bool :=
  match t.node? place with
  | some .directory => true
  | _ => false

/-- The bytes of the file at a place. -/
def content? (t : FileTree) (place : Place) : Option ByteArray :=
  match t.node? place with
  | some (.file _ content) => some content
  | _ => none

/-- The number of the file at a place. -/
def fileId? (t : FileTree) (place : Place) : Option Nat :=
  match t.node? place with
  | some (.file id _) => some id
  | _ => none

/-- The places of all files, in the order in which they were made. -/
def files (t : FileTree) : List Place :=
  t.nodes.filterMap fun (place, node) ↦
    match node with
    | .file .. => some place
    | .directory => none

/-- The names of the files of a directory. -/
def filesIn (t : FileTree) (directory : Place) : List String :=
  t.files.filterMap fun place ↦
    if place.dropLast = directory then place.getLast? else none

/-! ### Changes at canonical places -/

/-- Makes a directory at a place. -/
def addDirectory (t : FileTree) (place : Place) : FileTree :=
  { t with nodes := t.nodes ++ [(place, .directory)] }

/-- Makes a file at a place: the tree and the number of the file. -/
def addFile (t : FileTree) (place : Place) (content : ByteArray) : FileTree × Nat :=
  (⟨t.nodes ++ [(place, .file t.next content)], t.next + 1⟩, t.next)

/-- Appends bytes to the file with a number, wherever it stands. -/
def append (t : FileTree) (id : Nat) (bytes : ByteArray) : FileTree :=
  { t with nodes := t.nodes.map fun (place, node) ↦
      match node with
      | .file n content => (place, if n = id then .file n (content ++ bytes) else node)
      | .directory => (place, node) }

/-- Takes out what stands at a place. -/
def erase (t : FileTree) (place : Place) : FileTree :=
  { t with nodes := t.nodes.filter fun (p, _) ↦ p ≠ place }

/-- Removes the file at a place, which a path leads to. -/
def removeFile (t : FileTree) (path : FilePath) (place : Place) : Except IoError FileTree :=
  if path.isLong || (place.getLast?.map FilePath.isLongName).getD false then .error .nameTooLong
  else
    match t.node? place with
    | none => .error .notFound
    | some .directory => .error .isDirectory
    | some (.file ..) => .ok (t.erase place)

/-- Where a place is found when what is at `source` has gone to `target`. -/
def movedPlace (source target place : Place) : Place :=
  if source.isPrefixOf place then target ++ place.drop source.length else place

/-- Moves a file, or a directory with all that is in it, to another name of the same directory,
which must be free. A path leads to the new name. -/
def rename (t : FileTree) (directory : Place) (source : String) (path : FilePath)
    (target : String) : Except IoError FileTree :=
  if FilePath.isLongName source || FilePath.isLongName target || path.isLong then
    .error .nameTooLong
  else if (t.node? (directory ++ [target])).isSome then .error .alreadyExists
  else
    match t.node? (directory ++ [source]) with
    | none => .error .notFound
    | some (.file ..) =>
      .ok { t with nodes := t.nodes.map fun (place, node) ↦
              (if place = directory ++ [source] then directory ++ [target] else place, node) }
    | some .directory =>
      .ok { t with nodes := t.nodes.map fun (place, node) ↦
              (movedPlace (directory ++ [source]) (directory ++ [target]) place, node) }

/-! ### Resolving paths -/

/-- Follows one name from a directory. -/
def follow (t : FileTree) (place : Place) (name : String) : Except IoError Place :=
  if !t.isDirectory place then .error .notDirectory
  else if name = ".." then .ok place.dropLast
  else if FilePath.isLongName name then .error .nameTooLong
  else if (t.node? (place ++ [name])).isSome then .ok (place ++ [name])
  else .error .notFound

/-- The place names lead to. -/
def resolve (t : FileTree) (segments : List String) : Except IoError Place :=
  segments.foldlM (t.follow) []

/-- Whether names lead to a directory. -/
def leadsToDirectory (t : FileTree) (segments : List String) : Bool :=
  match t.resolve segments with
  | .ok place => t.isDirectory place
  | .error _ => false

/-- Makes the directory names lead to, in a directory that must exist. -/
def createDirectory (t : FileTree) (segments : List String) : Except IoError FileTree :=
  match segments.getLast? with
  | none => .error .alreadyExists
  | some name => do
    let parent ← t.resolve segments.dropLast
    if !t.isDirectory parent then .error .notDirectory
    else if name = ".." then .error .alreadyExists
    else if FilePath.isLongName name then .error .nameTooLong
    else if (t.node? (parent ++ [name])).isSome then .error .alreadyExists
    else .ok (t.addDirectory (parent ++ [name]))

/-- Makes the directory names lead to, and before it every missing one on the way. The names are
given last first. The tree keeps the directories made before an error. -/
def createDirectoriesRev : FileTree → List String → FileTree × Option IoError
  | t, [] => (t, none)
  | t, name :: above =>
    let segments := (name :: above).reverse
    match t.createDirectory segments with
    | .ok made => (made, none)
    | .error .notFound =>
      match createDirectoriesRev t above with
      | (made, some e) => (made, some e)
      | (made, none) =>
        match made.createDirectory segments with
        | .ok all => (all, none)
        | .error e => (made, if made.leadsToDirectory segments then none else some e)
    | .error e => (t, if t.leadsToDirectory segments then none else some e)

/-- The error a path gives by its text alone. -/
def refused? (p : FilePath) : Option IoError :=
  if p.hasNul then some .nulInPath
  else if p.isLong then some .nameTooLong
  else none

/-- Makes the directory a path lies in, and every missing one above it. -/
def createParents (t : FileTree) (p : FilePath) : FileTree × Option IoError :=
  match refused? p.parent with
  | some e => (t, some e)
  | none => t.createDirectoriesRev p.segments.dropLast.reverse

/-- Opens the file of a path for appending, and makes it if it is missing: the tree, the place of
the file and its number. -/
def openAppend (t : FileTree) (p : FilePath) : Except IoError (FileTree × Place × Nat) :=
  match refused? p with
  | some e => .error e
  | none =>
    if p.isEmpty then .error .notFound
    else
      match p.segments.getLast? with
      | none => .error .isDirectory
      | some name => do
        let parent ← t.resolve p.segments.dropLast
        if !t.isDirectory parent then .error .notDirectory
        else if name = ".." then .error .isDirectory
        else
          match p.ending with
          | .slash => .error .isDirectory
          | .dot => do
            let place ← t.follow parent name
            .error (if t.isDirectory place then .isDirectory else .notDirectory)
          | .name =>
            if FilePath.isLongName name then .error .nameTooLong
            else
              let place := parent ++ [name]
              match t.node? place with
              | some .directory => .error .isDirectory
              | some (.file id _) => .ok (t, place, id)
              | none =>
                let (made, id) := t.addFile place ByteArray.empty
                .ok (made, place, id)

/-- The bytes of the file of a path. -/
def readFile (t : FileTree) (p : FilePath) : Except IoError ByteArray :=
  match refused? p with
  | some e => .error e
  | none =>
    if p.isEmpty then .error .notFound
    else do
      let place ← t.resolve p.segments
      match t.node? place with
      | none => .error .notFound
      | some .directory => .error .isDirectory
      | some (.file _ content) =>
        if p.ending = .name then .ok content else .error .notDirectory

/-- The place of the file of a path, if there is one. A path that asks for a directory has none. -/
def placeOf? (t : FileTree) (p : FilePath) : Option Place :=
  match t.resolve p.segments with
  | .ok place => if (t.content? place).isSome && p.ending = .name then some place else none
  | .error _ => none

end FileTree

end Logbook
