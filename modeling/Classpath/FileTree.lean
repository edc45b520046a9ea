import Classpath.FileAccess

/-! # File trees — a file system as a value

    A file tree knows files and directories by their names from the root
    down.  A path is followed name by name; whatever is passed on the way
    has to be a directory. -/

namespace Classpath

/-- What stands at a place in a file tree. -/
inductive FileEntry where
  | directory
  /-- A file, with its text if it is one. -/
  | file (text : Option String)
  deriving DecidableEq, Repr

/-- Files and directories, and the directory where relative paths start. -/
structure FileTree where
  entries : List (List String × FileEntry) := []
  working : List String := []
  deriving Repr

namespace FileTree

/-- What stands at a place; the root is always a directory. -/
def node? (t : FileTree) (place : List String) : Option FileEntry :=
  if place = [] then some .directory
  else (t.entries.find? fun e => e.1 = place).map Prod.snd

/-- Puts something at a place. -/
def put (t : FileTree) (place : List String) (e : FileEntry) : FileTree :=
  { t with entries := (place, e) :: t.entries.filter fun e => e.1 ≠ place }

/-- Where one more part of a path leads. -/
def follow (place : List String) (part : String) : List String :=
  if part = "" ∨ part = "." then place
  else if part = ".." then place.dropLast
  else place ++ [part]

/-- Whether one can go on from a place. -/
def enter (t : FileTree) (place : List String) : Except IoFault Unit :=
  match t.node? place with
  | some .directory => .ok ()
  | some (.file _) => .error .notADirectory
  | none => .error .notFound

/-- Where the parts of a path lead. -/
def walk (t : FileTree) (place : List String) : List String →
    Except IoFault (List String)
  | [] => .ok place
  | part :: rest => do
      t.enter place
      t.walk (follow place part) rest

/-- Where a path starts, and its parts. -/
def startOf (t : FileTree) (path : String) : List String × List String :=
  let p := Path.Parts.ofString path
  (if p.rooted then [] else t.working, p.parts.map String.ofList)

/-- Where a path leads. -/
def resolve (t : FileTree) (path : String) : Except IoFault (List String) :=
  if path = "" then .error .notFound
  else
    let (start, parts) := t.startOf path
    t.walk start parts

/-- Where a path leads if the slashes at its end are set aside: the place of
    what is to be made. -/
def target (t : FileTree) (path : String) : Except IoFault (List String) :=
  if path = "" then .error .notFound
  else
    let (start, parts) := t.startOf path
    t.walk start (parts.reverse.dropWhile (· = "")).reverse

/-- What a path leads to. -/
def lookup (t : FileTree) (path : String) : Except IoFault FileEntry := do
  match t.node? (← t.resolve path) with
  | some e => .ok e
  | none => .error .notFound

/-- Whether a path leads to a file. -/
def isFile (t : FileTree) (path : String) : Bool :=
  match t.lookup path with
  | .ok (.file _) => true
  | _ => false

/-- Whether a path leads to anything. -/
def isPresent (t : FileTree) (path : String) : Bool :=
  (t.lookup path).toOption.isSome

/-- The text of a file. -/
def read (t : FileTree) (path : String) : Except IoFault String := do
  match ← t.lookup path with
  | .file (some text) => .ok text
  | .file none => .error .notText
  | .directory => .error .isADirectory

/-- Whether a path leads to a directory. -/
def isDirectory (t : FileTree) (path : String) : Bool :=
  match t.lookup path with
  | .ok .directory => true
  | _ => false

/-- Makes a directory where there is nothing; what is to contain it has to be
    there. -/
def makeNew (t : FileTree) (path : String) : Except IoFault FileTree := do
  let place ← t.target path
  match t.node? place with
  | some _ => .error .alreadyExists
  | none => .ok (t.put place .directory)

/-- Makes a directory unless it is there. -/
def ensure (t : FileTree) (path : String) : Except IoFault FileTree :=
  match t.makeNew path with
  | .error .alreadyExists =>
      if t.isDirectory path then .ok t else .error .alreadyExists
  | made => made

/-- Carries out a change of the tree; one that fails changes nothing. -/
def change (f : FileTree → Except IoFault FileTree) :
    StateM FileTree (Except IoFault Unit) := fun t =>
  match f t with
  | .ok t => (.ok (), t)
  | .error fault => (.error fault, t)

/-- Makes the first directory of a list in which each is followed by what
    contains it.  The others are made before it, but only as far as they are
    missing, and they stay if one of those that follow cannot be made. -/
def ensureFirst : List String → StateM FileTree (Except IoFault Unit)
  | [] => pure (.ok ())
  | path :: outer => do
      match ← change (ensure · path) with
      | .error .notFound => match ← ensureFirst outer with
          | .ok () => change (ensure · path)
          | .error fault => pure (.error fault)
      | made => pure made

/-- Makes a directory and all that contain it. -/
def makeDirectory (path : String) : StateM FileTree (Except IoFault Unit) :=
  ensureFirst ((path :: Path.ancestors (path.length + 1) path).filter (· ≠ ""))

/-- Writes a file.  A path that ends in a slash is that of a directory. -/
def write (t : FileTree) (path contents : String) : Except IoFault FileTree := do
  let place ← t.target path
  if path.endsWith "/" ∨ t.node? place = some .directory then
    .error .isADirectory
  else .ok (t.put place (.file (some contents)))

/-- Adds a file or directory and the directories that contain it. -/
def add (t : FileTree) (place : List String) (e : FileEntry) : FileTree :=
  let outer := (List.range place.length).map fun n => place.take n
  let t := outer.foldl
    (fun t p => if (t.node? p).isSome then t else t.put p .directory) t
  t.put place e

instance : FileAccess (StateM FileTree) where
  isFile path := fun t => (t.isFile path, t)
  isPresent path := fun t => (t.isPresent path, t)
  read path := fun t => (t.read path, t)
  makeDirectory := makeDirectory
  write path contents := change fun t => t.write path contents

end FileTree

end Classpath
