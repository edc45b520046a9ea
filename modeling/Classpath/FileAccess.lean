import Classpath.Source

/-! # File access — what the library asks of a file system

    The functions here work in any monad that gives access to files, be they
    those of a machine or a `FileTree`. -/

namespace Classpath

/-- Access to files. -/
class FileAccess (m : Type → Type) where
  isFile : String → m Bool
  isPresent : String → m Bool
  read : String → m (Except IoFault String)
  /-- Makes a directory and all that contain it. -/
  makeDirectory : String → m (Except IoFault Unit)
  write : String → String → m (Except IoFault Unit)

namespace FileAccess

variable {m : Type → Type} [Monad m] [FileAccess m]

/-- The nearest file of a name: in a place or else in what contains it. -/
def findUpwards {m : Type → Type} [Monad m] (isFile : String → m Bool)
    (start name : String) : m (Option String) :=
  (Path.candidates start name).findM? isFile

/-- A file as it is found. -/
def source (path : String) : m Source := do
  let contents ← read path
  pure ⟨path, contents⟩

/-- The configuration at a path, which is the default if there is no file. -/
def config (path : String) : m (Except Fault Config) := do
  if ← isFile path then
    let s ← source path
    pure (Config.ofSource? (some s))
  else pure (Config.ofSource? none)

/-- The directory to be made before a file can be written. -/
def missingParent? (path : String) : m (Option String) := do
  match Path.parent? path with
  | none => pure none
  | some parent =>
      if parent = "" then pure none
      else if ← isPresent parent then pure none
      else pure (some parent)

/-- Writes a file, after making the directory it is to be in.  The event is
    that of the writing. -/
def writeWithParents (path contents : String) :
    m (Except IoFault Unit × List Event) := do
  let made ← match ← missingParent? path with
    | some parent => makeDirectory parent
    | none => pure (.ok ())
  match made with
  | .error fault => pure (.error fault, [])
  | .ok () => do
      let written ← write path contents
      pure (written, [.writing contents.utf8ByteSize path])

end FileAccess

/-- Where a user's settings may be. -/
structure Environment where
  /-- The directory of the settings, if it was set. -/
  settings : Option String := none
  home : Option String := none
  profile : Option String := none
  deriving DecidableEq, Repr

namespace Environment

/-- The directory of a user's settings. -/
def directory (e : Environment) : String :=
  match e.settings with
  | some directory => directory
  | none => Path.join ((e.home.or e.profile).getD ".") ".depmodel"

/-- The path of a user's configuration. -/
def configPath (e : Environment) : String :=
  Path.join e.directory "config.toml"

end Environment

end Classpath
