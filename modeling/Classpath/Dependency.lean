import Classpath.Coordinate

/-! # Dependencies — an artifact and the way the application uses it

    An artifact is a coordinate together with a version.  It keeps the type it
    was given; its coordinate reads a blank type as the default one. -/

namespace Classpath

/-! ## Artifacts -/

/-- A versioned artifact. -/
structure Artifact where
  group : String
  artifact : String
  classifier : String := ""
  type : String := defaultType
  version : String
  deriving DecidableEq, Hashable, Repr

namespace Artifact

/-- The identity of the artifact. -/
def key (a : Artifact) : Coordinate where
  group := a.group
  artifact := a.artifact
  classifier := a.classifier
  type := normalizeType a.type

/-- All five fields, separated by colons. -/
def display (a : Artifact) : String :=
  a.group ++ ":" ++ a.artifact ++ ":" ++ a.classifier ++ ":" ++ a.type
    ++ ":" ++ a.version

instance : ToString Artifact := ⟨display⟩

end Artifact

/-! ## Scopes -/

/-- The scope in which a dependency was declared. -/
inductive Scope where
  | compile
  | runtime
  | provided
  | test
  deriving DecidableEq, Repr

namespace Scope

/-- The scopes in the order in which they are named to a reader. -/
def all : List Scope := [.compile, .runtime, .provided, .test]

/-- The name of a scope. -/
def name : Scope → String
  | .compile => "compile"
  | .runtime => "runtime"
  | .provided => "provided"
  | .test => "test"

theorem mem_all (s : Scope) : s ∈ all := by cases s <;> decide

theorem name_injective {s t : Scope} (h : s.name = t.name) : s = t := by
  revert h
  cases s <;> cases t <;> decide

end Scope

/-! ## Dependencies -/

/-- A resolved dependency.  `runtime` tells whether it is on the class path
    of the running application or only on the one that builds it. -/
structure Dependency where
  artifact : Artifact
  scope : Scope := .compile
  runtime : Bool := false
  optional : Bool := false
  deriving DecidableEq, Repr

namespace Dependency

/-- The identity of the artifact. -/
def key (d : Dependency) : Coordinate := d.artifact.key

/-- The artifact, and in brackets its scope and whether it is optional. -/
def display (d : Dependency) : String :=
  d.artifact.display ++ " (" ++ d.scope.name
    ++ (if d.optional then ", optional)" else ")")

instance : ToString Dependency := ⟨display⟩

end Dependency

end Classpath
