import Classpath.Config
import Classpath.Model
import Classpath.Document.Record

/-! # Schemas — how the data of this library stand in documents

    For each kind of data there is a reader, and a function that gives its
    value.  A value has all fields, apart from a classifier that is empty;
    a reader accepts every field with a default to be absent.  A type that
    is blank is read as the default type. -/

namespace Classpath

open Document Document.Fields

/-! ## Coordinates -/

/-- A coordinate is written as a text. -/
def Coordinate.toValue (k : Coordinate) : Value := .string k.display

/-! ## Artifacts -/

namespace Artifact

/-- The fields of an artifact. -/
def fields : Fields Artifact :=
  Artifact.mk
    <$> required "group" Reader.string
    <*> required "artifact" Reader.string
    <*> withDefault "classifier" Reader.string ""
    <*> withDefault "type" (Reader.string.map normalizeType) defaultType
    <*> required "version" Reader.string

/-- Reads an artifact. -/
def reader : Reader Artifact := record "Artifact" fields

/-- The members of an artifact. -/
def members (a : Artifact) : List (String × Value) :=
  [("group", .string a.group), ("artifact", .string a.artifact)]
    ++ (if a.classifier = "" then [] else [("classifier", .string a.classifier)])
    ++ [("type", .string a.type), ("version", .string a.version)]

/-- The value of an artifact. -/
def toValue (a : Artifact) : Value := .map a.members

end Artifact

/-! ## Dependencies -/

namespace Scope

/-- Reads a scope. -/
def reader : Reader Scope := Reader.choice all name

/-- The value of a scope. -/
def toValue (s : Scope) : Value := .string s.name

end Scope

namespace Dependency

/-- The fields of a dependency apart from those of its artifact. -/
def fields : Fields (Artifact → Dependency) :=
  (fun scope runtime optional artifact => ⟨artifact, scope, runtime, optional⟩)
    <$> withDefault "scope" Scope.reader .compile
    <*> withDefault "runtime-cp" Reader.bool false
    <*> withDefault "optional" Reader.bool false

/-- Reads a dependency, in which the fields of the artifact stand beside its
    own. -/
def reader : Reader Dependency :=
  (flattened "ResolvedDependency" fields Artifact.fields).map fun p => p.1 p.2

/-- The value of a dependency. -/
def toValue (d : Dependency) : Value :=
  .map (d.artifact.members
    ++ [("scope", d.scope.toValue), ("runtime-cp", .bool d.runtime),
        ("optional", .bool d.optional)])

end Dependency

/-! ## Contracts -/

namespace Contract

/-- The fields of a contract. -/
def fields : Fields Contract :=
  Contract.mk
    <$> required "extension" Reader.string
    <*> withDefault "provides" (Reader.list Reader.string) []

/-- Reads a contract. -/
def reader : Reader Contract := record "CapabilityContract" fields

/-- The value of a contract. -/
def toValue (c : Contract) : Value :=
  .map [("extension", .string c.extension),
    ("provides", .list (c.provides.map .string))]

end Contract

/-- The value of a map, in the order of the names. -/
def TextMap.toValue {α : Type} (value : α → Value) (map : TextMap α) : Value :=
  .map (map.toList.map fun e => (e.1, value e.2))

/-! ## Platforms -/

namespace Platform

/-- The fields of a platform. -/
def fields : Fields Platform :=
  Platform.mk
    <$> withDefault "boms" (Reader.list Artifact.reader) []
    <*> withDefault "properties" (Reader.textMap Reader.string) ∅

/-- Reads a platform. -/
def reader : Reader Platform := record "PlatformImports" fields

/-- The value of a platform. -/
def toValue (p : Platform) : Value :=
  .map [("boms", .list (p.boms.map Artifact.toValue)),
    ("properties", TextMap.toValue .string p.properties)]

end Platform

/-! ## Classifications -/

namespace Marks

/-- The field that lists the coordinates with a mark. -/
def keysField (m : Mark) : Fields (List Coordinate) :=
  withDefault m.name (Reader.list Reader.coordinate) []

/-- The fields of a classification. -/
def fields : Fields (Marks (List Coordinate)) :=
  Marks.mk <$> keysField .parentFirst <*> keysField .runnerParentFirst
    <*> keysField .excluded <*> keysField .lesserPriority
    <*> keysField .localProject

/-- Reads a classification. -/
def reader : Reader (Marks (List Coordinate)) := record "Classification" fields

/-- The value of a classification. -/
def toValue (s : Marks (List Coordinate)) : Value :=
  .map (Mark.all.map fun m =>
    (m.name, .list ((s.get m).map Coordinate.toValue)))

end Marks

/-! ## Descriptors -/

/-- The value of what may be absent. -/
def optionalValue {α : Type} (value : α → Value) : Option α → Value
  | some a => value a
  | none => .null

namespace Descriptor

/-- The fields of a descriptor. -/
def fields : Fields Descriptor :=
  Descriptor.mk
    <$> withDefault "app" (Reader.nullable Artifact.reader) none
    <*> withDefault "dependencies" (Reader.list Dependency.reader) []
    <*> withDefault "classification" Marks.reader (.const [])
    <*> withDefault "capabilities" (Reader.textMap Contract.reader) ∅
    <*> withDefault "platform" (Reader.nullable Platform.reader) none

/-- Reads a descriptor. -/
def reader : Reader Descriptor := record "ModelDescriptor" fields

/-- The value of a descriptor. -/
def toValue (d : Descriptor) : Value :=
  .map [("app", optionalValue Artifact.toValue d.app),
    ("dependencies", .list (d.dependencies.map Dependency.toValue)),
    ("classification", d.classification.toValue),
    ("capabilities", TextMap.toValue Contract.toValue d.capabilities),
    ("platform", optionalValue Platform.toValue d.platform)]

end Descriptor

/-! ## Configurations -/

namespace Format

/-- Reads a format. -/
def reader : Reader Format := Reader.choice all name

/-- The value of a format. -/
def toValue (f : Format) : Value := .string f.name

end Format

namespace Config

/-- The fields that say how models are written. -/
def outputFields : Fields (Format × Bool) :=
  Prod.mk
    <$> withDefault "format" Format.reader .json
    <*> withDefault "pretty" Reader.bool true

/-- Reads how models are written. -/
def outputReader : Reader (Format × Bool) := record "OutputConfig" outputFields

/-- The value that says how models are written. -/
def outputValue (output : Format × Bool) : Value :=
  .map [("format", output.1.toValue), ("pretty", .bool output.2)]

/-- Reads the properties files that are applied to every model. -/
def extensionsReader : Reader (List String) :=
  record "ExtensionsConfig"
    (withDefault "properties" (Reader.list (Reader.text "path string")) [])

/-- The fields of a configuration. -/
def fields : Fields Config :=
  (fun output properties => ⟨output.1, output.2, properties⟩)
    <$> withDefault "output" outputReader (.json, true)
    <*> withDefault "extensions" extensionsReader []

/-- Reads a configuration. -/
def reader : Reader Config := record "GlobalConfig" fields

/-- The value of a configuration. -/
def toValue (c : Config) : Value :=
  .map [("output", outputValue (c.format, c.pretty)),
    ("extensions", .map [("properties", .list (c.properties.map .string))])]

end Config

end Classpath
