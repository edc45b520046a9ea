import Classpath.Proofs.Document.Following

/-! # Defaults — what may be left out of descriptors and configurations

    For each kind of data there is the shape of the documents it is read from,
    with the values that its fields have when they are absent (`IsDefault`).
    The readers follow these shapes, so writing a default is the same as
    leaving the field out, wherever that field stands
    (`Descriptor.follows_reader`, `Config.follows_reader`).

    An absent platform is none, and a platform without contents is one: that
    an empty `platform` changes no model is not a matter of reading. -/

namespace Classpath

open Document

/-! ## Artifacts -/

namespace Artifact

/-- The values that a field of an artifact may as well not have. -/
def IsDefault (name : String) (v : Value) : Prop :=
  match name with
  | "classifier" => v = .string ""
  | "type" => v = .string "jar" ∨ ∃ t, v = .string t ∧ t.toList.all Text.isBlank = true
  | _ => False

/-- The shape of an artifact. -/
def shape : Shape := .record fields.names (fun _ => .leaf) IsDefault

theorem reads_default_type {v : Value} (h : IsDefault "type" v) (d : Dialect) :
    Reader.string.map normalizeType d v = .ok defaultType := by
  rcases h with rfl | ⟨t, rfl, ht⟩
  · rfl
  · exact congrArg Except.ok (if_pos ht)

theorem follows_fields : fields.Follows (fun _ => .leaf) IsDefault := by
  refine .seq (.seq (.seq (.seq (.map (.required .string ?_)) (.required .string ?_))
    (.withDefault .string ?_)) (.withDefault (.map .string) ?_)) (.required .string ?_)
  · exact fun v hv => hv
  · exact fun v hv => hv
  · rintro v rfl d
    rfl
  · exact fun v hv d => reads_default_type hv d
  · exact fun v hv => hv

theorem follows_reader : reader.Follows shape := .record follows_fields

end Artifact

/-! ## Dependencies -/

namespace Dependency

/-- The values that a field of a dependency, or of its artifact, may as well not
    have. -/
def IsDefault (name : String) (v : Value) : Prop :=
  match name with
  | "scope" => v = .string "compile"
  | "runtime-cp" => v = .bool false
  | "optional" => v = .bool false
  | _ => Artifact.IsDefault name v

/-- The shape of a dependency. -/
def shape : Shape :=
  .record (fields.names ++ Artifact.fields.names) (fun _ => .leaf) IsDefault

theorem follows_fields : fields.Follows (fun _ => .leaf) IsDefault := by
  refine .seq (.seq (.map (.withDefault (.choice _ _) ?_)) (.withDefault .bool ?_))
    (.withDefault .bool ?_)
  · rintro v rfl d
    cases d <;> rfl
  · rintro v rfl d
    rfl
  · rintro v rfl d
    rfl

theorem follows_reader : reader.Follows shape := by
  have hartifact : Artifact.fields.Follows (fun _ => .leaf) IsDefault := by
    refine Artifact.follows_fields.congr fun name hname => ⟨rfl, ?_⟩
    have hnames : name ∈ ["group", "artifact", "classifier", "type", "version"] := hname
    simp only [List.mem_cons, List.not_mem_nil, or_false] at hnames
    rcases hnames with rfl | rfl | rfl | rfl | rfl <;> rfl
  exact .map (.flattened follows_fields hartifact (by decide))

end Dependency

/-! ## Contracts and platforms -/

namespace Contract

/-- The value that a field of a contract may as well not have. -/
def IsDefault (name : String) (v : Value) : Prop :=
  match name with
  | "provides" => v = .list []
  | _ => False

/-- The shapes of its fields. -/
def inner : String → Shape
  | "provides" => .list .leaf
  | _ => .leaf

/-- The shape of a contract. -/
def shape : Shape := .record fields.names inner IsDefault

theorem follows_reader : reader.Follows shape := by
  refine .record (.seq (.map (.required .string ?_)) (.withDefault (.list .string) ?_))
  · exact fun v hv => hv
  · rintro v rfl d
    rfl

end Contract

namespace Platform

/-- The values that the fields of a platform may as well not have. -/
def IsDefault (name : String) (v : Value) : Prop :=
  match name with
  | "boms" => v = .list []
  | "properties" => v = .map []
  | _ => False

/-- The shapes of its fields. -/
def inner : String → Shape
  | "boms" => .list Artifact.shape
  | "properties" => .map .leaf
  | _ => .leaf

/-- The shape of a platform. -/
def shape : Shape := .record fields.names inner IsDefault

theorem follows_reader : reader.Follows shape := by
  refine .record (.seq (.map (.withDefault (.list Artifact.follows_reader) ?_))
    (.withDefault (.textMap .string) ?_))
  · rintro v rfl d
    rfl
  · rintro v rfl d
    rfl

end Platform

/-! ## Classifications -/

namespace Marks

/-- Every list of a classification may as well be left out if it is empty. -/
def IsDefault (_ : String) (v : Value) : Prop := v = .list []

/-- The shape of a classification. -/
def shape : Shape := .record fields.names (fun _ => .list .leaf) IsDefault

theorem follows_keysField (m : Mark) : (keysField m).Follows (fun _ => .list .leaf) IsDefault := by
  refine .withDefault (.list .coordinate) ?_
  rintro v rfl d
  rfl

theorem follows_reader : reader.Follows shape :=
  .record (.seq (.seq (.seq (.seq (.map (follows_keysField _)) (follows_keysField _))
    (follows_keysField _)) (follows_keysField _)) (follows_keysField _))

end Marks

/-! ## Descriptors -/

namespace Descriptor

/-- The values that the fields of a descriptor may as well not have. -/
def IsDefault (name : String) (v : Value) : Prop :=
  match name with
  | "dependencies" => v = .list []
  | "classification" => v = .map []
  | "capabilities" => v = .map []
  | _ => False

/-- The shapes of its fields. -/
def inner : String → Shape
  | "app" => Artifact.shape
  | "dependencies" => .list Dependency.shape
  | "classification" => Marks.shape
  | "capabilities" => .map Contract.shape
  | "platform" => Platform.shape
  | _ => .leaf

/-- The shape of a descriptor. -/
def shape : Shape := .record fields.names inner IsDefault

theorem follows_reader : reader.Follows shape := by
  refine .record (.seq (.seq (.seq (.seq
    (.map (.withDefault (.nullable Artifact.follows_reader) ?_))
    (.withDefault (.list Dependency.follows_reader) ?_))
    (.withDefault Marks.follows_reader ?_))
    (.withDefault (.textMap Contract.follows_reader) ?_))
    (.withDefault (.nullable Platform.follows_reader) ?_))
  · exact fun v hv => nomatch hv
  · rintro v rfl d
    rfl
  · rintro v rfl d
    rfl
  · rintro v rfl d
    rfl
  · exact fun v hv => nomatch hv

end Descriptor

/-! ## Configurations -/

namespace Config

/-- The values that a user may as well not give for how models are written. -/
def IsDefaultOutput (name : String) (v : Value) : Prop :=
  match name with
  | "format" => v = .string "json"
  | "pretty" => v = .bool true
  | _ => False

/-- The value that a user may as well not give for the properties files. -/
def IsDefaultExtensions (name : String) (v : Value) : Prop :=
  match name with
  | "properties" => v = .list []
  | _ => False

/-- The values that the fields of a configuration may as well not have. -/
def IsDefault (name : String) (v : Value) : Prop :=
  match name with
  | "output" => v = .map []
  | "extensions" => v = .map []
  | _ => False

/-- The shapes of its fields. -/
def inner : String → Shape
  | "output" => .record outputFields.names (fun _ => .leaf) IsDefaultOutput
  | "extensions" => .record ["properties"] (fun _ => .list .leaf) IsDefaultExtensions
  | _ => .leaf

/-- The shape of a configuration. -/
def shape : Shape := .record fields.names inner IsDefault

theorem follows_outputReader : outputReader.Follows (inner "output") := by
  refine .record (.seq (.map (.withDefault (.choice _ _) ?_)) (.withDefault .bool ?_))
  · rintro v rfl d
    cases d <;> rfl
  · rintro v rfl d
    rfl

theorem follows_extensionsReader : extensionsReader.Follows (inner "extensions") := by
  refine .record (.withDefault (.list (.text _)) ?_)
  rintro v rfl d
  rfl

theorem follows_reader : reader.Follows shape := by
  refine .record (.seq (.map (.withDefault follows_outputReader ?_))
    (.withDefault follows_extensionsReader ?_))
  · rintro v rfl d
    rfl
  · rintro v rfl d
    rfl

end Config

end Classpath
