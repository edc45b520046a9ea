import Classpath.Dependency

/-! # Traces — what a computation has to say besides its value

    An operation that reports on its work returns a `Traced` value: the
    value itself and the events, in the order in which they happened.  The
    value never depends on the events. -/

namespace Classpath

/-- How much attention an event asks for. -/
inductive Level where
  | trace
  | debug
  | info
  | warn
  deriving DecidableEq, Repr

/-- The name of a level. -/
def Level.name : Level → String
  | .trace => "TRACE"
  | .debug => "DEBUG"
  | .info => "INFO"
  | .warn => "WARN"

/-- Something worth reporting. -/
inductive Event where
  /-- A dependency was added under a new coordinate. -/
  | added (artifact : Artifact)
  /-- A dependency took the place of an earlier one. -/
  | superseded (new old : Artifact)
  /-- A dependency was left out of a model. -/
  | dropped (artifact : Artifact)
  /-- An extension excludes a coordinate. -/
  | excluding (extension : String) (key : Coordinate)
  /-- An extension gives a coordinate lesser priority. -/
  | lowering (extension : String) (key : Coordinate)
  /-- A list in the properties of an extension is malformed. -/
  | malformedList (extension property : String) (cause : MalformedCoordinate)
  /-- A model was built, keeping some of the dependencies. -/
  | assembled (app : Option Artifact) (accepted total : Nat)
  /-- A second value for a platform property was not taken. -/
  | valueKept (name kept ignored : String)
  /-- A descriptor was read. -/
  | descriptorLoaded (path : String) (dependencies : Nat)
  /-- A properties file is about to be applied. -/
  | applyingProperties (path : String)
  /-- A properties file holds a malformed list. -/
  | invalidProperties (path : String) (cause : MalformedCoordinate)
  /-- A descriptor was found by looking upwards. -/
  | usingDescriptor (path : String)
  /-- A file is about to be written. -/
  | writing (bytes : Nat) (path : String)
  deriving DecidableEq, Repr

namespace Event

/-- The level of an event. -/
def level : Event → Level
  | added .. | superseded .. | dropped .. => .trace
  | excluding .. | lowering .. | malformedList .. | assembled ..
  | usingDescriptor .. | writing .. => .debug
  | descriptorLoaded .. | applyingProperties .. => .info
  | valueKept .. | invalidProperties .. => .warn

/-- How an application is named where there may be none. -/
def appName : Option Artifact → String
  | some app => app.display
  | none => "<no root artifact>"

/-- The text of an event. -/
def message : Event → String
  | added artifact => "Adding " ++ artifact.display
  | superseded new old => new.display ++ " supersedes " ++ old.display
  | dropped artifact => "Dropping " ++ artifact.display ++ " from the model"
  | excluding extension key =>
      "Extension " ++ extension ++ " is excluding " ++ key.display
  | lowering extension key =>
      "Extension " ++ extension ++ " is making " ++ key.display
        ++ " a lesser priority artifact"
  | malformedList extension property cause =>
      "Extension " ++ extension ++ " has an invalid " ++ property ++ ": "
        ++ cause.message
  | assembled app accepted total =>
      "Created dependency model for " ++ appName app ++ ": "
        ++ toString accepted ++ " of " ++ toString total
        ++ " dependencies accepted"
  | valueKept name kept ignored =>
      "Platform property " ++ name ++ " already set to '" ++ kept
        ++ "', ignoring '" ++ ignored ++ "'"
  | descriptorLoaded path dependencies =>
      "Loaded descriptor " ++ path ++ " (" ++ toString dependencies
        ++ " dependencies)"
  | applyingProperties path => "Applying extension properties from " ++ path
  | invalidProperties path cause =>
      "Invalid classification in " ++ path ++ ": " ++ cause.message
  | usingDescriptor path => "Using descriptor " ++ path
  | writing bytes path =>
      "Writing " ++ toString bytes ++ " bytes to " ++ path

end Event

/-- A value and the events on the way to it. -/
structure Traced (α : Type) where
  value : α
  events : List Event
  deriving DecidableEq

namespace Traced

instance : Monad Traced where
  pure a := ⟨a, []⟩
  bind t f := ⟨(f t.value).value, t.events ++ (f t.value).events⟩

/-- Applies a function to the value. -/
def map {α β : Type} (f : α → β) (t : Traced α) : Traced β := ⟨f t.value, t.events⟩

/-- Reports one event. -/
def emit (e : Event) : Traced Unit := ⟨(), [e]⟩

variable {α β : Type}

@[simp] theorem value_pure (a : α) : (pure a : Traced α).value = a := rfl

@[simp] theorem events_pure (a : α) : (pure a : Traced α).events = [] := rfl

@[simp] theorem value_bind (t : Traced α) (f : α → Traced β) :
    (t >>= f).value = (f t.value).value := rfl

@[simp] theorem events_bind (t : Traced α) (f : α → Traced β) :
    (t >>= f).events = t.events ++ (f t.value).events := rfl

@[simp] theorem value_map (f : α → β) (t : Traced α) :
    (t.map f).value = f t.value := rfl

/-- The value of a run of steps is a run of their values. -/
theorem value_foldlM (f : β → α → Traced β) (l : List α) (b : β) :
    (l.foldlM f b).value = l.foldl (fun b a => (f b a).value) b := by
  induction l generalizing b with
  | nil => rfl
  | cons a l ih =>
      rw [List.foldlM_cons, value_bind, ih]
      rfl

@[ext] theorem ext {s t : Traced α} (hv : s.value = t.value)
    (he : s.events = t.events) : s = t := by
  cases s
  cases t
  cases hv
  cases he
  rfl

/-- It makes no difference how steps are grouped: the events stand in the order
    in which they happen. -/
instance : LawfulMonad Traced :=
  .mk' Traced (fun t => ext rfl (List.append_nil t.events)) (fun _ _ => rfl)
    (fun t f g => ext rfl
      (List.append_assoc t.events (f t.value).events (g (f t.value).value).events))

end Traced

end Classpath
