/-! # Marks — how a class loader is to treat an artifact

    Every mark is carried by a set of coordinates.  An extension may set all
    of them in its properties except the one for the local project. -/

namespace Classpath

/-- A way in which artifacts are singled out. -/
inductive Mark where
  /-- Loaded by the parent class loader first. -/
  | parentFirst
  /-- Loaded by the parent class loader first when the application runs. -/
  | runnerParentFirst
  /-- Kept out of the model. -/
  | excluded
  /-- Consulted after all others. -/
  | lesserPriority
  /-- Built from the local project. -/
  | localProject
  deriving DecidableEq, Repr

namespace Mark

/-- All marks, in the order in which a descriptor lists them. -/
def all : List Mark :=
  [.parentFirst, .runnerParentFirst, .excluded, .lesserPriority, .localProject]

/-- The marks an extension may set, in the order in which they are applied. -/
def fromExtensions : List Mark :=
  [.parentFirst, .runnerParentFirst, .excluded, .lesserPriority]

/-- The marks that a model shows, in the order in which it shows them. -/
def shown : List Mark :=
  [.parentFirst, .runnerParentFirst, .lesserPriority, .localProject]

/-- The name of a mark. -/
def name : Mark → String
  | .parentFirst => "parent-first"
  | .runnerParentFirst => "runner-parent-first"
  | .excluded => "excluded"
  | .lesserPriority => "lesser-priority"
  | .localProject => "local-project"

/-- The property, or the field of a rendered model, that holds the
    coordinates with this mark. -/
def property (m : Mark) : String := m.name ++ "-artifacts"

/-- The mark with this name. -/
def ofName? (name : String) : Option Mark :=
  all.find? fun m => m.name = name

theorem mem_all (m : Mark) : m ∈ all := by cases m <;> decide

theorem ofName?_name (m : Mark) : ofName? m.name = some m := by
  cases m <;> decide

theorem name_injective {m m' : Mark} (h : m.name = m'.name) : m = m' := by
  have hsome : some m = some m' := by
    rw [← ofName?_name m, h, ofName?_name]
  exact Option.some.inj hsome

end Mark

/-- One value for each mark. -/
structure Marks (σ : Type) where
  parentFirst : σ
  runnerParentFirst : σ
  excluded : σ
  lesserPriority : σ
  localProject : σ
  deriving DecidableEq, Repr

namespace Marks

variable {σ : Type}

/-- The same value for every mark. -/
def const (s : σ) : Marks σ := ⟨s, s, s, s, s⟩

/-- The value for a mark. -/
def get (s : Marks σ) : Mark → σ
  | .parentFirst => s.parentFirst
  | .runnerParentFirst => s.runnerParentFirst
  | .excluded => s.excluded
  | .lesserPriority => s.lesserPriority
  | .localProject => s.localProject

/-- Changes the value for one mark. -/
def modify (s : Marks σ) (m : Mark) (f : σ → σ) : Marks σ :=
  match m with
  | .parentFirst => { s with parentFirst := f s.parentFirst }
  | .runnerParentFirst => { s with runnerParentFirst := f s.runnerParentFirst }
  | .excluded => { s with excluded := f s.excluded }
  | .lesserPriority => { s with lesserPriority := f s.lesserPriority }
  | .localProject => { s with localProject := f s.localProject }

@[simp] theorem get_const (s : σ) (m : Mark) : (const s).get m = s := by
  cases m <;> rfl

@[simp] theorem get_modify (s : Marks σ) (m m' : Mark) (f : σ → σ) :
    (s.modify m f).get m' = if m = m' then f (s.get m') else s.get m' := by
  cases m <;> cases m' <;> rfl

/-- Marks agree when they agree at each mark. -/
theorem ext_get {s t : Marks σ} (h : ∀ m, s.get m = t.get m) : s = t := by
  obtain ⟨a, b, c, d, e⟩ := s
  have h₁ := h .parentFirst
  have h₂ := h .runnerParentFirst
  have h₃ := h .excluded
  have h₄ := h .lesserPriority
  have h₅ := h .localProject
  simp only [get] at h₁ h₂ h₃ h₄ h₅
  rw [h₁, h₂, h₃, h₄, h₅]

end Marks

end Classpath
