import Classpath.Trace

/-! # Platforms — imported bills of material and their properties

    Additions to a platform keep what came first: a bill of material that is
    already present is not added again, and a property keeps its first value.
    Only a property that would change its value is worth a warning. -/

namespace Classpath

/-- The imported platform of an application. -/
structure Platform where
  boms : List Artifact := []
  properties : TextMap String := ∅
  deriving DecidableEq

namespace Platform

/-- One thing that can be added to a platform. -/
inductive Import where
  | bom (artifact : Artifact)
  | property (name value : String)
  deriving DecidableEq, Repr

/-- Adds a bill of material unless an equal one is there. -/
def addBom (p : Platform) (bom : Artifact) : Platform :=
  if bom ∈ p.boms then p else { p with boms := p.boms ++ [bom] }

/-- Gives a property its value unless it has one. -/
def addProperty (p : Platform) (name value : String) : Traced Platform :=
  match p.properties[name]? with
  | some kept =>
      if kept = value then pure p else ⟨p, [.valueKept name kept value]⟩
  | none => pure { p with properties := p.properties.insert name value }

/-- Adds one thing. -/
def add (p : Platform) : Import → Traced Platform
  | .bom artifact => pure (p.addBom artifact)
  | .property name value => p.addProperty name value

/-- Adds several things in order. -/
def addAll (p : Platform) (imports : List Import) : Traced Platform :=
  imports.foldlM add p

/-- Whether nothing was imported. -/
def isEmpty (p : Platform) : Bool :=
  p.boms.isEmpty && p.properties.isEmpty

end Platform

end Classpath
