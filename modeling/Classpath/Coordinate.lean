import Std.Data.ExtTreeSet
import Std.Data.ExtTreeMap
import Classpath.Text.Lines

/-! # Coordinates — the identity of an artifact apart from its version

    A coordinate is written `group:artifact[:classifier[:type]]`.  `parse`
    reads that form, `display` always writes all four fields, and the order
    of coordinates is that of their fields, one after the other. -/

namespace Classpath

open Text

/-- The type of an artifact that names none. -/
def defaultType : String := "jar"

/-- A blank type is the default type. -/
def normalizeType (type : String) : String :=
  if type.toList.all isBlank then defaultType else type

/-- The identity of an artifact, whatever its version. -/
structure Coordinate where
  group : String
  artifact : String
  classifier : String := ""
  type : String := defaultType
  deriving DecidableEq, Hashable, Repr

/-- A text that is no coordinate, and the number of its segments. -/
structure MalformedCoordinate where
  text : String
  segments : Nat
  deriving DecidableEq, Repr

/-- What is said of a text that is no coordinate. -/
def MalformedCoordinate.message (e : MalformedCoordinate) : String :=
  "Malformed artifact coordinate '" ++ e.text ++ "' (" ++ toString e.segments
    ++ " segment(s))"

namespace Coordinate

/-- The same coordinate with another classifier. -/
def withClassifier (k : Coordinate) (classifier : String) : Coordinate :=
  { k with classifier := classifier }

/-- The same coordinate with another type, a blank one meaning the default. -/
def withType (k : Coordinate) (type : String) : Coordinate :=
  { k with type := normalizeType type }

/-- All four fields, separated by colons. -/
def display (k : Coordinate) : String :=
  k.group ++ ":" ++ k.artifact ++ ":" ++ k.classifier ++ ":" ++ k.type

instance : ToString Coordinate := ⟨display⟩

/-- The coordinate with these segments: two, three or four, of which the
    first two are not empty.  An empty type is the default one. -/
def ofSegments? : List String → Option Coordinate
  | g :: a :: rest =>
      if g = "" ∨ a = "" then none
      else match rest with
        | [] => some { group := g, artifact := a }
        | [c] => some { group := g, artifact := a, classifier := c }
        | [c, t] =>
            some { group := g, artifact := a, classifier := c,
                   type := if t = "" then defaultType else t }
        | _ => none
  | _ => none

/-- Reads a coordinate; blank characters around the text do not count. -/
def parse (s : String) : Except MalformedCoordinate Coordinate :=
  let text := trim s.toList
  let segments := (pieces ':' text).map String.ofList
  match ofSegments? segments with
  | some k => .ok k
  | none => .error ⟨String.ofList text, segments.length⟩

/-- Reads coordinates separated by commas.  Blank entries are passed over;
    the first malformed one is the fault of the whole list. -/
def parseList (s : String) : Except MalformedCoordinate (List Coordinate) :=
  (((pieces ',' s.toList).filter fun entry => !entry.all isBlank).map
    String.ofList).mapM parse

/-! ## Order -/

/-- Coordinates are compared field by field. -/
instance : Ord Coordinate where
  compare := compareLex (compareOn group) (compareLex (compareOn artifact)
    (compareLex (compareOn classifier) (compareOn type)))

instance : Std.TransOrd Coordinate :=
  inferInstanceAs (Std.TransCmp (compareLex _ _))

instance : Std.LawfulEqOrd Coordinate where
  eq_of_compare {a b} h := by
    obtain ⟨g, n, c, t⟩ := a
    obtain ⟨g', n', c', t'⟩ := b
    simp only [compare, compareLex, Ordering.then_eq_eq] at h
    obtain ⟨hg, hn, hc, ht⟩ := h
    rw [show g = g' from Std.LawfulEqOrd.eq_of_compare hg,
      show n = n' from Std.LawfulEqOrd.eq_of_compare hn,
      show c = c' from Std.LawfulEqOrd.eq_of_compare hc,
      show t = t' from Std.LawfulEqOrd.eq_of_compare ht]

end Coordinate

/-- A set of coordinates; equal sets are equal as values. -/
abbrev CoordinateSet := Std.ExtTreeSet Coordinate compare

/-- A map from texts, in the order of their characters; equal maps are
    equal as values. -/
abbrev TextMap (α : Type) := Std.ExtTreeMap String α compare

end Classpath
