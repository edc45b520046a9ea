import Classpath.Text.Lines

/-! # Paths — names of files, part by part

    A path is a text.  It is cut at its slashes into parts, of which the
    empty ones and those that are a single dot say nothing; only a dot that
    starts a relative path is a part of it.  No function here looks at any
    file. -/

namespace Classpath.Path

open Text

/-- A path cut into its parts. -/
structure Parts where
  /-- Whether the path starts at the root. -/
  rooted : Bool
  parts : List (List Char)
  deriving DecidableEq, Repr

namespace Parts

/-- Whether the part after these others says nothing. -/
def isIdle (rooted : Bool) (before : List (List Char)) (part : List Char) : Bool :=
  part.isEmpty || (part == ['.'] && (rooted || !before.isEmpty))

/-- Without the last parts as long as they say nothing; the parts are given
    in reverse. -/
def trimReversed (rooted : Bool) : List (List Char) → List (List Char)
  | [] => []
  | part :: before =>
      if isIdle rooted before part then trimReversed rooted before
      else part :: before

/-- Without the last parts as long as they say nothing. -/
def trimmed (p : Parts) : Parts :=
  { p with parts := (trimReversed p.rooted p.parts.reverse).reverse }

/-- Cuts a path. -/
def ofString (path : String) : Parts :=
  match path.toList with
  | '/' :: rest => ⟨true, pieces '/' rest⟩
  | s => ⟨false, pieces '/' s⟩

/-- Puts a path together. -/
def toString (p : Parts) : String :=
  (if p.rooted then "/" else "") ++ "/".intercalate (p.parts.map String.ofList)

/-- The path of what contains this one; the root and the empty path are
    contained in nothing. -/
def parent? (p : Parts) : Option Parts :=
  let p := p.trimmed
  if p.parts.isEmpty then none
  else some (trimmed { p with parts := p.parts.dropLast })

/-- The last part, if it is the name of something. -/
def fileName? (p : Parts) : Option (List Char) :=
  match p.trimmed.parts.getLast? with
  | some name => if name = ['.'] ∨ name = ['.', '.'] then none else some name
  | none => none

end Parts

/-- A path within another one; a path from the root is within none. -/
def join (path name : String) : String :=
  if name.startsWith "/" ∨ path = "" then name
  else if path.endsWith "/" then path ++ name
  else path ++ "/" ++ name

/-- A path from the root stays as it is. -/
theorem join_of_rooted (path : String) {name : String} (h : name.startsWith "/" = true) :
    join path name = name :=
  if_pos (.inl h)

/-- So does a path within the empty one. -/
theorem join_empty (name : String) : join "" name = name :=
  if_pos (.inr rfl)

/-- Any other path stands behind the one it is within and behind a slash. -/
theorem join_of_relative {path name : String} (hpath : path ≠ "")
    (hname : name.startsWith "/" = false) :
    join path name = (if path.endsWith "/" then path else path ++ "/") ++ name := by
  have hne : ¬ (name.startsWith "/" = true ∨ path = "") := by
    rw [hname, not_or]
    exact ⟨Bool.false_ne_true, hpath⟩
  rw [join, if_neg hne]
  cases path.endsWith "/" with
  | true => rfl
  | false => rfl

/-- The path of what contains a path. -/
def parent? (path : String) : Option String :=
  (Parts.ofString path).parent?.map Parts.toString

/-- The paths that contain a path, from the inside out; `room` bounds their
    number. -/
def ancestors (room : Nat) (path : String) : List String :=
  match room with
  | 0 => []
  | room + 1 => match parent? path with
    | some outer => outer :: ancestors room outer
    | none => []

/-- Where to look for a file, upwards from a place: the place itself, then
    all that contains it. -/
def candidates (start name : String) : List String :=
  (start :: ancestors (start.length + 1) start).map fun place => join place name

/-- A name without what follows its last dot, if there is a dot that does
    not start it. -/
def stem (name : List Char) : List Char :=
  let before := (name.reverse.dropWhile (· ≠ '.')).drop 1
  if before.isEmpty then name else before.reverse

/-- The name of an extension, taken from the path of its properties file. -/
def extensionName (path : String) : String :=
  match (Parts.ofString path).fileName? with
  | some name => String.ofList (stem name)
  | none => path

end Classpath.Path
