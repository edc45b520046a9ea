/-! # Cutting and trimming — pieces, lines and the blanks around them

    `pieces` cuts at every occurrence of a separator and always yields one
    piece more than there are separators.  `lines` cuts after every line
    feed, so a text that ends in one has no empty last line.

    A character is blank when Unicode gives it the property White_Space.
    `trim` removes blank characters at both ends and nothing else; a byte
    order mark and a zero-width space are not blank and stay. -/

namespace Classpath.Text

/-! ## Blanks -/

/-- The characters with the Unicode property White_Space. -/
def isBlank (c : Char) : Bool :=
  let n := c.toNat
  (9 ≤ n && n ≤ 13) || n == 32 || n == 0x85 || n == 0xA0 || n == 0x1680
    || (0x2000 ≤ n && n ≤ 0x200A) || n == 0x2028 || n == 0x2029
    || n == 0x202F || n == 0x205F || n == 0x3000

/-- The text without its leading blank characters. -/
def trimStart (s : List Char) : List Char :=
  s.dropWhile isBlank

/-- The text without its trailing blank characters. -/
def trimEnd (s : List Char) : List Char :=
  (s.reverse.dropWhile isBlank).reverse

/-- The text without the blank characters at its ends. -/
def trim (s : List Char) : List Char :=
  trimEnd (trimStart s)

@[simp] theorem trimStart_nil : trimStart [] = [] := rfl

@[simp] theorem trimEnd_nil : trimEnd [] = [] := rfl

@[simp] theorem trim_nil : trim [] = [] := rfl

theorem trimStart_cons (c : Char) (s : List Char) :
    trimStart (c :: s) = if isBlank c then trimStart s else c :: s := by
  cases h : isBlank c <;> simp [trimStart, h]

/-! ## Pieces and lines -/

/-- Puts a character in front of the first of several pieces. -/
def glue (c : Char) : List (List Char) → List (List Char)
  | [] => [[c]]
  | p :: ps => (c :: p) :: ps

/-- The pieces of a text between the occurrences of a separator. -/
def pieces (sep : Char) : List Char → List (List Char)
  | [] => [[]]
  | c :: s => if c = sep then [] :: pieces sep s else glue c (pieces sep s)

/-- The lines of a text, without their line feeds. -/
def lines : List Char → List (List Char)
  | [] => []
  | c :: s => if c = '\n' then [] :: lines s else glue c (lines s)

@[simp] theorem length_glue_succ (c : Char) (p : List Char) (ps : List (List Char)) :
    (glue c (p :: ps)).length = ps.length + 1 := rfl

theorem pieces_ne_nil (sep : Char) (s : List Char) : pieces sep s ≠ [] := by
  induction s with
  | nil => simp [pieces]
  | cons c s ih =>
      unfold pieces
      split
      · simp
      · cases h : pieces sep s <;> simp [glue]

/-- There is one piece more than there are separators. -/
theorem length_pieces (sep : Char) (s : List Char) :
    (pieces sep s).length = s.count sep + 1 := by
  induction s with
  | nil => simp [pieces]
  | cons c s ih =>
      unfold pieces
      by_cases h : c = sep
      · simp [h, ih]
      · rw [if_neg h]
        cases hp : pieces sep s with
        | nil => exact absurd hp (pieces_ne_nil sep s)
        | cons p ps =>
            rw [hp] at ih
            simp only [List.length_cons] at ih
            simp only [length_glue_succ, List.count_cons]
            simp [h, ih]

/-- A text without the separator is one piece. -/
theorem pieces_of_not_mem {sep : Char} {s : List Char} (h : sep ∉ s) :
    pieces sep s = [s] := by
  induction s with
  | nil => rfl
  | cons c s ih =>
      simp only [List.mem_cons, not_or] at h
      rw [pieces, if_neg (Ne.symm h.1), ih h.2]
      rfl

/-- A separator divides the pieces of what stands before it from those of
    what stands after it. -/
theorem pieces_append_cons (sep : Char) (s t : List Char) :
    pieces sep (s ++ sep :: t) = pieces sep s ++ pieces sep t := by
  induction s with
  | nil => simp [pieces]
  | cons c s ih =>
      by_cases h : c = sep
      · simp [pieces, h, ih]
      · simp only [List.cons_append, pieces, if_neg h, ih]
        cases hp : pieces sep s with
        | nil => exact absurd hp (pieces_ne_nil sep s)
        | cons p ps => rfl

end Classpath.Text
