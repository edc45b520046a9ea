import Classpath.Path
import Classpath.Proofs.Text.Apart
import Classpath.Proofs.Text.Joining

/-! # Paths upwards — from a place to the root

    The path of what contains a path is a proper beginning of it
    (`exists_of_parent?`).  So going upwards comes to an end, and as the first
    character stays, it ends where the path says it must: at the root if the
    path starts there, and at the empty path otherwise (`parent?_eq_none_iff`).
    `Upwards place places` says that `places` are all that one comes to on the
    way, and `ancestors` has room for them (`upwards_ancestors`).  A relative path
    within another one has the parts of both, one behind the other
    (`names_join`). -/

namespace Classpath.Path

open Text

/-- The parts of a path that say nothing, unless a relative path starts with
    the dot. -/
def IdlePart (part : List Char) : Prop := part = [] ∨ part = ['.']

/-- Nothing but slashes and dots that say nothing: the root. -/
def NamesRoot (path : String) : Prop :=
  (Parts.ofString path).rooted = true ∧ ∀ part ∈ (Parts.ofString path).parts, IdlePart part

/-! ## Parts that are left out -/

namespace Parts

variable {rooted : Bool} {parts before : List (List Char)} {part : List Char} {p q : Parts}

theorem isIdle_iff :
    isIdle rooted before part = true ↔
      part = [] ∨ (part = ['.'] ∧ (rooted = true ∨ before ≠ [])) := by
  simp [isIdle]

/-- Parts go away only from the end. -/
theorem exists_trimReversed (rooted : Bool) (parts : List (List Char)) :
    ∃ idle, parts = idle ++ trimReversed rooted parts := by
  induction parts with
  | nil => exact ⟨[], rfl⟩
  | cons part before ih =>
      rw [trimReversed]
      by_cases h : isIdle rooted before part = true
      · obtain ⟨idle, hidle⟩ := ih
        rw [if_pos h]
        exact ⟨part :: idle, congrArg (part :: ·) hidle⟩
      · rw [if_neg h]
        exact ⟨[], rfl⟩

/-- What is left ends in a part that says something. -/
theorem ne_nil_of_trimReversed (h : trimReversed rooted parts = part :: before) :
    part ≠ [] := by
  induction parts with
  | nil => exact nomatch h
  | cons first rest ih =>
      rw [trimReversed] at h
      by_cases hfirst : isIdle rooted rest first = true
      · rw [if_pos hfirst] at h
        exact ih h
      · rw [if_neg hfirst] at h
        obtain ⟨rfl, rfl⟩ := List.cons.inj h
        exact fun hnil => hfirst (isIdle_iff.mpr (.inl hnil))

/-- Nothing is left only of parts that say nothing. -/
theorem idle_of_trimReversed (h : trimReversed rooted parts = []) :
    ∀ part ∈ parts, IdlePart part := by
  induction parts with
  | nil =>
      intro part hpart
      exact nomatch hpart
  | cons first rest ih =>
      rw [trimReversed] at h
      by_cases hfirst : isIdle rooted rest first = true
      · rw [if_pos hfirst] at h
        intro part hpart
        rcases List.mem_cons.mp hpart with rfl | hpart
        · exact (isIdle_iff.mp hfirst).imp_right And.left
        · exact ih h part hpart
      · rw [if_neg hfirst] at h
        exact nomatch h

/-- From the root on, that is all it takes. -/
theorem trimReversed_of_idle (h : ∀ part ∈ parts, IdlePart part) :
    trimReversed true parts = [] := by
  induction parts with
  | nil => rfl
  | cons first rest ih =>
      have hfirst : isIdle true rest first = true :=
        isIdle_iff.mpr ((h first List.mem_cons_self).imp_right fun hdot => ⟨hdot, .inl rfl⟩)
      rw [trimReversed, if_pos hfirst]
      exact ih fun part hpart => h part (List.mem_cons_of_mem first hpart)

/-- A dot that starts a relative path is left. -/
theorem eq_nil_of_trimReversed (h : trimReversed false parts = []) :
    ∀ first ∈ parts.getLast?, first = [] := by
  induction parts with
  | nil =>
      intro first hfirst
      exact nomatch hfirst
  | cons part before ih =>
      rw [trimReversed] at h
      by_cases hpart : isIdle false before part = true
      · rw [if_pos hpart] at h
        by_cases hbefore : before = []
        · subst hbefore
          intro first hfirst
          obtain rfl : part = first := Option.some.inj hfirst
          exact (isIdle_iff.mp hpart).resolve_right fun hdot => hdot.2.elim nofun fun hne => hne rfl
        · rw [List.getLast?_cons_of_ne_nil hbefore]
          exact ih h
      · rw [if_neg hpart] at h
        exact nomatch h

/-! ## The containing path, part by part -/

/-- Only parts at the end of a path are left out. -/
theorem exists_trimmed (p : Parts) : ∃ idle, p.parts = p.trimmed.parts ++ idle := by
  obtain ⟨idle, hidle⟩ := exists_trimReversed p.rooted p.parts.reverse
  refine ⟨idle.reverse, ?_⟩
  show p.parts = (trimReversed p.rooted p.parts.reverse).reverse ++ idle.reverse
  rw [← List.reverse_append, ← hidle, List.reverse_reverse]

theorem parent?_eq_none : p.parent? = none ↔ p.trimmed.parts = [] := by
  rw [parent?]
  by_cases h : p.trimmed.parts = []
  · simp [h]
  · simp [h]

/-- What contains a path has lost a part that says something, and starts where
    the path does. -/
theorem exists_of_parent? (h : p.parent? = some q) :
    q.rooted = p.rooted ∧ ∃ xs part ys, p.parts = q.parts ++ xs ++ part :: ys ∧ part ≠ [] := by
  have hne : p.trimmed.parts ≠ [] := by
    intro hnil
    rw [parent?_eq_none.mpr hnil] at h
    exact nomatch h
  have hq : trimmed { p.trimmed with parts := p.trimmed.parts.dropLast } = q := by
    rw [parent?] at h
    simpa [hne] using h
  subst hq
  refine ⟨rfl, ?_⟩
  obtain ⟨xs, hxs⟩ := exists_trimmed { p.trimmed with parts := p.trimmed.parts.dropLast }
  obtain ⟨ys, hys⟩ := exists_trimmed p
  refine ⟨xs, p.trimmed.parts.getLast hne, ys, ?_, ?_⟩
  · rw [hys, ← hxs, ← List.singleton_append, ← List.append_assoc,
      List.dropLast_concat_getLast hne]
  · have hlast : trimReversed p.rooted p.parts.reverse =
        p.trimmed.parts.getLast hne :: p.trimmed.parts.dropLast.reverse := by
      rw [← List.reverse_concat, List.dropLast_concat_getLast hne]
      exact (List.reverse_reverse _).symm
    exact ne_nil_of_trimReversed hlast

/-! ## Paths as texts -/

theorem ofString_of_slash {path : String} {rest : List Char} (h : path.toList = '/' :: rest) :
    ofString path = { rooted := true, parts := pieces '/' rest } := by
  rw [ofString, h]
  rfl

theorem ofString_of_head?_ne {path : String} (h : path.toList.head? ≠ some '/') :
    ofString path = { rooted := false, parts := pieces '/' path.toList } := by
  rw [ofString]
  split
  · rename_i rest hslash
    rw [hslash] at h
    exact absurd rfl h
  · rfl

/-- A path starts at the root if a slash is its first character. -/
theorem rooted_ofString (path : String) :
    (ofString path).rooted = true ↔ path.toList.head? = some '/' := by
  by_cases hhead : path.toList.head? = some '/'
  · obtain ⟨rest, hrest⟩ := List.head?_eq_some_iff.mp hhead
    rw [ofString_of_slash hrest]
    exact iff_of_true rfl hhead
  · rw [ofString_of_head?_ne hhead]
    exact iff_of_false Bool.false_ne_true hhead

/-- Only the empty path is relative and starts with an empty part. -/
theorem eq_empty_of_head? {path : String} (hrooted : (ofString path).rooted = false)
    (hfirst : ∀ first ∈ (ofString path).parts.head?, first = []) : path = "" := by
  have hhead : path.toList.head? ≠ some '/' := by
    intro hhead
    rw [(rooted_ofString path).mpr hhead] at hrooted
    exact Bool.false_ne_true hrooted.symm
  rw [ofString_of_head?_ne hhead] at hfirst
  refine String.toList_eq_nil_iff.mp ?_
  cases htext : path.toList with
  | nil => rfl
  | cons c s =>
      -- A character that is no slash belongs to the first part.
      rw [htext] at hfirst hhead
      obtain ⟨part, parts, hpieces⟩ := List.exists_cons_of_ne_nil (pieces_ne_nil '/' s)
      rw [pieces, if_neg fun hc => hhead (congrArg some hc), hpieces] at hfirst
      exact absurd (hfirst (c :: part) rfl) (List.cons_ne_nil c part)

theorem toList_toString (p : Parts) :
    p.toString.toList = (if p.rooted = true then ['/'] else []) ++ ['/'].intercalate p.parts := by
  have hparts : (p.parts.map String.ofList).map String.toList = p.parts := by
    rw [List.map_map]
    exact (List.map_congr_left fun part _ => String.toList_ofList).trans (List.map_id _)
  rw [toString, String.toList_append, String.toList_intercalate, hparts]
  by_cases h : p.rooted = true
  · rw [if_pos h, if_pos h]
    rfl
  · rw [if_neg h, if_neg h]
    rfl

/-- The parts of a path make up the path. -/
theorem toString_ofString (path : String) : (ofString path).toString = path := by
  refine String.toList_injective ?_
  rw [toList_toString]
  by_cases hhead : path.toList.head? = some '/'
  · obtain ⟨rest, hrest⟩ := List.head?_eq_some_iff.mp hhead
    rw [ofString_of_slash hrest, if_pos rfl, intercalate_pieces, hrest]
    rfl
  · rw [ofString_of_head?_ne hhead, if_neg Bool.false_ne_true, intercalate_pieces]
    rfl

end Parts

/-! ## A path within another -/

/-- The parts of a path that are not empty. -/
def names (path : String) : List (List Char) :=
  (pieces '/' path.toList).filter fun part => !part.isEmpty

theorem names_append_slash {path dir : String} {rest : List Char}
    (h : path.toList = dir.toList ++ '/' :: rest) :
    names path = names dir ++ (pieces '/' rest).filter fun part => !part.isEmpty := by
  rw [names, names, h, pieces_append_cons, List.filter_append]

theorem exists_of_endsWith_slash {path : String} (h : path.endsWith "/" = true) :
    ∃ dir : String, path.toList = dir.toList ++ ['/'] := by
  have hsuffix : "/".toList <:+ path.toList := by
    simpa [← String.endsWith_toSlice] using h
  obtain ⟨dir, hdir⟩ := hsuffix
  refine ⟨String.ofList dir, ?_⟩
  rw [String.toList_ofList, ← hdir]
  rfl

/-- A relative path comes behind all parts of the path that it is within. -/
theorem names_join (path : String) {name : String} (hname : name.startsWith "/" = false) :
    names (join path name) = names path ++ names name := by
  by_cases hpath : path = ""
  · rw [hpath, join_empty]
    rfl
  · rw [join_of_relative hpath hname]
    cases hslash : path.endsWith "/" with
    | true =>
        obtain ⟨dir, hdir⟩ := exists_of_endsWith_slash hslash
        have htext : (path ++ name).toList = dir.toList ++ '/' :: name.toList := by
          rw [String.toList_append, hdir, List.append_assoc]
          rfl
        have hpath' : names path = names dir := by
          rw [names_append_slash hdir]
          exact List.append_nil _
        rw [if_pos rfl, names_append_slash htext, hpath']
        rfl
    | false =>
        have htext : (path ++ "/" ++ name).toList = path.toList ++ '/' :: name.toList := by
          rw [String.toList_append, String.toList_append, List.append_assoc]
          rfl
        rw [if_neg Bool.false_ne_true, names_append_slash htext]
        rfl

/-- It starts at the root if that path does. -/
theorem rooted_join {path name : String} (hpath : path ≠ "")
    (hname : name.startsWith "/" = false) :
    (Parts.ofString (join path name)).rooted = (Parts.ofString path).rooted := by
  have hne : path.toList ≠ [] := mt String.toList_eq_nil_iff.mp hpath
  rw [Bool.eq_iff_iff, Parts.rooted_ofString, Parts.rooted_ofString, join_of_relative hpath hname]
  cases path.endsWith "/" with
  | true => rw [if_pos rfl, String.toList_append, List.head?_append_of_ne_nil _ hne]
  | false =>
      rw [if_neg Bool.false_ne_true, String.toList_append, String.toList_append, List.append_assoc,
        List.head?_append_of_ne_nil _ hne]

/-! ## The containing path -/

variable {path outer : String}

/-- Parts of which one says something add at least one character. -/
theorem exists_intercalate_append (ps xs ys : List (List Char)) {part : List Char}
    (hpart : part ≠ []) :
    ∃ c rest, ['/'].intercalate (ps ++ xs ++ part :: ys) =
      ['/'].intercalate ps ++ c :: rest := by
  obtain ⟨c, rest, rfl⟩ := List.exists_cons_of_ne_nil hpart
  cases ps with
  | nil =>
      -- There is no slash before the first part, so the character is one of the parts.
      have hne : ['/'].intercalate (xs ++ (c :: rest) :: ys) ≠ [] :=
        List.ne_nil_of_mem (mem_intercalate_of_mem (p := c :: rest) List.mem_cons_self
          (List.mem_append_right xs List.mem_cons_self))
      obtain ⟨d, s, hs⟩ := List.exists_cons_of_ne_nil hne
      exact ⟨d, s, hs⟩
  | cons p ps =>
      have hne : (xs ++ (c :: rest) :: ys).flatMap (['/'] ++ ·) ≠ [] := by
        refine List.ne_nil_of_mem (a := c) (List.mem_flatMap.mpr ⟨c :: rest, ?_, ?_⟩)
        · exact List.mem_append_right xs List.mem_cons_self
        · exact List.mem_cons_of_mem _ List.mem_cons_self
      obtain ⟨d, s, hs⟩ := List.exists_cons_of_ne_nil hne
      refine ⟨d, s, ?_⟩
      rw [List.cons_append, List.cons_append, intercalate_cons, intercalate_cons,
        List.append_assoc ps, List.flatMap_append, hs, List.append_assoc]

/-- What contains a path is a proper beginning of it. -/
theorem exists_of_parent? (h : parent? path = some outer) :
    ∃ c rest, path.toList = outer.toList ++ c :: rest := by
  obtain ⟨q, hq, rfl⟩ := Option.map_eq_some_iff.mp h
  obtain ⟨hrooted, xs, part, ys, hparts, hpart⟩ := Parts.exists_of_parent? hq
  obtain ⟨c, rest, htext⟩ := exists_intercalate_append q.parts xs ys hpart
  refine ⟨c, rest, ?_⟩
  rw [← Parts.toString_ofString path, Parts.toList_toString, Parts.toList_toString, hparts,
    htext, hrooted, List.append_assoc]

theorem length_lt_of_parent? (h : parent? path = some outer) : outer.length < path.length := by
  obtain ⟨c, rest, htext⟩ := exists_of_parent? h
  rw [← String.length_toList, ← String.length_toList, htext, List.length_append,
    List.length_cons]
  omega

/-- It starts where the path does. -/
theorem head?_of_parent? (h : parent? path = some outer) :
    outer.toList.head? = some '/' ↔ path.toList.head? = some '/' := by
  obtain ⟨c, rest, htext⟩ := exists_of_parent? h
  constructor
  · intro houter
    rw [htext, List.head?_append, houter]
    rfl
  · intro hpath
    obtain ⟨q, hq, rfl⟩ := Option.map_eq_some_iff.mp h
    have hrooted : q.rooted = true := by
      rw [(Parts.exists_of_parent? hq).1]
      exact (Parts.rooted_ofString path).mpr hpath
    rw [Parts.toList_toString, if_pos hrooted]
    rfl

/-- Nothing contains the root and the empty path, and everything else is
    contained in something. -/
theorem parent?_eq_none_iff : parent? path = none ↔ path = "" ∨ NamesRoot path := by
  rw [parent?, Option.map_eq_none_iff, Parts.parent?_eq_none]
  show (Parts.trimReversed _ _).reverse = [] ↔ _
  rw [List.reverse_eq_nil_iff]
  constructor
  · intro h
    cases hrooted : (Parts.ofString path).rooted with
    | true =>
        refine .inr ⟨hrooted, fun part hpart => ?_⟩
        exact Parts.idle_of_trimReversed h part (List.mem_reverse.mpr hpart)
    | false =>
        rw [hrooted] at h
        have hfirst := Parts.eq_nil_of_trimReversed h
        rw [List.getLast?_reverse] at hfirst
        exact .inl (Parts.eq_empty_of_head? hrooted hfirst)
  · rintro (rfl | ⟨hrooted, hidle⟩)
    · rfl
    · rw [hrooted]
      exact Parts.trimReversed_of_idle fun part hpart => hidle part (List.mem_reverse.mp hpart)

/-! ## The way up -/

/-- `Upwards place places`: from `place` on, each of the `places` is contained
    in the next one, and nothing contains the last one. -/
inductive Upwards : String → List String → Prop
  | top {place : String} (h : parent? place = none) : Upwards place [place]
  | up {place outer : String} {places : List String} (h : parent? place = some outer)
      (hup : Upwards outer places) : Upwards place (place :: places)

/-- There is room for all that contains a path, because each is shorter than
    the one before. -/
theorem upwards_ancestors {room : Nat} (h : path.length < room) :
    Upwards path (path :: ancestors room path) := by
  induction room generalizing path with
  | zero => exact absurd h (Nat.not_lt_zero _)
  | succ room ih =>
      rw [ancestors]
      cases hparent : parent? path with
      | none => exact .top hparent
      | some outer =>
          have hshorter := length_lt_of_parent? hparent
          exact .up hparent (ih (by omega))

namespace Upwards

variable {place : String} {places : List String}

/-- All the way up, paths start at the root or none does. -/
theorem head?_eq (h : Upwards place places) :
    ∀ other ∈ places, other.toList.head? = some '/' ↔ place.toList.head? = some '/' := by
  induction h with
  | top =>
      intro other hother
      rw [List.mem_singleton.mp hother]
  | up hparent _ ih =>
      intro other hother
      rcases List.mem_cons.mp hother with rfl | hother
      · exact Iff.rfl
      · exact (ih other hother).trans (head?_of_parent? hparent)

/-- The way ends at the root, or at the empty path if it did not start from the
    root. -/
theorem exists_top (h : Upwards place places) :
    ∃ top, places.getLast? = some top ∧
      if place.toList.head? = some '/' then NamesRoot top else top = "" := by
  have hend : ∃ top, places.getLast? = some top ∧ parent? top = none := by
    induction h with
    | top hnone => exact ⟨_, rfl, hnone⟩
    | up hparent hup ih =>
        obtain ⟨top, htop, hnone⟩ := ih
        refine ⟨top, ?_, hnone⟩
        rw [List.getLast?_cons, htop]
        rfl
  obtain ⟨top, htop, hnone⟩ := hend
  have hstart := h.head?_eq top (List.mem_of_getLast? htop)
  refine ⟨top, htop, ?_⟩
  rw [parent?_eq_none_iff] at hnone
  by_cases hplace : place.toList.head? = some '/'
  · rw [if_pos hplace]
    refine hnone.resolve_left fun hempty => ?_
    rw [hempty] at hstart
    exact nomatch hstart.mpr hplace
  · rw [if_neg hplace]
    refine hnone.resolve_right fun hroot => hplace ?_
    exact hstart.mp ((Parts.rooted_ofString top).mp hroot.1)

end Upwards

end Classpath.Path
