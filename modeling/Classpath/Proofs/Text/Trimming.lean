import Mathlib.Data.List.Basic
import Mathlib.Data.List.Induction
import Classpath.Text.Lines

/-! # Trimming — what a trimmed line keeps

    Trimming takes blank characters away until it meets a solid one.  So
    what is solid at its ends passes through it unharmed, whatever stands
    around it (`trimStart_append`, `trimEnd_append`, `trim_append`), and what
    is blank does not count (`trimStart_blank_append`, `trimEnd_append_blank`).
    For the lines of a text there is one equation, `lines_append`: a line feed
    ends a line, and nothing after it reaches back over it. -/

namespace Classpath.Text

/-- No blank character at the beginning. -/
def StartsSolid (s : List Char) : Prop :=
  ∀ c ∈ s.head?, isBlank c = false

/-- No blank character at the end. -/
def EndsSolid (s : List Char) : Prop :=
  ∀ c ∈ s.getLast?, isBlank c = false

instance (s : List Char) : Decidable (StartsSolid s) :=
  Option.decidableForallMem s.head?

instance (s : List Char) : Decidable (EndsSolid s) :=
  Option.decidableForallMem s.getLast?

/-- Nothing but blank characters. -/
def AllBlank (s : List Char) : Prop :=
  ∀ c ∈ s, isBlank c = true

theorem allBlank_iff {s : List Char} : AllBlank s ↔ s.all isBlank = true :=
  List.all_eq_true.symm

theorem startsSolid_nil : StartsSolid [] := by
  intro c hc
  exact nomatch hc

theorem endsSolid_nil : EndsSolid [] := by
  intro c hc
  exact nomatch hc

theorem startsSolid_cons {c : Char} (hc : isBlank c = false) (s : List Char) :
    StartsSolid (c :: s) := by
  intro d hd
  obtain rfl : c = d := Option.some.inj hd
  exact hc

theorem endsSolid_concat {c : Char} (hc : isBlank c = false) (s : List Char) :
    EndsSolid (s ++ [c]) := by
  intro d hd
  rw [List.getLast?_concat] at hd
  obtain rfl : c = d := Option.some.inj hd
  exact hc

theorem allBlank_nil : AllBlank [] := by
  intro c hc
  exact nomatch hc

theorem AllBlank.append {s t : List Char} (hs : AllBlank s) (ht : AllBlank t) :
    AllBlank (s ++ t) := by
  intro c hc
  rcases List.mem_append.mp hc with h | h
  · exact hs c h
  · exact ht c h

/-! ## The beginning -/

theorem trimStart_of_startsSolid {s : List Char} (h : StartsSolid s) :
    trimStart s = s := by
  cases s with
  | nil => rfl
  | cons c s =>
      have hc : isBlank c = false := h c rfl
      rw [trimStart_cons, if_neg (by rw [hc]; exact Bool.false_ne_true)]

theorem trimStart_blank_append {w : List Char} (hw : AllBlank w) (s : List Char) :
    trimStart (w ++ s) = trimStart s := by
  induction w with
  | nil => rfl
  | cons c w ih =>
      have hc : isBlank c = true := hw c List.mem_cons_self
      rw [List.cons_append, trimStart_cons, if_pos hc]
      exact ih fun d hd => hw d (List.mem_cons_of_mem c hd)

theorem trimStart_of_allBlank {w : List Char} (hw : AllBlank w) :
    trimStart w = [] := by
  have h := trimStart_blank_append hw []
  rw [List.append_nil] at h
  exact h

/-- Trimming does not reach a solid beginning. -/
theorem trimStart_append (s : List Char) {t : List Char} (ht : StartsSolid t) :
    trimStart (s ++ t) = trimStart s ++ t := by
  induction s with
  | nil => exact trimStart_of_startsSolid ht
  | cons c s ih =>
      rw [List.cons_append, trimStart_cons, trimStart_cons]
      by_cases hc : isBlank c = true
      · rw [if_pos hc, if_pos hc]
        exact ih
      · rw [if_neg hc, if_neg hc]
        rfl

/-- Nor does it go on after the first solid character. -/
theorem trimStart_append_of_ne_nil {s : List Char} (hs : trimStart s ≠ [])
    (t : List Char) : trimStart (s ++ t) = trimStart s ++ t := by
  induction s with
  | nil => exact absurd rfl hs
  | cons c s ih =>
      rw [trimStart_cons] at hs
      rw [List.cons_append, trimStart_cons, trimStart_cons]
      by_cases hc : isBlank c = true
      · rw [if_pos hc] at hs
        rw [if_pos hc, if_pos hc]
        exact ih hs
      · rw [if_neg hc, if_neg hc]
        rfl

theorem startsSolid_append {s : List Char} (hne : s ≠ []) (hs : StartsSolid s)
    (t : List Char) : StartsSolid (s ++ t) := by
  intro c hc
  rw [List.head?_append_of_ne_nil s hne] at hc
  exact hs c hc

/-! ## The end -/

theorem trimEnd_eq (s : List Char) : trimEnd s = (trimStart s.reverse).reverse := rfl

theorem startsSolid_reverse {s : List Char} (h : EndsSolid s) :
    StartsSolid s.reverse := by
  intro c hc
  rw [List.head?_reverse] at hc
  exact h c hc

theorem allBlank_reverse {s : List Char} (h : AllBlank s) : AllBlank s.reverse :=
  fun c hc => h c (List.mem_reverse.mp hc)

theorem trimEnd_of_endsSolid {s : List Char} (h : EndsSolid s) : trimEnd s = s := by
  rw [trimEnd_eq, trimStart_of_startsSolid (startsSolid_reverse h), List.reverse_reverse]

theorem trimEnd_append_blank (s : List Char) {w : List Char} (hw : AllBlank w) :
    trimEnd (s ++ w) = trimEnd s := by
  rw [trimEnd_eq, trimEnd_eq, List.reverse_append,
    trimStart_blank_append (allBlank_reverse hw)]

/-- A solid character stays, and so does all that stands before it. -/
theorem trimEnd_cons {c : Char} (hc : isBlank c = false) (s : List Char) :
    trimEnd (c :: s) = c :: trimEnd s := by
  rw [trimEnd_eq, List.reverse_cons, trimStart_append _ (startsSolid_cons hc []),
    List.reverse_append]
  rfl

theorem endsSolid_append (s : List Char) {t : List Char} (hne : t ≠ [])
    (ht : EndsSolid t) : EndsSolid (s ++ t) := by
  intro c hc
  rw [List.getLast?_append_of_ne_nil s hne] at hc
  exact ht c hc

theorem length_trimEnd_le (s : List Char) : (trimEnd s).length ≤ s.length := by
  have h : (trimStart s.reverse).length ≤ s.reverse.length :=
    (List.dropWhile_sublist isBlank).length_le
  rw [trimEnd_eq, List.length_reverse]
  rw [List.length_reverse] at h
  exact h

/-! ## Both ends -/

/-- A solid end passes through. -/
theorem trim_append (s : List Char) {t : List Char} (hne : t ≠ [])
    (hstart : StartsSolid t) (hend : EndsSolid t) :
    trim (s ++ t) = trimStart s ++ t := by
  rw [trim, trimStart_append s hstart]
  exact trimEnd_of_endsSolid (endsSolid_append _ hne hend)

/-- What is solid at both ends is all that is left between blanks. -/
theorem trim_between {w s w' : List Char} (hw : AllBlank w) (hw' : AllBlank w')
    (hstart : StartsSolid s) (hend : EndsSolid s) : trim (w ++ s ++ w') = s := by
  by_cases hne : s = []
  · subst hne
    have hall : AllBlank (w ++ [] ++ w') := by
      rw [List.append_nil]
      exact hw.append hw'
    rw [trim, trimStart_of_allBlank hall, trimEnd_nil]
  · have hsolid : trimStart s ≠ [] := by
      rw [trimStart_of_startsSolid hstart]
      exact hne
    rw [trim, List.append_assoc, trimStart_blank_append hw,
      trimStart_append_of_ne_nil hsolid, trimStart_of_startsSolid hstart,
      trimEnd_append_blank s hw', trimEnd_of_endsSolid hend]

theorem trim_of_solid {s : List Char} (hstart : StartsSolid s) (hend : EndsSolid s) :
    trim s = s := by
  rw [trim, trimStart_of_startsSolid hstart, trimEnd_of_endsSolid hend]

/-! ## What trimming leaves -/

/-- A beginning of a text begins as the text does. -/
theorem StartsSolid.of_append {s t : List Char} (h : StartsSolid (s ++ t)) :
    StartsSolid s := by
  cases s with
  | nil => exact startsSolid_nil
  | cons c s => exact h

/-- An end of a text ends as the text does. -/
theorem EndsSolid.of_append {s t : List Char} (h : EndsSolid (s ++ t)) :
    EndsSolid t := by
  by_cases ht : t = []
  · rw [ht]
    exact endsSolid_nil
  · intro c hc
    refine h c ?_
    rw [List.getLast?_append_of_ne_nil s ht]
    exact hc

/-- What is taken away at the beginning is blank, and what is left is not. -/
theorem exists_trimStart (s : List Char) :
    ∃ w, AllBlank w ∧ s = w ++ trimStart s ∧ StartsSolid (trimStart s) := by
  induction s with
  | nil => exact ⟨[], allBlank_nil, rfl, startsSolid_nil⟩
  | cons c s ih =>
      rw [trimStart_cons]
      by_cases hc : isBlank c = true
      · obtain ⟨w, hw, hs, hsolid⟩ := ih
        rw [if_pos hc]
        refine ⟨c :: w, ?_, congrArg (c :: ·) hs, hsolid⟩
        intro d hd
        rcases List.mem_cons.mp hd with rfl | hd
        · exact hc
        · exact hw d hd
      · rw [if_neg hc]
        exact ⟨[], allBlank_nil, rfl, startsSolid_cons (Bool.eq_false_iff.mpr hc) s⟩

/-- So it is at the end. -/
theorem exists_trimEnd (s : List Char) :
    ∃ w, AllBlank w ∧ s = trimEnd s ++ w ∧ EndsSolid (trimEnd s) := by
  obtain ⟨w, hw, hs, hsolid⟩ := exists_trimStart s.reverse
  refine ⟨w.reverse, allBlank_reverse hw, ?_, ?_⟩
  · rw [trimEnd_eq, ← List.reverse_append, ← hs, List.reverse_reverse]
  · intro c hc
    rw [trimEnd_eq, List.getLast?_reverse] at hc
    exact hsolid c hc

/-- A trimmed text is solid at both ends, and only blanks are missing. -/
theorem exists_trim (s : List Char) :
    ∃ w w', AllBlank w ∧ AllBlank w' ∧ s = w ++ trim s ++ w'
      ∧ StartsSolid (trim s) ∧ EndsSolid (trim s) := by
  obtain ⟨w, hw, hs, hstart⟩ := exists_trimStart s
  obtain ⟨w', hw', hs', hend⟩ := exists_trimEnd (trimStart s)
  refine ⟨w, w', hw, hw', ?_, ?_, hend⟩
  · rw [List.append_assoc, trim, ← hs', ← hs]
  · rw [hs'] at hstart
    exact hstart.of_append

/-- What is not blank keeps all that stands before it. -/
theorem trimEnd_append (s : List Char) {t : List Char} (ht : trimEnd t ≠ []) :
    trimEnd (s ++ t) = s ++ trimEnd t := by
  obtain ⟨w, hw, hs, hend⟩ := exists_trimEnd t
  conv_lhs => rw [hs, ← List.append_assoc, trimEnd_append_blank _ hw]
  exact trimEnd_of_endsSolid (endsSolid_append s ht hend)

theorem trimEnd_ne_nil {s : List Char} (hne : s ≠ []) (hstart : StartsSolid s) :
    trimEnd s ≠ [] := by
  obtain ⟨c, s, rfl⟩ := List.exists_cons_of_ne_nil hne
  rw [trimEnd_cons (hstart c rfl)]
  exact List.cons_ne_nil _ _

/-- Only the beginning of a text is trimmed that ends with a solid character. -/
theorem trim_of_endsSolid {s : List Char} (h : EndsSolid s) : trim s = trimStart s := by
  obtain ⟨w, -, hs, -⟩ := exists_trimStart s
  rw [hs] at h
  rw [trim, trimEnd_of_endsSolid h.of_append]

/-- A text that ends with a solid character is not blank. -/
theorem trimStart_ne_nil {s : List Char} (hne : s ≠ []) (hend : EndsSolid s) :
    trimStart s ≠ [] := by
  intro hnil
  obtain ⟨w, hw, hs, -⟩ := exists_trimStart s
  rw [hnil, List.append_nil] at hs
  have hlast := List.getLast?_eq_some_getLast hne
  have hsolid := hend _ hlast
  rw [hw _ (hs ▸ List.getLast_mem hne)] at hsolid
  exact nomatch hsolid

theorem startsSolid_trim (s : List Char) : StartsSolid (trim s) := by
  obtain ⟨_, _, _, _, _, hstart, _⟩ := exists_trim s
  exact hstart

theorem endsSolid_trim (s : List Char) : EndsSolid (trim s) := by
  obtain ⟨_, _, _, _, _, _, hend⟩ := exists_trim s
  exact hend

theorem mem_of_mem_trim {c : Char} {s : List Char} (h : c ∈ trim s) : c ∈ s := by
  obtain ⟨w, w', -, -, hs, -, -⟩ := exists_trim s
  rw [hs]
  exact List.mem_append_left w' (List.mem_append_right w h)

@[simp] theorem trim_trim (s : List Char) : trim (trim s) = trim s :=
  trim_of_solid (startsSolid_trim s) (endsSolid_trim s)

/-- Blanks before a text do not count. -/
theorem trim_blank_append {w : List Char} (hw : AllBlank w) (s : List Char) :
    trim (w ++ s) = trim s := by
  rw [trim, trimStart_blank_append hw, trim]

@[simp] theorem trim_trimStart (s : List Char) : trim (trimStart s) = trim s := by
  obtain ⟨w, hw, hs, -⟩ := exists_trimStart s
  conv_rhs => rw [hs, trim_blank_append hw]

/-- Nor do those after it. -/
theorem trim_append_blank (s : List Char) {w : List Char} (hw : AllBlank w) :
    trim (s ++ w) = trim s := by
  obtain ⟨u, u', hu, hu', hs, hstart, hend⟩ := exists_trim s
  have hsw : s ++ w = u ++ trim s ++ (u' ++ w) := by
    rw [← List.append_assoc, ← hs]
  rw [hsw, trim_between hu (hu'.append hw) hstart hend]

/-- Nothing is left of a text exactly if it is blank. -/
theorem trim_eq_nil_iff {s : List Char} : trim s = [] ↔ s.all isBlank = true := by
  rw [List.all_eq_true]
  constructor
  · intro h
    obtain ⟨w, w', hw, hw', hs, -, -⟩ := exists_trim s
    rw [h, List.append_nil] at hs
    rw [hs]
    exact hw.append hw'
  · intro h
    rw [trim, trimStart_of_allBlank h, trimEnd_nil]

/-! ## Lines -/

/-- What stands before the first line feed is the first line. -/
theorem lines_cons {l : List Char} (hl : '\n' ∉ l) (s : List Char) :
    lines (l ++ '\n' :: s) = l :: lines s := by
  induction l with
  | nil => rfl
  | cons c l ih =>
      rw [List.mem_cons, not_or] at hl
      rw [List.cons_append, lines, if_neg (Ne.symm hl.1), ih hl.2]
      rfl

theorem glue_ne_nil (c : Char) (ps : List (List Char)) : glue c ps ≠ [] := by
  cases ps with
  | nil => exact List.cons_ne_nil _ _
  | cons p ps => exact List.cons_ne_nil _ _

theorem lines_ne_nil {s : List Char} (hs : s ≠ []) : lines s ≠ [] := by
  cases s with
  | nil => exact absurd rfl hs
  | cons c s =>
      rw [lines]
      by_cases hc : c = '\n'
      · rw [if_pos hc]
        exact List.cons_ne_nil _ _
      · rw [if_neg hc]
        exact glue_ne_nil c _

theorem glue_append (c : Char) {ps : List (List Char)} (hps : ps ≠ [])
    (qs : List (List Char)) : glue c (ps ++ qs) = glue c ps ++ qs := by
  cases ps with
  | nil => exact absurd rfl hps
  | cons p ps => rfl

/-- A line feed divides the lines of what stands before it from those of
    what stands after it. -/
theorem lines_append (s t : List Char) :
    lines (s ++ '\n' :: t) = lines (s ++ ['\n']) ++ lines t := by
  induction s with
  | nil => rfl
  | cons c s ih =>
      rw [List.cons_append, List.cons_append, lines, lines]
      by_cases hc : c = '\n'
      · rw [if_pos hc, if_pos hc, ih]
        rfl
      · have hne : lines (s ++ ['\n']) ≠ [] :=
          lines_ne_nil (List.append_ne_nil_of_right_ne_nil s (List.cons_ne_nil _ _))
        rw [if_neg hc, if_neg hc, ih, glue_append c hne]

/-- A text that has ended its last line leaves all further ones alone. -/
theorem lines_append_of_ended {s : List Char} (hs : ∀ c ∈ s.getLast?, c = '\n')
    (t : List Char) : lines (s ++ t) = lines s ++ lines t := by
  cases hlast : s.getLast? with
  | none =>
      rw [List.getLast?_eq_none_iff.mp hlast]
      rfl
  | some c =>
      obtain rfl := hs c hlast
      rw [← List.dropLast_append_getLast? '\n' hlast, List.append_assoc, List.singleton_append,
        lines_append]

/-- A text is what it has ended, and the line begun after that. -/
theorem exists_last_line (s : List Char) :
    ∃ r l, s = r ++ l ∧ (∀ c ∈ r.getLast?, c = '\n') ∧ '\n' ∉ l := by
  induction s using List.reverseRecOn with
  | nil => exact ⟨[], [], rfl, nofun, List.not_mem_nil⟩
  | append_singleton s c ih =>
      by_cases hc : c = '\n'
      · refine ⟨s ++ [c], [], (List.append_nil _).symm, fun d hd => ?_, List.not_mem_nil⟩
        rw [List.getLast?_concat] at hd
        rw [← Option.some.inj hd, hc]
      · obtain ⟨r, l, rfl, hr, hl⟩ := ih
        refine ⟨r, l ++ [c], List.append_assoc r l [c], hr, fun hmem => ?_⟩
        rcases List.mem_append.mp hmem with hmem | hmem
        · exact hl hmem
        · exact hc (List.mem_singleton.mp hmem).symm

/-- The line feed at the end of the last line adds nothing. -/
theorem lines_concat {s : List Char} (hne : s ≠ []) (hs : s.getLast? ≠ some '\n') :
    lines (s ++ ['\n']) = lines s := by
  induction s with
  | nil => exact absurd rfl hne
  | cons c s ih =>
      rw [List.cons_append, lines, lines]
      by_cases hs' : s = []
      · subst hs'
        have hc : c ≠ '\n' := by
          rintro rfl
          exact hs rfl
        rw [if_neg hc, if_neg hc]
        rfl
      · rw [List.getLast?_cons_of_ne_nil hs'] at hs
        rw [ih hs' hs]

/-- A line without a line feed is one line. -/
theorem lines_of_not_mem {l : List Char} (hne : l ≠ []) (hl : '\n' ∉ l) : lines l = [l] := by
  have hlast : l.getLast? ≠ some '\n' := fun h => hl (List.mem_of_getLast? h)
  rw [← lines_concat hne hlast]
  exact lines_cons hl []

/-- Lines that hold no line feed are the lines of the text they make up. -/
theorem lines_join {ls : List String} (h : ∀ l ∈ ls, '\n' ∉ l.toList) :
    lines (String.join (ls.map (· ++ "\n"))).toList = ls.map String.toList := by
  induction ls with
  | nil => rfl
  | cons l ls ih =>
      rw [List.map_cons, String.join_cons, String.toList_append, String.toList_append,
        List.append_assoc]
      show lines (l.toList ++ '\n' :: (String.join (ls.map (· ++ "\n"))).toList) = _
      rw [lines_cons (h l List.mem_cons_self), ih fun l' hl' => h l' (List.mem_cons_of_mem l hl')]
      rfl

end Classpath.Text
