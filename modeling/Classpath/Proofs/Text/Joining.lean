import Classpath.Proofs.Text.Trimming

/-! # Joining — pieces put together again

    Cutting a text at a separator and joining texts with it undo each other:
    what was cut can be joined again (`intercalate_pieces`), and what was
    joined can be cut again as long as no text holds the separator
    (`pieces_intercalate`), which no piece does (`not_mem_of_mem_pieces`).
    Blanks at the ends of a text stand at the ends of its outer pieces, so
    that trimming the text only trims pieces (`map_trim_pieces_trim`). -/

namespace Classpath.Text

variable {sep : Char}

/-- A character in front of a text stands in front of its first piece. -/
theorem intercalate_glue (c : Char) {ps : List (List Char)} (hps : ps ≠ []) :
    [sep].intercalate (glue c ps) = c :: [sep].intercalate ps := by
  match ps with
  | [] => exact absurd rfl hps
  | [p] =>
      show [sep].intercalate [c :: p] = c :: [sep].intercalate [p]
      rw [List.intercalate_singleton, List.intercalate_singleton]
  | p :: q :: ps =>
      show [sep].intercalate ((c :: p) :: q :: ps) = c :: [sep].intercalate (p :: q :: ps)
      rw [List.intercalate_cons_cons, List.intercalate_cons_cons]
      rfl

/-- The pieces of a text make up the text. -/
theorem intercalate_pieces (sep : Char) (s : List Char) :
    [sep].intercalate (pieces sep s) = s := by
  induction s with
  | nil => exact List.intercalate_singleton
  | cons c s ih =>
      rw [pieces]
      by_cases hc : c = sep
      · obtain ⟨p, ps, hps⟩ := List.exists_cons_of_ne_nil (pieces_ne_nil sep s)
        rw [if_pos hc, hps, List.intercalate_cons_cons, ← hps, ih, hc]
        rfl
      · rw [if_neg hc, intercalate_glue c (pieces_ne_nil sep s), ih]

/-- A piece does not hold the separator. -/
theorem not_mem_of_mem_pieces {s p : List Char} (hp : p ∈ pieces sep s) : sep ∉ p := by
  induction s generalizing p with
  | nil =>
      obtain rfl := List.mem_singleton.mp hp
      exact List.not_mem_nil
  | cons c s ih =>
      rw [pieces] at hp
      by_cases hc : c = sep
      · rw [if_pos hc] at hp
        rcases List.mem_cons.mp hp with rfl | hp
        · exact List.not_mem_nil
        · exact ih hp
      · rw [if_neg hc] at hp
        obtain ⟨q, qs, hqs⟩ := List.exists_cons_of_ne_nil (pieces_ne_nil sep s)
        rw [hqs] at hp ih
        rcases List.mem_cons.mp hp with rfl | hp
        · rw [List.mem_cons, not_or]
          exact ⟨Ne.symm hc, ih List.mem_cons_self⟩
        · exact ih (List.mem_cons_of_mem q hp)

/-- Texts without the separator are the pieces of what they make up. -/
theorem pieces_intercalate {ps : List (List Char)} (hne : ps ≠ [])
    (hps : ∀ p ∈ ps, sep ∉ p) : pieces sep ([sep].intercalate ps) = ps := by
  induction ps with
  | nil => exact absurd rfl hne
  | cons p ps ih =>
      have hp : pieces sep p = [p] := pieces_of_not_mem (hps p List.mem_cons_self)
      cases ps with
      | nil =>
          rw [List.intercalate_singleton, hp]
      | cons q ps =>
          rw [List.intercalate_cons_cons, List.append_assoc, List.singleton_append,
            pieces_append_cons, hp, ih (List.cons_ne_nil q ps)
              fun r hr => hps r (List.mem_cons_of_mem p hr)]
          rfl

/-- A character that none of the texts holds does not come in otherwise. -/
theorem not_mem_intercalate {sep : List Char} {c : Char} (hc : c ∉ sep) {ps : List (List Char)}
    (hps : ∀ p ∈ ps, c ∉ p) : c ∉ sep.intercalate ps := by
  induction ps with
  | nil => exact List.not_mem_nil
  | cons p ps ih =>
      have hp : c ∉ p := hps p List.mem_cons_self
      cases ps with
      | nil =>
          rw [List.intercalate_singleton]
          exact hp
      | cons q ps =>
          rw [List.intercalate_cons_cons, List.mem_append, List.mem_append, not_or, not_or]
          exact ⟨⟨hp, hc⟩, ih fun r hr => hps r (List.mem_cons_of_mem p hr)⟩

theorem not_mem_joined {sep : String} {c : Char} (hc : c ∉ sep.toList) {texts : List String}
    (htexts : ∀ s ∈ texts, c ∉ s.toList) : c ∉ (sep.intercalate texts).toList := by
  rw [String.toList_intercalate]
  refine not_mem_intercalate hc fun p hp => ?_
  obtain ⟨s, hs, rfl⟩ := List.mem_map.mp hp
  exact htexts s hs

/-- What stands in one of the texts stands in what they make up. -/
theorem mem_intercalate_of_mem {c : Char} {p : List Char} (hc : c ∈ p) {ps : List (List Char)}
    (hp : p ∈ ps) : c ∈ [sep].intercalate ps := by
  induction ps with
  | nil => exact absurd hp List.not_mem_nil
  | cons q ps ih =>
      cases ps with
      | nil =>
          rw [List.intercalate_singleton, ← List.mem_singleton.mp hp]
          exact hc
      | cons r ps =>
          rw [List.intercalate_cons_cons, List.append_assoc, List.mem_append]
          rcases List.mem_cons.mp hp with rfl | hp
          · exact .inl hc
          · exact .inr (List.mem_append_right _ (ih hp))

theorem mem_of_mem_pieces {c : Char} {s p : List Char} (hp : p ∈ pieces sep s) (hc : c ∈ p) :
    c ∈ s := by
  rw [← intercalate_pieces sep s]
  exact mem_intercalate_of_mem hc hp

/-! ## Blanks around the text -/

/-- What stands before a text stands before its first piece. -/
theorem pieces_append_of_not_mem {w : List Char} (hw : sep ∉ w) (s : List Char) :
    ∃ p ps, pieces sep s = p :: ps ∧ pieces sep (w ++ s) = (w ++ p) :: ps := by
  obtain ⟨p, ps, hps⟩ := List.exists_cons_of_ne_nil (pieces_ne_nil sep s)
  refine ⟨p, ps, hps, ?_⟩
  induction w with
  | nil => exact hps
  | cons c w ih =>
      rw [List.mem_cons, not_or] at hw
      rw [List.cons_append, pieces, if_neg (Ne.symm hw.1), ih hw.2]
      rfl

/-- What stands after it stands after its last piece. -/
theorem pieces_append_not_mem (s : List Char) {w : List Char} (hw : sep ∉ w) :
    ∃ ps p, pieces sep s = ps ++ [p] ∧ pieces sep (s ++ w) = ps ++ [p ++ w] := by
  induction s with
  | nil => exact ⟨[], [], rfl, pieces_of_not_mem hw⟩
  | cons c s ih =>
      obtain ⟨ps, p, hps, hpsw⟩ := ih
      rw [List.cons_append, pieces, pieces, hps, hpsw]
      by_cases hc : c = sep
      · rw [if_pos hc, if_pos hc]
        exact ⟨[] :: ps, p, rfl, rfl⟩
      · rw [if_neg hc, if_neg hc]
        cases ps with
        | nil => exact ⟨[], c :: p, rfl, rfl⟩
        | cons q ps => exact ⟨(c :: q) :: ps, p, rfl, rfl⟩

/-- A trimmed text has the same pieces up to blanks at their ends. -/
theorem map_trim_pieces_trim (hsep : isBlank sep = false) (s : List Char) :
    (pieces sep (trim s)).map trim = (pieces sep s).map trim := by
  obtain ⟨w, w', hw, hw', hs, -, -⟩ := exists_trim s
  -- Blanks hold no separator, so they stay with the outer pieces.
  have hsolid : ∀ {v : List Char}, AllBlank v → sep ∉ v := by
    intro v hv hmem
    rw [hv sep hmem] at hsep
    exact nomatch hsep
  obtain ⟨p, ps, hps, hfirst⟩ := pieces_append_of_not_mem (hsolid hw) (trim s)
  obtain ⟨qs, q, hqs, hlast⟩ := pieces_append_not_mem (w ++ trim s) (hsolid hw')
  calc (pieces sep (trim s)).map trim
      = ((w ++ p) :: ps).map trim := by
        rw [hps, List.map_cons, List.map_cons, trim_blank_append hw]
    _ = (qs ++ [q]).map trim := by rw [← hfirst, hqs]
    _ = (qs ++ [q ++ w']).map trim := by
        rw [List.map_append, List.map_append, List.map_singleton, List.map_singleton,
          trim_append_blank q hw']
    _ = (pieces sep s).map trim := by rw [← hlast, ← hs]

end Classpath.Text
