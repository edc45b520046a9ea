import Classpath.Proofs.Text.Joining
import Classpath.Proofs.Text.Trimming
import Classpath.Coordinate

/-! # Displaying — the coordinates that can be read back

    `display` writes all fields of a coordinate, whatever they hold, while
    `parse` cuts at every colon, trims the text and fills in what is missing.
    So not every coordinate comes back from its display: just those do that
    are `Tidy` (`parse_display_iff`).  Whatever has been read is tidy
    (`tidy_of_parse`), and so no two coordinates that were read are displayed
    alike. -/

namespace Classpath.Coordinate

open Text

/-- A coordinate whose fields are told apart by their colons and keep all
    their characters when the text around them is trimmed. -/
structure Tidy (k : Coordinate) : Prop where
  group_no_colon : ':' ∉ k.group.toList
  artifact_no_colon : ':' ∉ k.artifact.toList
  classifier_no_colon : ':' ∉ k.classifier.toList
  type_no_colon : ':' ∉ k.type.toList
  group_ne : k.group ≠ ""
  group_start : StartsSolid k.group.toList
  artifact_ne : k.artifact ≠ ""
  type_ne : k.type ≠ ""
  type_end : EndsSolid k.type.toList

/-! ## Segments -/

/-- The segments of a trimmed text. -/
def segments (s : String) : List String :=
  (pieces ':' (trim s.toList)).map String.ofList

/-- A text is read when its segments are those of a coordinate. -/
theorem parse_eq_ok_iff {s : String} {k : Coordinate} :
    parse s = .ok k ↔ ofSegments? (segments s) = some k := by
  rw [parse, segments]
  cases ofSegments? ((pieces ':' (trim s.toList)).map String.ofList) with
  | none => simp
  | some k' => simp

/-- The fields of a coordinate are its segments, apart from a classifier and
    a type that are left out. -/
theorem segments_of_ofSegments? {segs : List String} {k : Coordinate}
    (h : ofSegments? segs = some k) :
    k.group ≠ "" ∧ k.artifact ≠ ""
      ∧ (∃ rest, segs = k.group :: k.artifact :: rest)
      ∧ (k.classifier = "" ∨ k.classifier ∈ segs)
      ∧ (k.type = defaultType
        ∨ segs = [k.group, k.artifact, k.classifier, k.type] ∧ k.type ≠ "") := by
  match segs with
  | [] => exact nomatch h
  | [_] => exact nomatch h
  | g :: a :: rest =>
      change (if g = "" ∨ a = "" then none else _) = some k at h
      by_cases hempty : g = "" ∨ a = ""
      · rw [if_pos hempty] at h
        exact nomatch h
      · rw [if_neg hempty] at h
        rw [not_or] at hempty
        match rest, h with
        | [], h =>
            obtain rfl := Option.some.inj h
            exact ⟨hempty.1, hempty.2, ⟨[], rfl⟩, .inl rfl, .inl rfl⟩
        | [c], h =>
            obtain rfl := Option.some.inj h
            exact ⟨hempty.1, hempty.2, ⟨[c], rfl⟩, .inr (by simp), .inl rfl⟩
        | [c, t], h =>
            obtain rfl := Option.some.inj h
            refine ⟨hempty.1, hempty.2, ⟨[c, t], rfl⟩, .inr (by simp), ?_⟩
            by_cases ht : t = ""
            · exact .inl (if_pos ht)
            · refine .inr ?_
              show [g, a, c, t] = [g, a, c, if t = "" then defaultType else t] ∧
                (if t = "" then defaultType else t) ≠ ""
              rw [if_neg ht]
              exact ⟨rfl, ht⟩
        | _ :: _ :: _ :: _, h => exact nomatch h

/-- No segment holds a colon. -/
theorem not_mem_of_mem_segments {s seg : String} (h : seg ∈ segments s) :
    ':' ∉ seg.toList := by
  obtain ⟨p, hp, rfl⟩ := List.mem_map.mp h
  rw [String.toList_ofList]
  exact not_mem_of_mem_pieces hp

/-- The segments make up the trimmed text. -/
theorem trim_eq_of_segments {s : String} {segs : List String} (h : segments s = segs) :
    trim s.toList = [':'].intercalate (segs.map String.toList) := by
  have hpieces : (segments s).map String.toList = pieces ':' (trim s.toList) := by
    rw [segments, List.map_map]
    refine (List.map_congr_left fun p _ => ?_).trans (List.map_id' _)
    exact String.toList_ofList
  rw [← h, hpieces, intercalate_pieces]

theorem startsSolid_of_segments {s g : String} {segs : List String}
    (h : segments s = g :: segs) : StartsSolid g.toList := by
  have htrim := trim_eq_of_segments h
  have hsolid := startsSolid_trim s.toList
  rw [htrim, List.map_cons] at hsolid
  cases segs with
  | nil =>
      rw [List.map_nil, List.intercalate_singleton] at hsolid
      exact hsolid
  | cons a segs =>
      rw [List.map_cons, List.intercalate_cons_cons, List.append_assoc] at hsolid
      exact hsolid.of_append

/-- A fourth segment ends where the trimmed text does. -/
theorem endsSolid_of_segments {s g a c t : String} (h : segments s = [g, a, c, t]) :
    EndsSolid t.toList := by
  have htrim := trim_eq_of_segments h
  have hsolid := endsSolid_trim s.toList
  rw [htrim] at hsolid
  have hlast : [':'].intercalate ([g, a, c, t].map String.toList) =
      (g.toList ++ [':'] ++ (a.toList ++ [':'] ++ (c.toList ++ [':']))) ++ t.toList := by
    simp only [List.map_cons, List.map_nil, List.intercalate_cons_cons,
      List.intercalate_singleton, List.append_assoc]
  rw [hlast] at hsolid
  exact hsolid.of_append

/-! ## There and back -/

/-- What has been read is tidy. -/
theorem tidy_of_parse {s : String} {k : Coordinate} (h : parse s = .ok k) : Tidy k := by
  rw [parse_eq_ok_iff] at h
  obtain ⟨hg, ha, ⟨rest, hsegs⟩, hclassifier, htype⟩ := segments_of_ofSegments? h
  have hcolon : ∀ seg ∈ segments s, ':' ∉ seg.toList := fun _ => not_mem_of_mem_segments
  have hjar : ':' ∉ defaultType.toList ∧ defaultType ≠ "" ∧ EndsSolid defaultType.toList :=
    ⟨by decide, by decide, endsSolid_concat (by decide) ['j', 'a']⟩
  -- A classifier or type is a segment, or else what stands in for none.
  have hc : ':' ∉ k.classifier.toList := by
    rcases hclassifier with hc | hc
    · rw [hc]
      decide
    · exact hcolon _ hc
  have ht : ':' ∉ k.type.toList ∧ k.type ≠ "" ∧ EndsSolid k.type.toList := by
    rcases htype with ht | ⟨hs, ht⟩
    · rw [ht]
      exact hjar
    · exact ⟨hcolon _ (by rw [hs]; simp), ht, endsSolid_of_segments hs⟩
  exact {
    group_no_colon := hcolon _ (by rw [hsegs]; simp)
    artifact_no_colon := hcolon _ (by rw [hsegs]; simp)
    classifier_no_colon := hc
    type_no_colon := ht.1
    group_ne := hg
    group_start := startsSolid_of_segments hsegs
    artifact_ne := ha
    type_ne := ht.2.1
    type_end := ht.2.2 }

theorem toList_display (k : Coordinate) :
    k.display.toList = k.group.toList ++ ':' :: (k.artifact.toList ++ ':' ::
      (k.classifier.toList ++ ':' :: k.type.toList)) := by
  rw [display]
  simp only [String.toList_append, List.append_assoc]
  rfl

theorem display_ne_nil (k : Coordinate) : k.display.toList ≠ [] := by
  rw [toList_display]
  exact List.append_ne_nil_of_right_ne_nil _ (List.cons_ne_nil _ _)

/-- The display of a tidy coordinate begins with its group. -/
theorem Tidy.startsSolid_display {k : Coordinate} (h : Tidy k) :
    StartsSolid k.display.toList := by
  have hg : k.group.toList ≠ [] := fun he => h.group_ne (String.toList_eq_nil_iff.mp he)
  rw [toList_display]
  exact startsSolid_append hg h.group_start _

/-- It ends in the type, behind the three other fields. -/
theorem Tidy.endsSolid_display {k : Coordinate} (h : Tidy k) : EndsSolid k.display.toList := by
  have ht : k.type.toList ≠ [] := fun he => h.type_ne (String.toList_eq_nil_iff.mp he)
  rw [toList_display]
  refine endsSolid_append _ (List.cons_ne_nil _ _) ?_
  refine endsSolid_append [':'] (by simp) ?_
  refine endsSolid_append k.artifact.toList (List.cons_ne_nil _ _) ?_
  refine endsSolid_append [':'] (by simp) ?_
  refine endsSolid_append k.classifier.toList (List.cons_ne_nil _ _) ?_
  exact endsSolid_append [':'] ht h.type_end

/-- A tidy coordinate has its fields as segments. -/
theorem segments_display {k : Coordinate} (h : Tidy k) :
    segments k.display = [k.group, k.artifact, k.classifier, k.type] := by
  rw [segments, trim_of_solid h.startsSolid_display h.endsSolid_display, toList_display,
    pieces_append_cons, pieces_append_cons, pieces_append_cons,
    pieces_of_not_mem h.group_no_colon, pieces_of_not_mem h.artifact_no_colon,
    pieces_of_not_mem h.classifier_no_colon, pieces_of_not_mem h.type_no_colon]
  simp only [List.cons_append, List.nil_append, List.map_cons, List.map_nil,
    String.ofList_toList]

/-- A tidy coordinate comes back from its display. -/
theorem parse_display {k : Coordinate} (h : Tidy k) : parse k.display = .ok k := by
  have hne : ¬ (k.group = "" ∨ k.artifact = "") := by
    rw [not_or]
    exact ⟨h.group_ne, h.artifact_ne⟩
  rw [parse_eq_ok_iff, segments_display h, ofSegments?, if_neg hne]
  show some { k with type := if k.type = "" then defaultType else k.type } = some k
  rw [if_neg h.type_ne]

theorem parse_display_iff {k : Coordinate} : parse k.display = .ok k ↔ Tidy k :=
  ⟨tidy_of_parse, parse_display⟩

/-- Displaying what was read brings in colons and the default type only. -/
theorem mem_of_mem_display {s : String} {k : Coordinate} (h : parse s = .ok k) {c : Char}
    (hc : c ∈ k.display.toList) : c ∈ s.toList ∨ c = ':' ∨ c ∈ defaultType.toList := by
  obtain ⟨-, -, ⟨rest, hsegs⟩, hclassifier, htype⟩ :=
    segments_of_ofSegments? (parse_eq_ok_iff.mp h)
  have hseg : ∀ seg ∈ segments s, c ∈ seg.toList → c ∈ s.toList := by
    intro seg hseg hc
    obtain ⟨p, hp, rfl⟩ := List.mem_map.mp hseg
    rw [String.toList_ofList] at hc
    exact mem_of_mem_trim (mem_of_mem_pieces hp hc)
  simp only [toList_display, List.mem_append, List.mem_cons] at hc
  rcases hc with hc | rfl | hc | rfl | hc | rfl | hc
  · exact .inl (hseg _ (by rw [hsegs]; simp) hc)
  · exact .inr (.inl rfl)
  · exact .inl (hseg _ (by rw [hsegs]; simp) hc)
  · exact .inr (.inl rfl)
  · rcases hclassifier with hempty | hmem
    · rw [hempty] at hc
      exact absurd hc List.not_mem_nil
    · exact .inl (hseg _ hmem hc)
  · exact .inr (.inl rfl)
  · rcases htype with hjar | ⟨hsegs, -⟩
    · rw [hjar] at hc
      exact .inr (.inr hc)
    · exact .inl (hseg _ (by rw [hsegs]; simp) hc)

/-- A blank text is no coordinate. -/
theorem not_blank_of_parse {s : String} {k : Coordinate} (h : parse s = .ok k) :
    ¬ s.toList.all isBlank = true := by
  intro hblank
  have hsegs : segments s = [""] := by
    rw [segments, trim_eq_nil_iff.mpr hblank]
    rfl
  rw [parse_eq_ok_iff, hsegs] at h
  exact nomatch h

/-- Displaying and reading undo each other for tidy coordinates and for no
    others; all that is read is tidy, so that reading again what is displayed
    changes nothing, and what was read is known by its display. -/
theorem display_parse_inverse :
    (∀ k : Coordinate, parse k.display = .ok k ↔ Tidy k)
      ∧ (∀ (s : String) (k : Coordinate), parse s = .ok k →
          Tidy k ∧ parse k.display = parse s)
      ∧ ∀ (s t : String) (k l : Coordinate), parse s = .ok k → parse t = .ok l →
          k.display = l.display → k = l := by
  refine ⟨fun k => parse_display_iff, ?_, ?_⟩
  · intro s k hs
    have hk := tidy_of_parse hs
    exact ⟨hk, (parse_display hk).trans hs.symm⟩
  · intro s t k l hs ht hkl
    have hk := parse_display (tidy_of_parse hs)
    have hl := parse_display (tidy_of_parse ht)
    rw [hkl, hl] at hk
    exact (Except.ok.inj hk).symm

/-- An artifact of blanks comes back, a group that starts with one does not. -/
theorem display_parse_inverse_blank :
    parse "g: ::jar" = .ok ⟨"g", " ", "", "jar"⟩
      ∧ parse " g:a::jar" ≠ .ok ⟨" g", "a", "", "jar"⟩
      ∧ parse "g:a::jar" = parse "\tg:a:: " := by
  refine ⟨?_, ?_, ?_⟩
  · refine (display_parse_inverse.1 ⟨"g", " ", "", "jar"⟩).mpr ?_
    exact ⟨by decide, by decide, by decide, by decide, by decide,
      startsSolid_cons (by decide) [], by decide, by decide,
      endsSolid_concat (by decide) ['j', 'a']⟩
  · intro h
    have htidy := (display_parse_inverse.1 ⟨" g", "a", "", "jar"⟩).mp h
    exact absurd (htidy.group_start ' ' rfl) (by decide)
  · exact (display_parse_inverse.2.1 "\tg:a:: " ⟨"g", "a", "", "jar"⟩ (by decide)).2

end Classpath.Coordinate
