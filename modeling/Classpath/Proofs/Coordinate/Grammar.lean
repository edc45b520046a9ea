import Classpath.Proofs.Coordinate.Display

/-! # Grammar — which texts are coordinates, and which coordinate each is

    A text is cut at its colons when the blanks around it are gone.  It is a
    coordinate exactly if this gives two, three or four segments, the first
    two not empty (`parse_eq_ite`).  The coordinate is then the one that the
    segments make, a missing one counting as empty.  `parse` replaces an empty
    type and `withType` a blank one, but a type that is the last segment of a
    trimmed text is only blank if it is empty (`normalizeType_of_endsSolid`),
    so the two come to the same.  Any other text is malformed, and is
    reported as trimmed and with the number of its segments. -/

namespace Classpath

open Text

/-- A text that is not blank at its end is blank only if it is empty. -/
theorem normalizeType_of_endsSolid {type : String} (h : EndsSolid type.toList) :
    normalizeType type = if type = "" then defaultType else type := by
  rw [normalizeType]
  by_cases hempty : type = ""
  · rw [if_pos hempty, hempty]
    rfl
  · obtain ⟨c, hc⟩ : ∃ c, type.toList.getLast? = some c :=
      List.getLast?_isSome.mpr (mt String.toList_eq_nil_iff.mp hempty) |> Option.isSome_iff_exists.mp
    have hsolid : ¬ type.toList.all isBlank = true := by
      rw [List.all_eq_true]
      intro hblank
      have hcblank := hblank c (List.mem_of_getLast? hc)
      rw [h c hc] at hcblank
      exact nomatch hcblank
    rw [if_neg hempty, if_neg hsolid]

/-- A type that has been normalized names something. -/
theorem not_blank_normalizeType (type : String) :
    (normalizeType type).toList.all isBlank = false := by
  rw [normalizeType]
  cases h : type.toList.all isBlank with
  | true =>
      rw [if_pos rfl]
      decide
  | false =>
      rw [if_neg Bool.false_ne_true]
      exact h

namespace Coordinate

/-- These segments are two, three or four, and the first two are not empty. -/
def Grammatical (segs : List String) : Prop :=
  2 ≤ segs.length ∧ segs.length ≤ 4 ∧ segs.getD 0 "" ≠ "" ∧ segs.getD 1 "" ≠ ""

instance (segs : List String) : Decidable (Grammatical segs) :=
  inferInstanceAs (Decidable (_ ∧ _))

/-- The coordinate that segments make, a missing one counting as empty. -/
def ofSegments (segs : List String) : Coordinate :=
  ({ group := segs.getD 0 "", artifact := segs.getD 1 "" } : Coordinate)
    |>.withClassifier (segs.getD 2 "") |>.withType (segs.getD 3 "")

theorem type_ofSegments (segs : List String) :
    (ofSegments segs).type = normalizeType (segs.getD 3 "") := rfl

/-- Segments are read as the coordinate that they make, as long as a fourth
    one does not end in a blank. -/
theorem ofSegments?_eq {segs : List String}
    (hend : ∀ g a c t, segs = [g, a, c, t] → EndsSolid t.toList) :
    ofSegments? segs = if Grammatical segs then some (ofSegments segs) else none := by
  match segs with
  | [] => rfl
  | [_] => rfl
  | g :: a :: rest =>
      show (if g = "" ∨ a = "" then none else _) = _
      by_cases hempty : g = "" ∨ a = ""
      · have hnot : ¬ Grammatical (g :: a :: rest) := fun ⟨_, _, hg, ha⟩ => hempty.elim hg ha
        rw [if_pos hempty, if_neg hnot]
      · rw [if_neg hempty]
        obtain ⟨hg, ha⟩ := not_or.mp hempty
        match rest, hend with
        | [], _ =>
            rw [if_pos ⟨by simp, by simp, hg, ha⟩]
            rfl
        | [c], _ =>
            rw [if_pos ⟨by simp, by simp, hg, ha⟩]
            rfl
        | [c, t], hend =>
            rw [if_pos ⟨by simp, by simp, hg, ha⟩]
            show some (Coordinate.mk g a c (if t = "" then defaultType else t)) =
              some (Coordinate.mk g a c (normalizeType t))
            rw [normalizeType_of_endsSolid (hend g a c t rfl)]
        | _ :: _ :: _ :: _, _ =>
            refine (if_neg fun h => ?_).symm
            have hlength := h.2.1
            simp only [List.length_cons] at hlength
            omega

/-- A text is the coordinate that its segments make, or else malformed. -/
theorem parse_eq_ite (s : String) :
    parse s = if Grammatical (segments s) then .ok (ofSegments (segments s))
      else .error ⟨String.ofList (trim s.toList), (segments s).length⟩ := by
  have hsegs : ofSegments? (segments s) =
      if Grammatical (segments s) then some (ofSegments (segments s)) else none :=
    ofSegments?_eq fun g a c t => endsSolid_of_segments
  by_cases h : Grammatical (segments s)
  · rw [if_pos h] at hsegs ⊢
    exact parse_eq_ok_iff.mpr hsegs
  · rw [if_neg h] at hsegs ⊢
    rw [segments] at hsegs
    rw [parse, hsegs]
    rfl

theorem parse_eq_ok_iff_ofSegments {s : String} {k : Coordinate} :
    parse s = .ok k ↔ Grammatical (segments s) ∧ k = ofSegments (segments s) := by
  rw [parse_eq_ite]
  by_cases h : Grammatical (segments s)
  · rw [if_pos h, and_iff_right h]
    exact ⟨fun hk => (Except.ok.inj hk).symm, fun hk => congrArg Except.ok hk.symm⟩
  · rw [if_neg h]
    exact iff_of_false (fun hk => nomatch hk) fun hk => h hk.1

/-- There is one segment more than the trimmed text has colons. -/
theorem length_segments (s : String) :
    (segments s).length = (trim s.toList).count ':' + 1 := by
  rw [segments, List.length_map, length_pieces]

theorem segments_ne_nil (s : String) : segments s ≠ [] :=
  mt List.map_eq_nil_iff.mp (pieces_ne_nil ':' _)

/-- A text without the blanks around it, cut at every colon, is a coordinate
    if there are two, three or four segments and the first two are not empty.
    It then is the coordinate that can also be made from the segments one by
    one, and its type is never blank; otherwise it is malformed, which is said
    of the trimmed text with one segment more than it has colons. -/
theorem parse_by_segments (s : String) :
    let text := trim s.toList
    let segs := segments s
    ((∃ w w', AllBlank w ∧ AllBlank w' ∧ s.toList = w ++ text ++ w')
        ∧ StartsSolid text ∧ EndsSolid text)
      ∧ (segs ≠ [] ∧ (∀ seg ∈ segs, ':' ∉ seg.toList)
        ∧ [':'].intercalate (segs.map String.toList) = text)
      ∧ parse s =
        (if (segs.length = 2 ∨ segs.length = 3 ∨ segs.length = 4)
            ∧ segs.getD 0 "" ≠ "" ∧ segs.getD 1 "" ≠ ""
          then .ok ((({ group := segs.getD 0 "", artifact := segs.getD 1 "" } : Coordinate)
            |>.withClassifier (segs.getD 2 "")).withType (segs.getD 3 ""))
          else .error ⟨String.ofList text, text.count ':' + 1⟩)
      ∧ ∀ k, parse s = .ok k → k.type.toList.all isBlank = false := by
  intro text segs
  refine ⟨⟨?_, startsSolid_trim _, endsSolid_trim _⟩, ⟨segments_ne_nil s, ?_, ?_⟩, ?_, ?_⟩
  · obtain ⟨w, w', hw, hw', hs, -, -⟩ := exists_trim s.toList
    exact ⟨w, w', hw, hw', hs⟩
  · exact fun seg hseg => not_mem_of_mem_segments hseg
  · exact (trim_eq_of_segments rfl).symm
  · have hgrammar : Grammatical segs ↔
        (segs.length = 2 ∨ segs.length = 3 ∨ segs.length = 4)
          ∧ segs.getD 0 "" ≠ "" ∧ segs.getD 1 "" ≠ "" := by
      rw [Grammatical, ← and_assoc]
      exact and_congr_left fun _ => by omega
    rw [← length_segments, parse_eq_ite]
    exact if_congr hgrammar rfl rfl
  · intro k hk
    rw [(parse_eq_ok_iff_ofSegments.mp hk).2, type_ofSegments]
    exact not_blank_normalizeType _

/-- A fourth segment of blanks is trimmed away, a third one is kept. -/
example :
    parse "\tg:a: :\u00a0\n" = .ok ⟨"g", "a", " ", "jar"⟩
      ∧ parse " g:a::b:c " = .error ⟨"g:a::b:c", 5⟩ := by
  decide

end Coordinate

end Classpath
