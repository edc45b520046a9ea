import Classpath.Proofs.Assembly.Lookup
import Classpath.Proofs.Coordinate.Grammar
import Classpath.Proofs.Document.Yielding

/-! # Spelling — what a text excludes, however it is written

    A type that is blank, empty or left out is the default one.  Four places
    see to it, each for itself: the reader of a record, the coordinate of an
    artifact, the constructor of a coordinate and its parser.  Because they
    agree, what a text excludes can be told from its segments and from the
    fields that a dependency was given, whether it was made from them or read
    from a record (`lacks_iff_spells`): a dependency is missing from a model
    exactly if an excluded text `Spells` its fields.

    In between stand two equations for coordinates, one for the text
    (`parse_eq_ok_iff_spells`) and one for the record (`fields_of_reader`). -/

namespace Classpath

open Document Text
open Dependency (last?)

/-! ## Texts -/

namespace Coordinate

/-- The segments of a text are these fields, a missing one counting as empty,
    and a blank type is `jar` on both sides. -/
structure Spells (s group artifact classifier type : String) : Prop where
  group : (segments s).getD 0 "" = group
  artifact : (segments s).getD 1 "" = artifact
  classifier : (segments s).getD 2 "" = classifier
  type :
    (if ((segments s).getD 3 "").toList.all isBlank then "jar" else (segments s).getD 3 "") =
      if type.toList.all isBlank then "jar" else type

variable {s group artifact classifier type : String}

/-- A coordinate is read from the texts that spell its fields. -/
theorem parse_eq_ok_iff_spells (hs : ∃ k, parse s = .ok k) :
    parse s = .ok ⟨group, artifact, classifier, normalizeType type⟩ ↔
      Spells s group artifact classifier type := by
  obtain ⟨k, hk⟩ := hs
  rw [parse_eq_ok_iff_ofSegments, and_iff_right (parse_eq_ok_iff_ofSegments.mp hk).1]
  show Coordinate.mk group artifact classifier (normalizeType type) =
    Coordinate.mk ((segments s).getD 0 "") ((segments s).getD 1 "") ((segments s).getD 2 "")
      (normalizeType ((segments s).getD 3 "")) ↔ _
  rw [Coordinate.mk.injEq]
  constructor
  · rintro ⟨hgroup, hartifact, hclassifier, htype⟩
    exact ⟨hgroup.symm, hartifact.symm, hclassifier.symm, htype.symm⟩
  · intro h
    exact ⟨h.group.symm, h.artifact.symm, h.classifier.symm, h.type.symm⟩

/-- The ways to write no classifier and the default type. -/
def bareTails : List String := ["", ":", "::", "::jar"]

/-- Behind an artifact that does not end in a blank they make up segments that
    say no more than those of the artifact. -/
theorem pieces_bareTail {artifact tail : String} (hcolon : ':' ∉ artifact.toList)
    (hend : EndsSolid artifact.toList) (htail : tail ∈ bareTails) :
    EndsSolid (artifact.toList ++ tail.toList)
      ∧ ∃ rest ∈ [[], [""], ["", ""], ["", "jar"]],
        (pieces ':' (artifact.toList ++ tail.toList)).map String.ofList = artifact :: rest := by
  have hpieces : ∀ r : List Char, (pieces ':' (artifact.toList ++ ':' :: r)).map String.ofList =
      artifact :: (pieces ':' r).map String.ofList := by
    intro r
    rw [pieces_append_cons, pieces_of_not_mem hcolon, List.map_append, List.map_singleton,
      String.ofList_toList]
    rfl
  simp only [bareTails, List.mem_cons, List.not_mem_nil, or_false] at htail
  rcases htail with rfl | rfl | rfl | rfl
  · rw [String.toList_empty, List.append_nil, pieces_of_not_mem hcolon]
    refine ⟨hend, [], by simp, ?_⟩
    rw [List.map_singleton, String.ofList_toList]
  · exact ⟨endsSolid_concat (by decide) artifact.toList, [""], by simp, hpieces []⟩
  · exact ⟨endsSolid_append _ (by decide) (endsSolid_concat (by decide) [':']), ["", ""],
      by simp, hpieces [':']⟩
  · exact ⟨endsSolid_append _ (by decide) (endsSolid_concat (by decide) [':', ':', 'j', 'a']),
      ["", "jar"], by simp, hpieces [':', 'j', 'a', 'r']⟩

/-- So each of them is read as the coordinate without a classifier and with the
    default type. -/
theorem parse_bareTail {w w' tail : String} (hw : AllBlank w.toList) (hw' : AllBlank w'.toList)
    (h : Tidy { group := group, artifact := artifact }) (hend : EndsSolid artifact.toList)
    (htail : tail ∈ bareTails) :
    parse (w ++ (group ++ ":" ++ (artifact ++ tail)) ++ w') =
      .ok { group := group, artifact := artifact } := by
  obtain ⟨hsolid, rest, hrest, hpieces⟩ :=
    pieces_bareTail h.artifact_no_colon hend htail
  have hgroup : group.toList ≠ [] := mt String.toList_eq_nil_iff.mp h.group_ne
  have hartifact : artifact.toList ≠ [] := mt String.toList_eq_nil_iff.mp h.artifact_ne
  have htext : (group ++ ":" ++ (artifact ++ tail)).toList =
      group.toList ++ ':' :: (artifact.toList ++ tail.toList) := by
    simp only [String.toList_append, List.append_assoc]
    rfl
  have htrim : trim (w ++ (group ++ ":" ++ (artifact ++ tail)) ++ w').toList =
      group.toList ++ ':' :: (artifact.toList ++ tail.toList) := by
    rw [String.toList_append, String.toList_append, htext, trim_append_blank _ hw',
      trim_blank_append hw]
    refine trim_of_solid (startsSolid_append hgroup h.group_start _) ?_
    exact endsSolid_append _ (by simp) (endsSolid_append [':'] (by simp [hartifact]) hsolid)
  have hsegs : segments (w ++ (group ++ ":" ++ (artifact ++ tail)) ++ w') =
      group :: artifact :: rest := by
    rw [segments, htrim, pieces_append_cons, pieces_of_not_mem h.group_no_colon, List.map_append,
      hpieces, List.map_singleton, String.ofList_toList]
    rfl
  rw [parse_eq_ok_iff_ofSegments, hsegs]
  simp only [List.mem_cons, List.not_mem_nil, or_false] at hrest
  have hlength : rest.length ≤ 2 := by
    rcases hrest with rfl | rfl | rfl | rfl <;> decide
  refine ⟨⟨Nat.le_add_left 2 _, Nat.add_le_add_right hlength 2, h.group_ne, h.artifact_ne⟩, ?_⟩
  -- A classifier or type that is left out is read like one that is empty.
  rcases hrest with rfl | rfl | rfl | rfl
  · rfl
  · rfl
  · rfl
  · have hjar : normalizeType "jar" = defaultType := by decide
    show Coordinate.mk group artifact "" defaultType =
      Coordinate.mk group artifact "" (normalizeType "jar")
    rw [hjar]

end Coordinate

/-! ## Records -/

namespace Document

/-- The text that stands in an object under a name; none counts as empty. -/
def textOf (name : String) (ms : List (String × Value)) : String :=
  match (membersNamed name ms).head? with
  | some (_, .string s) => s
  | _ => ""

variable {d : Dialect} {ms : List (String × Value)} {name : String}

theorem Reader.string_eq_ok {v : Value} {s : String} :
    string d v = .ok s ↔ v = .string s := by
  cases v with
  | string t => simp [string, text]
  | _ => simp [string, text]

theorem textOf_of_required {s : String} {n : Nat}
    (h : (Fields.required name Reader.string).ofMembers d ms n = .ok s) : textOf name ms = s := by
  obtain ⟨⟨_, v⟩, he, hv⟩ := Fields.required_eq_ok.mp h
  obtain rfl := Reader.string_eq_ok.mp hv
  rw [textOf, he]

theorem textOf_of_withDefault {s : String} {n : Nat}
    (h : (Fields.withDefault name Reader.string "").ofMembers d ms n = .ok s) :
    textOf name ms = s := by
  rw [Fields.withDefault_eq_ok, fieldValue] at h
  rw [textOf]
  cases hhead : (membersNamed name ms).head? with
  | none =>
      rw [hhead] at h
      exact Except.ok.inj h
  | some e =>
      obtain ⟨_, v⟩ := e
      rw [hhead] at h
      obtain rfl := Reader.string_eq_ok.mp h
      rfl

/-- What is made of the text of a field, or of that of none. -/
theorem withDefault_map_eq_ok {f : String → String} {t : String} {n : Nat} :
    (Fields.withDefault name (Reader.string.map f) (f "")).ofMembers d ms n = .ok t ↔
      ∃ s, (Fields.withDefault name Reader.string "").ofMembers d ms n = .ok s ∧ f s = t := by
  simp only [Fields.withDefault_eq_ok]
  rw [← map_eq_ok_iff, fieldValue, fieldValue]
  cases (membersNamed name ms).head? with
  | none => exact Iff.rfl
  | some e => exact Iff.rfl

theorem textOf_filter_not {names : List String} (h : name ∉ names) :
    textOf name (ms.filter fun m => !names.contains m.1) = textOf name ms := by
  rw [textOf, textOf, membersNamed_filter_not h]

end Document

namespace Artifact

/-- An artifact has the texts of its object for its fields, but for a type that
    is blank or left out. -/
theorem fields_of_ofMembers {d : Dialect} {ms : List (String × Value)} {n : Nat} {a : Artifact}
    (h : fields.ofMembers d ms n = .ok a) :
    a.group = textOf "group" ms ∧ a.artifact = textOf "artifact" ms
      ∧ a.classifier = textOf "classifier" ms
      ∧ a.type = normalizeType (textOf "type" ms) := by
  simp only [fields, Fields.seq_eq_ok, Fields.map_eq_ok] at h
  obtain ⟨_, ⟨_, ⟨_, ⟨_, ⟨g, hg, rfl⟩, a, ha, rfl⟩, c, hc, rfl⟩, t, ht, rfl⟩, v, -, rfl⟩ := h
  obtain ⟨s, hs, rfl⟩ := withDefault_map_eq_ok.mp ht
  refine ⟨(textOf_of_required hg).symm, (textOf_of_required ha).symm,
    (textOf_of_withDefault hc).symm, ?_⟩
  rw [textOf_of_withDefault hs]

end Artifact

namespace Dependency

/-- So has a dependency, whose object has other fields besides. -/
theorem fields_of_reader {d : Dialect} {ms : List (String × Value)} {x : Dependency}
    (h : reader d (.map ms) = .ok x) :
    x.artifact.group = textOf "group" ms ∧ x.artifact.artifact = textOf "artifact" ms
      ∧ x.artifact.classifier = textOf "classifier" ms
      ∧ x.artifact.type = normalizeType (textOf "type" ms) := by
  obtain ⟨⟨own, a⟩, hp, rfl⟩ := map_eq_ok_iff.mp h
  obtain ⟨⟨-, hown⟩, -, ha⟩ := flattened_eq_ok.mp hp
  have hartifact : (own a).artifact = a := by
    simp only [fields, Fields.seq_eq_ok, Fields.map_eq_ok] at hown
    obtain ⟨_, ⟨_, ⟨scope, -, rfl⟩, runtime, -, rfl⟩, optional, -, rfl⟩ := hown
    rfl
  have hfields := Artifact.fields_of_ofMembers ha
  rw [textOf_filter_not (by decide), textOf_filter_not (by decide),
    textOf_filter_not (by decide), textOf_filter_not (by decide)] at hfields
  rw [hartifact]
  exact hfields

/-- The fields that a dependency was given: those it was made with, or those
    that stand in the record it was read from. -/
inductive Given (x : Dependency) : String → String → String → String → Prop
  | made : Given x x.artifact.group x.artifact.artifact x.artifact.classifier x.artifact.type
  | read {d : Dialect} {ms : List (String × Value)} (h : reader d (.map ms) = .ok x) :
      Given x (textOf "group" ms) (textOf "artifact" ms) (textOf "classifier" ms)
        (textOf "type" ms)

/-- Its coordinate can be told from them. -/
theorem Given.key_eq {x : Dependency} {group artifact classifier type : String}
    (h : x.Given group artifact classifier type) :
    x.key = ⟨group, artifact, classifier, normalizeType type⟩ := by
  cases h with
  | made => rfl
  | read h =>
      obtain ⟨hgroup, hartifact, hclassifier, htype⟩ := fields_of_reader h
      show Coordinate.mk x.artifact.group x.artifact.artifact x.artifact.classifier
        (normalizeType x.artifact.type) = _
      rw [hgroup, hartifact, hclassifier, htype, normalizeType_normalizeType]

end Dependency

/-! ## Models -/

namespace Assembly

/-- A dependency that was added last for its coordinate is missing from the
    model of a history, unless it is the launcher, exactly if a text that the
    history excludes spells the fields it was given.  And an artifact without a
    classifier and with the default type has the same coordinate whether these
    are written, left empty or left out, and whatever blanks are around. -/
theorem lacks_iff_spells :
    (∀ (ops : List Operation) (ss : List String) (d : Dependency)
        (group artifact classifier type : String),
        d.Given group artifact classifier type →
        ¬ (group = "io.quarkus" ∧ artifact = "quarkus-ide-launcher") →
        last? (additions ops) d.key = some d →
        (∀ s ∈ ss, ∃ k, Coordinate.parse s = .ok k) →
        (∀ k, k ∈ markings ops .excluded ↔ ∃ s ∈ ss, Coordinate.parse s = .ok k) →
        (d ∉ (run ops).build.value.dependencies ↔
          ∃ s ∈ ss, Coordinate.Spells s group artifact classifier type))
      ∧ ∀ w w' group artifact : String, AllBlank w.toList → AllBlank w'.toList →
          Coordinate.Tidy ⟨group, artifact, "", "jar"⟩ → EndsSolid artifact.toList →
          ∀ tail ∈ ["", ":", "::", "::jar"],
            Coordinate.parse (w ++ (group ++ ":" ++ (artifact ++ tail)) ++ w') =
              .ok ⟨group, artifact, "", "jar"⟩ := by
  refine ⟨?_, ?_⟩
  · intro ops ss d group artifact classifier type hd hlauncher hadded hss hexcluded
    have hkeeps : d ∉ (run ops).build.value.dependencies ↔ d.key ∈ markings ops .excluded := by
      rw [build_run_contribution, Contribution.mem_dependencies_model, added_contribution,
        and_iff_right hadded, Contribution.keeps, decide_eq_true_eq, marked_contribution,
        hd.key_eq, and_iff_right hlauncher, not_not]
    rw [hkeeps, hexcluded, hd.key_eq]
    exact exists_congr fun s => and_congr_right fun hs =>
      Coordinate.parse_eq_ok_iff_spells (hss s hs)
  · intro w w' group artifact hw hw' htidy hend tail htail
    exact Coordinate.parse_bareTail hw hw' htidy hend htail

/-- Read from a record with a blank type, a dependency is missing from the
    model of a history that excludes it without a type, whether a blank
    classifier and type are written or not. -/
theorem lacks_iff_spells_blank :
    ∃ (v : Value) (d : Dependency),
      Dependency.reader .toml v = .ok d
        ∧ d ∉ (run [.add d, .markAll .excluded [⟨"g", "a", "", "jar"⟩]]).build.value.dependencies
        ∧ ∀ tail ∈ ["", ":", "::", "::jar"],
          Coordinate.parse (" " ++ ("g" ++ ":" ++ ("a" ++ tail)) ++ "\t") =
            .ok ⟨"g", "a", "", "jar"⟩ := by
  let ms : List (String × Value) :=
    [("group", .string "g"), ("artifact", .string "a"), ("version", .string "1"),
      ("type", .string " ")]
  let d : Dependency := ⟨⟨"g", "a", "", "jar", "1"⟩, .compile, false, false⟩
  have hread : Dependency.reader .toml (.map ms) = .ok d := by rfl
  refine ⟨.map ms, d, hread, ?_, ?_⟩
  · refine (lacks_iff_spells.1 [.add d, .markAll .excluded [⟨"g", "a", "", "jar"⟩]] ["g:a:"] d
      "g" "a" "" " " (.read hread) (by decide) (by decide) ?_ ?_).mpr ?_
    · intro s hs
      rw [List.mem_singleton.mp hs]
      exact ⟨_, show Coordinate.parse "g:a:" = .ok ⟨"g", "a", "", "jar"⟩ by decide⟩
    · intro k
      have hparse : Coordinate.parse "g:a:" = .ok ⟨"g", "a", "", "jar"⟩ := by decide
      have hmarks : markings [.add d, .markAll .excluded [⟨"g", "a", "", "jar"⟩]] .excluded =
          [⟨"g", "a", "", "jar"⟩] := by decide
      rw [hmarks, List.mem_singleton]
      simp only [List.mem_singleton, exists_eq_left, hparse, Except.ok.injEq]
      exact eq_comm
    · exact ⟨"g:a:", by simp, by decide, by decide, by decide, by decide⟩
  · exact lacks_iff_spells.2 " " "\t" "g" "a" (allBlank_iff.mpr (by decide))
      (allBlank_iff.mpr (by decide))
      (Coordinate.tidy_of_parse (show Coordinate.parse "g:a" = .ok _ by decide))
      (endsSolid_concat (by decide) [])

end Assembly

end Classpath
