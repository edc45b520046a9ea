import Mathlib
import Classpath.Proofs.Document.Yielding

/-! # Round trips — data come back from their values

    The value of data has all their fields, and a reader finds each of them
    again (`Reader.Reads`).  As promises do, such facts combine in the way
    readers do: a record is read from its members if every field is, and no
    name stands there twice.  So an artifact comes back from its value but for
    a blank type, which is named in its stead (`Artifact.reads_toValue`), and
    a descriptor that has been read comes back as it is
    (`Descriptor.reads_toValue`). -/

namespace Classpath

open Document

/-- Entries that are put into a map one after the other make it up again. -/
theorem TextMap.foldl_insert_toList {α : Type} (map : TextMap α) :
    map.toList.foldl (fun m e => m.insert e.1 e.2) ∅ = map := by
  rw [← Std.ExtTreeMap.insertMany_list_eq_foldl]
  refine Std.ExtTreeMap.ext_getElem? fun k => ?_
  cases hk : map[k]? with
  | some a =>
      exact Std.ExtTreeMap.getElem?_insertMany_list_of_mem Std.ReflCmp.compare_self
        Std.ExtTreeMap.distinct_keys_toList
        (Std.ExtTreeMap.mem_toList_iff_getElem?_eq_some.mpr hk)
  | none =>
      have hnot : (map.toList.map Prod.fst).contains k = false := by
        rw [List.contains_eq_mem, decide_eq_false_iff_not, List.mem_map]
        rintro ⟨⟨k, a⟩, ha, rfl⟩
        rw [Std.ExtTreeMap.mem_toList_iff_getElem?_eq_some, hk] at ha
        exact nomatch ha
      rw [Std.ExtTreeMap.getElem?_insertMany_list_of_contains_eq_false hnot]
      exact Std.ExtTreeMap.getElem?_empty

namespace Document

variable {α β : Type}

/-- In either dialect the value is read as this. -/
def Reader.Reads (read : Reader α) (v : Value) (a : α) : Prop :=
  ∀ d, read d v = .ok a

/-- In either dialect the members are read as this. -/
def Fields.Reads (x : Fields α) (ms : List (String × Value)) (a : α) : Prop :=
  ∀ d n, x.ofMembers d ms n = .ok a

/-! ## Fields -/

namespace Fields.Reads

variable {ms : List (String × Value)} {name : String} {a : α} {v : Value}

theorem map {x : Fields α} (f : α → β) (hx : x.Reads ms a) : (f <$> x).Reads ms (f a) :=
  fun d n => map_eq_ok.mpr ⟨a, hx d n, rfl⟩

theorem seq {f : Fields (α → β)} {x : Fields α} {g : α → β} (hf : f.Reads ms g)
    (hx : x.Reads ms a) : (f <*> x).Reads ms (g a) :=
  fun d n => seq_eq_ok.mpr ⟨g, hf d n, a, hx d _, rfl⟩

theorem required {read : Reader α} (hv : read.Reads v a)
    (h : membersNamed name ms = [(name, v)]) : (Fields.required name read).Reads ms a := by
  intro d n
  rw [required_eq_ok, h]
  exact ⟨(name, v), rfl, hv d⟩

theorem withDefault {read : Reader α} {absent : α} (hv : read.Reads v a)
    (h : membersNamed name ms = [(name, v)]) :
    (Fields.withDefault name read absent).Reads ms a := by
  intro d n
  rw [withDefault_eq_ok, fieldValue, h]
  exact hv d

/-- A field that is left out has its default. -/
theorem absent {read : Reader α} {absent : α} (h : membersNamed name ms = []) :
    (Fields.withDefault name read absent).Reads ms absent := by
  intro d n
  rw [withDefault_eq_ok, fieldValue, h]
  rfl

end Fields.Reads

/-! ## Readers -/

namespace Reader.Reads

variable {a : α} {v : Value}

theorem string (s : String) : Reader.string.Reads (.string s) s := fun _ => rfl

theorem bool (b : Bool) : Reader.bool.Reads (.bool b) b := fun _ => rfl

theorem map {read : Reader α} (f : α → β) (h : read.Reads v a) :
    (Reader.map f read).Reads v (f a) :=
  fun d => map_eq_ok_iff.mpr ⟨a, h d, rfl⟩

/-- Items are read one by one. -/
theorem list {read : Reader α} {value : α → Value} {as : List α}
    (h : ∀ a ∈ as, read.Reads (value a) a) :
    (Reader.list read).Reads (.list (as.map value)) as := by
  intro d
  rw [Reader.list_eq_ok, List.forall₂_map_left_iff, List.forall₂_same]
  exact fun a ha => h a ha d

/-- What may be absent is null if it is. -/
theorem nullable {read : Reader α} {value : α → Value} {o : Option α}
    (h : ∀ a ∈ o, read.Reads (value a) a) (hnull : ∀ a, value a ≠ .null) :
    (Reader.nullable read).Reads (optionalValue value o) o := by
  intro d
  cases o with
  | none => rfl
  | some a =>
      have hread : (read d (value a)).map some = .ok (some a) :=
        map_eq_ok_iff.mpr ⟨a, h a rfl d, rfl⟩
      show Reader.nullable read d (value a) = .ok (some a)
      rw [Reader.nullable]
      · exact hread
      · exact hnull a

/-- A map comes back from its entries. -/
theorem textMap {read : Reader α} {value : α → Value} {map : TextMap α}
    (h : ∀ e ∈ map.toList, read.Reads (value e.2) e.2) :
    (Reader.textMap read).Reads (TextMap.toValue value map) map := by
  intro d
  have hentries : (map.toList.map fun e => (e.1, value e.2)).mapM
      (fun m => (read d m.2).map fun x => (m.1, x)) = .ok map.toList := by
    rw [mapM_eq_ok_iff, List.forall₂_map_left_iff, List.forall₂_same]
    exact fun e he => map_eq_ok_iff.mpr ⟨e.2, h e he d, rfl⟩
  exact Reader.textMap_eq_ok.mpr ⟨map.toList, hentries, map.foldl_insert_toList⟩

/-- A record is read from some of its fields in order. -/
theorem record {name : String} {fields : Fields α} {ms : List (String × Value)}
    (hnodup : fields.names.Nodup) (hms : (ms.map Prod.fst).Sublist fields.names)
    (h : fields.Reads ms a) : (Document.record name fields).Reads (.map ms) a :=
  fun d => record_eq_ok.mpr ⟨orderly_of_nodup (hnodup.sublist hms) fun _ he hname =>
    absurd (hms.subset (List.mem_map_of_mem he)) hname, h d 0⟩

/-- The members of the inner record are what the fields beside them leave. -/
theorem flattened {name : String} {own : Fields α} {inner : Fields β}
    {ms left : List (String × Value)} {a : α} {b : β} (hms : (ms.map Prod.fst).Nodup)
    (hwhole : ∀ e ∈ ms, e.2.isWhole = true) (hown : own.Reads ms a)
    (hleft : ms.filter (fun m => !own.names.contains m.1) = left)
    (hinner : inner.Reads left b) :
    (Document.flattened name own inner).Reads (.map ms) (a, b) := by
  intro d
  have hsub : (left.map Prod.fst).Nodup := by
    rw [← hleft]
    exact hms.sublist (List.filter_sublist.map Prod.fst)
  refine flattened_eq_ok.mpr ⟨⟨orderly_of_nodup hms fun e he _ => hwhole e he, hown d 0⟩, ?_⟩
  rw [hleft]
  exact ⟨orderly_of_nodup hsub fun _ _ _ => rfl, hinner d 0⟩

end Reader.Reads

end Document

/-! ## Artifacts and dependencies -/

namespace Artifact

theorem names_fields :
    fields.names = ["group", "artifact", "classifier", "type", "version"] := rfl

/-- Every field stands there once, apart from a classifier that is empty. -/
theorem membersNamed_members (a : Artifact) :
    membersNamed "group" a.members = [("group", .string a.group)]
      ∧ membersNamed "artifact" a.members = [("artifact", .string a.artifact)]
      ∧ membersNamed "classifier" a.members =
          (if a.classifier = "" then [] else [("classifier", .string a.classifier)])
      ∧ membersNamed "type" a.members = [("type", .string a.type)]
      ∧ membersNamed "version" a.members = [("version", .string a.version)] := by
  by_cases h : a.classifier = ""
  · simp [members, membersNamed, h]
  · simp [members, membersNamed, h]

theorem members_sublist (a : Artifact) : (a.members.map Prod.fst).Sublist fields.names := by
  rw [names_fields]
  by_cases h : a.classifier = ""
  · rw [members, if_pos h]
    show ["group", "artifact", "type", "version"].Sublist _
    decide
  · rw [members, if_neg h]
    exact List.Sublist.refl _

theorem mem_members {a : Artifact} {e : String × Value} (he : e ∈ a.members) :
    e.1 ∈ fields.names ∧ ∃ s, e.2 = .string s := by
  refine ⟨a.members_sublist.subset (List.mem_map_of_mem he), ?_⟩
  simp only [members, List.mem_append, List.mem_cons, List.not_mem_nil, or_false] at he
  rcases he with ((rfl | rfl) | he) | rfl | rfl
  · exact ⟨_, rfl⟩
  · exact ⟨_, rfl⟩
  · split at he
    · exact absurd he List.not_mem_nil
    · rw [List.mem_singleton.mp he]
      exact ⟨_, rfl⟩
  · exact ⟨_, rfl⟩
  · exact ⟨_, rfl⟩

/-- The members of an artifact are read as the artifact, but for a blank
    type. -/
theorem reads_members (a : Artifact) : fields.Reads a.members a.normalized := by
  obtain ⟨hgroup, hartifact, hclassifier, htype, hversion⟩ := a.membersNamed_members
  have hclass : (Fields.withDefault "classifier" Reader.string "").Reads a.members
      a.classifier := by
    by_cases h : a.classifier = ""
    · rw [if_pos h] at hclassifier
      rw [h]
      exact .absent hclassifier
    · rw [if_neg h] at hclassifier
      exact .withDefault (.string _) hclassifier
  exact .seq (.seq (.seq (.seq (.map _ (.required (.string _) hgroup))
    (.required (.string _) hartifact)) hclass)
    (.withDefault (.map normalizeType (.string _)) htype))
    (.required (.string _) hversion)

theorem reads_toValue (a : Artifact) : reader.Reads a.toValue a.normalized :=
  .record (by decide) a.members_sublist a.reads_members

end Artifact

theorem Scope.reads_toValue (s : Scope) : reader.Reads s.toValue s := by
  intro d
  cases s <;> cases d <;> rfl

namespace Dependency

/-- The members of a dependency that are not of its artifact. -/
def ownMembers (d : Dependency) : List (String × Value) :=
  [("scope", d.scope.toValue), ("runtime-cp", .bool d.runtime), ("optional", .bool d.optional)]

theorem names_fields : fields.names = ["scope", "runtime-cp", "optional"] := rfl

/-- No field of an artifact is called like one of a dependency. -/
theorem disjoint_names :
    ∀ name ∈ Artifact.fields.names, ∀ name' ∈ fields.names, name ≠ name' := by
  decide

theorem membersNamed_append_ownMembers (d : Dependency) {name : String}
    (h : name ∈ fields.names) :
    membersNamed name (d.artifact.members ++ d.ownMembers) =
      membersNamed name d.ownMembers := by
  have hnil : membersNamed name d.artifact.members = [] := by
    refine List.filter_eq_nil_iff.mpr fun e he heq => ?_
    rw [decide_eq_true_eq] at heq
    exact disjoint_names _ (Artifact.mem_members he).1 _ h heq
  rw [membersNamed, List.filter_append, ← membersNamed, hnil]
  rfl

theorem reads_own (d : Dependency) : fields.Reads (d.artifact.members ++ d.ownMembers)
    fun a => ⟨a, d.scope, d.runtime, d.optional⟩ := by
  refine .seq (.seq (.map _ (.withDefault d.scope.reads_toValue ?_))
    (.withDefault (.bool _) ?_)) (.withDefault (.bool _) ?_)
  · exact d.membersNamed_append_ownMembers (by decide)
  · exact d.membersNamed_append_ownMembers (by decide)
  · exact d.membersNamed_append_ownMembers (by decide)

theorem map_fst_ownMembers (d : Dependency) : d.ownMembers.map Prod.fst = fields.names := rfl

theorem reads_toValue (d : Dependency) : reader.Reads d.toValue d.normalized := by
  have hown : ∀ e ∈ d.ownMembers, e.1 ∈ fields.names := by
    intro e he
    rw [← d.map_fst_ownMembers]
    exact List.mem_map_of_mem he
  have hnodup : ((d.artifact.members ++ d.ownMembers).map Prod.fst).Nodup := by
    rw [List.map_append, map_fst_ownMembers]
    have hartifact : Artifact.fields.names.Nodup := by decide
    exact List.nodup_append.mpr ⟨hartifact.sublist d.artifact.members_sublist, by decide,
      fun name hname => disjoint_names name (d.artifact.members_sublist.subset hname)⟩
  have hwhole : ∀ e ∈ d.artifact.members ++ d.ownMembers, e.2.isWhole = true := by
    intro e he
    rcases List.mem_append.mp he with he | he
    · obtain ⟨-, s, hs⟩ := Artifact.mem_members he
      rw [hs]
      rfl
    · simp only [ownMembers, List.mem_cons, List.not_mem_nil, or_false] at he
      rcases he with rfl | rfl | rfl
      · rfl
      · rfl
      · rfl
  have hleft : (d.artifact.members ++ d.ownMembers).filter
      (fun m => !fields.names.contains m.1) = d.artifact.members := by
    have hkeep : d.artifact.members.filter (fun m => !fields.names.contains m.1) =
        d.artifact.members := by
      refine List.filter_eq_self.mpr fun e he => ?_
      have hnot : e.1 ∉ fields.names := fun h =>
        disjoint_names _ (Artifact.mem_members he).1 _ h rfl
      simpa using hnot
    have hdrop : d.ownMembers.filter (fun m => !fields.names.contains m.1) = [] := by
      refine List.filter_eq_nil_iff.mpr fun e he => ?_
      simpa using hown e he
    rw [List.filter_append, hkeep, hdrop, List.append_nil]
  exact .map (fun p => p.1 p.2)
    (.flattened hnodup hwhole d.reads_own hleft d.artifact.reads_members)

end Dependency

/-! ## Contracts and platforms -/

theorem Contract.reads_toValue (c : Contract) : reader.Reads c.toValue c :=
  .record (by decide) (.refl _) (.seq (.map _ (.required (.string _) rfl))
    (.withDefault (.list fun s _ => .string s) rfl))

theorem Platform.reads_toValue {p : Platform} (h : ∀ bom ∈ p.boms, bom.normalized = bom) :
    reader.Reads p.toValue p := by
  have hboms : ∀ bom ∈ p.boms, Artifact.reader.Reads bom.toValue bom := by
    intro bom hbom
    have hread := bom.reads_toValue
    rw [h bom hbom] at hread
    exact hread
  exact .record (by decide) (.refl _) (.seq (.map _ (.withDefault (.list hboms) rfl))
    (.withDefault (.textMap fun e _ => .string e.2) rfl))

/-! ## Descriptors -/

theorem Coordinate.reads_toValue {k : Coordinate} (h : k.Tidy) :
    Reader.coordinate.Reads k.toValue k :=
  fun _ => Reader.coordinate_eq_ok.mpr (parse_display h)

theorem Marks.reads_keysField {s : Marks (List Coordinate)}
    (h : ∀ m, ∀ k ∈ s.get m, k.Tidy) (m : Mark) :
    (keysField m).Reads
      (Mark.all.map fun m => (m.name, Value.list ((s.get m).map Coordinate.toValue)))
      (s.get m) := by
  refine .withDefault (.list fun k hk => Coordinate.reads_toValue (h m k hk)) ?_
  cases m <;> rfl

theorem Marks.reads_toValue {s : Marks (List Coordinate)}
    (h : ∀ m, ∀ k ∈ s.get m, k.Tidy) : reader.Reads s.toValue s :=
  .record (by decide) (.refl _) (.seq (.seq (.seq (.seq (.map _ (reads_keysField h _))
    (reads_keysField h _)) (reads_keysField h _)) (reads_keysField h _))
    (reads_keysField h _))

/-- A canonical descriptor comes back from its value. -/
theorem Descriptor.reads_toValue {x : Descriptor} (h : x.Canonical) :
    reader.Reads x.toValue x := by
  have happ : ∀ a ∈ x.app, Artifact.reader.Reads a.toValue a := by
    intro a ha
    have hread := a.reads_toValue
    rw [h.app a ha] at hread
    exact hread
  have hdeps : ∀ d ∈ x.dependencies, Dependency.reader.Reads d.toValue d := by
    intro d hd
    have hread := d.reads_toValue
    rw [h.dependencies d hd] at hread
    exact hread
  refine .record (by decide) (.refl _) (.seq (.seq (.seq (.seq
    (.map _ (.withDefault (.nullable happ fun _ => ?_) rfl))
    (.withDefault (.list hdeps) rfl)) (.withDefault (Marks.reads_toValue h.tidy) rfl))
    (.withDefault (.textMap fun e _ => e.2.reads_toValue) rfl))
    (.withDefault (.nullable (fun p hp => Platform.reads_toValue (h.boms p hp)) fun _ => ?_) rfl))
  · exact fun hnull => nomatch hnull
  · exact fun hnull => nomatch hnull

/-- Reading undoes what `toValue` does: for every descriptor that comes from a
    text, and for every artifact and dependency whatsoever, except that a blank
    type is named; so these keep their coordinate, and once they have been
    there and back they no longer change. -/
theorem reader_toValue :
    (∀ (text : String) (x : Descriptor), Descriptor.parse text = .ok x →
        ∀ d, Descriptor.reader d x.toValue = .ok x)
      ∧ (∀ (a : Artifact) (d : Dialect),
          let b : Artifact :=
            { a with type := if a.type.toList.all Text.isBlank then "jar" else a.type }
          Artifact.reader d a.toValue = .ok b ∧ b.key = a.key
            ∧ Artifact.reader d b.toValue = .ok b)
      ∧ ∀ (x : Dependency) (d : Dialect),
          let y : Dependency :=
            { x with artifact.type :=
                if x.artifact.type.toList.all Text.isBlank then "jar" else x.artifact.type }
          Dependency.reader d x.toValue = .ok y ∧ y.key = x.key
            ∧ Dependency.reader d y.toValue = .ok y := by
  refine ⟨fun text x h d => ?_, fun a d => ?_, fun x d => ?_⟩
  · exact Descriptor.reads_toValue (Descriptor.canonical_of_parse h) d
  · have hagain := a.normalized.reads_toValue d
    rw [Artifact.normalized_normalized] at hagain
    exact ⟨a.reads_toValue d, a.key_normalized, hagain⟩
  · have hagain := x.normalized.reads_toValue d
    rw [Dependency.normalized_normalized] at hagain
    exact ⟨x.reads_toValue d, x.key_normalized, hagain⟩

set_option maxRecDepth 4000 in
/-- A descriptor with a blank type and a coordinate between blanks: what was
    read of it comes back. -/
theorem reader_toValue_blank :
    let text := "app=['g','a','',' ','1']\n[classification]\nexcluded=['a:b: ']"
    let x : Descriptor :=
      { app := some { group := "g", artifact := "a", version := "1" }
        classification := ⟨[], [], [⟨"a", "b", "", "jar"⟩], [], []⟩ }
    Descriptor.parse text = .ok x ∧ Descriptor.reader .json x.toValue = .ok x := by
  intro text x
  have hv : Toml.read? text = some (.map
      [("app", .list [.string "g", .string "a", .string "", .string " ", .string "1"]),
      ("classification", .map [("excluded", .list [.string "a:b: "])])]) := by
    cbv
  have hx : Descriptor.parse text = .ok x := Descriptor.parse_eq_ok.mpr ⟨_, hv, by rfl⟩
  exact ⟨hx, reader_toValue.1 text x hx .json⟩

end Classpath
