import Classpath.Proofs.Coordinate.Listed
import Classpath.Proofs.Document.Fields
import Classpath.Source

/-! # Classified — descriptors with and without lists of coordinates

    A descriptor is read field by field, and so is its classification
    (`Descriptor.reader_eq_ok`, `Marks.reader_eq_ok`).  The lists that an
    extension could set as well may therefore be taken out of the
    classification: with them the descriptor is read exactly if it is read
    without them and all they list are coordinates, and what is read differs
    in these coordinates only (`Descriptor.reader_classified`). -/

namespace Classpath

open Document

variable {d : Dialect} {ms ms' sec sec' : List (String × Value)}
  {lists : Mark → List String}

/-! ## Lists -/

namespace Document.Reader

theorem list_eq_ok {α : Type} {read : Reader α} {items : List Value} {xs : List α} :
    list read d (.list items) = .ok xs ↔
      List.Forall₂ (fun v x => read d v = .ok x) items xs := by
  rw [← mapM_eq_ok_iff]
  show (items.mapM (read d) >>= fun xs => unlessFlawed none xs) = .ok xs ↔ _
  cases items.mapM (read d) with
  | error fault => exact iff_of_false (fun h => nomatch h) (fun h => nomatch h)
  | ok xs => exact Iff.rfl

/-- A map is read entry by entry. -/
theorem textMap_eq_ok {α : Type} {read : Reader α} {map : TextMap α} :
    textMap read d (.map ms) = .ok map ↔
      ∃ entries, ms.mapM (fun m => (read d m.2).map fun a => (m.1, a)) = .ok entries
        ∧ entries.foldl (fun map e => map.insert e.1 e.2) ∅ = map := by
  show (ms.mapM (fun m => (read d m.2).map fun a => (m.1, a)) >>= fun entries =>
    unlessFlawed none (entries.foldl (fun map e => map.insert e.1 e.2) ∅)) = .ok map ↔ _
  rw [bind_eq_ok_iff]
  exact exists_congr fun entries =>
    and_congr_right fun _ => ⟨Except.ok.inj, congrArg Except.ok⟩

theorem coordinate_eq_ok {s : String} {k : Coordinate} :
    coordinate d (.string s) = .ok k ↔ Coordinate.parse s = .ok k := by
  cases hparse : Coordinate.parse s with
  | error cause => simp [coordinate, string, text, bind, Except.bind, hparse]
  | ok key => simp [coordinate, string, text, bind, Except.bind, hparse]

/-- An array of texts is read as the coordinates that they are. -/
theorem coordinates_eq_ok {texts : List String} {ks : List Coordinate} :
    list coordinate d (.list (texts.map .string)) = .ok ks ↔
      List.Forall₂ (fun s k => Coordinate.parse s = .ok k) texts ks := by
  rw [list_eq_ok, List.forall₂_map_left_iff]
  simp only [coordinate_eq_ok]

end Document.Reader

/-! ## Classifications -/

namespace Marks

/-- The marks with these values. -/
def of {σ : Type} (f : Mark → σ) : Marks σ :=
  ⟨f .parentFirst, f .runnerParentFirst, f .excluded, f .lesserPriority, f .localProject⟩

@[simp] theorem get_of {σ : Type} (f : Mark → σ) (m : Mark) : (of f).get m = f m := by
  cases m <;> rfl

/-- Further coordinates for the marks that an extension may set. -/
def extend (s : Marks (List Coordinate)) (keys : Mark → List Coordinate) :
    Marks (List Coordinate) :=
  of fun m => s.get m ++ if m ∈ Mark.fromExtensions then keys m else []

/-- A classification is read list by list. -/
theorem reader_eq_ok {s : Marks (List Coordinate)} :
    reader d (.map ms) = .ok s ↔
      Orderly (Mark.all.map Mark.name) Value.isPassable ms
        ∧ ∀ m : Mark,
          fieldValue m.name (Reader.list Reader.coordinate) [] d ms = .ok (s.get m) := by
  rw [reader, record_eq_ok]
  refine and_congr Iff.rfl ?_
  simp only [fields, keysField, Fields.seq_eq_ok, Fields.map_eq_ok, Fields.withDefault_eq_ok]
  constructor
  · rintro ⟨_, ⟨_, ⟨_, ⟨_, ⟨a, ha, rfl⟩, b, hb, rfl⟩, c, hc, rfl⟩, e, he, rfl⟩, f, hf, rfl⟩ m
    cases m with
    | parentFirst => exact ha
    | runnerParentFirst => exact hb
    | excluded => exact hc
    | lesserPriority => exact he
    | localProject => exact hf
  · intro h
    exact ⟨_, ⟨_, ⟨_, ⟨_, ⟨_, h .parentFirst, rfl⟩, _, h .runnerParentFirst, rfl⟩,
      _, h .excluded, rfl⟩, _, h .lesserPriority, rfl⟩, _, h .localProject, rfl⟩

/-- These members list texts for the marks that an extension may set; a list
    without texts may be left out. -/
def ListedIn (sec : List (String × Value)) (lists : Mark → List String) : Prop :=
  ∀ m ∈ Mark.fromExtensions,
    Holds sec m.name (.list ((lists m).map .string)) (.list [])

/-- Lists are read as the coordinates that their texts are. -/
theorem ListedIn.fieldValue_eq_ok (h : ListedIn sec lists) {m : Mark}
    (hm : m ∈ Mark.fromExtensions) {ks : List Coordinate} :
    fieldValue m.name (Reader.list Reader.coordinate) [] d sec = .ok ks ↔
      List.Forall₂ (fun s k => Coordinate.parse s = .ok k) (lists m) ks := by
  rw [(h m hm).fieldValue_eq rfl, Reader.coordinates_eq_ok]

/-- No list stands there twice. -/
theorem ListedIn.length_le_one (h : ListedIn sec lists) :
    ∀ name ∈ Mark.fromExtensions.map Mark.name, (membersNamed name sec).length ≤ 1 := by
  intro name hname
  obtain ⟨m, hm, rfl⟩ := List.mem_map.mp hname
  exact (h m hm).length_le_one

/-- Lists come into a classification in addition to what it has. -/
theorem reader_listedIn (hsec : ListedIn sec lists) (hsec' : ListedIn sec' fun _ => [])
    (hagree : AgreeApart (Mark.fromExtensions.map Mark.name) sec sec')
    {s : Marks (List Coordinate)} :
    reader d (.map sec) = .ok s ↔
      ∃ s' ks, reader d (.map sec') = .ok s'
        ∧ (∀ m ∈ Mark.fromExtensions,
            List.Forall₂ (fun s k => Coordinate.parse s = .ok k) (lists m) (ks m))
        ∧ s = s'.extend ks := by
  have hnames : Mark.fromExtensions.map Mark.name ⊆ Mark.all.map Mark.name := by
    decide
  have hother : ∀ m ∉ Mark.fromExtensions, m.name ∉ Mark.fromExtensions.map Mark.name := by
    intro m
    cases m <;> decide
  simp only [reader_eq_ok]
  constructor
  · -- What was there without the lists is what the local project has.
    rintro ⟨horderly, hs⟩
    refine ⟨of fun m => if m ∈ Mark.fromExtensions then [] else s.get m, s.get,
      ⟨hagree.orderly hnames hsec'.length_le_one horderly, fun m => ?_⟩,
      fun m hm => (hsec.fieldValue_eq_ok hm).mp (hs m), ext_get fun m => ?_⟩
    · rw [get_of]
      by_cases hm : m ∈ Mark.fromExtensions
      · rw [if_pos hm]
        exact (hsec'.fieldValue_eq_ok hm).mpr .nil
      · rw [if_neg hm, ← hs m]
        exact (hagree.fieldValue_eq (hother m hm) _ _ d).symm
    · rw [extend, get_of, get_of]
      by_cases hm : m ∈ Mark.fromExtensions
      · rw [if_pos hm, if_pos hm, List.nil_append]
      · rw [if_neg hm, if_neg hm, List.append_nil]
  · rintro ⟨s', ks, ⟨horderly, hs'⟩, hks, rfl⟩
    refine ⟨hagree.symm.orderly hnames hsec.length_le_one horderly, fun m => ?_⟩
    rw [extend, get_of]
    by_cases hm : m ∈ Mark.fromExtensions
    · have hnil : s'.get m = [] :=
        List.forall₂_nil_left_iff.mp ((hsec'.fieldValue_eq_ok hm).mp (hs' m))
      rw [if_pos hm, hnil, List.nil_append]
      exact (hsec.fieldValue_eq_ok hm).mpr (hks m hm)
    · rw [if_neg hm, List.append_nil, ← hs' m]
      exact hagree.fieldValue_eq (hother m hm) _ _ d

end Marks

/-! ## Descriptors -/

namespace Descriptor

/-- A descriptor is read part by part. -/
theorem reader_eq_ok {x : Descriptor} :
    reader d (.map ms) = .ok x ↔
      Orderly fields.names Value.isPassable ms
        ∧ fieldValue "app" (Reader.nullable Artifact.reader) none d ms = .ok x.app
        ∧ fieldValue "dependencies" (Reader.list Dependency.reader) [] d ms =
            .ok x.dependencies
        ∧ fieldValue "classification" Marks.reader (.const []) d ms = .ok x.classification
        ∧ fieldValue "capabilities" (Reader.textMap Contract.reader) ∅ d ms =
            .ok x.capabilities
        ∧ fieldValue "platform" (Reader.nullable Platform.reader) none d ms =
            .ok x.platform := by
  rw [reader, record_eq_ok]
  refine and_congr_right fun _ => ?_
  simp only [fields, Fields.seq_eq_ok, Fields.map_eq_ok, Fields.withDefault_eq_ok]
  constructor
  · rintro ⟨_, ⟨_, ⟨_, ⟨_, ⟨a, ha, rfl⟩, b, hb, rfl⟩, c, hc, rfl⟩, e, he, rfl⟩, f, hf, rfl⟩
    exact ⟨ha, hb, hc, he, hf⟩
  · rintro ⟨ha, hb, hc, he, hf⟩
    exact ⟨_, ⟨_, ⟨_, ⟨_, ⟨_, ha, rfl⟩, _, hb, rfl⟩, _, hc, rfl⟩, _, he, rfl⟩, _, hf, rfl⟩

/-- A descriptor is read from the document that a text holds. -/
theorem parse_eq_ok {text : String} {x : Descriptor} :
    parse text = .ok x ↔ ∃ v, Toml.read? text = some v ∧ reader .toml v = .ok x := by
  rw [parse, Toml.decode]
  cases Toml.read? text with
  | none => exact iff_of_false (fun h => nomatch h) fun ⟨_, h, _⟩ => nomatch h
  | some v =>
      simp only [Option.some.injEq, exists_eq_left']
      cases reader .toml v with
      | error cause => exact iff_of_false (fun h => nomatch h) fun h => nomatch h
      | ok y => simp

/-- Further coordinates in the classification of a descriptor. -/
def extend (x : Descriptor) (keys : Mark → List Coordinate) : Descriptor :=
  { x with classification := x.classification.extend keys }

/-- These members hold a classification that lists texts; it may be left out
    if it is empty. -/
def ClassifiedBy (ms sec : List (String × Value)) (lists : Mark → List String) : Prop :=
  Holds ms "classification" (.map sec) (.map []) ∧ Marks.ListedIn sec lists

/-- Lists come into a descriptor in addition to what it has. -/
theorem reader_classified (hms : ClassifiedBy ms sec lists)
    (hms' : ClassifiedBy ms' sec' fun _ => [])
    (hagree : AgreeApart ["classification"] ms ms')
    (hagree' : AgreeApart (Mark.fromExtensions.map Mark.name) sec sec') {x : Descriptor} :
    reader d (.map ms) = .ok x ↔
      ∃ x' ks, reader d (.map ms') = .ok x'
        ∧ (∀ m ∈ Mark.fromExtensions,
            List.Forall₂ (fun s k => Coordinate.parse s = .ok k) (lists m) (ks m))
        ∧ x = x'.extend ks := by
  have hnames : ["classification"] ⊆ fields.names := by
    decide
  have honce : ∀ {ms sec : List (String × Value)},
      Holds ms "classification" (.map sec) (.map []) →
        ∀ name ∈ ["classification"], (membersNamed name ms).length ≤ 1 := by
    intro ms sec h name hname
    obtain rfl := List.mem_singleton.mp hname
    exact h.length_le_one
  have hvacuous : Marks.reader d (.map []) = .ok (.const []) := by
    rfl
  have horderly : Orderly fields.names Value.isPassable ms ↔
      Orderly fields.names Value.isPassable ms' :=
    ⟨hagree.orderly hnames (honce hms'.1), hagree.symm.orderly hnames (honce hms.1)⟩
  simp only [reader_eq_ok, horderly, hms.1.fieldValue_eq hvacuous,
    hms'.1.fieldValue_eq hvacuous, Marks.reader_listedIn hms.2 hms'.2 hagree',
    hagree.fieldValue_eq (show "app" ∉ ["classification"] by decide),
    hagree.fieldValue_eq (show "dependencies" ∉ ["classification"] by decide),
    hagree.fieldValue_eq (show "capabilities" ∉ ["classification"] by decide),
    hagree.fieldValue_eq (show "platform" ∉ ["classification"] by decide)]
  constructor
  · rintro ⟨ho, happ, hdeps, ⟨s', ks, hs', hks, hs⟩, hcaps, hplatform⟩
    refine ⟨{ x with classification := s' }, ks,
      ⟨ho, happ, hdeps, hs', hcaps, hplatform⟩, hks, ?_⟩
    rw [extend, ← hs]
  · rintro ⟨x', ks, ⟨ho, happ, hdeps, hs', hcaps, hplatform⟩, hks, rfl⟩
    exact ⟨ho, happ, hdeps, ⟨x'.classification, ks, hs', hks, rfl⟩, hcaps, hplatform⟩

end Descriptor

end Classpath
