import Classpath.Proofs.Coordinate.Display
import Classpath.Proofs.Document.Classified

/-! # Yielding — what all data that can be read have in common

    A reader may promise a property of everything it reads, whatever the
    document (`Reader.Yields`).  Promises combine as readers do: those for the
    fields of a record make up one for the record, whether it stands there as
    an object or as an array (`Reader.Yields.record`).  In this way coordinates
    are tidy and types are not blank wherever they stand in a descriptor
    (`Descriptor.yields_reader`). -/

namespace Classpath

open Document

namespace Document

variable {α β : Type}

/-- Whatever is read has this property. -/
def Reader.Yields (P : α → Prop) (read : Reader α) : Prop :=
  ∀ ⦃d v a⦄, read d v = .ok a → P a

/-- Whatever is made of these fields has this property. -/
structure Fields.Yields (P : α → Prop) (x : Fields α) : Prop where
  ofMembers : ∀ ⦃d ms n a⦄, x.ofMembers d ms n = .ok a → P a
  ofItems : ∀ ⦃d items short n a⦄, x.ofItems d items short n = .ok a → P a

/-! ## Fields -/

namespace Fields.Yields

variable {P : α → Prop} {Q : β → Prop} {name : String}

theorem map {x : Fields α} {f : α → β} (hx : x.Yields P) (hf : ∀ a, P a → Q (f a)) :
    (f <$> x).Yields Q where
  ofMembers d ms n b h := by
    obtain ⟨a, ha, rfl⟩ := map_eq_ok.mp h
    exact hf a (hx.ofMembers ha)
  ofItems d items short n b h := by
    obtain ⟨a, ha, rfl⟩ := map_items_eq_ok.mp h
    exact hf a (hx.ofItems ha)

/-- A promise for the data that are still to come is kept by those that
    come. -/
theorem seq {f : Fields (α → β)} {x : Fields α}
    (hf : f.Yields fun g => ∀ a, P a → Q (g a)) (hx : x.Yields P) : (f <*> x).Yields Q where
  ofMembers d ms n b h := by
    obtain ⟨g, hg, a, ha, rfl⟩ := seq_eq_ok.mp h
    exact hf.ofMembers hg a (hx.ofMembers ha)
  ofItems d items short n b h := by
    obtain ⟨g, hg, a, ha, rfl⟩ := seq_items_eq_ok.mp h
    exact hf.ofItems hg a (hx.ofItems ha)

theorem field {read : Reader α} {absent : Option α} (hread : read.Yields P)
    (habsent : ∀ a ∈ absent, P a) : (Fields.field name read absent).Yields P where
  ofMembers d ms n a h := by
    rw [field_eq_ok] at h
    split at h
    · exact hread h
    · exact habsent a h
  ofItems d items short n a h := by
    rw [field_items_eq_ok] at h
    split at h
    · exact hread h
    · exact habsent a h

theorem required {read : Reader α} (hread : read.Yields P) :
    (Fields.required name read).Yields P :=
  field hread fun _ h => nomatch h

theorem withDefault {read : Reader α} {absent : α} (hread : read.Yields P)
    (habsent : P absent) : (Fields.withDefault name read absent).Yields P :=
  field hread fun _ h => Option.some.inj h ▸ habsent

end Fields.Yields

/-! ## Readers -/

/-- Nothing flawed is read. -/
theorem Reader.unlessFlawed_eq_ok {flaw : Option Flaw} {a b : α} :
    Reader.unlessFlawed flaw a = .ok b ↔ flaw = none ∧ a = b := by
  cases flaw with
  | none => simp [Reader.unlessFlawed]
  | some flaw => simp [Reader.unlessFlawed]

namespace Reader.Yields

variable {P : α → Prop} {Q : β → Prop}

/-- Nothing is promised. -/
theorem true (read : Reader α) : read.Yields fun _ => True := fun _ _ _ _ => trivial

theorem map {read : Reader α} {f : α → β} (hread : read.Yields P)
    (hf : ∀ a, P a → Q (f a)) : (Reader.map f read).Yields Q := by
  intro d v b h
  obtain ⟨a, ha, rfl⟩ := map_eq_ok_iff.mp h
  exact hf a (hread ha)

theorem nullable {read : Reader α} (hread : read.Yields P) :
    (Reader.nullable read).Yields fun o => ∀ a ∈ o, P a := by
  intro d v o h a ha
  rw [Option.mem_def] at ha
  subst ha
  have hmap : (read d v).map some = .ok (some a) := by
    cases v with
    | null => exact absurd (Except.ok.inj h) (Option.some_ne_none a).symm
    | _ => exact h
  obtain ⟨b, hb, hba⟩ := map_eq_ok_iff.mp hmap
  exact Option.some.inj hba ▸ hread hb

/-- What is put together from items that were read keeps their promise. -/
theorem of_mapM {ι : Type} {f : ι → Except ReadFault α} (hf : ∀ i a, f i = .ok a → P a)
    {is : List ι} {as : List α} (h : is.mapM f = .ok as) : ∀ a ∈ as, P a := by
  induction mapM_eq_ok_iff.mp h with
  | nil => exact fun a ha => absurd ha List.not_mem_nil
  | cons ha _ ih =>
      rw [List.forall_mem_cons]
      exact ⟨hf _ _ ha, ih (mapM_eq_ok_iff.mpr ‹_›)⟩

theorem list {read : Reader α} (hread : read.Yields P) :
    (Reader.list read).Yields fun as => ∀ a ∈ as, P a := by
  intro d v as h
  cases v with
  | array items flaw =>
      obtain ⟨as', hitems, hflaw⟩ := bind_eq_ok_iff.mp h
      rw [← (unlessFlawed_eq_ok.mp hflaw).2]
      exact of_mapM (fun _ _ hv => hread hv) hitems
  | _ => exact nomatch h

theorem record {name : String} {fields : Fields α} (hfields : fields.Yields P) :
    (Document.record name fields).Yields P := by
  intro d v a h
  have hmembers : ∀ {ms flaw}, fields.readMembers Value.isPassable d ms flaw = .ok a → P a :=
    fun h => hfields.ofMembers (Fields.readMembers_eq_ok.mp h).2.2
  cases v with
  | array items flaw => exact hfields.ofItems (Fields.readItems_eq_ok.mp h).2.2
  | object ms flaw => exact hmembers h
  | moment shown => exact hmembers h
  | _ => exact nomatch h

theorem flattened {name : String} {own : Fields α} {inner : Fields β} (hown : own.Yields P)
    (hinner : inner.Yields Q) :
    (Document.flattened name own inner).Yields fun p => P p.1 ∧ Q p.2 := by
  intro d v p h
  rw [Document.flattened] at h
  cases hms : v.members? with
  | none =>
      rw [hms] at h
      exact nomatch h
  | some e =>
      rw [hms] at h
      obtain ⟨a, ha, hleft⟩ := bind_eq_ok_iff.mp h
      obtain ⟨b, hb, hp⟩ := bind_eq_ok_iff.mp hleft
      rw [← Except.ok.inj hp]
      exact ⟨hown.ofMembers (Fields.readMembers_eq_ok.mp ha).2.2,
        hinner.ofMembers (Fields.readMembers_eq_ok.mp hb).2.2⟩

/-- Whatever is read as a coordinate is tidy. -/
theorem coordinate : Reader.coordinate.Yields Coordinate.Tidy := by
  intro d v k h
  cases v with
  | string s =>
      exact Coordinate.tidy_of_parse (Reader.coordinate_eq_ok.mp h)
  | _ => exact nomatch h

end Reader.Yields

end Document

/-! ## Artifacts -/

/-- A type that names none is the default, and so is never blank. -/
theorem normalizeType_normalizeType (type : String) :
    normalizeType (normalizeType type) = normalizeType type := by
  by_cases h : type.toList.all Text.isBlank = true
  · have hdefault : normalizeType type = defaultType := if_pos h
    rw [hdefault]
    decide
  · have hself : normalizeType type = type := if_neg h
    rw [hself, hself]

namespace Artifact

/-- The artifact with a type in place of a blank one. -/
def normalized (a : Artifact) : Artifact := { a with type := normalizeType a.type }

theorem key_normalized (a : Artifact) : a.normalized.key = a.key := by
  rw [key, normalized, key, normalizeType_normalizeType]

theorem normalized_normalized (a : Artifact) : a.normalized.normalized = a.normalized := by
  rw [normalized, normalized, normalizeType_normalizeType]

/-- Of five fields only the type is looked at. -/
theorem yields_fields : fields.Yields fun a => a.normalized = a := by
  have htype : (Reader.string.map normalizeType).Yields fun t => normalizeType t = t :=
    (Reader.Yields.true _).map fun t _ => normalizeType_normalizeType t
  refine .seq (.seq (.seq (.seq (.map (P := fun _ => True) (.required (.true _)) ?_)
    (.required (.true _))) (.withDefault (.true _) trivial))
    (.withDefault htype (by decide))) (.required (.true _))
  intro g _ a _ c _ t ht v _
  rw [normalized, ht]

theorem yields_reader : reader.Yields fun a => a.normalized = a :=
  .record yields_fields

end Artifact

namespace Dependency

/-- The dependency on the artifact with a type in place of a blank one. -/
def normalized (d : Dependency) : Dependency :=
  { d with artifact := d.artifact.normalized }

theorem key_normalized (d : Dependency) : d.normalized.key = d.key :=
  d.artifact.key_normalized

theorem normalized_normalized (d : Dependency) : d.normalized.normalized = d.normalized := by
  rw [normalized, normalized, Artifact.normalized_normalized]

theorem yields_fields :
    fields.Yields fun f => ∀ a : Artifact, a.normalized = a → (f a).normalized = f a := by
  refine .seq (.seq (.map (P := fun _ => True) (.withDefault (.true _) trivial) ?_)
    (P := fun _ => True) (.withDefault (.true _) trivial))
    (P := fun _ => True) (.withDefault (.true _) trivial)
  intro scope _ runtime _ optional _ a ha
  rw [normalized, ha]

theorem yields_reader : reader.Yields fun d => d.normalized = d :=
  (Reader.Yields.flattened yields_fields Artifact.yields_fields).map
    fun p hp => hp.1 p.2 hp.2

end Dependency

/-! ## Descriptors -/

theorem Platform.yields_reader :
    Platform.reader.Yields fun p => ∀ bom ∈ p.boms, bom.normalized = bom := by
  refine .record (.seq (.map (.withDefault (.list Artifact.yields_reader) ?_) ?_)
    (.withDefault (.true _) trivial))
  · exact fun bom hbom => absurd hbom List.not_mem_nil
  · intro boms hboms properties _
    exact hboms

theorem Marks.yields_keysField (m : Mark) :
    (Marks.keysField m).Yields fun ks => ∀ k ∈ ks, k.Tidy :=
  .withDefault (.list .coordinate) fun _ hk => absurd hk List.not_mem_nil

theorem Marks.yields_reader : Marks.reader.Yields fun s => ∀ m, ∀ k ∈ s.get m, k.Tidy := by
  refine .record (.seq (.seq (.seq (.seq (.map (yields_keysField _) ?_) (yields_keysField _))
    (yields_keysField _)) (yields_keysField _)) (yields_keysField _))
  intro a ha b hb c hc e he f hf m
  cases m with
  | parentFirst => exact ha
  | runnerParentFirst => exact hb
  | excluded => exact hc
  | lesserPriority => exact he
  | localProject => exact hf

namespace Descriptor

/-- A descriptor as it is after reading: types are named, and coordinates come
    back from their display. -/
structure Canonical (x : Descriptor) : Prop where
  app : ∀ a ∈ x.app, a.normalized = a
  dependencies : ∀ d ∈ x.dependencies, d.normalized = d
  tidy : ∀ m, ∀ k ∈ x.classification.get m, k.Tidy
  boms : ∀ p ∈ x.platform, ∀ bom ∈ p.boms, bom.normalized = bom

/-- Whatever is read as a descriptor is canonical. -/
theorem yields_reader : reader.Yields Canonical := by
  refine .record (.seq (.seq (.seq (.seq
    (.map (.withDefault (.nullable Artifact.yields_reader) ?_) ?_)
    (.withDefault (.list Dependency.yields_reader) ?_))
    (.withDefault Marks.yields_reader ?_))
    (.withDefault (.true _) trivial))
    (.withDefault (.nullable Platform.yields_reader) ?_))
  · exact fun a ha => nomatch ha
  · intro app happ dependencies hdependencies classification htidy capabilities _ platform hboms
    exact ⟨happ, hdependencies, htidy, hboms⟩
  · exact fun d hd => absurd hd List.not_mem_nil
  · intro m k hk
    rw [Marks.get_const] at hk
    exact absurd hk List.not_mem_nil
  · exact fun p hp => nomatch hp

theorem canonical_of_parse {text : String} {x : Descriptor}
    (h : parse text = .ok x) : x.Canonical := by
  obtain ⟨v, -, hv⟩ := parse_eq_ok.mp h
  exact yields_reader hv

theorem canonical_of_ofSource {source : Source} {x : Descriptor} (h : ofSource source = .ok x) :
    x.Canonical := by
  rw [ofSource] at h
  cases hs : source.contents with
  | ok text =>
      rw [hs] at h
      exact canonical_of_parse h
  | error cause =>
      rw [hs] at h
      exact nomatch h

end Descriptor

end Classpath
