import Mathlib
import Classpath.Proofs.Document.Yielding
import Classpath.Proofs.Json.Writing
import Classpath.Proofs.Loading
import Classpath.Proofs.Toml.Sections

/-! # Rendering — a model is known by its text

    Two loaded models with the same text are the same model, in each format, on
    one line or pretty (`render_injective_of_load`).  Plain documents are known
    by their text, so what remains is that a document tells its model.  A
    classifier that is left out is an empty one, a section that is not there
    stands for data that are not there, and no two coordinates of the sets are
    displayed alike, because those of a loaded model are tidy
    (`Model.tidy_of_load`).  A model with a coordinate that is not tidy, say with
    a colon in its group, may have the text of another one.

    What a text in TOML tells of a document is what stands on its lines and in
    its sections, and this is enough (`Model.eq_of_direct_eq_of_sections_eq`);
    a text in JSON tells all of it. -/

namespace Classpath

open Document Toml

/-! ## Data known by their members -/

theorem Artifact.members_injective : members.Injective := by
  intro a b h
  obtain ⟨_, _, _, _, _⟩ := a
  obtain ⟨_, _, _, _, _⟩ := b
  simp only [members, List.cons_append, List.nil_append, List.cons.injEq,
    Prod.mk.injEq, Value.string.injEq, true_and] at h
  obtain ⟨rfl, rfl, h⟩ := h
  -- A classifier that is left out is empty, and one that is there is not.
  split at h <;> split at h <;> simp_all

theorem Artifact.flat_members (a : Artifact) : Flat a.members := by
  intro e he
  rw [members] at he
  simp only [List.mem_append, List.mem_cons, List.not_mem_nil, or_false] at he
  rcases he with ((rfl | rfl) | he) | rfl | rfl
  · rfl
  · rfl
  · split at he
    · exact absurd he List.not_mem_nil
    · rw [List.mem_singleton.mp he]
      rfl
  · rfl
  · rfl

namespace Dependency

/-- The members of a dependency. -/
def members (d : Dependency) : List (String × Value) :=
  d.artifact.members
    ++ [("scope", d.scope.toValue), ("runtime-cp", .bool d.runtime),
        ("optional", .bool d.optional)]

theorem members_injective : members.Injective := by
  intro d e h
  obtain ⟨hartifact, hrest⟩ := List.append_inj' h rfl
  obtain ⟨_, _, _, _⟩ := d
  obtain ⟨_, _, _, _⟩ := e
  simp only [List.cons.injEq, Prod.mk.injEq, Scope.toValue, Value.string.injEq, Value.bool.injEq,
    true_and, and_true] at hrest
  obtain ⟨hscope, rfl, rfl⟩ := hrest
  cases Artifact.members_injective hartifact
  cases Scope.name_injective hscope
  rfl

theorem flat_members (d : Dependency) : Flat d.members := by
  intro e he
  rcases List.mem_append.mp he with he | he
  · exact d.artifact.flat_members e he
  · simp only [List.mem_cons, List.not_mem_nil, or_false] at he
    rcases he with rfl | rfl | rfl <;> rfl

end Dependency

theorem isDirect_strings (texts : List String) :
    isDirect (.list (texts.map .string)) = true := by
  cases texts with
  | nil => rfl
  | cons text texts => rfl

namespace Contract

/-- The members of a contract. -/
def members (c : Contract) : List (String × Value) :=
  [("extension", .string c.extension), ("provides", .list (c.provides.map .string))]

theorem members_injective : members.Injective := by
  intro c c' h
  obtain ⟨_, _⟩ := c
  obtain ⟨_, _⟩ := c'
  simp only [members, List.cons.injEq, Prod.mk.injEq, Value.string.injEq, Value.array.injEq,
    true_and, and_true] at h
  obtain ⟨rfl, h⟩ := h
  rw [List.map_injective_iff.mpr (fun _ _ => Value.string.inj) h]

theorem flat_members (c : Contract) : Flat c.members := by
  intro e he
  simp only [members, List.mem_cons, List.not_mem_nil, or_false] at he
  rcases he with rfl | rfl
  · rfl
  · exact isDirect_strings c.provides

end Contract

namespace Platform

/-- The members of the properties of a platform. -/
def propertyMembers (p : Platform) : List (String × Value) :=
  p.properties.toList.map fun e => (e.1, .string e.2)

theorem flat_propertyMembers (p : Platform) : Flat p.propertyMembers := by
  intro e he
  obtain ⟨_, -, rfl⟩ := List.mem_map.mp he
  rfl

/-- A platform is its bills of material and its properties. -/
theorem ext_members {p p' : Platform} (hboms : p.boms = p'.boms)
    (hproperties : p.propertyMembers = p'.propertyMembers) : p = p' := by
  have hinjective : Function.Injective fun e : String × String => (e.1, Value.string e.2) := by
    intro e e' h
    simpa [Prod.ext_iff] using h
  obtain ⟨boms, properties⟩ := p
  obtain ⟨boms', properties'⟩ := p'
  obtain rfl : boms = boms' := hboms
  obtain rfl := Std.ExtTreeMap.toList_inj.mp (List.map_injective_iff.mpr hinjective hproperties)
  rfl

/-- The sections of a platform.  It has a header of its own only if it has no bills
    of material. -/
theorem sectionsAt_toValue (p : Platform) (path : List String) :
    sectionsAt path p.toValue =
      (if p.boms = [] then [⟨false, path, [("boms", .list [])]⟩] else [])
        ++ (p.boms.map fun bom => ⟨true, path ++ ["boms"], bom.members⟩)
        ++ [⟨false, path ++ ["properties"], p.propertyMembers⟩] := by
  have hboms : sectionsAt (path ++ ["boms"]) (.list (p.boms.map Artifact.toValue)) =
      p.boms.map fun bom => ⟨true, path ++ ["boms"], bom.members⟩ :=
    sectionsAt_list Artifact.flat_members _ _
  have hproperties : sectionsAt (path ++ ["properties"]) (TextMap.toValue .string p.properties) =
      [⟨false, path ++ ["properties"], p.propertyMembers⟩] :=
    p.flat_propertyMembers.sectionsAt_map _
  rw [toValue, sectionsAt, sections, sections, sections, hboms, hproperties, List.append_nil,
    List.append_assoc]
  refine congrArg (· ++ _) ?_
  cases p.boms with
  | nil => rfl
  | cons bom boms =>
      refine (if_neg ?_).trans (if_neg (by simp)).symm
      simp [isDirect, isTable, Artifact.toValue, TextMap.toValue]

/-- Whether there is a platform, and which, is known by its sections. -/
theorem eq_of_sections_eq {o o' : Option Platform}
    (hboms : (o.toList.flatMap fun p =>
        p.boms.map fun bom => Section.mk true ["platform-imports", "boms"] bom.members) =
      o'.toList.flatMap fun p =>
        p.boms.map fun bom => ⟨true, ["platform-imports", "boms"], bom.members⟩)
    (hproperties : (o.toList.map fun p =>
        Section.mk false ["platform-imports", "properties"] p.propertyMembers) =
      o'.toList.map fun p => ⟨false, ["platform-imports", "properties"], p.propertyMembers⟩) :
    o = o' := by
  cases o with
  | none =>
      cases o' with
      | none => rfl
      | some p' => exact nomatch hproperties
  | some p =>
      cases o' with
      | none => exact nomatch hproperties
      | some p' =>
          simp only [Option.toList_some, List.flatMap_singleton] at hboms
          refine congrArg some (ext_members ?_ ?_)
          · exact Section.map_injective Artifact.members_injective hboms
          · exact (Section.mk.inj (List.cons.inj hproperties).1).2.2

end Platform

/-! ## Models known by their lines and sections -/

namespace Model

/-- The members that hold the sets of a model. -/
def setMembers (m : Model) : List (String × Value) :=
  Mark.shown.map fun mark => (mark.property, setValue (m.marked mark))

/-- The members of a model. -/
def members (m : Model) : List (String × Value) :=
  m.setMembers
    ++ presentMember "app-artifact" Artifact.toValue m.app
    ++ [("dependencies", .list (m.dependencies.map Dependency.toValue)),
        ("capability-contracts", TextMap.toValue Contract.toValue m.capabilities)]
    ++ presentMember "platform-imports" Platform.toValue m.platform

theorem toValue_eq (m : Model) : m.toValue = .map m.members := rfl

theorem setValue_eq (keys : CoordinateSet) :
    setValue keys = .list ((keys.toList.map Coordinate.display).map .string) := by
  rw [setValue, List.map_map]
  rfl

theorem flat_setMembers (m : Model) : Flat m.setMembers := by
  intro e he
  obtain ⟨mark, -, rfl⟩ := List.mem_map.mp he
  rw [setValue_eq]
  exact isDirect_strings _

/-- The sets come first among the lines of a model. -/
theorem exists_direct_members (m : Model) : ∃ rest, direct m.members = m.setMembers ++ rest := by
  rw [members, List.append_assoc, List.append_assoc, direct, List.filter_append]
  exact ⟨_, congrArg (· ++ _) m.flat_setMembers.direct_eq⟩

/-- The sections of a model.  Each kind of data has paths of its own. -/
theorem sections_members (m : Model) :
    sections [] m.members =
      (m.app.toList.map fun a => ⟨false, ["app-artifact"], a.members⟩)
      ++ (m.dependencies.map fun d => ⟨true, ["dependencies"], d.members⟩)
      ++ ((if m.capabilities.toList = [] then [⟨false, ["capability-contracts"], []⟩] else [])
        ++ m.capabilities.toList.map fun e =>
          ⟨false, ["capability-contracts", e.1], e.2.members⟩)
      ++ m.platform.toList.flatMap fun p => sectionsAt ["platform-imports"] p.toValue := by
  have hdependencies : sectionsAt ["dependencies"]
      (.list (m.dependencies.map Dependency.toValue)) =
        m.dependencies.map fun d => ⟨true, ["dependencies"], d.members⟩ :=
    sectionsAt_list Dependency.flat_members _ _
  have hcapabilities : sectionsAt ["capability-contracts"]
      (TextMap.toValue Contract.toValue m.capabilities) =
        (if m.capabilities.toList = [] then [⟨false, ["capability-contracts"], []⟩] else [])
          ++ m.capabilities.toList.map fun e =>
            ⟨false, ["capability-contracts"] ++ [e.1], e.2.members⟩ :=
    sectionsAt_tables Contract.flat_members _ _
  have happ : sections [] (presentMember "app-artifact" Artifact.toValue m.app) =
      m.app.toList.map fun a => ⟨false, ["app-artifact"], a.members⟩ := by
    cases m.app with
    | none => rfl
    | some a => exact (List.append_nil _).trans (a.flat_members.sectionsAt_map _)
  have hplatform : sections [] (presentMember "platform-imports" Platform.toValue m.platform) =
      m.platform.toList.flatMap fun p => sectionsAt ["platform-imports"] p.toValue := by
    cases m.platform with
    | none => rfl
    | some p => rfl
  rw [members, sections_append, sections_append, sections_append,
    m.flat_setMembers.sections_eq_nil, happ, hplatform, sections, sections, sections,
    List.nil_append, List.nil_append, List.nil_append, hdependencies, hcapabilities,
    List.append_nil, ← List.append_assoc (m.app.toList.map _)]
  rfl

/-- A model all of whose marked coordinates come back from their display. -/
def Tidy (m : Model) : Prop := ∀ mark, ∀ k ∈ m.marked mark, k.Tidy

/-- Tidy coordinates are displayed differently, so sets of them have different
    values. -/
theorem setValue_inj {ks ls : CoordinateSet} (hks : ∀ k ∈ ks, k.Tidy) (hls : ∀ k ∈ ls, k.Tidy)
    (h : setValue ks = setValue ls) : ks = ls := by
  -- A set is read back from what is displayed of it.
  have hread : ∀ ks : CoordinateSet, (∀ k ∈ ks, k.Tidy) →
      (ks.toList.map Coordinate.display).map Coordinate.parse = ks.toList.map Except.ok := by
    intro ks hks
    rw [List.map_map]
    refine List.map_congr_left fun k hk => ?_
    rw [Function.comp_apply,
      Coordinate.parse_display (hks k (Std.ExtTreeSet.mem_toList.mp hk))]
  rw [setValue_eq, setValue_eq] at h
  have hdisplay : ks.toList.map Coordinate.display = ls.toList.map Coordinate.display :=
    List.map_injective_iff.mpr (fun _ _ => Value.string.inj) (Value.array.inj h).1
  have hmap := congrArg (List.map Coordinate.parse) hdisplay
  rw [hread ks hks, hread ls hls] at hmap
  exact Std.ExtTreeSet.toList_inj.mp
    (List.map_injective_iff.mpr (fun _ _ => Except.ok.inj) hmap)

-- Sets whose coordinates are not tidy may have the same value.
example : setValue (.ofList [⟨"a:b", "c", "", "jar"⟩] compare) =
    setValue (.ofList [⟨"a", "b:c", "", "jar"⟩] compare) := by rfl

/-- The sets of a model are known by its lines. -/
theorem marked_eq_of_direct_eq {m m' : Model} (hm : m.Tidy) (hm' : m'.Tidy)
    (h : direct m.members = direct m'.members) {mark : Mark} (hmark : mark ∈ Mark.shown) :
    m.marked mark = m'.marked mark := by
  obtain ⟨rest, hrest⟩ := m.exists_direct_members
  obtain ⟨rest', hrest'⟩ := m'.exists_direct_members
  rw [hrest, hrest'] at h
  have hsets := (List.append_inj h rfl).1
  rw [setMembers, setMembers, List.map_inj_left] at hsets
  exact setValue_inj (hm mark) (hm' mark) (Prod.mk.inj (hsets mark hmark)).2

/-- Everything else in a model is known by its sections. -/
theorem eq_of_sections_eq {m m' : Model} (h : sections [] m.members = sections [] m'.members) :
    m.app = m'.app ∧ m.dependencies = m'.dependencies ∧ m.capabilities = m'.capabilities
      ∧ m.platform = m'.platform := by
  have hat : ∀ p : List String → Bool, (sections [] m.members).filter (fun t => p t.path) =
      (sections [] m'.members).filter fun t => p t.path := fun p => by rw [h]
  have hnone : ∀ ps : List Platform, ps.flatMap (fun _ => ([] : List Section)) = [] :=
    fun ps => List.flatMap_eq_nil_iff.mpr fun _ _ => rfl
  simp only [sections_members, List.filter_append, List.filter_map, List.filter_flatMap,
    Platform.sectionsAt_toValue, apply_ite (List.filter _)] at hat
  refine ⟨?_, ?_, ?_, ?_⟩
  · have happ : (m.app.toList.map fun a => Section.mk false ["app-artifact"] a.members) =
        m'.app.toList.map fun a => ⟨false, ["app-artifact"], a.members⟩ := by
      simpa [hnone, Function.comp_def] using hat (· = ["app-artifact"])
    have hhead := congrArg List.head? (Section.map_injective Artifact.members_injective happ)
    simpa using hhead
  · have hdependencies : (m.dependencies.map fun d => Section.mk true ["dependencies"] d.members) =
        m'.dependencies.map fun d => ⟨true, ["dependencies"], d.members⟩ := by
      simpa [hnone, Function.comp_def] using hat (· = ["dependencies"])
    exact Section.map_injective Dependency.members_injective hdependencies
  · have hcapabilities : (m.capabilities.toList.map fun e =>
        Section.mk false ["capability-contracts", e.1] e.2.members) =
          m'.capabilities.toList.map fun e =>
            ⟨false, ["capability-contracts", e.1], e.2.members⟩ := by
      simpa [hnone, Function.comp_def] using
        hat fun path => path.dropLast = ["capability-contracts"]
    refine Std.ExtTreeMap.toList_inj.mp (List.map_injective_iff.mpr (fun e e' hee => ?_)
      hcapabilities)
    obtain ⟨-, hpath, hlines⟩ := Section.mk.inj hee
    exact Prod.ext (by simpa using hpath) (Contract.members_injective hlines)
  · refine Platform.eq_of_sections_eq ?_ ?_
    · simpa [Function.comp_def] using hat (· = ["platform-imports", "boms"])
    · simpa [Function.comp_def, List.map_eq_flatMap] using
        hat (· = ["platform-imports", "properties"])

/-- A tidy model is known by its lines and sections. -/
theorem eq_of_direct_eq_of_sections_eq {m m' : Model} (hm : m.Tidy) (hm' : m'.Tidy)
    (hdirect : direct m.members = direct m'.members)
    (hsections : sections [] m.members = sections [] m'.members) : m = m' := by
  have hmarked : ∀ mark ∈ Mark.shown, m.marked mark = m'.marked mark :=
    fun _ => marked_eq_of_direct_eq hm hm' hdirect
  have hparentFirst := hmarked .parentFirst (by decide)
  have hrunnerParentFirst := hmarked .runnerParentFirst (by decide)
  have hlesserPriority := hmarked .lesserPriority (by decide)
  have hlocalProject := hmarked .localProject (by decide)
  obtain ⟨happ, hdependencies, hcapabilities, hplatform⟩ := eq_of_sections_eq hsections
  obtain ⟨_, _, _, _, _, _, _, _⟩ := m
  obtain ⟨_, _, _, _, _, _, _, _⟩ := m'
  simp only [marked] at *
  subst hparentFirst hrunnerParentFirst hlesserPriority hlocalProject happ hdependencies
    hcapabilities hplatform
  rfl

end Model

/-! ## Models that were loaded -/

/-- What a descriptor and properties files list can be listed again. -/
theorem Descriptor.tidy_of_listed {x : Descriptor} (hx : x.Canonical) {files : List Source}
    {mark : Mark} {k : Coordinate} (hk : k ∈ x.listed files mark) : k.Tidy := by
  rcases List.mem_append.mp hk with hk | hk
  · exact hx.tidy mark k hk
  · obtain ⟨s, -, hk⟩ := List.mem_flatMap.mp hk
    exact (Source.tidy_of_listed hk).1

namespace Model

/-- Every marked coordinate of a loaded model was read from a text. -/
theorem tidy_of_load {descriptor : Source} {configured explicit : List Source} {m : Model}
    (h : (load descriptor configured explicit).value = .ok m) : m.Tidy := by
  obtain ⟨x, hx, -, -, rfl⟩ := value_load_eq_ok_iff.mp h
  have hcanonical := Descriptor.canonical_of_ofSource hx
  have hset : ∀ {ks : List Coordinate} {k : Coordinate}, k ∈ Std.ExtTreeSet.ofList ks compare →
      k ∈ ks := by
    intro ks k hk
    rwa [Std.ExtTreeSet.mem_ofList, List.contains_iff_mem] at hk
  intro mark k hk
  cases mark with
  | parentFirst => exact Descriptor.tidy_of_listed hcanonical (hset hk)
  | runnerParentFirst => exact Descriptor.tidy_of_listed hcanonical (hset hk)
  | excluded => exact absurd hk Std.ExtTreeSet.not_mem_empty
  | lesserPriority => exact Descriptor.tidy_of_listed hcanonical (hset hk)
  | localProject => exact hcanonical.tidy .localProject k (hset hk)

/-- Tidy models are known by their text, in each format. -/
theorem eq_of_render_eq {m m' : Model} (hm : m.Tidy) (hm' : m'.Tidy) {format : Format}
    {pretty : Bool} (h : m.render format pretty = m'.render format pretty) : m = m' := by
  have hplain : ∀ m : Model, ∀ e ∈ m.members, e.2.Plain := by
    intro m
    have hm := m.plain_toValue
    rw [toValue_eq] at hm
    cases hm with
    | map hmembers => exact hmembers
  cases format with
  | json =>
      have hmembers : m.members = m'.members :=
        (Value.object.inj (Json.write_injective m.plain_toValue m'.plain_toValue h)).1
      exact eq_of_direct_eq_of_sections_eq hm hm' (congrArg direct hmembers)
        (congrArg (sections []) hmembers)
  | toml =>
      have hlines : ∀ m : Model, direct m.members ≠ [] := by
        intro m hnil
        obtain ⟨rest, hrest⟩ := m.exists_direct_members
        rw [hnil] at hrest
        exact nomatch hrest
      obtain ⟨hdirect, hsections⟩ :=
        sections_eq_of_write_eq (hplain m) (hplain m') (hlines m) (hlines m') h
      exact eq_of_direct_eq_of_sections_eq hm hm' hdirect hsections

end Model

/-- Loaded models are equal if they are rendered alike in any format; so to compare
    their texts comes to the same in every format. -/
theorem render_injective_of_load {descriptor descriptor' : Source}
    {configured configured' explicit explicit' : List Source} {m m' : Model}
    (h : (load descriptor configured explicit).value = .ok m)
    (h' : (load descriptor' configured' explicit').value = .ok m') :
    (∀ format pretty, m.render format pretty = m'.render format pretty → m = m')
      ∧ ∀ format pretty format' pretty', m.render format pretty = m'.render format pretty ↔
          m.render format' pretty' = m'.render format' pretty' := by
  have hinjective : ∀ format pretty, m.render format pretty = m'.render format pretty → m = m' :=
    fun _ _ => Model.eq_of_render_eq (Model.tidy_of_load h) (Model.tidy_of_load h')
  refine ⟨hinjective, fun format pretty format' pretty' => ?_⟩
  constructor
  · intro heq
    rw [hinjective format pretty heq]
  · intro heq
    rw [hinjective format' pretty' heq]

set_option maxRecDepth 4000 in
/-- Two models of which only one has a platform are rendered differently in every
    format. -/
theorem render_injective_of_load_platform :
    let bare : Source := ⟨"m", .ok "app=['g','a','','','1']"⟩
    let full : Source := ⟨"n", .ok
      "app=['g','a','','','1']\n[[platform.boms]]\ngroup='g'\nartifact='b'\nversion='1'"⟩
    ∃ m m', (load bare [] []).value = .ok m ∧ (load full [] []).value = .ok m'
      ∧ ∀ format pretty, m.render format pretty ≠ m'.render format pretty := by
  intro bare full
  have hbare : Toml.read? "app=['g','a','','','1']" = some (.map
      [("app", .list [.string "g", .string "a", .string "", .string "", .string "1"])]) := by
    cbv
  have hfull : Toml.read?
      "app=['g','a','','','1']\n[[platform.boms]]\ngroup='g'\nartifact='b'\nversion='1'" =
      some (.map [("app", .list [.string "g", .string "a", .string "", .string "", .string "1"]),
        ("platform", .map [("boms", .list [.map [("group", .string "g"),
          ("artifact", .string "b"), ("version", .string "1")]])])]) := by
    cbv
  let x : Descriptor := { app := some { group := "g", artifact := "a", version := "1" } }
  let x' : Descriptor :=
    { x with platform := some { boms := [{ group := "g", artifact := "b", version := "1" }] } }
  have hx : Descriptor.parse "app=['g','a','','','1']" = .ok x :=
    Descriptor.parse_eq_ok.mpr ⟨_, hbare, by rfl⟩
  have hx' : Descriptor.parse
      "app=['g','a','','','1']\n[[platform.boms]]\ngroup='g'\nartifact='b'\nversion='1'" =
      .ok x' := Descriptor.parse_eq_ok.mpr ⟨_, hfull, by rfl⟩
  have hload : (load bare [] []).value = .ok (x.model []) :=
    value_load_eq_ok_iff.mpr
      ⟨x, hx, Option.some_ne_none _, fun s hs => absurd hs List.not_mem_nil, rfl⟩
  have hload' : (load full [] []).value = .ok (x'.model []) :=
    value_load_eq_ok_iff.mpr
      ⟨x', hx', Option.some_ne_none _, fun s hs => absurd hs List.not_mem_nil, rfl⟩
  refine ⟨_, _, hload, hload', fun format pretty heq => ?_⟩
  have hsame := (render_injective_of_load hload hload').1 format pretty heq
  have hplatform : x.platform = x'.platform := congrArg Model.platform hsame
  simp [x, x'] at hplatform

end Classpath
