import Classpath.Proofs.Assembly.Marking
import Classpath.Proofs.Assembly.Recording

/-! # Contributions — what an assembly receives, and the model it makes of it

    Everything that happens to an assembly amounts to receiving a
    `Contribution`: some dependencies, some marked coordinates, and perhaps an
    application, a platform and capabilities.  To receive one contribution
    after another is to receive both at once (`receive_append`), so that a
    whole history is a single contribution; and the model built from what an
    empty assembly received can be read off it (`build_receive`). -/

namespace Classpath

/-- Something that an assembly can receive. -/
structure Contribution where
  app : Option Artifact := none
  platform : Option Platform := none
  capabilities : Option (TextMap Contract) := none
  added : List Dependency := []
  marked : Mark → List Coordinate := fun _ => []

namespace Contribution

/-- The contribution that gives a mark to coordinates. -/
def ofMark (m : Mark) (ks : List Coordinate) : Contribution where
  marked m' := if m = m' then ks else []

/-- The contribution of an extension's properties. -/
def ofProperties (p : Properties) : Contribution where
  marked m := if m ∈ Mark.fromExtensions then p.listed m else []

/-- One contribution and then another. -/
def append (c c' : Contribution) : Contribution where
  app := c'.app.or c.app
  platform := c'.platform.or c.platform
  capabilities := c'.capabilities.or c.capabilities
  added := c.added ++ c'.added
  marked m := c.marked m ++ c'.marked m

instance : Append Contribution := ⟨append⟩

/-- Several contributions, one after the other. -/
def sum (cs : List Contribution) : Contribution :=
  cs.foldl (· ++ ·) {}

/-- Whether a model keeps a coordinate. -/
def keeps (c : Contribution) (k : Coordinate) : Bool :=
  decide (¬ (k.group = "io.quarkus" ∧ k.artifact = "quarkus-ide-launcher")
    ∧ k ∉ c.marked .excluded)

/-- The model of a contribution. -/
def model (c : Contribution) : Model where
  parentFirst := .ofList (c.marked .parentFirst) compare
  runnerParentFirst := .ofList (c.marked .runnerParentFirst) compare
  lesserPriority := .ofList (c.marked .lesserPriority) compare
  localProject := .ofList (c.marked .localProject) compare
  app := c.app
  dependencies := (Dependency.settled c.added).filter fun d => c.keeps d.key
  capabilities := c.capabilities.getD ∅
  platform := c.platform

/-! ## Sums -/

theorem sum_concat (cs : List Contribution) (c : Contribution) :
    sum (cs ++ [c]) = sum cs ++ c := by
  rw [sum, List.foldl_append]
  rfl

theorem added_sum (cs : List Contribution) :
    (sum cs).added = cs.flatMap fun c => c.added := by
  induction cs using List.reverseRecOn with
  | nil => rfl
  | append_singleton cs c ih =>
      rw [sum_concat, List.flatMap_append, ← ih, List.flatMap_singleton]
      rfl

theorem marked_sum (cs : List Contribution) (m : Mark) :
    (sum cs).marked m = cs.flatMap fun c => c.marked m := by
  induction cs using List.reverseRecOn with
  | nil => rfl
  | append_singleton cs c ih =>
      rw [sum_concat, List.flatMap_append, ← ih, List.flatMap_singleton]
      rfl

/-- What several contributions set is what the last of them set that set
    anything. -/
theorem setting_sum {σ : Type} (setting : Contribution → Option σ)
    (hempty : setting {} = none)
    (happend : ∀ c c' : Contribution,
      setting (c ++ c') = (setting c').or (setting c))
    (cs : List Contribution) :
    setting (sum cs) = (cs.filterMap setting).getLast? := by
  induction cs using List.reverseRecOn with
  | nil => exact hempty
  | append_singleton cs c ih =>
      rw [sum_concat, happend, ih, List.filterMap_append]
      cases h : setting c with
      | some x => simp [h]
      | none => simp [h]

end Contribution

namespace Assembly

/-- The assembly that has received a contribution as well. -/
def receive (a : Assembly) (c : Contribution) : Assembly :=
  { (a.addAll c.added).value.markEach Mark.all c.marked with
    app := c.app.or a.app
    platform := c.platform.or a.platform
    capabilities := c.capabilities.getD a.capabilities }

variable {a b : Assembly} {c c' : Contribution}

/-! ## Adding and marking do not meet -/

/-- Assemblies that hold the same dependencies and settings are equal when
    their marks have the same members. -/
theorem eq_of_mem_marks (hd : b.dependencies = a.dependencies)
    (hp : b.positions = a.positions) (ha : b.app = a.app)
    (hf : b.platform = a.platform) (hc : b.capabilities = a.capabilities)
    (hm : ∀ m k, k ∈ b.marks.get m ↔ k ∈ a.marks.get m) : b = a := by
  have hmarks : b.marks = a.marks :=
    Marks.ext_get fun m => Std.ExtTreeSet.ext_mem fun k => hm m k
  cases a
  cases b
  cases hd
  cases hp
  cases ha
  cases hf
  cases hc
  cases hmarks
  rfl

/-- Adding looks at the dependencies and their positions only, and changes
    nothing else. -/
theorem add_with (a b : Assembly) (hd : b.dependencies = a.dependencies)
    (hp : b.positions = a.positions) (d : Dependency) :
    (b.add d).value = { b with
      dependencies := (a.add d).value.dependencies
      positions := (a.add d).value.positions } := by
  have ho : b.occupant? d.key = a.occupant? d.key := by
    rw [occupant?, occupant?, hd, hp]
  rw [add, add, ho]
  cases a.occupant? d.key with
  | some p =>
      show { b with dependencies := b.dependencies.setIfInBounds p.1 d } = _
      rw [hd]
      rw [← hp]
  | none =>
      show { b with
        dependencies := b.dependencies.push d
        positions := b.positions.insert d.key b.dependencies.size } = _
      rw [hd, hp]

theorem addAll_with (a b : Assembly) (hd : b.dependencies = a.dependencies)
    (hp : b.positions = a.positions) (ds : List Dependency) :
    (b.addAll ds).value = { b with
      dependencies := (a.addAll ds).value.dependencies
      positions := (a.addAll ds).value.positions } := by
  rw [addAll, addAll, Traced.value_foldlM, Traced.value_foldlM]
  induction ds generalizing a b with
  | nil =>
      show b = { b with dependencies := a.dependencies, positions := a.positions }
      rw [← hd, ← hp]
  | cons d ds ih =>
      have h := add_with a b hd hp d
      rw [List.foldl_cons, List.foldl_cons, ih (a.add d).value (b.add d).value
        (by rw [h]) (by rw [h]), h]

theorem addAll_append (a : Assembly) (ds es : List Dependency) :
    (a.addAll (ds ++ es)).value = ((a.addAll ds).value.addAll es).value := by
  rw [addAll, addAll, addAll, Traced.value_foldlM, Traced.value_foldlM,
    Traced.value_foldlM, List.foldl_append]

/-! ## Receiving -/

theorem dependencies_receive (a : Assembly) (c : Contribution) :
    (a.receive c).dependencies = (a.addAll c.added).value.dependencies := by
  rw [receive, markEach_eq]

theorem positions_receive (a : Assembly) (c : Contribution) :
    (a.receive c).positions = (a.addAll c.added).value.positions := by
  rw [receive, markEach_eq]

theorem app_receive (a : Assembly) (c : Contribution) :
    (a.receive c).app = c.app.or a.app := rfl

theorem platform_receive (a : Assembly) (c : Contribution) :
    (a.receive c).platform = c.platform.or a.platform := rfl

theorem capabilities_receive (a : Assembly) (c : Contribution) :
    (a.receive c).capabilities = c.capabilities.getD a.capabilities := rfl

theorem mem_marks_receive {m : Mark} {k : Coordinate} :
    k ∈ (a.receive c).marks.get m ↔ k ∈ a.marks.get m ∨ k ∈ c.marked m := by
  have h : (a.addAll c.added).value.marks = a.marks := by
    rw [addAll_with a a rfl rfl]
  show k ∈ ((a.addAll c.added).value.markEach Mark.all c.marked).marks.get m ↔ _
  rw [mem_marks_markEach, h]
  simp [Mark.mem_all]

/-- How to tell that an assembly is what another becomes by receiving a
    contribution. -/
theorem eq_receive (hd : b.dependencies = (a.addAll c.added).value.dependencies)
    (hp : b.positions = (a.addAll c.added).value.positions)
    (ha : b.app = c.app.or a.app) (hf : b.platform = c.platform.or a.platform)
    (hc : b.capabilities = c.capabilities.getD a.capabilities)
    (hm : ∀ m k, k ∈ b.marks.get m ↔ k ∈ a.marks.get m ∨ k ∈ c.marked m) :
    b = a.receive c := by
  refine eq_of_mem_marks ?_ ?_ ha hf hc fun m k => ?_
  · rw [dependencies_receive]
    exact hd
  · rw [positions_receive]
    exact hp
  · rw [mem_marks_receive]
    exact hm m k

/-- Marking is receiving marked coordinates. -/
theorem markEach_eq_receive (a : Assembly) (ms : List Mark)
    (keys : Mark → List Coordinate) :
    a.markEach ms keys =
      a.receive { marked := fun m => if m ∈ ms then keys m else [] } := by
  have hmarks : ∀ m k, k ∈ (a.markEach ms keys).marks.get m ↔
      k ∈ a.marks.get m ∨ k ∈ if m ∈ ms then keys m else [] := by
    intro m k
    rw [mem_marks_markEach]
    refine or_congr_right ?_
    by_cases h : m ∈ ms
    · rw [if_pos h, and_iff_right h]
    · rw [if_neg h]
      exact iff_of_false (fun hk => h hk.1) List.not_mem_nil
  rw [markEach_eq]
  exact eq_receive rfl rfl rfl rfl rfl hmarks

/-- To receive nothing changes nothing. -/
theorem receive_empty (a : Assembly) : a.receive {} = a := by
  have h : a = a.receive {} := by
    refine eq_receive rfl rfl rfl rfl rfl fun m k => ?_
    simp
  exact h.symm

/-- To receive one contribution after another is to receive both. -/
theorem receive_append (a : Assembly) (c c' : Contribution) :
    a.receive (c ++ c') = (a.receive c).receive c' := by
  -- The later dependencies are added to the same ones: marks do not matter.
  have hadd : ((a.receive c).addAll c'.added).value = { a.receive c with
      dependencies := (a.addAll (c.added ++ c'.added)).value.dependencies
      positions := (a.addAll (c.added ++ c'.added)).value.positions } := by
    rw [addAll_append]
    exact addAll_with _ _ (dependencies_receive a c) (positions_receive a c) _
  refine eq_receive ?_ ?_ ?_ ?_ ?_ fun m k => ?_
  · rw [dependencies_receive, hadd]
    rfl
  · rw [positions_receive, hadd]
    rfl
  · rw [app_receive, app_receive, ← Option.or_assoc]
    rfl
  · rw [platform_receive, platform_receive, ← Option.or_assoc]
    rfl
  · rw [capabilities_receive, capabilities_receive]
    show (c'.capabilities.or c.capabilities).getD a.capabilities = _
    cases c'.capabilities with
    | some _ => rfl
    | none => rfl
  · rw [mem_marks_receive, mem_marks_receive, or_assoc]
    refine or_congr_right ?_
    exact List.mem_append

/-- Contributions received one by one are received as their sum. -/
theorem foldl_receive (a : Assembly) (cs : List Contribution) :
    cs.foldl receive a = a.receive (.sum cs) := by
  induction cs using List.reverseRecOn with
  | nil => exact (receive_empty a).symm
  | append_singleton cs c ih =>
      rw [List.foldl_append, Contribution.sum_concat, receive_append, ← ih]
      rfl

/-! ## Building -/

/-- To receive a contribution keeps an assembly in step with what was added. -/
theorem Records.receive {ds : List Dependency} (h : Records a ds) (c : Contribution) :
    Records (a.receive c) (ds ++ c.added) :=
  (h.addAll c.added).congr (positions_receive a c) (dependencies_receive a c)

theorem records_receive (c : Contribution) : Records (empty.receive c) c.added :=
  Records.empty.receive c

/-- A set of marked coordinates is what was marked. -/
theorem marks_receive_empty (c : Contribution) (m : Mark) :
    (empty.receive c).marks.get m = .ofList (c.marked m) compare := by
  refine Std.ExtTreeSet.ext_mem fun k => ?_
  rw [mem_marks_receive, Std.ExtTreeSet.mem_ofList, List.contains_iff_mem]
  have hempty : k ∉ Assembly.empty.marks.get m := by
    have h : Assembly.empty.marks.get m = ∅ := Marks.get_const ∅ m
    rw [h]
    exact Std.ExtTreeSet.not_mem_empty
  constructor
  · intro h
    exact h.resolve_left hempty
  · intro h
    exact Or.inr h

/-- The model of what an assembly has received. -/
theorem build_receive (c : Contribution) :
    (empty.receive c).build.value = c.model := by
  have hkeeps : ∀ d : Dependency,
      d.isAccepted (empty.receive c).marks.excluded = c.keeps d.key := by
    intro d
    have hex : (empty.receive c).marks.excluded = .ofList (c.marked .excluded) compare :=
      marks_receive_empty c .excluded
    rw [hex, Dependency.isAccepted, Std.ExtTreeSet.contains_ofList,
      Coordinate.isLauncher, Contribution.keeps, Bool.eq_iff_iff]
    simp [imp_iff_not_or]
  have hdeps : (accept (empty.receive c).marks.excluded
      (empty.receive c).dependencies.toList).value = c.model.dependencies := by
    rw [(records_receive c).toList_eq]
    exact List.filter_congr fun d _ => hkeeps d
  show ({ parentFirst := (empty.receive c).marks.get .parentFirst
          runnerParentFirst := (empty.receive c).marks.get .runnerParentFirst
          lesserPriority := (empty.receive c).marks.get .lesserPriority
          localProject := (empty.receive c).marks.get .localProject
          app := (empty.receive c).app
          dependencies := (accept (empty.receive c).marks.excluded
            (empty.receive c).dependencies.toList).value
          capabilities := (empty.receive c).capabilities
          platform := (empty.receive c).platform } : Model) = c.model
  rw [hdeps, marks_receive_empty, marks_receive_empty, marks_receive_empty,
    marks_receive_empty]
  have happ : (empty.receive c).app = c.app := Option.or_none
  have hplatform : (empty.receive c).platform = c.platform := Option.or_none
  rw [happ, hplatform, capabilities_receive]
  rfl

end Assembly

end Classpath
