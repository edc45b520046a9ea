import Classpath.Proofs.Assembly.Lookup
import Classpath.Proofs.Loading

/-! # Rebuilding — a built model builds itself again

    What a model holds can be written down as a descriptor.  Whoever applies
    this descriptor to an empty assembly and builds it gets the model back,
    unless the descriptor excludes something that the model holds, or the
    platform is there but without contents and so counts as none
    (`build_toDescriptor_iff`).  For a built model has settled: no coordinate
    stands twice in it, none is that of the launcher, and its sets are the sets
    of their own members. -/

namespace Classpath

open Dependency (settled)

/-- The descriptor of what a model holds, with coordinates to exclude. -/
def Model.toDescriptor (m : Model) (excluded : List Coordinate) : Descriptor where
  app := m.app
  dependencies := m.dependencies
  classification :=
    { parentFirst := m.parentFirst.toList
      runnerParentFirst := m.runnerParentFirst.toList
      excluded := excluded
      lesserPriority := m.lesserPriority.toList
      localProject := m.localProject.toList }
  capabilities := m.capabilities
  platform := m.platform

/-- A set is the set of its members. -/
theorem ofList_toList (s : CoordinateSet) : .ofList s.toList compare = s := by
  refine Std.ExtTreeSet.ext_mem fun k => ?_
  rw [Std.ExtTreeSet.mem_ofList, List.contains_iff_mem, Std.ExtTreeSet.mem_toList]

/-! ## What a built model contributes -/

namespace Contribution

variable {c : Contribution} {excluded : List Coordinate}

/-- Of the dependencies of a built model those are kept that are not excluded:
    they have settled before, and the launcher is not among them. -/
theorem dependencies_model_toDescriptor :
    (c.model.toDescriptor excluded).contribution.model.dependencies =
      c.model.dependencies.filter fun d => d.key ∉ excluded := by
  show (settled c.model.dependencies).filter
    (fun d => (c.model.toDescriptor excluded).contribution.keeps d.key) = _
  rw [Dependency.settled_of_nodup c.nodup_keys_model]
  refine List.filter_congr fun d hd => ?_
  obtain ⟨-, hkeeps⟩ := mem_dependencies_model.mp hd
  obtain ⟨hlauncher, -⟩ := of_decide_eq_true hkeeps
  rw [keeps, decide_eq_decide]
  exact and_iff_right hlauncher

/-- All else of a built model comes back, except that a platform without
    contents does not. -/
theorem model_toDescriptor :
    (c.model.toDescriptor excluded).contribution.model =
      { c.model with
        dependencies := c.model.dependencies.filter fun d => d.key ∉ excluded
        platform := c.model.platform.filter fun p => !p.isEmpty } := by
  rw [← dependencies_model_toDescriptor]
  show ({ parentFirst := .ofList c.model.parentFirst.toList compare
          runnerParentFirst := .ofList c.model.runnerParentFirst.toList compare
          lesserPriority := .ofList c.model.lesserPriority.toList compare
          localProject := .ofList c.model.localProject.toList compare
          app := c.model.app
          dependencies := (c.model.toDescriptor excluded).contribution.model.dependencies
          capabilities := c.model.capabilities
          platform := c.model.platform.filter fun p => !p.isEmpty } : Model) = _
  rw [ofList_toList, ofList_toList, ofList_toList, ofList_toList]

end Contribution

/-! ## Building again -/

namespace Assembly

/-- The model of a descriptor that is applied to an empty assembly. -/
theorem build_applyDescriptor (d : Descriptor) :
    (empty.applyDescriptor d).value.build.value = d.contribution.model := by
  rw [value_applyDescriptor, build_receive]

/-- The descriptor of a built model leads to this model again exactly if the
    platform is absent or has contents, and no dependency of the model is
    excluded. -/
theorem build_toDescriptor_iff (ops : List Operation) (excluded : List Coordinate) :
    let m := (run ops).build.value
    (empty.applyDescriptor (m.toDescriptor excluded)).value.build.value = m ↔
      (∀ p, (run ops).platform = some p → p.isEmpty = false)
        ∧ ∀ d ∈ m.dependencies, d.key ∉ excluded := by
  intro m
  have hm : m = (contribution ops).model := build_run_contribution ops
  have hplatform : m.platform = (run ops).platform := rfl
  have hagain : (empty.applyDescriptor (m.toDescriptor excluded)).value.build.value =
      { m with
        dependencies := m.dependencies.filter fun d => d.key ∉ excluded
        platform := m.platform.filter fun p => !p.isEmpty } := by
    rw [build_applyDescriptor, hm]
    exact Contribution.model_toDescriptor
  rw [hagain, ← hplatform]
  constructor
  · intro h
    have hdeps : m.dependencies.filter (fun d => d.key ∉ excluded) = m.dependencies :=
      congrArg Model.dependencies h
    have hkept : m.platform.filter (fun p => !p.isEmpty) = m.platform :=
      congrArg Model.platform h
    refine ⟨fun p hp => ?_, fun d hd => ?_⟩
    · rw [hp] at hkept
      obtain ⟨-, hcontents⟩ := Option.filter_eq_some_iff.mp hkept
      simpa using hcontents
    · simpa using List.filter_eq_self.mp hdeps d hd
  · rintro ⟨hcontents, hexcluded⟩
    have hdeps : m.dependencies.filter (fun d => d.key ∉ excluded) = m.dependencies :=
      List.filter_eq_self.mpr fun d hd => by simpa using hexcluded d hd
    have hkept : m.platform.filter (fun p => !p.isEmpty) = m.platform := by
      cases hp : m.platform with
      | none => rfl
      | some p => exact Option.filter_eq_some_iff.mpr ⟨rfl, by simp [hcontents p hp]⟩
    rw [hdeps, hkept]

end Assembly

end Classpath
