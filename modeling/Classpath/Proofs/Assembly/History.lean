import Classpath.Proofs.Assembly.Contribution

/-! # Histories — a model is determined by what was contributed

    Whatever contributors do, in whatever order, the model that is built in
    the end can be read off the list of their operations: each coordinate has
    its first position and its last value, less the launcher and all that was
    excluded at any time; what was set has the value it was set to last; and a
    set of coordinates holds all that was ever added to it.

    One operation is one contribution (`step_eq`), so a history is the sum of
    its contributions (`run_eq`), and its model is the model of that sum
    (`build_run_eq`), which the last theorem spells out. -/

namespace Classpath

namespace Assembly

open Dependency (keys last?)

variable {a : Assembly}

/-! ## One operation is one contribution -/

/-- The contribution that an operation makes. -/
def Operation.contribution : Operation → Contribution
  | .setApp app => { app := some app }
  | .setPlatform platform => { platform := some platform }
  | .setCapabilities capabilities => { capabilities := some capabilities }
  | .add d => { added := [d] }
  | .addAll ds => { added := ds }
  | .mark m k => .ofMark m [k]
  | .markAll m ks => .ofMark m ks
  | .classify p _ => .ofProperties p

/-- An operation that neither adds nor marks anything. -/
theorem eq_receive_setting {a b : Assembly} {c : Contribution}
    (hb : b = { a with
      app := c.app.or a.app
      platform := c.platform.or a.platform
      capabilities := c.capabilities.getD a.capabilities })
    (hd : c.added = []) (hm : ∀ m, c.marked m = []) : b = a.receive c := by
  subst hb
  refine eq_receive ?_ ?_ rfl rfl rfl fun m k => ?_
  · rw [hd]
    rfl
  · rw [hd]
    rfl
  · rw [hm]
    simp

theorem markAll_eq_receive (a : Assembly) (m : Mark) (ks : List Coordinate) :
    a.markAll m ks = a.receive (.ofMark m ks) := by
  refine eq_receive rfl rfl rfl rfl rfl fun m' k => ?_
  rw [mem_marks_markAll]
  refine or_congr_right ?_
  by_cases h : m = m'
  · simp [Contribution.ofMark, h]
  · simp [Contribution.ofMark, h]

/-- The properties of an extension are received even if a list of theirs is
    malformed, as far as they are well formed. -/
theorem classify_eq_receive (a : Assembly) (p : Properties) (extension : String) :
    (a.classify p extension).value.1 = a.receive (.ofProperties p) := by
  rw [value_classify]
  exact markEach_eq_receive a Mark.fromExtensions p.listed

theorem addAll_eq_receive (a : Assembly) (ds : List Dependency) :
    (a.addAll ds).value = a.receive { added := ds } := by
  have h := addAll_with a a rfl rfl ds
  refine eq_receive rfl rfl ?_ ?_ ?_ fun m k => ?_
  · rw [h]
    rfl
  · rw [h]
    rfl
  · rw [h]
    rfl
  · rw [h]
    simp

/-- An operation has the assembly receive its contribution. -/
theorem step_eq (a : Assembly) (op : Operation) :
    a.step op = a.receive op.contribution := by
  cases op with
  | setApp app => exact eq_receive_setting rfl rfl fun _ => rfl
  | setPlatform platform => exact eq_receive_setting rfl rfl fun _ => rfl
  | setCapabilities capabilities => exact eq_receive_setting rfl rfl fun _ => rfl
  | add d => exact addAll_eq_receive a [d]
  | addAll ds => exact addAll_eq_receive a ds
  | mark m k => exact markAll_eq_receive a m [k]
  | markAll m ks => exact markAll_eq_receive a m ks
  | classify p extension => exact classify_eq_receive a p extension

/-- A history has the assembly receive the sum of its contributions. -/
theorem foldl_step (a : Assembly) (ops : List Operation) :
    ops.foldl step a = a.receive (.sum (ops.map Operation.contribution)) := by
  rw [← foldl_receive, List.foldl_map]
  refine congrArg (fun f => ops.foldl f a) ?_
  funext a op
  exact step_eq a op

theorem run_eq (ops : List Operation) :
    run ops = empty.receive (.sum (ops.map Operation.contribution)) :=
  foldl_step empty ops

/-! ## The model of a history -/

theorem build_run_eq (ops : List Operation) :
    (run ops).build.value =
      (Contribution.sum (ops.map Operation.contribution)).model := by
  rw [run_eq, build_receive]

/-- The model of a history: each coordinate that was ever added, in the place
    of its first addition and with the last dependency that was added for it,
    unless it is the launcher or was ever excluded; the last value of whatever
    was set; and all coordinates that were ever given a mark. -/
theorem build_run (ops : List Operation) :
    let cs := ops.map Operation.contribution
    let added := cs.flatMap fun c => c.added
    let excluded := cs.flatMap fun c => c.marked .excluded
    let stays : Coordinate → Bool := fun k =>
      ¬ (k.group = "io.quarkus" ∧ k.artifact = "quarkus-ide-launcher")
        ∧ k ∉ excluded
    let kept := (keys added).filter stays
    let m := (run ops).build.value
    m.dependencies.map some = kept.map (last? added)
      ∧ m.dependencies.map Dependency.key = kept
      ∧ kept.Nodup
      ∧ (∀ d ∈ m.dependencies,
          ¬ (d.key.group = "io.quarkus" ∧ d.key.artifact = "quarkus-ide-launcher")
            ∧ d.key ∉ excluded)
      ∧ m.app = (cs.filterMap fun c => c.app).getLast?
      ∧ m.platform = (cs.filterMap fun c => c.platform).getLast?
      ∧ m.capabilities = ((cs.filterMap fun c => c.capabilities).getLast?).getD ∅
      ∧ ∀ mark ∈ Mark.shown, ∀ k,
          k ∈ m.marked mark ↔ k ∈ cs.flatMap fun c => c.marked mark := by
  intro cs added excluded stays kept m
  have hm : m = (Contribution.sum cs).model := build_run_eq ops
  have hadded : (Contribution.sum cs).added = added := Contribution.added_sum cs
  have hexcluded : (Contribution.sum cs).marked .excluded = excluded :=
    Contribution.marked_sum cs .excluded
  have hdeps : m.dependencies =
      (Dependency.settled added).filter fun d => stays d.key := by
    rw [hm, ← hadded]
    show (Dependency.settled (Contribution.sum cs).added).filter
      (fun d => (Contribution.sum cs).keeps d.key) = _
    refine List.filter_congr fun d _ => ?_
    rw [Contribution.keeps, hexcluded]
  have hkeys : m.dependencies.map Dependency.key = kept := by
    rw [hdeps]
    exact Dependency.map_key_filter_settled added stays
  refine ⟨?_, hkeys, (Dependency.nodup_keys added).filter _, ?_, ?_, ?_, ?_, ?_⟩
  · rw [hdeps]
    exact Dependency.map_some_filter_settled added stays
  · intro d hd
    have hk : d.key ∈ kept := hkeys ▸ List.mem_map_of_mem hd
    exact of_decide_eq_true (List.mem_filter.mp hk).2
  · rw [hm]
    exact Contribution.setting_sum (fun c => c.app) rfl (fun _ _ => rfl) cs
  · rw [hm]
    exact Contribution.setting_sum (fun c => c.platform) rfl (fun _ _ => rfl) cs
  · rw [hm]
    show (Contribution.sum cs).capabilities.getD ∅ = _
    exact congrArg (fun o => Option.getD o ∅)
      (Contribution.setting_sum (fun c => c.capabilities) rfl (fun _ _ => rfl) cs)
  · intro mark hmark k
    rw [hm, ← Contribution.marked_sum]
    have hset : (Contribution.sum cs).model.marked mark =
        .ofList ((Contribution.sum cs).marked mark) compare := by
      cases mark with
      | excluded => exact absurd hmark (by decide)
      | parentFirst => rfl
      | runnerParentFirst => rfl
      | lesserPriority => rfl
      | localProject => rfl
    rw [hset, Std.ExtTreeSet.mem_ofList, List.contains_iff_mem]

end Assembly

end Classpath
