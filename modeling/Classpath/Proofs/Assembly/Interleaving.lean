import Mathlib.Data.List.Perm.Basic
import Classpath.Model.Rendering
import Classpath.Proofs.Assembly.History

/-! # Interleavings — what a model does not remember of its history

    A history adds dependencies, marks coordinates and sets a few values.  Of
    the marks a model keeps the sets, in which no order is left, and of the
    settings the last ones.  So contributors may take turns in any way: as
    long as the dependencies come in the same order, and the calls of each
    setter do, the model is the same.  If only the dependencies with the same
    coordinate come in the same order, then the dependencies of the model
    change places and nothing else does.  And what is excluded matters only
    to what was added.

    No order is left in a set, since it lists its members by their fields, one
    after the other, and not by the texts they are displayed as
    (`pairwise_toList`).  The proofs go over the one contribution that a history
    makes: two models differ in their dependencies at most (`model_eq_with`),
    and these are compared on their own (`dependencies_congr`, `perm_settled`). -/

namespace Classpath

/-! ## The order of a set -/

namespace Coordinate

/-- The first field in which the coordinates differ is smaller in the first
    of them. -/
def Precedes (k l : Coordinate) : Prop :=
  k.group < l.group
    ∨ k.group = l.group ∧ (k.artifact < l.artifact
      ∨ k.artifact = l.artifact ∧ (k.classifier < l.classifier
        ∨ k.classifier = l.classifier ∧ k.type < l.type))

theorem compare_text_eq_lt {s t : String} : compare s t = .lt ↔ s < t :=
  compareOfLessAndEq_eq_lt

/-- To compare by a first field and then by others. -/
theorem compareLex_on_eq_lt {field : Coordinate → String}
    {others : Coordinate → Coordinate → Ordering} {k l : Coordinate} :
    compareLex (compareOn field) others k l = .lt ↔
      field k < field l ∨ field k = field l ∧ others k l = .lt := by
  show (compare (field k) (field l)).then (others k l) = .lt ↔ _
  rw [Ordering.then_eq_lt, compare_text_eq_lt, Std.LawfulEqCmp.compare_eq_iff_eq]

theorem compare_eq_lt_iff {k l : Coordinate} : compare k l = .lt ↔ Precedes k l := by
  show compareLex (compareOn group) (compareLex (compareOn artifact)
    (compareLex (compareOn classifier) (compareOn type))) k l = .lt ↔ _
  rw [compareLex_on_eq_lt, compareLex_on_eq_lt, compareLex_on_eq_lt, Precedes]
  refine or_congr_right (and_congr_right fun _ => or_congr_right
    (and_congr_right fun _ => or_congr_right (and_congr_right fun _ => ?_)))
  exact compare_text_eq_lt

/-- A set lists its members in strictly ascending order. -/
theorem pairwise_toList (s : CoordinateSet) : s.toList.Pairwise Precedes :=
  Std.ExtTreeSet.ordered_toList.imp fun h => compare_eq_lt_iff.mp h

end Coordinate

open Dependency (keys last? settled)

/-! ## Dependencies that settle alike -/

namespace Dependency

theorem last?_eq_getLast? (ds : List Dependency) (k : Coordinate) :
    last? ds k = (ds.filter fun d => d.key = k).getLast? := by
  rw [last?, ← List.head?_filter, List.filter_reverse, List.head?_reverse]

variable {ds es : List Dependency}

/-- Dependencies that come in the same order for each coordinate have the
    same coordinates. -/
theorem mem_keys_congr
    (h : ∀ k : Coordinate, ds.filter (fun d => d.key = k) = es.filter fun d => d.key = k)
    {k : Coordinate} : k ∈ keys ds ↔ k ∈ keys es := by
  rw [← last?_isSome, ← last?_isSome, last?_eq_getLast?, last?_eq_getLast?, h]

/-- They settle into the same entries, in places of their own. -/
theorem perm_settled
    (h : ∀ k : Coordinate, ds.filter (fun d => d.key = k) = es.filter fun d => d.key = k) :
    (settled ds).Perm (settled es) := by
  have hkeys : (keys ds).Perm (keys es) :=
    (List.perm_ext_iff_of_nodup (nodup_keys ds) (nodup_keys es)).mpr fun k =>
      mem_keys_congr h
  have hlast : last? ds = last? es := by
    funext k
    rw [last?_eq_getLast?, last?_eq_getLast?, h]
  rw [settled, settled, hlast]
  exact hkeys.filterMap _

end Dependency

namespace Contribution

variable {c c' : Contribution}

theorem ofList_congr {ks ls : List Coordinate} (h : ∀ k, k ∈ ks ↔ k ∈ ls) :
    (.ofList ks compare : CoordinateSet) = .ofList ls compare := by
  refine Std.ExtTreeSet.ext_mem fun k => ?_
  rw [Std.ExtTreeSet.mem_ofList, Std.ExtTreeSet.mem_ofList, List.contains_iff_mem,
    List.contains_iff_mem]
  exact h k

/-- With the same settings and marks, models differ in their dependencies at
    most. -/
theorem model_eq_with (happ : c.app = c'.app) (hplatform : c.platform = c'.platform)
    (hcapabilities : c.capabilities = c'.capabilities)
    (hmarked : ∀ m, m ≠ .excluded → ∀ k, k ∈ c.marked m ↔ k ∈ c'.marked m) :
    c'.model = { c.model with dependencies := c'.model.dependencies } := by
  have hset : ∀ m, m ≠ .excluded → (.ofList (c'.marked m) compare : CoordinateSet) =
      .ofList (c.marked m) compare :=
    fun m hm => ofList_congr fun k => (hmarked m hm k).symm
  rw [model, model, hset .parentFirst (by decide), hset .runnerParentFirst (by decide),
    hset .lesserPriority (by decide), hset .localProject (by decide), happ, hplatform,
    hcapabilities]

theorem keeps_congr {k : Coordinate}
    (h : k ∈ c.marked .excluded ↔ k ∈ c'.marked .excluded) : c.keeps k = c'.keeps k := by
  rw [keeps, keeps, decide_eq_decide]
  exact and_congr_right fun _ => not_congr h

/-- An exclusion matters only to what was added. -/
theorem dependencies_congr (hadded : c.added = c'.added)
    (hexcluded : ∀ d ∈ c.added,
      d.key ∈ c.marked .excluded ↔ d.key ∈ c'.marked .excluded) :
    c.model.dependencies = c'.model.dependencies := by
  show (settled c.added).filter (fun d => c.keeps d.key) =
    (settled c'.added).filter fun d => c'.keeps d.key
  rw [← hadded]
  refine List.filter_congr fun d hd => ?_
  obtain ⟨e, he, hkey⟩ : ∃ e ∈ c.added, e.key = d.key := by
    rw [← Dependency.mem_keys, ← Dependency.map_key_settled]
    exact List.mem_map_of_mem hd
  rw [← hkey]
  exact keeps_congr (hexcluded e he)

/-- Dependencies that come in the same order for each coordinate only change
    places. -/
theorem perm_dependencies
    (hadded : ∀ k : Coordinate, c.added.filter (fun d => d.key = k) =
      c'.added.filter fun d => d.key = k)
    (hexcluded : ∀ k, k ∈ c.marked .excluded ↔ k ∈ c'.marked .excluded) :
    c.model.dependencies.Perm c'.model.dependencies := by
  have hkeeps : (fun d : Dependency => c.keeps d.key) = fun d => c'.keeps d.key := by
    funext d
    exact keeps_congr (hexcluded d.key)
  show ((settled c.added).filter fun d => c.keeps d.key).Perm
    ((settled c'.added).filter fun d => c'.keeps d.key)
  rw [hkeeps]
  exact (Dependency.perm_settled hadded).filter _

end Contribution

namespace Assembly

/-! ## Histories that go together -/

namespace Operation

/-- Whether an operation adds dependencies. -/
def isAddition : Operation → Bool
  | .add _ | .addAll _ => true
  | _ => false

/-- Whether an operation sets the application. -/
def isSetApp : Operation → Bool
  | .setApp _ => true
  | _ => false

/-- Whether an operation sets the platform. -/
def isSetPlatform : Operation → Bool
  | .setPlatform _ => true
  | _ => false

/-- Whether an operation sets the capabilities. -/
def isSetCapabilities : Operation → Bool
  | .setCapabilities _ => true
  | _ => false

end Operation

/-- The dependencies that are added in the course of a history. -/
def additions (ops : List Operation) : List Dependency :=
  ops.flatMap fun op => op.contribution.added

/-- The coordinates to which a history gives a mark. -/
def markings (ops : List Operation) (m : Mark) : List Coordinate :=
  ops.flatMap fun op => op.contribution.marked m

/-- The calls of each setter are the same, in the same order. -/
structure SameSettings (ops ops' : List Operation) : Prop where
  app : ops.filter Operation.isSetApp = ops'.filter Operation.isSetApp
  platform : ops.filter Operation.isSetPlatform = ops'.filter Operation.isSetPlatform
  capabilities :
    ops.filter Operation.isSetCapabilities = ops'.filter Operation.isSetCapabilities

/-- The contribution that a history makes. -/
def contribution (ops : List Operation) : Contribution :=
  .sum (ops.map Operation.contribution)

variable {ops ops' : List Operation}

theorem build_run_contribution (ops : List Operation) :
    (run ops).build.value = (contribution ops).model :=
  build_run_eq ops

theorem added_contribution (ops : List Operation) :
    (contribution ops).added = additions ops := by
  rw [contribution, Contribution.added_sum, List.flatMap_map]
  rfl

theorem marked_contribution (ops : List Operation) (m : Mark) :
    (contribution ops).marked m = markings ops m := by
  rw [contribution, Contribution.marked_sum, List.flatMap_map]
  rfl

/-- What is set last is known from the calls that set it. -/
theorem setting_contribution_congr {σ : Type} (setting : Contribution → Option σ)
    (hempty : setting {} = none)
    (happend : ∀ c c' : Contribution,
      setting (c ++ c') = (setting c').or (setting c))
    (sets : Operation → Bool)
    (hsets : ∀ op, sets op = false → setting op.contribution = none)
    (h : ops.filter sets = ops'.filter sets) :
    setting (contribution ops) = setting (contribution ops') := by
  -- What is no call of the setter sets nothing and may be left out.
  have hcalls : ∀ l : List Operation, setting (contribution l) =
      ((l.filter sets).filterMap fun op => setting op.contribution).getLast? := by
    intro l
    have hf : (fun op => if sets op = true then setting (Operation.contribution op)
        else none) = fun op => setting (Operation.contribution op) := by
      funext op
      by_cases hop : sets op = true
      · rw [if_pos hop]
      · rw [if_neg hop, hsets op (Bool.eq_false_iff.mpr hop)]
    rw [List.filterMap_filter, hf, contribution,
      Contribution.setting_sum setting hempty happend, List.filterMap_map]
    rfl
  rw [hcalls, hcalls, h]

/-- The same additions add the same dependencies. -/
theorem additions_congr (h : ops.filter Operation.isAddition = ops'.filter Operation.isAddition) :
    additions ops = additions ops' := by
  -- So may what is no addition, here by induction on the history.
  have hcalls : ∀ l : List Operation, additions l = additions (l.filter Operation.isAddition) := by
    intro l
    induction l with
    | nil => rfl
    | cons op l ih =>
        by_cases hop : op.isAddition = true
        · rw [List.filter_cons_of_pos hop]
          exact congrArg (op.contribution.added ++ ·) ih
        · have hnil : op.contribution.added = [] := by
            cases op with
            | add d => exact absurd rfl hop
            | addAll ds => exact absurd rfl hop
            | _ => rfl
          rw [List.filter_cons_of_neg hop, ← ih]
          show op.contribution.added ++ additions l = additions l
          rw [hnil, List.nil_append]
  rw [hcalls ops, hcalls ops', h]

/-- A history marks the same coordinates in any order. -/
theorem mem_markings_of_perm (h : ops.Perm ops') {m : Mark} {k : Coordinate} :
    k ∈ markings ops m ↔ k ∈ markings ops' m :=
  (h.flatMap_right _).mem_iff

/-- Histories with the same settings and marks lead to models that differ in
    their dependencies at most. -/
theorem build_eq_with (hset : SameSettings ops ops')
    (hmarked : ∀ m, m ≠ .excluded → ∀ k, k ∈ markings ops m ↔ k ∈ markings ops' m) :
    (run ops').build.value =
      { (run ops).build.value with dependencies := (run ops').build.value.dependencies } := by
  have happ : (contribution ops).app = (contribution ops').app := by
    refine setting_contribution_congr (fun c => c.app) rfl (fun _ _ => rfl) _ ?_ hset.app
    intro op hop
    cases op with
    | setApp app => exact nomatch hop
    | _ => rfl
  have hplatform : (contribution ops).platform = (contribution ops').platform := by
    refine setting_contribution_congr (fun c => c.platform) rfl (fun _ _ => rfl) _ ?_
      hset.platform
    intro op hop
    cases op with
    | setPlatform platform => exact nomatch hop
    | _ => rfl
  have hcapabilities :
      (contribution ops).capabilities = (contribution ops').capabilities := by
    refine setting_contribution_congr (fun c => c.capabilities) rfl (fun _ _ => rfl) _ ?_
      hset.capabilities
    intro op hop
    cases op with
    | setCapabilities capabilities => exact nomatch hop
    | _ => rfl
  have hmarked' : ∀ m, m ≠ .excluded → ∀ k,
      k ∈ (contribution ops).marked m ↔ k ∈ (contribution ops').marked m := by
    intro m hm k
    rw [marked_contribution, marked_contribution]
    exact hmarked m hm k
  rw [build_run_contribution, build_run_contribution]
  exact Contribution.model_eq_with happ hplatform hcapabilities hmarked'

/-- Nor do they differ in these if the same is added and as much of it is
    excluded. -/
theorem build_congr (hset : SameSettings ops ops')
    (hmarked : ∀ m, m ≠ .excluded → ∀ k, k ∈ markings ops m ↔ k ∈ markings ops' m)
    (hadded : additions ops = additions ops')
    (hexcluded : ∀ d ∈ additions ops,
      d.key ∈ markings ops .excluded ↔ d.key ∈ markings ops' .excluded) :
    (run ops).build.value = (run ops').build.value := by
  have hdeps : (run ops).build.value.dependencies =
      (run ops').build.value.dependencies := by
    rw [build_run_contribution, build_run_contribution]
    refine Contribution.dependencies_congr ?_ ?_
    · rw [added_contribution, added_contribution]
      exact hadded
    · rw [added_contribution, marked_contribution, marked_contribution]
      exact hexcluded
  rw [build_eq_with hset hmarked, ← hdeps]

/-! ## Taking turns -/

/-- However contributors take turns, a model is the same if the additions come
    in the same order and the calls of each setter do; its sets are listed in
    the order of their fields, so its texts are the same too.  If only the
    additions with the same coordinate come in the same order, the models
    differ in the order of their dependencies at most.  And a model does not
    change with the exclusion of what is never added. -/
theorem build_interleaved :
    (∀ ops ops' : List Operation, ops.Perm ops' → SameSettings ops ops' →
        ops.filter Operation.isAddition = ops'.filter Operation.isAddition →
        let m := (run ops).build.value
        let m' := (run ops').build.value
        m = m'
          ∧ (∀ mark ∈ Mark.shown, (m.marked mark).toList.Pairwise Coordinate.Precedes)
          ∧ ∀ format pretty, m.render format pretty = m'.render format pretty)
      ∧ (∀ ops ops' : List Operation, ops.Perm ops' → SameSettings ops ops' →
        (∀ k : Coordinate, (additions ops).filter (fun d => d.key = k) =
          (additions ops').filter fun d => d.key = k) →
        let m := (run ops).build.value
        let m' := (run ops').build.value
        m.dependencies.Perm m'.dependencies
          ∧ m' = { m with dependencies := m'.dependencies })
      ∧ ∀ ops ops' : List Operation, SameSettings ops ops' →
        additions ops = additions ops' →
        (∀ mark, mark ≠ .excluded → ∀ k, k ∈ markings ops mark ↔ k ∈ markings ops' mark) →
        (∀ d ∈ additions ops,
          d.key ∈ markings ops .excluded ↔ d.key ∈ markings ops' .excluded) →
        (run ops).build.value = (run ops').build.value := by
  refine ⟨?_, ?_, ?_⟩
  · intro ops ops' hperm hset hadd m m'
    have hm : m = m' := build_congr hset (fun _ _ _ => mem_markings_of_perm hperm)
      (additions_congr hadd) fun _ _ => mem_markings_of_perm hperm
    refine ⟨hm, fun mark _ => Coordinate.pairwise_toList _, fun format pretty => ?_⟩
    rw [hm]
  · intro ops ops' hperm hset hadd m m'
    refine ⟨?_, build_eq_with hset fun _ _ _ => mem_markings_of_perm hperm⟩
    show (run ops).build.value.dependencies.Perm (run ops').build.value.dependencies
    rw [build_run_contribution, build_run_contribution]
    refine Contribution.perm_dependencies ?_ ?_
    · rw [added_contribution, added_contribution]
      exact hadd
    · rw [marked_contribution, marked_contribution]
      exact fun _ => mem_markings_of_perm hperm
  · intro ops ops' hset hadd hmarked hexcluded
    exact build_congr hset hmarked hadd hexcluded

/-- An exclusion before and after what it excludes; two dependencies that
    change places; and the exclusion of what nobody adds. -/
theorem build_interleaved_turns :
    let d : Dependency := { artifact := { group := "g", artifact := "a", version := "1" } }
    let e : Dependency := { artifact := { group := "g", artifact := "b", version := "1" } }
    (run [.mark .excluded e.key, .add d, .add e, .setApp d.artifact]).build.value =
        (run [.add d, .add e, .setApp d.artifact, .mark .excluded e.key]).build.value
      ∧ (run [.add d, .add e]).build.value.dependencies.Perm
        (run [.add e, .add d]).build.value.dependencies
      ∧ (run [.add d, .mark .excluded e.key]).build.value = (run [.add d]).build.value := by
  intro d e
  have hkeys : d.key ≠ e.key := by decide
  refine ⟨?_, ?_, ?_⟩
  · have hperm : ([.mark .excluded e.key, .add d, .add e, .setApp d.artifact] :
        List Operation).Perm
          [.add d, .add e, .setApp d.artifact, .mark .excluded e.key] :=
      @List.perm_append_comm Operation [.mark .excluded e.key]
        [.add d, .add e, .setApp d.artifact]
    exact (build_interleaved.1 _ _ hperm ⟨rfl, rfl, rfl⟩ rfl).1
  · have hperm : ([.add d, .add e] : List Operation).Perm [.add e, .add d] :=
      .swap _ _ []
    refine (build_interleaved.2.1 _ _ hperm ⟨rfl, rfl, rfl⟩ fun k => ?_).1
    show [d, e].filter _ = [e, d].filter _
    by_cases hd : d.key = k
    · have he : e.key ≠ k := fun he => hkeys (hd.trans he.symm)
      simp [hd, he]
    · by_cases he : e.key = k
      · simp [hd, he]
      · simp [hd, he]
  · refine build_interleaved.2.2 [.add d, .mark .excluded e.key] [.add d]
      ⟨rfl, rfl, rfl⟩ rfl ?_ ?_
    · intro mark hmark k
      have hnil : markings [.add d, .mark .excluded e.key] mark = [] := by
        show (if Mark.excluded = mark then [e.key] else []) ++ [] = []
        rw [if_neg (Ne.symm hmark)]
        rfl
      rw [hnil]
      rfl
    · decide

end Assembly

end Classpath
