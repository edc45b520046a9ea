import Classpath.Proofs.Assembly.Interleaving

/-! # Looking up — a coordinate has one dependency, wherever one looks

    An assembly finds a dependency through the position of its coordinate, a
    model by going through those that it kept.  Both come to the dependency
    that was added last for the coordinate: the assembly because it is in step
    with what was added (`Records.dependency?_eq`), the model because what it
    kept are the entries of the same list, no two with one coordinate
    (`Contribution.dependency?_model`).  They differ only where the model keeps
    nothing, which depends on the coordinate alone. -/

namespace Classpath

open Dependency (keys last?)

/-! ## In an assembly -/

namespace Assembly

/-- What stands at the position of a coordinate was added last for it. -/
theorem Records.dependency?_eq {a : Assembly} {ds : List Dependency} (h : Records a ds)
    (k : Coordinate) : a.dependency? k = last? ds k := by
  rw [dependency?]
  cases ho : a.occupant? k with
  | none =>
      -- Every coordinate that was added stands somewhere.
      have hk : k ∉ keys ds := by
        intro hk
        obtain ⟨i, d, hid⟩ := h.mem_keys.mp hk
        rw [ho] at hid
        exact nomatch hid
      rw [← Dependency.last?_isSome, Option.not_isSome_iff_eq_none] at hk
      rw [hk]
      rfl
  | some p =>
      obtain ⟨hd, hk⟩ := h.occupant?_eq_some.mp ho
      have hlast := h.latest p.1 p.2 hd
      rw [hk] at hlast
      exact hlast.symm

end Assembly

/-! ## In a model -/

namespace Contribution

variable {c : Contribution}

/-- A model keeps what was added last for a coordinate that it keeps. -/
theorem mem_dependencies_model {d : Dependency} :
    d ∈ c.model.dependencies ↔ last? c.added d.key = some d ∧ c.keeps d.key = true := by
  rw [← Dependency.mem_settled]
  exact List.mem_filter

/-- No two dependencies of a model have one coordinate. -/
theorem nodup_keys_model (c : Contribution) :
    (c.model.dependencies.map Dependency.key).Nodup := by
  have h : c.model.dependencies.map Dependency.key = (keys c.added).filter c.keeps :=
    Dependency.map_key_filter_settled c.added c.keeps
  rw [h]
  exact (Dependency.nodup_keys c.added).filter _

/-- So it does not matter which of them is looked at first. -/
theorem dependency?_model_eq_some {d : Dependency} {k : Coordinate} :
    c.model.dependency? k = some d ↔ d ∈ c.model.dependencies ∧ d.key = k :=
  Dependency.find?_eq_some_iff c.nodup_keys_model

theorem dependency?_model (c : Contribution) (k : Coordinate) :
    c.model.dependency? k = if c.keeps k then last? c.added k else none := by
  refine Option.ext fun d => ?_
  rw [dependency?_model_eq_some, mem_dependencies_model]
  constructor
  · rintro ⟨⟨hlast, hkeeps⟩, rfl⟩
    rw [if_pos hkeeps]
    exact hlast
  · intro h
    by_cases hkeeps : c.keeps k = true
    · rw [if_pos hkeeps] at h
      have hk := Dependency.key_of_last? h
      subst hk
      exact ⟨⟨h, hkeeps⟩, rfl⟩
    · rw [if_neg hkeeps] at h
      exact nomatch h

end Contribution

/-! ## After a history -/

namespace Assembly

/-- After any history an assembly has for a coordinate the dependency that was
    added last for it, if any was; its model has the same one unless the
    coordinate is that of the launcher or was excluded at any time; and what
    the model finds for a coordinate is what it holds with that coordinate. -/
theorem dependency?_run (ops : List Operation) (k : Coordinate) :
    let a := run ops
    let m := a.build.value
    a.dependency? k = last? (additions ops) k
      ∧ m.dependency? k =
        (if (k.group = "io.quarkus" ∧ k.artifact = "quarkus-ide-launcher")
            ∨ k ∈ markings ops .excluded
          then none else a.dependency? k)
      ∧ ∀ d, m.dependency? k = some d ↔ d ∈ m.dependencies ∧ d.key = k := by
  intro a m
  have ha : a.dependency? k = last? (additions ops) k := by
    have hrecords : Records (run ops) (contribution ops).added := by
      rw [run_eq]
      exact records_receive (contribution ops)
    rw [hrecords.dependency?_eq, added_contribution]
  have hm : m = (contribution ops).model := build_run_contribution ops
  refine ⟨ha, ?_, fun d => ?_⟩
  · rw [hm, Contribution.dependency?_model, added_contribution, ← ha, ← ite_not]
    refine if_congr ?_ rfl rfl
    rw [Contribution.keeps, marked_contribution, decide_eq_true_eq, ← not_or, not_not]
  · rw [hm]
    exact Contribution.dependency?_model_eq_some

end Assembly

end Classpath
