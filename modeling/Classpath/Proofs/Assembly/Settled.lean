import Mathlib.Data.List.Induction
import Mathlib.Data.List.Nodup
import Classpath.Dependency

/-! # Settled dependencies — the first position and the last value

    Dependencies that are added one after the other settle into a list with
    one entry for each coordinate.  It stands where the coordinate was first
    added (`keys`) and is what was last added for it (`last?`).  The two
    equations for one more dependency, `keys_concat` and `last?_concat`, are
    all that an assembly has to keep in step with. -/

namespace Classpath

/-- One more element comes at the end unless it is there. -/
theorem eraseDups_concat {α : Type} [DecidableEq α] (l : List α) (a : α) :
    (l ++ [a]).eraseDups = if a ∈ l then l.eraseDups else l.eraseDups ++ [a] := by
  rw [List.eraseDups_append]
  by_cases h : a ∈ l
  · have hr : [a].removeAll l = [] := by
      simpa [List.removeAll] using h
    rw [if_pos h, hr, List.eraseDups_nil, List.append_nil]
  · have hr : [a].removeAll l = [a] := by
      simpa [List.removeAll] using h
    rw [if_neg h, hr]
    rfl

namespace Dependency

/-- The coordinates of several dependencies, each where it first stands. -/
def keys (ds : List Dependency) : List Coordinate :=
  (ds.map key).eraseDups

/-- The last of several dependencies with a coordinate. -/
def last? (ds : List Dependency) (k : Coordinate) : Option Dependency :=
  ds.reverse.find? fun d => d.key = k

/-- The last dependency for each coordinate, in the place of the first. -/
def settled (ds : List Dependency) : List Dependency :=
  (keys ds).filterMap (last? ds)

@[simp] theorem mem_keys {ds : List Dependency} {k : Coordinate} :
    k ∈ keys ds ↔ ∃ d ∈ ds, d.key = k := by
  rw [keys, List.mem_eraseDups, List.mem_map]

/-- One more dependency adds its coordinate at the end unless it is there. -/
theorem keys_concat (ds : List Dependency) (d : Dependency) :
    keys (ds ++ [d]) = if d.key ∈ keys ds then keys ds else keys ds ++ [d.key] := by
  rw [keys, List.map_append, List.map_singleton, eraseDups_concat]
  refine if_congr ?_ rfl rfl
  exact List.mem_eraseDups.symm

/-- One more dependency is the last one for its coordinate. -/
theorem last?_concat (ds : List Dependency) (d : Dependency) (k : Coordinate) :
    last? (ds ++ [d]) k = if d.key = k then some d else last? ds k := by
  rw [last?, List.reverse_append, List.reverse_singleton, List.singleton_append,
    List.find?_cons]
  by_cases h : d.key = k
  · simp [h]
  · simp [h, last?]

/-- A coordinate has a last dependency when it has any. -/
theorem last?_isSome {ds : List Dependency} {k : Coordinate} :
    (last? ds k).isSome ↔ k ∈ keys ds := by
  rw [last?, List.find?_isSome, mem_keys]
  simp

theorem key_of_last? {ds : List Dependency} {d : Dependency} {k : Coordinate}
    (h : last? ds k = some d) : d.key = k := by
  have := List.find?_some h
  simpa using this

/-- No coordinate stands twice. -/
theorem nodup_keys (ds : List Dependency) : (keys ds).Nodup := by
  induction ds using List.reverseRecOn with
  | nil => exact List.nodup_nil
  | append_singleton ds d ih =>
      rw [keys_concat]
      by_cases h : d.key ∈ keys ds
      · rw [if_pos h]
        exact ih
      · rw [if_neg h, List.nodup_append]
        refine ⟨ih, List.nodup_singleton _, ?_⟩
        intro a ha b hb hab
        rw [List.mem_singleton] at hb
        exact h (hb ▸ hab ▸ ha)

/-! ## The entries -/

/-- An entry is the last dependency for its coordinate. -/
theorem last?_of_mem_settled {ds : List Dependency} {d : Dependency}
    (h : d ∈ settled ds) : last? ds d.key = some d := by
  obtain ⟨k, -, hk⟩ := List.mem_filterMap.mp h
  rw [key_of_last? hk]
  exact hk

theorem mem_settled {ds : List Dependency} {d : Dependency} :
    d ∈ settled ds ↔ last? ds d.key = some d := by
  constructor
  · exact last?_of_mem_settled
  · intro h
    have hk : d.key ∈ keys ds := by
      rw [← last?_isSome, h]
      rfl
    exact List.mem_filterMap.mpr ⟨d.key, hk, h⟩

/-- Dependencies that are each the last one for its coordinate come from
    their coordinates. -/
theorem filterMap_last?_map_key {ds es : List Dependency}
    (h : ∀ d ∈ es, last? ds d.key = some d) :
    (es.map key).filterMap (last? ds) = es := by
  induction es with
  | nil => rfl
  | cons d es ih =>
      rw [List.map_cons, List.filterMap_cons_some (h d List.mem_cons_self),
        ih fun e he => h e (List.mem_cons_of_mem _ he)]

/-- Every coordinate has its entry. -/
theorem map_key_settled (ds : List Dependency) :
    (settled ds).map key = keys ds := by
  have h : ∀ ks : List Coordinate, (∀ k ∈ ks, k ∈ keys ds) →
      (ks.filterMap (last? ds)).map key = ks := by
    intro ks
    induction ks with
    | nil => intro _; rfl
    | cons k ks ih =>
        intro hks
        obtain ⟨d, hd⟩ := Option.isSome_iff_exists.mp
          (last?_isSome.mpr (hks k List.mem_cons_self))
        rw [List.filterMap_cons_some hd, List.map_cons, key_of_last? hd,
          ih (fun k' hk' => hks k' (List.mem_cons_of_mem _ hk'))]
  exact h (keys ds) (fun k hk => hk)

/-- The entries whose coordinates are kept. -/
theorem map_key_filter_settled (ds : List Dependency) (p : Coordinate → Bool) :
    ((settled ds).filter fun d => p d.key).map key = (keys ds).filter p := by
  rw [← map_key_settled, List.filter_map]
  rfl

/-- They are the last dependencies for the coordinates that are kept. -/
theorem map_some_filter_settled (ds : List Dependency) (p : Coordinate → Bool) :
    ((settled ds).filter fun d => p d.key).map some =
      ((keys ds).filter p).map (last? ds) := by
  rw [← map_key_filter_settled, List.map_map]
  refine List.map_congr_left fun d hd => ?_
  exact (last?_of_mem_settled (List.mem_of_mem_filter hd)).symm

/-! ## Distinct coordinates -/

/-- Where no coordinate stands twice, looking for one finds what has it. -/
theorem find?_eq_some_iff {ds : List Dependency} {d : Dependency} {k : Coordinate}
    (h : (ds.map key).Nodup) :
    ds.find? (fun e => e.key = k) = some d ↔ d ∈ ds ∧ d.key = k := by
  constructor
  · intro hd
    exact ⟨List.mem_of_find?_eq_some hd, by simpa using List.find?_some hd⟩
  · rintro ⟨hd, rfl⟩
    cases hfind : ds.find? fun e => e.key = d.key with
    | none =>
        have := List.find?_eq_none.mp hfind d hd
        simp at this
    | some e =>
        -- The first one with this coordinate is the only one.
        have he : e.key = d.key := by simpa using List.find?_some hfind
        rw [List.inj_on_of_nodup_map h (List.mem_of_find?_eq_some hfind) hd he]

theorem keys_of_nodup {ds : List Dependency} (h : (ds.map key).Nodup) :
    keys ds = ds.map key := by
  induction ds using List.reverseRecOn with
  | nil => rfl
  | append_singleton ds d ih =>
      rw [List.map_append, List.nodup_append] at h
      obtain ⟨hds, -, hd⟩ := h
      have hnew : d.key ∉ keys ds := by
        rw [ih hds]
        intro hmem
        exact hd d.key hmem d.key List.mem_cons_self rfl
      rw [keys_concat, if_neg hnew, ih hds, List.map_append]
      rfl

/-- What has settled stays as it is. -/
theorem settled_of_nodup {ds : List Dependency} (h : (ds.map key).Nodup) :
    settled ds = ds := by
  rw [settled, keys_of_nodup h]
  refine filterMap_last?_map_key fun d hd => ?_
  have hreverse : (ds.reverse.map key).Nodup := by
    rw [List.map_reverse]
    exact List.nodup_reverse.mpr h
  exact (find?_eq_some_iff hreverse).mpr ⟨List.mem_reverse.mpr hd, rfl⟩

end Dependency

end Classpath
