import Mathlib.Data.List.Basic
import Classpath.Assembly
import Classpath.Proofs.Assembly.Settled

/-! # Recording — an assembly keeps what its dependencies settle into

    An assembly holds its dependencies twice: in an array, and as positions
    of their coordinates.  `Records a ds` is the invariant that ties the two
    to the dependencies `ds` added so far: the positions are exactly those at
    which the coordinates stand, the coordinates stand in the order of their
    first addition, and each of them has its last value.  One addition keeps
    it (`Records.add`), and with it the array is `settled ds`
    (`Records.toList_eq`). -/

namespace Classpath.Assembly

open Dependency (keys last? settled)

/-- An assembly in step with the dependencies that were added to it. -/
structure Records (a : Assembly) (ds : List Dependency) : Prop where
  positions : ∀ (k : Coordinate) (i : Nat), a.positions[k]? = some i ↔
    ∃ d : Dependency, a.dependencies[i]? = some d ∧ d.key = k
  order : a.dependencies.toList.map Dependency.key = keys ds
  latest : ∀ (i : Nat) (d : Dependency), a.dependencies[i]? = some d →
    last? ds d.key = some d

variable {a b : Assembly} {ds : List Dependency}

theorem Records.empty : Records empty [] where
  positions k i := by
    show (∅ : Std.HashMap Coordinate Nat)[k]? = some i ↔
      ∃ d : Dependency, (#[] : Array Dependency)[i]? = some d ∧ d.key = k
    simp
  order := rfl
  latest i d h := by
    have h' : (#[] : Array Dependency)[i]? = some d := h
    simp at h'

/-- Only the dependencies and their positions matter. -/
theorem Records.congr (h : Records a ds) (hp : b.positions = a.positions)
    (hd : b.dependencies = a.dependencies) : Records b ds where
  positions := by rw [hp, hd]; exact h.positions
  order := by rw [hd]; exact h.order
  latest := by rw [hd]; exact h.latest

/-! ## Looking a coordinate up -/

theorem occupant?_eq_some {k : Coordinate} {i : Nat} {d : Dependency} :
    a.occupant? k = some (i, d) ↔
      a.positions[k]? = some i ∧ a.dependencies[i]? = some d := by
  rw [occupant?]
  cases hi : a.positions[k]? with
  | none =>
      constructor
      · intro h
        exact nomatch h
      · intro h
        exact nomatch h.1
  | some j =>
      cases hd : a.dependencies[j]? with
      | none =>
          constructor
          · intro h
            have h' : (a.dependencies[j]? >>= fun d => pure (j, d)) = some (i, d) := h
            rw [hd] at h'
            exact nomatch h'
          · rintro ⟨hj, h⟩
            rw [Option.some.inj hj] at hd
            rw [hd] at h
            exact nomatch h
      | some e =>
          show (a.dependencies[j]? >>= fun d => pure (j, d)) = some (i, d) ↔ _
          rw [hd]
          constructor
          · intro h
            have h' : (j, e) = (i, d) := Option.some.inj h
            obtain ⟨rfl, rfl⟩ := Prod.mk.inj h'
            exact ⟨rfl, hd⟩
          · rintro ⟨hj, h⟩
            obtain rfl := Option.some.inj hj
            rw [hd] at h
            obtain rfl := Option.some.inj h
            rfl

/-- A coordinate is occupied when a dependency with it stands somewhere. -/
theorem Records.occupant?_eq_some (h : Records a ds) {k : Coordinate} {i : Nat}
    {d : Dependency} :
    a.occupant? k = some (i, d) ↔ a.dependencies[i]? = some d ∧ d.key = k := by
  rw [Assembly.occupant?_eq_some, h.positions]
  constructor
  · rintro ⟨⟨e, he, hk⟩, hd⟩
    rw [he] at hd
    obtain rfl := Option.some.inj hd
    exact ⟨he, hk⟩
  · rintro ⟨hd, hk⟩
    exact ⟨⟨d, hd, hk⟩, hd⟩

/-- A coordinate that is not occupied has no position. -/
theorem Records.positions_eq_none (h : Records a ds) {k : Coordinate}
    (hk : a.occupant? k = none) : a.positions[k]? = none := by
  cases hp : a.positions[k]? with
  | none => rfl
  | some i =>
      obtain ⟨d, hd, hdk⟩ := (h.positions k i).mp hp
      rw [h.occupant?_eq_some.mpr ⟨hd, hdk⟩] at hk
      exact nomatch hk

theorem Records.mem_keys (h : Records a ds) {k : Coordinate} :
    k ∈ keys ds ↔ ∃ i d, a.occupant? k = some (i, d) := by
  rw [← h.order, List.mem_map]
  constructor
  · rintro ⟨d, hd, hk⟩
    obtain ⟨i, hi⟩ := List.mem_iff_getElem?.mp hd
    rw [Array.getElem?_toList] at hi
    exact ⟨i, d, h.occupant?_eq_some.mpr ⟨hi, hk⟩⟩
  · rintro ⟨i, d, hid⟩
    obtain ⟨hi, hk⟩ := h.occupant?_eq_some.mp hid
    rw [← Array.getElem?_toList] at hi
    exact ⟨d, List.mem_of_getElem? hi, hk⟩

/-! ## Adding -/

/-- A dependency whose coordinate is occupied takes that place. -/
theorem Records.replace (h : Records a ds) {d old : Dependency} {i : Nat}
    (hold : a.occupant? d.key = some (i, old)) :
    Records { a with dependencies := a.dependencies.setIfInBounds i d }
      (ds ++ [d]) := by
  obtain ⟨hi, hkey⟩ := h.occupant?_eq_some.mp hold
  have hlt : i < a.dependencies.size := by
    obtain ⟨hlt, -⟩ := Array.getElem?_eq_some_iff.mp hi
    exact hlt
  have hget : ∀ j, (a.dependencies.setIfInBounds i d)[j]? =
      if i = j then some d else a.dependencies[j]? := by
    intro j
    rw [Array.getElem?_setIfInBounds, if_pos hlt]
  refine ⟨?_, ?_, ?_⟩
  · intro k j
    show a.positions[k]? = some j ↔
      ∃ e : Dependency, (a.dependencies.setIfInBounds i d)[j]? = some e ∧ e.key = k
    rw [h.positions, hget]
    by_cases hij : i = j
    · subst hij
      simp [hi, hkey]
    · rw [if_neg hij]
  · show (a.dependencies.setIfInBounds i d).toList.map Dependency.key = _
    have hmem : d.key ∈ keys ds := h.mem_keys.mpr ⟨i, old, hold⟩
    have hat : (keys ds)[i]? = some d.key := by
      rw [← h.order, List.getElem?_map, Array.getElem?_toList, hi, ← hkey]
      rfl
    obtain ⟨hlt', hat'⟩ := List.getElem?_eq_some_iff.mp hat
    rw [Dependency.keys_concat, if_pos hmem, Array.toList_setIfInBounds,
      List.map_set, h.order, ← hat', List.set_getElem_self]
  · intro j e he
    have he' : (a.dependencies.setIfInBounds i d)[j]? = some e := he
    rw [hget] at he'
    rw [Dependency.last?_concat]
    by_cases hij : i = j
    · rw [if_pos hij] at he'
      obtain rfl := Option.some.inj he'
      rw [if_pos rfl]
    · rw [if_neg hij] at he'
      -- another place with this coordinate would be its position too
      have hne : d.key ≠ e.key := by
        intro hde
        have hpi := (h.positions d.key i).mpr ⟨old, hi, hkey⟩
        have hpj := (h.positions d.key j).mpr ⟨e, he', hde.symm⟩
        rw [hpi] at hpj
        exact hij (Option.some.inj hpj)
      rw [if_neg hne]
      exact h.latest j e he'

/-- A dependency whose coordinate is not occupied goes to the end. -/
theorem Records.append (h : Records a ds) {d : Dependency}
    (hnew : a.occupant? d.key = none) :
    Records { a with
        dependencies := a.dependencies.push d
        positions := a.positions.insert d.key a.dependencies.size }
      (ds ++ [d]) := by
  have hnone := h.positions_eq_none hnew
  have hnot : ∀ (j : Nat) (e : Dependency), a.dependencies[j]? = some e →
      e.key ≠ d.key := by
    intro j e he hed
    rw [(h.positions d.key j).mpr ⟨e, he, hed⟩] at hnone
    exact nomatch hnone
  refine ⟨?_, ?_, ?_⟩
  · intro k j
    show (a.positions.insert d.key a.dependencies.size)[k]? = some j ↔
      ∃ e : Dependency, (a.dependencies.push d)[j]? = some e ∧ e.key = k
    rw [Std.HashMap.getElem?_insert, Array.getElem?_push]
    by_cases hk : d.key = k
    · subst hk
      rw [beq_self_eq_true, if_pos rfl]
      by_cases hj : j = a.dependencies.size
      · simp [hj]
      · rw [if_neg hj]
        constructor
        · intro hs
          exact absurd (Option.some.inj hs).symm hj
        · rintro ⟨e, he, hed⟩
          exact absurd hed (hnot j e he)
    · rw [if_neg (by simpa using hk), h.positions]
      by_cases hj : j = a.dependencies.size
      · subst hj
        simp [hk]
      · rw [if_neg hj]
  · show (a.dependencies.push d).toList.map Dependency.key = _
    have hmem : d.key ∉ keys ds := by
      intro hmem
      obtain ⟨i, e, he⟩ := h.mem_keys.mp hmem
      rw [hnew] at he
      exact nomatch he
    rw [Dependency.keys_concat, if_neg hmem, Array.toList_push, List.map_append,
      h.order]
    rfl
  · intro j e he
    have he' : (a.dependencies.push d)[j]? = some e := he
    rw [Array.getElem?_push] at he'
    rw [Dependency.last?_concat]
    by_cases hj : j = a.dependencies.size
    · rw [if_pos hj] at he'
      obtain rfl := Option.some.inj he'
      rw [if_pos rfl]
    · rw [if_neg hj] at he'
      rw [if_neg (hnot j e he').symm]
      exact h.latest j e he'

/-- Adding a dependency keeps an assembly in step. -/
theorem Records.add (h : Records a ds) (d : Dependency) :
    Records (a.add d).value (ds ++ [d]) := by
  rw [Assembly.add]
  cases ho : a.occupant? d.key with
  | some p => exact h.replace ho
  | none => exact h.append ho

/-- So does adding several. -/
theorem Records.addAll (h : Records a ds) (es : List Dependency) :
    Records (a.addAll es).value (ds ++ es) := by
  rw [Assembly.addAll, Traced.value_foldlM]
  induction es generalizing a ds with
  | nil =>
      rw [List.append_nil]
      exact h
  | cons e es ih =>
      have := ih (h.add e)
      rw [List.append_assoc] at this
      exact this

/-! ## What is recorded -/

/-- The array is what the dependencies settle into. -/
theorem Records.toList_eq (h : Records a ds) :
    a.dependencies.toList = settled ds := by
  rw [settled, ← h.order]
  symm
  refine Dependency.filterMap_last?_map_key ?_
  intro d hd
  obtain ⟨i, hi⟩ := List.mem_iff_getElem?.mp hd
  rw [Array.getElem?_toList] at hi
  exact h.latest i d hi

end Classpath.Assembly
