import Mathlib.Data.List.Forall2

/-! # Outcomes — when there is a result and no fault

    A computation that may end in a fault has a result exactly if all its
    steps have theirs.  These equations take such a computation apart, step
    by step or item by item. -/

namespace Classpath

variable {ε α β : Type}

/-- Of two steps both have a result. -/
theorem bind_eq_ok_iff {x : Except ε α} {f : α → Except ε β} {b : β} :
    x >>= f = .ok b ↔ ∃ a, x = .ok a ∧ f a = .ok b := by
  cases x with
  | error e => exact iff_of_false (fun h => nomatch h) (fun ⟨_, h, _⟩ => nomatch h)
  | ok a =>
      constructor
      · intro h
        exact ⟨a, rfl, h⟩
      · rintro ⟨a', ha', h⟩
        rw [← Except.ok.inj ha'] at h
        exact h

/-- What is made of a result. -/
theorem map_eq_ok_iff {x : Except ε α} {f : α → β} {b : β} :
    x.map f = .ok b ↔ ∃ a, x = .ok a ∧ f a = b := by
  cases x with
  | error e => exact iff_of_false (fun h => nomatch h) (fun ⟨_, h, _⟩ => nomatch h)
  | ok a =>
      constructor
      · intro h
        exact ⟨a, rfl, Except.ok.inj h⟩
      · rintro ⟨a', ha', rfl⟩
        rw [← Except.ok.inj ha']
        rfl

/-- Where there are the same results, faults apart. -/
theorem toOption_congr {x y : Except ε α} (h : ∀ a, x = .ok a ↔ y = .ok a) :
    x.toOption = y.toOption := by
  cases x with
  | ok a => rw [(h a).mp rfl]
  | error e =>
      cases y with
      | ok b => exact nomatch (h b).mpr rfl
      | error e' => rfl

/-- What is read item by item is read as a whole when every item is. -/
theorem mapM_eq_ok_iff {f : α → Except ε β} {xs : List α} {ys : List β} :
    xs.mapM f = .ok ys ↔ List.Forall₂ (fun x y => f x = .ok y) xs ys := by
  induction xs generalizing ys with
  | nil =>
      rw [List.mapM_nil, List.forall₂_nil_left_iff]
      constructor
      · intro h
        exact (Except.ok.inj h).symm
      · rintro rfl
        rfl
  | cons x xs ih =>
      rw [List.mapM_cons, List.forall₂_cons_left_iff]
      cases hx : f x with
      | error e => exact iff_of_false (fun h => nomatch h) (fun ⟨_, _, h, _⟩ => nomatch h)
      | ok y =>
          simp only [← ih]
          cases hxs : xs.mapM f with
          | error e =>
              exact iff_of_false (fun h => nomatch h) (fun ⟨_, _, _, h, _⟩ => nomatch h)
          | ok zs =>
              constructor
              · intro h
                exact ⟨y, zs, rfl, rfl, (Except.ok.inj h).symm⟩
              · rintro ⟨y', zs', hy, hzs, rfl⟩
                rw [← Except.ok.inj hy, ← Except.ok.inj hzs]
                rfl

theorem mapM_append_eq_ok_iff {f : α → Except ε β} {xs ys : List α} {zs : List β} :
    (xs ++ ys).mapM f = .ok zs ↔
      ∃ ks ls, xs.mapM f = .ok ks ∧ ys.mapM f = .ok ls ∧ zs = ks ++ ls := by
  rw [List.mapM_append, bind_eq_ok_iff]
  refine exists_congr fun ks => ?_
  rw [bind_eq_ok_iff]
  constructor
  · rintro ⟨hks, ls, hls, h⟩
    exact ⟨ls, hks, hls, (Except.ok.inj h).symm⟩
  · rintro ⟨ls, hks, hls, rfl⟩
    exact ⟨hks, ls, hls, rfl⟩

/-- One more item has its result in its place, and the others keep theirs. -/
theorem mapM_insert_eq_ok_iff {f : α → Except ε β} {xs ys : List α} {zs : List β}
    (h : (xs ++ ys).mapM f = .ok zs) :
    ∃ ks ls, zs = ks ++ ls ∧ ∀ x ws, (xs ++ x :: ys).mapM f = .ok ws ↔
      ∃ y, f x = .ok y ∧ ws = ks ++ y :: ls := by
  obtain ⟨ks, ls, hks, hls, hzs⟩ := mapM_append_eq_ok_iff.mp h
  refine ⟨ks, ls, hzs, fun x ws => ?_⟩
  rw [mapM_append_eq_ok_iff]
  constructor
  · rintro ⟨ks', ls', hks', hls', rfl⟩
    rw [List.mapM_cons] at hls'
    obtain ⟨y, hy, hrest⟩ := bind_eq_ok_iff.mp hls'
    obtain ⟨zs, hzs, hpure⟩ := bind_eq_ok_iff.mp hrest
    obtain rfl := Except.ok.inj (hks.symm.trans hks')
    obtain rfl := Except.ok.inj (hls.symm.trans hzs)
    rw [← Except.ok.inj hpure]
    exact ⟨y, hy, rfl⟩
  · rintro ⟨y, hy, rfl⟩
    refine ⟨ks, y :: ls, hks, ?_, rfl⟩
    rw [List.mapM_cons]
    exact bind_eq_ok_iff.mpr ⟨y, hy, bind_eq_ok_iff.mpr ⟨ls, hls, rfl⟩⟩

end Classpath
