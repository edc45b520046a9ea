import Mathlib.Data.List.Basic

/-! # Telling apart — where written data end, and what they were

    Two data are told apart if they are not written alike, whatever follows
    them, unless they are the same; and then the same follows them
    (`ToldApart`).  What follows may have to be of a certain kind, as the end of
    some data shows only in what comes next.  Data are told apart if a reader
    gets them back (`toldApart_of_read`), and lists of data are if their items
    are and the text shows whether there is another item
    (`toldApart_flatMap`). -/

namespace Classpath.Text

variable {α β : Type}

/-- If the two are written alike, with something after them, then they are the
    same and so is what comes after them. -/
def ToldApart (write : α → List Char) (after : List Char → Prop) (a b : α) : Prop :=
  ∀ ⦃r s⦄, after r → after s → write a ++ r = write b ++ s → a = b ∧ r = s

namespace ToldApart

variable {write : α → List Char} {after after' : List Char → Prop} {a b : α}

/-- What stands before both does not matter. -/
theorem cons (c : Char) (h : ToldApart write after a b) :
    ToldApart (fun a => c :: write a) after a b :=
  fun _ _ hr hs heq => h hr hs (List.cons.inj heq).2

theorem append (t : List Char) (h : ToldApart write after a b) :
    ToldApart (fun a => t ++ write a) after a b := by
  intro r s hr hs heq
  rw [List.append_assoc, List.append_assoc] at heq
  exact h hr hs (List.append_cancel_left heq)

/-- What stands after both may be counted as part of them. -/
theorem concat (t : List Char) (h : ToldApart write after a b)
    (hafter : ∀ r, after' r → after (t ++ r)) :
    ToldApart (fun a => write a ++ t) after' a b := by
  intro r s hr hs heq
  rw [List.append_assoc, List.append_assoc] at heq
  obtain ⟨hab, hrs⟩ := h (hafter r hr) (hafter s hs) heq
  exact ⟨hab, List.append_cancel_left hrs⟩

/-- One after the other, the first in view of the second. -/
theorem pair {first : α → List Char} {second : β → List Char} {between : List Char → Prop}
    {p q : α × β} (hfirst : ToldApart first between p.1 q.1)
    (hsecond : ToldApart second after p.2 q.2)
    (hbetween : ∀ b r, after r → between (second b ++ r)) :
    ToldApart (fun p => first p.1 ++ second p.2) after p q := by
  intro r s hr hs heq
  rw [List.append_assoc, List.append_assoc] at heq
  obtain ⟨h₁, hrest⟩ := hfirst (hbetween p.2 r hr) (hbetween q.2 s hs) heq
  obtain ⟨h₂, hrs⟩ := hsecond hr hs hrest
  exact ⟨Prod.ext h₁ h₂, hrs⟩

end ToldApart

/-- Data are told apart if they are read back. -/
theorem toldApart_of_read {write : α → List Char} {after : List Char → Prop}
    (read : List Char → Option (α × List Char))
    (h : ∀ a r, after r → read (write a ++ r) = some (a, r)) (a b : α) :
    ToldApart write after a b := by
  intro r s hr hs heq
  have hread := h a r hr
  rw [heq, h b s hs] at hread
  obtain ⟨rfl, rfl⟩ := Prod.mk.inj (Option.some.inj hread)
  exact ⟨rfl, rfl⟩

/-- Lists are told apart if their items are and if another item, which
    `goesOn` recognizes, is never taken for what comes after the list. -/
theorem toldApart_flatMap {item : α → List Char} {after : List Char → Prop}
    (goesOn between : List Char → Prop)
    (hgoesOn : ∀ a r, goesOn (item a ++ r)) (hafter : ∀ r, after r → ¬ goesOn r ∧ between r)
    (hbetween : ∀ a r, between (item a ++ r)) {as bs : List α}
    (h : ∀ a ∈ as, ∀ b ∈ bs, ToldApart item between a b) :
    ToldApart (fun as => as.flatMap item) after as bs := by
  intro r s hr hs heq
  -- What follows an item is another item or the end of the list.
  have hnext : ∀ (cs : List α) {r}, after r → between (cs.flatMap item ++ r) := by
    intro cs r hr
    cases cs with
    | nil => exact (hafter r hr).2
    | cons c cs =>
        rw [List.flatMap_cons, List.append_assoc]
        exact hbetween c _
  induction as generalizing bs with
  | nil =>
      cases bs with
      | nil => exact ⟨rfl, heq⟩
      | cons b bs =>
          change r = item b ++ bs.flatMap item ++ s at heq
          rw [List.append_assoc] at heq
          exact absurd (heq ▸ hgoesOn b _) (hafter r hr).1
  | cons a as ih =>
      cases bs with
      | nil =>
          change item a ++ as.flatMap item ++ r = s at heq
          rw [List.append_assoc] at heq
          exact absurd (heq ▸ hgoesOn a _) (hafter s hs).1
      | cons b bs =>
          simp only [List.flatMap_cons, List.append_assoc] at heq
          obtain ⟨rfl, hrest⟩ := h a List.mem_cons_self b List.mem_cons_self
            (hnext as hr) (hnext bs hs) heq
          obtain ⟨rfl, rfl⟩ := ih (fun a ha b hb =>
            h a (List.mem_cons_of_mem _ ha) b (List.mem_cons_of_mem _ hb)) hrest
          exact ⟨rfl, rfl⟩

/-- Joined texts are the first one and then each of the others after a
    separator. -/
theorem intercalate_cons {sep p : List Char} {ps : List (List Char)} :
    sep.intercalate (p :: ps) = p ++ ps.flatMap (sep ++ ·) := by
  induction ps generalizing p with
  | nil => simp
  | cons q ps ih =>
      rw [List.intercalate_cons_cons, ih, List.flatMap_cons]
      simp

/-- Joined texts are told apart if their items are, and if the separator, known
    by its first character, is never taken for what comes after the list. -/
theorem toldApart_intercalate {item : α → List Char} {between : List Char → Prop} {c : Char}
    (sep : List Char) (hsep : ∀ r, between (c :: r)) {a b : α} {as bs : List α}
    (h : ∀ x ∈ a :: as, ∀ y ∈ b :: bs, ToldApart item between x y) :
    ToldApart (fun as => (c :: sep).intercalate (as.map item))
      (fun r => between r ∧ r.head? ≠ some c) (a :: as) (b :: bs) := by
  intro r s hr hs heq
  have hnext : ∀ (as : List α) {r}, between r →
      between (as.flatMap (fun a => c :: sep ++ item a) ++ r) := by
    intro as r hr
    cases as with
    | nil => exact hr
    | cons a as => exact hsep _
  simp only [List.map_cons, intercalate_cons, List.flatMap_map, List.append_assoc] at heq
  obtain ⟨rfl, hrest⟩ := h a List.mem_cons_self b List.mem_cons_self
    (hnext as hr.1) (hnext bs hs.1) heq
  have htail : ToldApart (fun as : List α => as.flatMap fun a => c :: sep ++ item a)
      (fun r => between r ∧ r.head? ≠ some c) as bs := by
    refine toldApart_flatMap (fun r => r.head? = some c) between (fun a r => rfl)
      (fun r hr => ⟨hr.2, hr.1⟩) (fun a r => hsep _) fun a ha b hb => ?_
    exact (h a (List.mem_cons_of_mem _ ha) b (List.mem_cons_of_mem _ hb)).append _
  obtain ⟨rfl, rfl⟩ := htail hr hs hrest
  exact ⟨rfl, rfl⟩

end Classpath.Text
