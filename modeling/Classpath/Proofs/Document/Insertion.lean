import Classpath.Proofs.Document.Fields

/-! # Insertion — one member more, and the same faults

    A field that is written with a value that can be read is no reason for a
    fault, and whatever else is wrong with the record stays wrong in the same
    order.  Only the places of the faults that stand behind the new member
    change, all by one (`Shifted`), so the first fault is the same one, and
    without a fault the data differ in that field alone
    (`record_map_eq_of_insertion`). -/

namespace Classpath.Document

variable {α β α' β' : Type}

/-! ## Places -/

/-- The same outcome, in data that are related, or the same fault, one place
    further on from a place on. -/
inductive Shifted (k : Nat) (R : α → β → Prop) : Placed α → Placed β → Prop
  | ok {a : α} {b : β} (h : R a b) : Shifted k R (.ok a) (.ok b)
  | before {place : Nat} {fault : ReadFault} (h : place < k) :
      Shifted k R (.error (place, fault)) (.error (place, fault))
  | behind {place : Nat} {fault : ReadFault} (h : k ≤ place) :
      Shifted k R (.error (place, fault)) (.error (place + 1, fault))

namespace Shifted

variable {k : Nat} {R : α → β → Prop} {S : α' → β' → Prop}

theorem map {x : Placed α} {y : Placed β} {f : α → α'} {g : β → β'} (h : Shifted k R x y)
    (hfg : ∀ a b, R a b → S (f a) (g b)) : Shifted k S (x.map f) (y.map g) := by
  cases h with
  | ok h => exact .ok (hfg _ _ h)
  | before h => exact .before h
  | behind h => exact .behind h

/-- Of two faults the one that stood first stands first. -/
theorem both {x : Placed α} {y : Placed β} {x' : Placed α'} {y' : Placed β'}
    (h : Shifted k R x y) (h' : Shifted k S x' y') :
    Shifted k (fun p q => R p.1 q.1 ∧ S p.2 q.2) (x.both x') (y.both y') := by
  cases h with
  | ok h =>
      cases h' with
      | ok h' => exact .ok ⟨h, h'⟩
      | before h' => exact .before h'
      | behind h' => exact .behind h'
  | @before place fault h =>
      cases h' with
      | ok h' => exact .before h
      | @before place' fault' h' =>
          by_cases hlt : place' < place
          · simp only [Placed.both, if_pos hlt]
            exact .before h'
          · simp only [Placed.both, if_neg hlt]
            exact .before h
      | @behind place' fault' h' =>
          simp only [Placed.both, if_neg (show ¬ place' < place by omega),
            if_neg (show ¬ place' + 1 < place by omega)]
          exact .before h
  | @behind place fault h =>
      cases h' with
      | ok h' => exact .behind h
      | @before place' fault' h' =>
          simp only [Placed.both, if_pos (show place' < place by omega),
            if_pos (show place' < place + 1 by omega)]
          exact .before h'
      | @behind place' fault' h' =>
          by_cases hlt : place' < place
          · simp only [Placed.both, if_pos hlt, if_pos (Nat.succ_lt_succ hlt)]
            exact .behind h'
          · simp only [Placed.both, if_neg hlt, if_neg (mt Nat.lt_of_succ_lt_succ hlt)]
            exact .behind h

theorem locate_before {place : Nat} (h : place < k) (x : Except ReadFault α) :
    Shifted k Eq (Placed.locate place x) (Placed.locate place x) := by
  cases x with
  | ok a => exact .ok rfl
  | error fault => exact .before h

theorem locate_behind {place : Nat} (h : k ≤ place) (x : Except ReadFault α) :
    Shifted k Eq (Placed.locate place x) (Placed.locate (place + 1) x) := by
  cases x with
  | ok a => exact .ok rfl
  | error fault => exact .behind h

/-- Without its place the fault is the same. -/
theorem result_map_eq {γ : Type} {x : Placed α} {y : Placed β} {f : α → γ} {g : β → γ}
    (h : Shifted k R x y) (hfg : ∀ a b, R a b → f a = g b) :
    x.result.map f = y.result.map g := by
  cases h with
  | ok h => exact congrArg Except.ok (hfg _ _ h)
  | before h => rfl
  | behind h => rfl

end Shifted

/-! ## Fields -/

section

variable {d : Dialect} {before after : List (String × Value)} {name : String} {v : Value}

/-- With one member more between the others some fields are read as data that are
    related, or have the same fault. -/
def Fields.Shift (x : Fields α) (d : Dialect) (before : List (String × Value))
    (e : String × Value) (after : List (String × Value)) (R : α → α → Prop) : Prop :=
  ∀ n, Shifted before.length R (x.ofMembers d (before ++ after) n)
    (x.ofMembers d (before ++ e :: after) n)

namespace Fields.Shift

variable {R : α → α → Prop} {S : β → β → Prop} {e : String × Value}

theorem map {x : Fields α} {f : α → β} (hx : x.Shift d before e after R)
    (hf : ∀ a a', R a a' → S (f a) (f a')) : (f <$> x).Shift d before e after S :=
  fun n => (hx n).map hf

theorem seq {f : Fields (α → β)} {x : Fields α}
    (hf : f.Shift d before e after fun g g' => ∀ a a', R a a' → S (g a) (g' a'))
    (hx : x.Shift d before e after R) : (f <*> x).Shift d before e after S :=
  fun n => ((hf n).both (hx (n + f.names.length))).map fun _ _ h => h.1 _ _ h.2

/-- Another field is where it was, or one place further on. -/
theorem other {name : String} {read : Reader α} {absent : Option α} (hne : e.1 ≠ name) :
    (Fields.field name read absent).Shift d before e after Eq := by
  intro n
  have hnot : ¬ (decide (e.1 = name)) = true := by simpa using hne
  rw [field]
  dsimp only
  rw [List.findIdx?_append, List.findIdx?_append, List.findIdx?_cons, if_neg hnot]
  cases hbefore : before.findIdx? fun m => m.1 = name with
  | some i =>
      have hi : i < before.length := (List.findIdx?_eq_some_iff_getElem.mp hbefore).1
      simp only [Option.some_or, List.getElem?_append_left hi]
      cases before[i]? with
      | some m => exact .locate_before hi _
      | none => exact .before hi
  | none =>
      cases hafter : after.findIdx? fun m => m.1 = name with
      | some j =>
          have hold : (before ++ after)[j + before.length]? = after[j]? := by
            rw [List.getElem?_append_right (Nat.le_add_left _ _), Nat.add_sub_cancel]
          have hplace : j + 1 + before.length = j + before.length + 1 := Nat.add_right_comm _ _ _
          have hnew : (before ++ e :: after)[j + before.length + 1]? = after[j]? := by
            rw [← hplace, List.getElem?_append_right (Nat.le_add_left _ _), Nat.add_sub_cancel,
              List.getElem?_cons_succ]
          simp only [Option.none_or, Option.map_some, hold, hnew, hplace]
          cases after[j]? with
          | some m => exact .locate_behind (Nat.le_add_left _ _) _
          | none => exact .behind (Nat.le_add_left _ _)
      | none =>
          cases absent with
          | some a => exact .ok rfl
          | none =>
              have hplace : (before ++ e :: after).length + 1 + n =
                  (before ++ after).length + 1 + n + 1 := by
                simp only [List.length_append, List.length_cons]
                omega
              simp only [Option.none_or, Option.map_none, hplace]
              refine .behind ?_
              rw [List.length_append]
              omega

/-- A field that has been absent is read, and so is its default in its stead. -/
theorem self {read : Reader α} {a b : α}
    (habsent : name ∉ (before ++ after).map Prod.fst) (hv : read d v = .ok b) :
    (Fields.withDefault name read a).Shift d before (name, v) after fun x y => x = a ∧ y = b := by
  intro n
  have hold : ((Fields.withDefault name read a).ofMembers d (before ++ after) n) = .ok a := by
    rw [withDefault_eq_ok, fieldValue, membersNamed_eq_nil habsent]
    rfl
  have hnew : (Fields.withDefault name read a).ofMembers d (before ++ (name, v) :: after) n =
      .ok b := by
    have hbefore : name ∉ before.map Prod.fst := by
      rw [List.map_append] at habsent
      exact fun h => habsent (List.mem_append_left _ h)
    rw [withDefault_eq_ok, fieldValue, membersNamed_insert_self, membersNamed_eq_nil hbefore]
    exact hv
  rw [hold, hnew]
  exact .ok ⟨rfl, rfl⟩

end Fields.Shift

/-! ## Order -/

variable {names seen seen' : List String} {canPass : Value → Bool} {flaw : Option Flaw}

/-- Behind the new member. -/
theorem Fields.shifted_disorder_behind {k place : Nat} (hk : k ≤ place)
    {ms : List (String × Value)} (hseen : ∀ m ∈ ms, m.1 ∈ seen ↔ m.1 ∈ seen') :
    Shifted k Eq (disorder names canPass flaw seen place ms)
      (disorder names canPass flaw seen' (place + 1) ms) := by
  induction ms generalizing seen seen' place with
  | nil => exact .locate_behind hk _
  | cons m ms ih =>
      obtain ⟨n, w⟩ := m
      rw [disorder, disorder]
      have hsame : seen.contains n = seen'.contains n := by
        rw [List.contains_eq_mem, List.contains_eq_mem]
        exact decide_eq_decide.mpr (hseen _ List.mem_cons_self)
      rw [hsame]
      split
      · split
        · exact .behind hk
        · refine ih (Nat.le_succ_of_le hk) fun m hm => ?_
          simp only [List.mem_cons, hseen m (List.mem_cons_of_mem _ hm)]
      · split
        · exact ih (Nat.le_succ_of_le hk) fun m hm => hseen m (List.mem_cons_of_mem _ hm)
        · exact .behind hk

/-- A field that was absent and comes in brings no disorder. -/
theorem Fields.shifted_disorder {place : Nat} (hname : name ∈ names)
    (habsent : name ∉ (before ++ after).map Prod.fst) (hseen : name ∉ seen) :
    Shifted (place + before.length) Eq
      (disorder names canPass flaw seen place (before ++ after))
      (disorder names canPass flaw seen place (before ++ (name, v) :: after)) := by
  induction before generalizing seen place with
  | nil =>
      rw [List.nil_append, List.nil_append, disorder, if_pos (List.contains_iff_mem.mpr hname),
        if_neg (mt List.contains_iff_mem.mp hseen)]
      refine shifted_disorder_behind (Nat.le_refl _) fun m hm => ?_
      have hne : m.1 ≠ name := fun h => habsent (h ▸ List.mem_map_of_mem hm)
      simp only [List.mem_cons, hne, false_or]
  | cons m before ih =>
      obtain ⟨n, w⟩ := m
      have hne : name ≠ n := fun h => habsent (h ▸ List.mem_cons_self)
      have hrest : name ∉ (before ++ after).map Prod.fst := fun h =>
        habsent (List.mem_cons_of_mem _ h)
      have hplace : place + (before.length + 1) = place + 1 + before.length := by omega
      rw [List.cons_append, List.cons_append, disorder, disorder, List.length_cons, hplace]
      split
      · split
        · exact .before (by omega)
        · refine ih hrest ?_
          rw [List.mem_cons, not_or]
          exact ⟨hne, hseen⟩
      · split
        · exact ih hrest hseen
        · exact .before (by omega)

end

/-- A field that was absent comes in between the members of a record: the record
    has the same fault as before, or its data differ as those of the field do. -/
theorem record_map_eq_of_insertion {γ : Type} {label : String} {x : Fields α} {f : α → γ}
    {d : Dialect} {before after : List (String × Value)} {name : String} {v : Value}
    (hname : name ∈ x.names) (habsent : name ∉ (before ++ after).map Prod.fst)
    (hx : x.Shift d before (name, v) after fun a b => f a = f b) :
    (Document.record label x d (.map (before ++ after))).map f =
      (Document.record label x d (.map (before ++ (name, v) :: after))).map f := by
  have hdisorder := @Fields.shifted_disorder before after name v x.names []
    Value.isPassable none 0 hname habsent List.not_mem_nil
  rw [Nat.zero_add] at hdisorder
  have hdata : Shifted before.length (fun a b => f a = f b) _ _ :=
    (hdisorder.both (hx 0)).map fun _ _ h => h.2
  exact hdata.result_map_eq fun _ _ h => h

end Classpath.Document
