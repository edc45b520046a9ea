import Mathlib.Data.List.Basic
import Classpath.Document.Record
import Classpath.Proofs.Outcome

/-! # Fields — what the members of an object have to be

    A record is read from an object when no field stands there twice and all
    other members can be passed over, which is `Orderly`, and when its fields
    can be read (`record_eq_ok`).  A field does not see more of the members
    than those with its name (`withDefault_eq_ok`).  So for two objects that
    agree apart from some fields, nothing but those fields is in question
    (`AgreeApart.orderly`, `AgreeApart.fieldValue_eq`). -/

namespace Classpath.Document

/-- The members with a name. -/
def membersNamed (name : String) (ms : List (String × Value)) :
    List (String × Value) :=
  ms.filter fun e => e.1 = name

/-- One member has this name and value, or there is none and the value is
    vacuous. -/
def Holds (ms : List (String × Value)) (name : String) (v vacuous : Value) : Prop :=
  membersNamed name ms = [(name, v)] ∨ membersNamed name ms = [] ∧ v = vacuous

/-- The members are the same but for those with some names. -/
def AgreeApart (names : List String) (ms ms' : List (String × Value)) : Prop :=
  ∀ name, name ∉ names → membersNamed name ms = membersNamed name ms'

/-- No field stands there twice, and other members can be passed over. -/
structure Orderly (names : List String) (canPass : Value → Bool)
    (ms : List (String × Value)) : Prop where
  once : ∀ name ∈ names, (membersNamed name ms).length ≤ 1
  passable : ∀ e ∈ ms, e.1 ∉ names → canPass e.2 = true

/-- What a field is read as that has a default. -/
def fieldValue {α : Type} (name : String) (read : Reader α) (absent : α)
    (d : Dialect) (ms : List (String × Value)) : Except ReadFault α :=
  match (membersNamed name ms).head? with
  | some e => read d e.2
  | none => .ok absent

variable {α β : Type} {name : String} {names : List String} {canPass : Value → Bool}
  {d : Dialect} {ms ms' : List (String × Value)}

theorem length_membersNamed_cons (name : String) (e : String × Value)
    (ms : List (String × Value)) :
    (membersNamed name (e :: ms)).length =
      (membersNamed name ms).length + if e.1 = name then 1 else 0 := by
  by_cases h : e.1 = name
  · rw [membersNamed, List.filter_cons_of_pos (by simp [h]), if_pos h]
    rfl
  · rw [membersNamed, List.filter_cons_of_neg (by simp [h]), if_neg h]
    rfl

theorem mem_membersNamed {e : String × Value} :
    e ∈ membersNamed name ms ↔ e ∈ ms ∧ e.1 = name := by
  rw [membersNamed, List.mem_filter, decide_eq_true_eq]

theorem membersNamed_append (name : String) (ms ms' : List (String × Value)) :
    membersNamed name (ms ++ ms') = membersNamed name ms ++ membersNamed name ms' :=
  List.filter_append ms ms'

/-- A member is found among the others by its own name. -/
theorem membersNamed_insert_self (name : String) (v : Value)
    (before after : List (String × Value)) :
    membersNamed name (before ++ (name, v) :: after) =
      membersNamed name before ++ (name, v) :: membersNamed name after := by
  rw [membersNamed_append, membersNamed, membersNamed, membersNamed,
    List.filter_cons_of_pos (by simp)]

/-- By no other name is it found. -/
theorem membersNamed_insert_of_ne {name' : String} (h : name' ≠ name) (v : Value)
    (before after : List (String × Value)) :
    membersNamed name (before ++ (name', v) :: after) =
      membersNamed name before ++ membersNamed name after := by
  rw [membersNamed_append, membersNamed, membersNamed, membersNamed,
    List.filter_cons_of_neg (by simpa using h)]

theorem membersNamed_eq_nil (h : name ∉ ms.map Prod.fst) : membersNamed name ms = [] := by
  refine List.filter_eq_nil_iff.mpr fun e he heq => h ?_
  rw [decide_eq_true_eq] at heq
  exact List.mem_map.mpr ⟨e, he, heq⟩

/-- Of members with different names only one has a given name. -/
theorem length_membersNamed_le_one (hms : (ms.map Prod.fst).Nodup) (name : String) :
    (membersNamed name ms).length ≤ 1 := by
  have hcount : (membersNamed name ms).length = (ms.map Prod.fst).count name := by
    rw [membersNamed, ← List.countP_eq_length_filter, List.count, List.countP_map]
    rfl
  rw [hcount]
  exact List.nodup_iff_count.mp hms name

/-- So they are in order. -/
theorem orderly_of_nodup (hms : (ms.map Prod.fst).Nodup)
    (hpass : ∀ e ∈ ms, e.1 ∉ names → canPass e.2 = true) : Orderly names canPass ms where
  once name _ := length_membersNamed_le_one hms name
  passable := hpass

theorem Holds.length_le_one {v vacuous : Value} (h : Holds ms name v vacuous) :
    (membersNamed name ms).length ≤ 1 := by
  rcases h with h | ⟨h, -⟩
  · rw [h]
    exact Nat.le_refl 1
  · rw [h]
    exact Nat.zero_le 1

/-- A member that is left out is read as the default, as if it were there. -/
theorem Holds.fieldValue_eq {v vacuous : Value} (h : Holds ms name v vacuous)
    {read : Reader α} {absent : α} (hvacuous : read d vacuous = .ok absent) :
    fieldValue name read absent d ms = read d v := by
  rcases h with h | ⟨h, rfl⟩
  · rw [fieldValue, h]
    rfl
  · rw [fieldValue, h, hvacuous]
    rfl

namespace AgreeApart

theorem symm (h : AgreeApart names ms ms') : AgreeApart names ms' ms :=
  fun name hname => (h name hname).symm

theorem fieldValue_eq (h : AgreeApart names ms ms') (hname : name ∉ names)
    (read : Reader α) (absent : α) (d : Dialect) :
    fieldValue name read absent d ms = fieldValue name read absent d ms' := by
  rw [fieldValue, fieldValue, h name hname]

/-- Fields may be exchanged for others without bringing disorder. -/
theorem orderly {fields : List String} (h : AgreeApart names ms ms')
    (hnames : names ⊆ fields)
    (honce : ∀ name ∈ names, (membersNamed name ms').length ≤ 1)
    (hms : Orderly fields canPass ms) : Orderly fields canPass ms' where
  once name hname := by
    by_cases hin : name ∈ names
    · exact honce name hin
    · rw [← h name hin]
      exact hms.once name hname
  passable e he hfield := by
    have hmem : e ∈ membersNamed e.1 ms' := mem_membersNamed.mpr ⟨he, rfl⟩
    rw [← h e.1 fun hin => hfield (hnames hin)] at hmem
    exact hms.passable e (mem_membersNamed.mp hmem).1 hfield

end AgreeApart

/-- Where a fault would stand does not matter to what was read. -/
theorem Placed.locate_eq_ok {place : Nat} {x : Except ReadFault α} {a : α} :
    Placed.locate place x = .ok a ↔ x = .ok a := by
  cases x with
  | error fault => exact iff_of_false (fun h => nomatch h) (fun h => nomatch h)
  | ok b =>
      constructor
      · intro h
        rw [Except.ok.inj h]
      · intro h
        rw [Except.ok.inj h]
        rfl

/-- A function and its argument are both read. -/
theorem Placed.ap_eq_ok {f : Placed (α → β)} {x : Placed α} {b : β} :
    (f.both x).map (fun p => p.1 p.2) = .ok b ↔
      ∃ g, f = .ok g ∧ ∃ a, x = .ok a ∧ g a = b := by
  rw [map_eq_ok_iff]
  constructor
  · rintro ⟨⟨g, a⟩, hboth, rfl⟩
    obtain ⟨hf, hx⟩ := Placed.both_eq_ok.mp hboth
    exact ⟨g, hf, a, hx, rfl⟩
  · rintro ⟨g, hf, a, hx, rfl⟩
    exact ⟨(g, a), Placed.both_eq_ok.mpr ⟨hf, hx⟩, rfl⟩

/-- What is read stands if nothing else is wrong. -/
theorem Placed.map_snd_both_eq_ok {order : Placed Unit} {x : Placed α} {a : α} :
    (order.both x).map Prod.snd = .ok a ↔ order = .ok () ∧ x = .ok a := by
  rw [map_eq_ok_iff]
  constructor
  · rintro ⟨p, hboth, rfl⟩
    exact Placed.both_eq_ok.mp hboth
  · rintro ⟨horder, hx⟩
    exact ⟨((), a), Placed.both_eq_ok.mpr ⟨horder, hx⟩, rfl⟩

namespace Fields

/-! ## Order -/

/-- There is no disorder if neither the members nor those before them
    repeat a field, what is no field can be passed over, and the object is
    whole. -/
theorem disorder_eq_ok {flaw : Option Flaw} {seen : List String} {place : Nat} :
    disorder names canPass flaw seen place ms = .ok () ↔
      flaw = none
        ∧ (∀ name ∈ names,
            (membersNamed name ms).length + (if name ∈ seen then 1 else 0) ≤ 1)
        ∧ ∀ e ∈ ms, e.1 ∉ names → canPass e.2 = true := by
  -- `seen` grows along the members, so a field is counted on both sides of the cut.
  induction ms generalizing seen place with
  | nil =>
      cases flaw with
      | some flaw => exact iff_of_false (fun h => nomatch h) (fun ⟨h, _⟩ => nomatch h)
      | none =>
          refine iff_of_true rfl ⟨rfl, fun name _ => ?_, fun e he => nomatch he⟩
          rw [membersNamed, List.filter_nil]
          split <;> decide
  | cons e ms ih =>
      obtain ⟨n, v⟩ := e
      rw [disorder]
      by_cases hn : n ∈ names
      · rw [if_pos (List.contains_iff_mem.mpr hn)]
        by_cases hseen : n ∈ seen
        · rw [if_pos (List.contains_iff_mem.mpr hseen)]
          refine iff_of_false (fun h => nomatch h) fun ⟨_, honce, _⟩ => ?_
          have h := honce n hn
          rw [length_membersNamed_cons, if_pos rfl, if_pos hseen] at h
          omega
        · rw [if_neg (mt List.contains_iff_mem.mp hseen), ih]
          refine and_congr_right fun _ => and_congr ?_ ?_
          · -- The first member counts as seen instead of as one of the members.
            refine forall₂_congr fun name _ => ?_
            rw [length_membersNamed_cons]
            by_cases heq : n = name
            · subst heq
              rw [if_pos List.mem_cons_self, if_pos rfl, if_neg hseen]
            · have hmem : name ∈ n :: seen ↔ name ∈ seen :=
                ⟨fun h => (List.mem_cons.mp h).resolve_left (Ne.symm heq),
                  List.mem_cons_of_mem n⟩
              rw [if_neg heq, Nat.add_zero]
              simp only [hmem]
          · rw [List.forall_mem_cons]
            exact (and_iff_right fun h => absurd hn h).symm
      · rw [if_neg (mt List.contains_iff_mem.mp hn)]
        by_cases hv : canPass v = true
        · rw [if_pos hv, ih]
          refine and_congr_right fun _ => and_congr ?_ ?_
          · refine forall₂_congr fun name hname => ?_
            have hne : n ≠ name := fun h => hn (h ▸ hname)
            rw [length_membersNamed_cons, if_neg hne, Nat.add_zero]
          · rw [List.forall_mem_cons]
            exact (and_iff_right fun _ => hv).symm
        · rw [if_neg hv]
          exact iff_of_false (fun h => nomatch h) fun ⟨_, _, hpass⟩ =>
            hv (hpass (n, v) List.mem_cons_self hn)

/-- An object is read if it is whole and orderly and its fields can be
    read. -/
theorem readMembers_eq_ok {x : Fields α} {flaw : Option Flaw} {a : α} :
    x.readMembers canPass d ms flaw = .ok a ↔
      flaw = none ∧ Orderly x.names canPass ms ∧ x.ofMembers d ms 0 = .ok a := by
  have hdisorder : disorder x.names canPass flaw [] 0 ms = .ok () ↔
      flaw = none ∧ Orderly x.names canPass ms := by
    rw [disorder_eq_ok]
    exact and_congr_right fun _ => ⟨fun h => ⟨h.1, h.2⟩, fun h => ⟨h.once, h.passable⟩⟩
  rw [readMembers, Placed.result_eq_ok, ← and_assoc, ← hdisorder]
  exact Placed.map_snd_both_eq_ok

/-! ## Fields -/

theorem map_eq_ok {f : α → β} {x : Fields α} {n : Nat} {b : β} :
    (f <$> x).ofMembers d ms n = .ok b ↔ ∃ a, x.ofMembers d ms n = .ok a ∧ f a = b :=
  map_eq_ok_iff

theorem seq_eq_ok {f : Fields (α → β)} {x : Fields α} {n : Nat} {b : β} :
    (f <*> x).ofMembers d ms n = .ok b ↔
      ∃ g, f.ofMembers d ms n = .ok g
        ∧ ∃ a, x.ofMembers d ms (n + f.names.length) = .ok a ∧ g a = b :=
  Placed.ap_eq_ok

/-- A field is read from the first member with its name, wherever it stands,
    or has its default if it has one. -/
theorem field_eq_ok {read : Reader α} {absent : Option α} {a : α} {n : Nat} :
    (field name read absent).ofMembers d ms n = .ok a ↔
      match (membersNamed name ms).head? with
      | some e => read d e.2 = .ok a
      | none => absent = some a := by
  rw [membersNamed, List.head?_filter, List.find?_eq_bind_findIdx?_getElem?, field]
  dsimp only
  cases hi : ms.findIdx? fun m => m.1 = name with
  | none => cases absent <;> simp
  | some i =>
      have hfound := List.of_findIdx?_eq_some hi
      rw [Option.bind_some]
      dsimp only
      cases hm : ms[i]? with
      | none =>
          rw [hm] at hfound
          exact absurd hfound Bool.false_ne_true
      | some m => exact Placed.locate_eq_ok

/-- A field that must be there is read from a member with its name. -/
theorem required_eq_ok {read : Reader α} {a : α} {n : Nat} :
    (required name read).ofMembers d ms n = .ok a ↔
      ∃ e, (membersNamed name ms).head? = some e ∧ read d e.2 = .ok a := by
  rw [required, field_eq_ok]
  cases (membersNamed name ms).head? with
  | none => simp
  | some e => simp

/-- A field that has a default is read wherever it stands. -/
theorem withDefault_eq_ok {read : Reader α} {absent a : α} {n : Nat} :
    (withDefault name read absent).ofMembers d ms n = .ok a ↔
      fieldValue name read absent d ms = .ok a := by
  rw [withDefault, field_eq_ok, fieldValue]
  cases (membersNamed name ms).head? with
  | none => simp
  | some e => exact Iff.rfl

/-! ## Fields of an array -/

variable {items : List Value} {short : Nat → ReadFault}

theorem map_items_eq_ok {f : α → β} {x : Fields α} {n : Nat} {b : β} :
    (f <$> x).ofItems d items short n = .ok b ↔
      ∃ a, x.ofItems d items short n = .ok a ∧ f a = b :=
  map_eq_ok_iff

theorem seq_items_eq_ok {f : Fields (α → β)} {x : Fields α} {n : Nat} {b : β} :
    (f <*> x).ofItems d items short n = .ok b ↔
      ∃ g, f.ofItems d items short n = .ok g
        ∧ ∃ a, x.ofItems d items short (n + f.names.length) = .ok a ∧ g a = b :=
  Placed.ap_eq_ok

/-- A field is read from the item in its place. -/
theorem field_items_eq_ok {read : Reader α} {absent : Option α} {a : α} {n : Nat} :
    (field name read absent).ofItems d items short n = .ok a ↔
      match items[n]? with
      | some v => read d v = .ok a
      | none => absent = some a := by
  rw [field]
  dsimp only
  cases items[n]? with
  | none => cases absent <;> simp
  | some v => exact Placed.locate_eq_ok

/-- An array is read if it is whole and not too long and its fields can be
    read. -/
theorem readItems_eq_ok {x : Fields α} {record : String} {flaw : Option Flaw} {a : α} :
    x.readItems record d items flaw = .ok a ↔
      flaw = none ∧ (d = .json → items.length ≤ x.names.length)
        ∧ x.ofItems d items (fun n => .wrongLength n record x.names.length) 0 = .ok a := by
  rw [readItems, Placed.result_eq_ok, Placed.map_snd_both_eq_ok, ← and_assoc]
  refine and_congr ?_ Iff.rfl
  cases flaw with
  | some flaw => simp
  | none => simp

end Fields

/-- A record is read from a whole object. -/
theorem record_eq_ok {record : String} {fields : Fields α} {a : α} :
    Document.record record fields d (.map ms) = .ok a ↔
      Orderly fields.names Value.isPassable ms ∧ fields.ofMembers d ms 0 = .ok a := by
  show fields.readMembers Value.isPassable d ms none = .ok a ↔ _
  rw [Fields.readMembers_eq_ok]
  exact and_iff_right rfl

/-- A record is read from a whole array as well. -/
theorem record_items_eq_ok {record : String} {fields : Fields α} {items : List Value} {a : α} :
    Document.record record fields d (.list items) = .ok a ↔
      (d = .json → items.length ≤ fields.names.length)
        ∧ fields.ofItems d items
            (fun n => .wrongLength n record fields.names.length) 0 = .ok a := by
  show fields.readItems record d items none = .ok a ↔ _
  rw [Fields.readItems_eq_ok]
  exact and_iff_right rfl

/-! ## Flattened records -/

/-- The members that are none of these fields have all others. -/
theorem membersNamed_filter_not (h : name ∉ names) (ms : List (String × Value)) :
    membersNamed name (ms.filter fun m => !names.contains m.1) = membersNamed name ms := by
  rw [membersNamed, membersNamed, List.filter_filter]
  refine List.filter_congr fun e _ => ?_
  by_cases he : e.1 = name
  · rw [he, List.contains_eq_mem, decide_eq_false h, Bool.not_false, Bool.and_true]
  · rw [decide_eq_false he, Bool.false_and]

/-- A record and the one within it are read from a whole object, the inner one
    from the members that are no fields of the outer one. -/
theorem flattened_eq_ok {record : String} {own : Fields α} {inner : Fields β} {p : α × β} :
    Document.flattened record own inner d (.map ms) = .ok p ↔
      (Orderly own.names Value.isWhole ms ∧ own.ofMembers d ms 0 = .ok p.1)
        ∧ Orderly inner.names (fun _ => true) (ms.filter fun m => !own.names.contains m.1)
        ∧ inner.ofMembers d (ms.filter fun m => !own.names.contains m.1) 0 = .ok p.2 := by
  show (own.readMembers Value.isWhole d ms none >>= fun a =>
    inner.readMembers (fun _ => true) d (ms.filter fun m => !own.names.contains m.1) none >>=
      fun b => pure (a, b)) = .ok p ↔ _
  rw [bind_eq_ok_iff]
  simp only [bind_eq_ok_iff, Fields.readMembers_eq_ok, true_and]
  constructor
  · rintro ⟨a, hown, b, hinner, hp⟩
    rw [← Except.ok.inj hp]
    exact ⟨hown, hinner⟩
  · rintro ⟨hown, hinner⟩
    exact ⟨p.1, hown, p.2, hinner, rfl⟩

end Classpath.Document
