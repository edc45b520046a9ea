import Mathlib.Data.List.Nodup
import Classpath.Proofs.Document.Fields

/-! # Edits — documents that say the same in other words

    A `Shape` tells what data stand where in a document.  Along it the document
    may be edited: the members of a table change their order, members come in
    that are no fields, and fields that were left out are written with their
    default, at any depth (`Edit`).

    No edit brings in a flaw (`Edit.hasOnly_eq`).  For a field of a record an
    edit comes to one of three things, which is all that reading it takes
    (`SameField`), whether the record stands there as an object
    (`Edit.editedMembers`) or as an array (`Edit.editedItems`). -/

namespace Classpath.Document

/-! ## Shapes and edits -/

/-- What stands where in a document.  A leaf has no parts that count; a record
    has fields of these names, and some values of a field say as much as if it
    were left out. -/
inductive Shape where
  | leaf
  | list (item : Shape)
  | map (entry : Shape)
  | record (names : List String) (inner : String → Shape)
      (IsDefault : String → Value → Prop)

namespace Shape

/-- The shape of the item at a place.  In an array the fields of a record stand
    in their order. -/
def atPlace : Shape → Nat → Shape
  | .list item, _ => item
  | .record names inner _, i => match names[i]? with
    | some name => inner name
    | none => .leaf
  | _, _ => .leaf

/-- The shape of the member with a name. -/
def atName : Shape → String → Shape
  | .map entry, _ => entry
  | .record _ inner _, name => inner name
  | _, _ => .leaf

end Shape

/-- One change to a value of some shape that is not to matter. -/
inductive Edit : Shape → Value → Value → Prop
  /-- The members of a table, no two with one name, change their order. -/
  | reorder {s : Shape} {ms ms' : List (String × Value)} (hnodup : (ms.map Prod.fst).Nodup)
      (hperm : ms.Perm ms') : Edit s (.map ms) (.map ms')
  /-- An item is edited. -/
  | item {s : Shape} {before after : List Value} {v v' : Value}
      (h : Edit (s.atPlace before.length) v v') :
      Edit s (.list (before ++ v :: after)) (.list (before ++ v' :: after))
  /-- A member is edited. -/
  | member {s : Shape} {before after : List (String × Value)} {name : String} {v v' : Value}
      (h : Edit (s.atName name) v v') :
      Edit s (.map (before ++ (name, v) :: after)) (.map (before ++ (name, v') :: after))
  /-- A member comes in that is no field of the record. -/
  | unknown {names : List String} {inner : String → Shape} {IsDefault : String → Value → Prop}
      {ms : List (String × Value)} {name : String} {v : Value} (hname : name ∉ names)
      (hv : v.isWhole = true) :
      Edit (.record names inner IsDefault) (.map ms) (.map (ms ++ [(name, v)]))
  /-- A field that is absent is written with its default. -/
  | default {names : List String} {inner : String → Shape} {IsDefault : String → Value → Prop}
      {ms : List (String × Value)} {name : String} {v : Value}
      (habsent : name ∉ ms.map Prod.fst) (hdefault : IsDefault name v)
      (hv : v.isWhole = true) :
      Edit (.record names inner IsDefault) (.map ms) (.map (ms ++ [(name, v)]))
  /-- So is the next field of a record that is written as an array. -/
  | fill {names : List String} {inner : String → Shape} {IsDefault : String → Value → Prop}
      {items : List Value} {name : String} {v : Value}
      (hname : names[items.length]? = some name) (hdefault : IsDefault name v)
      (hv : v.isWhole = true) :
      Edit (.record names inner IsDefault) (.list items) (.list (items ++ [v]))

/-! ## Flaws -/

mutual

/-- A value that can be read to its end has no flaws at all. -/
theorem Value.hasOnly_of_isWhole (flaws : List Flaw) :
    ∀ v : Value, v.hasOnly [] = true → v.hasOnly flaws = true
  | .array items flaw, h => by
      rw [hasOnly, Bool.and_eq_true] at h ⊢
      refine ⟨?_, itemsHaveOnly_of_isWhole flaws items h.2⟩
      cases flaw with
      | none => rfl
      | some flaw => exact absurd h.1 (by simp)
  | .object members flaw, h => by
      rw [hasOnly, Bool.and_eq_true] at h ⊢
      refine ⟨?_, membersHaveOnly_of_isWhole flaws members h.2⟩
      cases flaw with
      | none => rfl
      | some flaw => exact absurd h.1 (by simp)
  | .flawed flaw, h => by simp [hasOnly] at h
  | .null, _ => rfl
  | .bool _, _ => rfl
  | .integer _, _ => rfl
  | .decimal _, _ => rfl
  | .string _, _ => rfl
  | .moment _, _ => rfl

theorem Value.itemsHaveOnly_of_isWhole (flaws : List Flaw) :
    ∀ items : List Value, itemsHaveOnly [] items = true → itemsHaveOnly flaws items = true
  | [], _ => rfl
  | v :: rest, h => by
      rw [itemsHaveOnly, Bool.and_eq_true] at h ⊢
      exact ⟨hasOnly_of_isWhole flaws v h.1, itemsHaveOnly_of_isWhole flaws rest h.2⟩

theorem Value.membersHaveOnly_of_isWhole (flaws : List Flaw) :
    ∀ ms : List (String × Value),
      membersHaveOnly [] ms = true → membersHaveOnly flaws ms = true
  | [], _ => rfl
  | (_, v) :: rest, h => by
      rw [membersHaveOnly, Bool.and_eq_true] at h ⊢
      exact ⟨hasOnly_of_isWhole flaws v h.1, membersHaveOnly_of_isWhole flaws rest h.2⟩

end

theorem Value.itemsHaveOnly_eq_all (flaws : List Flaw) (items : List Value) :
    itemsHaveOnly flaws items = items.all (hasOnly flaws) := by
  induction items with
  | nil => rfl
  | cons v items ih => rw [itemsHaveOnly, ih, List.all_cons]

theorem Value.membersHaveOnly_eq_all (flaws : List Flaw) (ms : List (String × Value)) :
    membersHaveOnly flaws ms = ms.all fun m => m.2.hasOnly flaws := by
  induction ms with
  | nil => rfl
  | cons m ms ih =>
      obtain ⟨name, v⟩ := m
      rw [membersHaveOnly, ih, List.all_cons]

namespace Edit

variable {s : Shape} {v v' : Value}

/-- An array stays an array and a table a table. -/
theorem kind (h : Edit s v v') :
    (∃ items items', v = .list items ∧ v' = .list items')
      ∨ ∃ ms ms', v = .map ms ∧ v' = .map ms' := by
  cases h with
  | item => exact .inl ⟨_, _, rfl, rfl⟩
  | fill => exact .inl ⟨_, _, rfl, rfl⟩
  | reorder => exact .inr ⟨_, _, rfl, rfl⟩
  | member => exact .inr ⟨_, _, rfl, rfl⟩
  | unknown => exact .inr ⟨_, _, rfl, rfl⟩
  | default => exact .inr ⟨_, _, rfl, rfl⟩

/-- Null is neither. -/
theorem ne_null (h : Edit s v v') : v ≠ .null ∧ v' ≠ .null := by
  rcases h.kind with ⟨items, items', rfl, rfl⟩ | ⟨ms, ms', rfl, rfl⟩
  · exact ⟨(fun h => nomatch h), (fun h => nomatch h)⟩
  · exact ⟨(fun h => nomatch h), (fun h => nomatch h)⟩

/-- No flaw goes and none comes. -/
theorem hasOnly_eq (h : Edit s v v') (flaws : List Flaw) :
    v.hasOnly flaws = v'.hasOnly flaws := by
  induction h with
  | reorder hnodup hperm =>
      rw [Value.hasOnly, Value.hasOnly, Value.membersHaveOnly_eq_all,
        Value.membersHaveOnly_eq_all, hperm.all_eq]
  | item h ih =>
      rw [Value.hasOnly, Value.hasOnly, Value.itemsHaveOnly_eq_all,
        Value.itemsHaveOnly_eq_all, List.all_append, List.all_append, List.all_cons,
        List.all_cons, ih]
  | member h ih =>
      rw [Value.hasOnly, Value.hasOnly, Value.membersHaveOnly_eq_all,
        Value.membersHaveOnly_eq_all, List.all_append, List.all_append, List.all_cons,
        List.all_cons, ih]
  | unknown hname hv =>
      have hv' := Value.hasOnly_of_isWhole flaws _ hv
      simp [Value.hasOnly, Value.membersHaveOnly_eq_all, hv']
  | default habsent hdefault hv =>
      have hv' := Value.hasOnly_of_isWhole flaws _ hv
      simp [Value.hasOnly, Value.membersHaveOnly_eq_all, hv']
  | fill hname hdefault hv =>
      have hv' := Value.hasOnly_of_isWhole flaws _ hv
      simp [Value.hasOnly, Value.itemsHaveOnly_eq_all, hv']

end Edit

/-! ## The members and the items of a record -/

/-- The value of the first member with a name. -/
def valueNamed (name : String) (ms : List (String × Value)) : Option Value :=
  (membersNamed name ms).head?.map Prod.snd

/-- What an edit of a record comes to for one of its fields: it is as it was, or
    its value is edited, or its default has been written. -/
inductive SameField (s : Shape) (IsDefault : Value → Prop) : Option Value → Option Value → Prop
  | same (o : Option Value) : SameField s IsDefault o o
  | edited {v v' : Value} (h : Edit s v v') : SameField s IsDefault (some v) (some v')
  | added {v : Value} (h : IsDefault v) : SameField s IsDefault none (some v)

section

variable {names : List String} {inner : String → Shape} {IsDefault : String → Value → Prop}
  {ms ms' : List (String × Value)} {name : String} {v v' : Value}

/-- What an edit of a record comes to for its members. -/
structure EditedMembers (names : List String) (inner : String → Shape)
    (IsDefault : String → Value → Prop) (ms ms' : List (String × Value)) : Prop where
  field : ∀ name ∈ names,
    SameField (inner name) (IsDefault name) (valueNamed name ms) (valueNamed name ms')
  once : ∀ name ∈ names,
    (membersNamed name ms).length ≤ 1 ↔ (membersNamed name ms').length ≤ 1
  flaws : ∀ flaws : List Flaw, ∀ known : List String,
    (∀ e ∈ ms, e.1 ∉ known → e.2.hasOnly flaws = true) ↔
      ∀ e ∈ ms', e.1 ∉ known → e.2.hasOnly flaws = true

/-- The order of members with different names does not matter. -/
theorem membersNamed_perm (hnodup : (ms.map Prod.fst).Nodup) (hperm : ms.Perm ms')
    (name : String) : membersNamed name ms = membersNamed name ms' := by
  have hfilter : (membersNamed name ms).Perm (membersNamed name ms') := hperm.filter _
  have hone := length_membersNamed_le_one hnodup name
  match hms : membersNamed name ms, hone with
  | [], _ =>
      rw [hms] at hfilter
      exact hfilter.nil_eq
  | [e], _ =>
      rw [hms] at hfilter
      exact (List.singleton_perm.mp hfilter)

namespace EditedMembers

/-- To their order the fields pay no attention. -/
theorem of_perm (hnodup : (ms.map Prod.fst).Nodup) (hperm : ms.Perm ms') :
    EditedMembers names inner IsDefault ms ms' := by
  have hnamed := membersNamed_perm hnodup hperm
  refine ⟨fun name _ => ?_, fun name _ => ?_, fun flaws known => ?_⟩
  · rw [valueNamed, valueNamed, hnamed]
    exact .same _
  · rw [hnamed]
  · simp only [hperm.mem_iff]

/-- A member that is edited is a field that is edited, or none. -/
theorem of_edit {before after : List (String × Value)} (h : Edit (inner name) v v') :
    EditedMembers names inner IsDefault (before ++ (name, v) :: after)
      (before ++ (name, v') :: after) := by
  refine ⟨fun name' _ => ?_, fun name' _ => ?_, fun flaws known => ?_⟩
  · by_cases hne : name = name'
    · subst hne
      rw [valueNamed, valueNamed, membersNamed_insert_self, membersNamed_insert_self]
      -- An earlier member with that name hides this one.
      cases membersNamed name before with
      | nil => exact .edited h
      | cons e rest => exact .same _
    · rw [valueNamed, valueNamed, membersNamed_insert_of_ne hne, membersNamed_insert_of_ne hne]
      exact .same _
  · by_cases hne : name = name'
    · subst hne
      rw [membersNamed_insert_self, membersNamed_insert_self, List.length_append,
        List.length_append, List.length_cons, List.length_cons]
    · rw [membersNamed_insert_of_ne hne, membersNamed_insert_of_ne hne]
  · simp only [List.forall_mem_append, List.forall_mem_cons, h.hasOnly_eq flaws]

/-- A member that comes in is no field, or else the default of one that was
    absent. -/
theorem concat (hv : v.isWhole = true)
    (h : name ∈ names → name ∉ ms.map Prod.fst ∧ IsDefault name v) :
    EditedMembers names inner IsDefault ms (ms ++ [(name, v)]) := by
  have hother : ∀ {name' : String}, name ≠ name' →
      membersNamed name' (ms ++ [(name, v)]) = membersNamed name' ms := by
    intro name' hne
    exact (membersNamed_insert_of_ne hne v ms []).trans (List.append_nil _)
  have hself : name ∉ ms.map Prod.fst → membersNamed name (ms ++ [(name, v)]) = [(name, v)] := by
    intro habsent
    rw [membersNamed_insert_self, membersNamed_eq_nil habsent]
    rfl
  refine ⟨fun name' hname' => ?_, fun name' hname' => ?_, fun flaws known => ?_⟩
  · by_cases hne : name = name'
    · subst hne
      obtain ⟨habsent, hdefault⟩ := h hname'
      rw [valueNamed, valueNamed, membersNamed_eq_nil habsent, hself habsent]
      exact .added hdefault
    · rw [valueNamed, valueNamed, hother hne]
      exact .same _
  · by_cases hne : name = name'
    · subst hne
      obtain ⟨habsent, -⟩ := h hname'
      rw [membersNamed_eq_nil habsent, hself habsent]
      exact iff_of_true (Nat.zero_le 1) (Nat.le_refl 1)
    · rw [hother hne]
  · simp only [List.forall_mem_append, List.forall_mem_singleton,
      Value.hasOnly_of_isWhole flaws v hv, implies_true, and_true]

/-- There is order after an edit if there was before. -/
theorem orderly_iff {known : List String} (h : EditedMembers names inner IsDefault ms ms')
    (hknown : ∀ name ∈ known, name ∈ names) (flaws : List Flaw) :
    Orderly known (Value.hasOnly flaws) ms ↔ Orderly known (Value.hasOnly flaws) ms' :=
  ⟨fun hms => ⟨fun name hname => (h.once name (hknown name hname)).mp (hms.once name hname),
      (h.flaws flaws known).mp hms.passable⟩,
    fun hms => ⟨fun name hname => (h.once name (hknown name hname)).mpr (hms.once name hname),
      (h.flaws flaws known).mpr hms.passable⟩⟩

end EditedMembers

theorem Edit.editedMembers (h : Edit (.record names inner IsDefault) (.map ms) (.map ms')) :
    EditedMembers names inner IsDefault ms ms' := by
  cases h with
  | reorder hnodup hperm => exact .of_perm hnodup hperm
  | member h => exact .of_edit h
  | unknown hname hv => exact .concat hv fun hin => absurd hin hname
  | default habsent hdefault hv => exact .concat hv fun _ => ⟨habsent, hdefault⟩

/-- What an edit of a record comes to for its items. -/
structure EditedItems (names : List String) (inner : String → Shape)
    (IsDefault : String → Value → Prop) (items items' : List Value) : Prop where
  field : ∀ (i : Nat) (name : String), names[i]? = some name →
    SameField (inner name) (IsDefault name) items[i]? items'[i]?
  length : items.length ≤ names.length ↔ items'.length ≤ names.length

theorem Edit.editedItems {items items' : List Value}
    (h : Edit (.record names inner IsDefault) (.list items) (.list items')) :
    EditedItems names inner IsDefault items items' := by
  cases h with
  | @item _ before after v v' h =>
      refine ⟨fun i name hname => ?_, ?_⟩
      · rcases Nat.lt_trichotomy i before.length with hi | rfl | hi
        · rw [List.getElem?_append_left hi, List.getElem?_append_left hi]
          exact .same _
        · rw [List.getElem?_append_right (Nat.le_refl _),
            List.getElem?_append_right (Nat.le_refl _), Nat.sub_self]
          rw [Shape.atPlace, hname] at h
          exact .edited h
        · obtain ⟨j, hj⟩ := Nat.exists_eq_add_of_lt hi
          have hafter : ∀ v, (before ++ v :: after)[i]? = after[j]? := by
            intro v
            rw [List.getElem?_append_right (Nat.le_of_lt hi), hj, Nat.add_assoc,
              Nat.add_sub_cancel_left, List.getElem?_cons_succ]
          rw [hafter, hafter]
          exact .same _
      · rw [List.length_append, List.length_append, List.length_cons, List.length_cons]
  | @fill _ _ _ items name v hname hdefault hv =>
      refine ⟨fun i name' hname' => ?_, ?_⟩
      · rcases Nat.lt_trichotomy i items.length with hi | rfl | hi
        · rw [List.getElem?_append_left hi]
          exact .same _
        · rw [hname] at hname'
          obtain rfl := Option.some.inj hname'
          rw [List.getElem?_eq_none (Nat.le_refl _),
            List.getElem?_append_right (Nat.le_refl _), Nat.sub_self]
          exact .added hdefault
        · have hlong : (items ++ [v]).length ≤ i := by
            rw [List.length_append, List.length_singleton]
            exact hi
          rw [List.getElem?_eq_none (Nat.le_of_lt hi), List.getElem?_eq_none hlong]
          exact .same _
      · obtain ⟨hlt, -⟩ := List.getElem?_eq_some_iff.mp hname
        rw [List.length_append, List.length_singleton]
        exact iff_of_true (Nat.le_of_lt hlt) hlt

end

end Classpath.Document
