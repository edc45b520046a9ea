import Mathlib.Data.List.Perm.Basic
import Mathlib.Logic.Relation
import Classpath.Proofs.Document.Edits
import Classpath.Proofs.Document.Yielding

/-! # Following — readers that do not notice an edit

    A reader follows a shape if it reads the same before and after an edit
    along it, or nothing before and after (`Reader.Follows`).  Readers do so as
    they are built.  For a record all its fields have to, each along its own
    shape, and their defaults have to be read as what they have when they are
    absent (`Reader.Follows.record`); records with the members of others among
    theirs are no exception (`Reader.Follows.flattened`).  What one edit does
    not change, any number of them does not (`Reader.Follows.run`). -/

namespace Classpath.Document

/-! ## Fields -/

/-- A reader does not notice edits along a shape. -/
def Reader.Follows {α : Type} (s : Shape) (read : Reader α) : Prop :=
  ∀ ⦃v v'⦄, Edit s v v' → ∀ d a, read d v = .ok a ↔ read d v' = .ok a

/-- The fields of a record do not notice what an edit comes to for them. -/
structure Fields.Follows {α : Type} (inner : String → Shape)
    (IsDefault : String → Value → Prop) (x : Fields α) : Prop where
  ofMembers : ∀ ⦃ms ms'⦄, (∀ name ∈ x.names, SameField (inner name) (IsDefault name)
      (valueNamed name ms) (valueNamed name ms')) →
    ∀ d n a, x.ofMembers d ms n = .ok a ↔ x.ofMembers d ms' n = .ok a
  ofItems : ∀ ⦃items items' n⦄, (∀ (i : Nat) (name : String), x.names[i]? = some name →
      SameField (inner name) (IsDefault name) items[n + i]? items'[n + i]?) →
    ∀ d short a, x.ofItems d items short n = .ok a ↔ x.ofItems d items' short n = .ok a

/-- What is read as a field from the value that stands there, if any. -/
def FieldIs {α : Type} (read : Reader α) (absent : Option α) (d : Dialect) (a : α) :
    Option Value → Prop
  | some v => read d v = .ok a
  | none => absent = some a

variable {α β : Type} {inner : String → Shape} {IsDefault : String → Value → Prop}
  {name : String} {read : Reader α}

/-- A default that is written is read as one that is not. -/
theorem SameField.fieldIs_iff {s : Shape} {P : Value → Prop} {absent : Option α}
    {o o' : Option Value} (h : SameField s P o o') (hread : read.Follows s)
    (hdefault : ∀ v, P v → ∃ a, absent = some a ∧ ∀ d, read d v = .ok a) (d : Dialect) (a : α) :
    FieldIs read absent d a o ↔ FieldIs read absent d a o' := by
  cases h with
  | same => exact Iff.rfl
  | edited h => exact hread h d a
  | @added v h =>
      obtain ⟨b, hb, hv⟩ := hdefault v h
      show absent = some a ↔ read d v = .ok a
      rw [hb, hv, Option.some.injEq, Except.ok.injEq]

namespace Fields.Follows

theorem map {x : Fields α} {f : α → β} (hx : x.Follows inner IsDefault) :
    (f <$> x).Follows inner IsDefault where
  ofMembers ms ms' h d n b := by
    simp only [map_eq_ok, hx.ofMembers h]
  ofItems items items' n h d short b := by
    simp only [map_items_eq_ok, hx.ofItems h]

theorem seq {f : Fields (α → β)} {x : Fields α} (hf : f.Follows inner IsDefault)
    (hx : x.Follows inner IsDefault) : (f <*> x).Follows inner IsDefault where
  ofMembers ms ms' h d n b := by
    have hfields := hf.ofMembers fun name hname => h name (List.mem_append_left _ hname)
    have hrest := hx.ofMembers fun name hname => h name (List.mem_append_right _ hname)
    simp only [seq_eq_ok, hfields, hrest]
  ofItems items items' n h d short b := by
    have hfields := hf.ofItems fun i name hname => h i name
      ((List.getElem?_append_left (List.getElem?_eq_some_iff.mp hname).1).trans hname)
    have hrest := @hx.ofItems items items' (n + f.names.length) fun i name hname => by
      rw [Nat.add_assoc]
      refine h (f.names.length + i) name ?_
      rw [names_seq, List.getElem?_append_right (Nat.le_add_right _ _), Nat.add_sub_cancel_left]
      exact hname
    simp only [seq_items_eq_ok, hfields, hrest]

theorem field {absent : Option α} (hread : read.Follows (inner name))
    (hdefault : ∀ v, IsDefault name v → ∃ a, absent = some a ∧ ∀ d, read d v = .ok a) :
    (Fields.field name read absent).Follows inner IsDefault where
  ofMembers ms ms' h d n a := by
    have hmembers : ∀ ms, (Fields.field name read absent).ofMembers d ms n = .ok a ↔
        FieldIs read absent d a (valueNamed name ms) := by
      intro ms
      rw [field_eq_ok, valueNamed]
      cases (membersNamed name ms).head? with
      | none => exact Iff.rfl
      | some e => exact Iff.rfl
    rw [hmembers, hmembers]
    exact (h name List.mem_cons_self).fieldIs_iff hread hdefault d a
  ofItems items items' n h d short a := by
    have hitems : ∀ items : List Value,
        (Fields.field name read absent).ofItems d items short n = .ok a ↔
          FieldIs read absent d a items[n]? := by
      intro items
      rw [field_items_eq_ok]
      cases items[n]? with
      | none => exact Iff.rfl
      | some v => exact Iff.rfl
    rw [hitems, hitems]
    exact (h 0 name rfl).fieldIs_iff hread hdefault d a

theorem required (hread : read.Follows (inner name)) (hdefault : ∀ v, ¬ IsDefault name v) :
    (Fields.required name read).Follows inner IsDefault :=
  field hread fun v hv => absurd hv (hdefault v)

theorem withDefault {absent : α} (hread : read.Follows (inner name))
    (hdefault : ∀ v, IsDefault name v → ∀ d, read d v = .ok absent) :
    (Fields.withDefault name read absent).Follows inner IsDefault :=
  field hread fun v hv => ⟨absent, rfl, hdefault v hv⟩

/-- Only the fields themselves count. -/
theorem congr {x : Fields α} {inner' : String → Shape} {IsDefault' : String → Value → Prop}
    (hx : x.Follows inner IsDefault)
    (h : ∀ name ∈ x.names, inner' name = inner name ∧ IsDefault' name = IsDefault name) :
    x.Follows inner' IsDefault' where
  ofMembers ms ms' hfield := hx.ofMembers fun name hname => by
    rw [← (h name hname).1, ← (h name hname).2]
    exact hfield name hname
  ofItems items items' n hfield := hx.ofItems fun i name hname => by
    have hmem := List.mem_of_getElem? hname
    rw [← (h name hmem).1, ← (h name hmem).2]
    exact hfield i name hname

end Fields.Follows

/-! ## Maps and alternatives -/

namespace Reader

/-- Entries with different names may be put into a map in any order. -/
theorem foldl_insert_perm {entries entries' : List (String × α)}
    (hnodup : (entries.map Prod.fst).Nodup) (hperm : entries.Perm entries') :
    entries.foldl (fun map e => map.insert e.1 e.2) (∅ : TextMap α) =
      entries'.foldl (fun map e => map.insert e.1 e.2) ∅ := by
  refine hperm.foldl_eq' (fun e he e' he' map => ?_) ∅
  by_cases heq : e = e'
  · rw [heq]
  · have hne : e.1 ≠ e'.1 := fun hname => heq (List.inj_on_of_nodup_map hnodup he he' hname)
    refine Std.ExtTreeMap.ext_getElem? fun k => ?_
    simp only [Std.ExtTreeMap.getElem?_insert, Std.LawfulEqCmp.compare_eq_iff_eq]
    by_cases hk : e.1 = k
    · subst hk
      rw [if_pos rfl, if_neg hne.symm, if_pos rfl]
    · rw [if_neg hk, if_neg hk]

/-- The entries have the names of the members. -/
theorem map_fst_of_mapM {d : Dialect} {ms : List (String × Value)} {entries : List (String × α)}
    (h : ms.mapM (fun m => (read d m.2).map fun a => (m.1, a)) = .ok entries) :
    entries.map Prod.fst = ms.map Prod.fst := by
  induction mapM_eq_ok_iff.mp h with
  | nil => rfl
  | cons he hrest ih =>
      obtain ⟨a, -, rfl⟩ := map_eq_ok_iff.mp he
      rw [List.map_cons, List.map_cons, ih (mapM_eq_ok_iff.mpr hrest)]

theorem textMap_perm {d : Dialect} {ms ms' : List (String × Value)} {map : TextMap α}
    (hnodup : (ms.map Prod.fst).Nodup) (hperm : ms.Perm ms')
    (h : textMap read d (.map ms) = .ok map) : textMap read d (.map ms') = .ok map := by
  obtain ⟨entries, hentries, hmap⟩ := textMap_eq_ok.mp h
  obtain ⟨entries', hentries', hperm'⟩ :=
    List.perm_comp_forall₂ hperm.symm (mapM_eq_ok_iff.mp hentries)
  refine textMap_eq_ok.mpr ⟨entries', mapM_eq_ok_iff.mpr hentries', ?_⟩
  rw [← hmap, foldl_insert_perm _ hperm'.symm]
  rw [map_fst_of_mapM hentries]
  exact hnodup

/-- An alternative that is written as a table has a table of one member. -/
theorem choice_eq_ok {all : List α} {label : α → String} {d : Dialect}
    {ms : List (String × Value)} {a : α} :
    choice all label d (.map ms) = .ok a ↔
      ∃ tag held, ms = [(tag, held)] ∧ named all label tag = .ok a
        ∧ (d = .json → held = .null) ∧ (d = .toml → isVacant held = true) := by
  cases d with
  | json =>
      cases ms with
      | nil => exact iff_of_false (fun h => nomatch h) fun ⟨_, _, h, _⟩ => nomatch h
      | cons m rest =>
          obtain ⟨tag, held⟩ := m
          show (named all label tag >>= fun a =>
            if !held.isNull then .error (mistyped "unit" held)
            else if rest.isEmpty then .ok a else .error .malformed) = .ok a ↔ _
          rw [bind_eq_ok_iff]
          constructor
          · rintro ⟨b, hb, h⟩
            cases hnull : held.isNull with
            | false =>
                rw [hnull] at h
                exact nomatch h
            | true =>
                rw [hnull] at h
                cases rest with
                | nil =>
                    rw [← Except.ok.inj h]
                    exact ⟨tag, held, rfl, hb, fun _ => Value.isNull_iff.mp hnull,
                      fun hd => nomatch hd⟩
                | cons e rest => exact nomatch h
          · rintro ⟨_, _, hms, ha, hnull, -⟩
            cases hms
            refine ⟨a, ha, ?_⟩
            rw [hnull rfl]
            rfl
  | toml =>
      match ms with
      | [] => exact iff_of_false (fun h => nomatch h) fun ⟨_, _, h, _⟩ => nomatch h
      | _ :: _ :: _ => exact iff_of_false (fun h => nomatch h) fun ⟨_, _, h, _⟩ => nomatch h
      | [(tag, held)] =>
          show (named all label tag >>= fun a =>
            if isVacant held then .ok a else .error .malformed) = .ok a ↔ _
          rw [bind_eq_ok_iff]
          constructor
          · rintro ⟨b, hb, h⟩
            cases hvacant : isVacant held with
            | false =>
                rw [hvacant] at h
                exact nomatch h
            | true =>
                rw [hvacant] at h
                rw [← Except.ok.inj h]
                exact ⟨tag, held, rfl, hb, (fun hd => nomatch hd), fun _ => hvacant⟩
          · rintro ⟨_, _, hms, ha, -, hvacant⟩
            cases hms
            refine ⟨a, ha, ?_⟩
            rw [hvacant rfl]
            rfl

/-- Along a leaf nothing comes in where there was nothing. -/
theorem isVacant_eq {v v' : Value} (h : Edit .leaf v v') : isVacant v = isVacant v' := by
  cases h with
  | @reorder _ ms ms' hnodup hperm =>
      cases ms with
      | nil => rw [hperm.nil_eq]
      | cons e rest =>
          cases ms' with
          | nil => exact nomatch hperm.eq_nil
          | cons e' rest' => rfl
  | @item _ before after v v' h =>
      cases before with
      | nil => rfl
      | cons e before => rfl
  | @member _ before after name v v' h =>
      cases before with
      | nil => rfl
      | cons e before => rfl

end Reader

/-! ## Readers -/

namespace Reader.Follows

variable {s : Shape}

/-- What is neither an array nor a table cannot be edited. -/
theorem of_refuses (hlist : ∀ d items a, read d (.list items) ≠ .ok a)
    (hmap : ∀ d ms a, read d (.map ms) ≠ .ok a) : read.Follows s := by
  intro v v' h d a
  rcases h.kind with ⟨items, items', rfl, rfl⟩ | ⟨ms, ms', rfl, rfl⟩
  · exact iff_of_false (hlist d items a) (hlist d items' a)
  · exact iff_of_false (hmap d ms a) (hmap d ms' a)

theorem text (wanted : String) : (Reader.text wanted).Follows s :=
  of_refuses (fun _ _ _ h => nomatch h) fun _ _ _ h => nomatch h

theorem string : Reader.string.Follows s := text "a string"

theorem bool : Reader.bool.Follows s :=
  of_refuses (fun _ _ _ h => nomatch h) fun _ _ _ h => nomatch h

theorem coordinate : Reader.coordinate.Follows s :=
  of_refuses (fun _ _ _ h => nomatch h) fun _ _ _ h => nomatch h

theorem map {f : α → β} (hread : read.Follows s) : (Reader.map f read).Follows s := by
  intro v v' h d b
  simp only [Reader.map, map_eq_ok_iff, hread h]

/-- No edit makes anything of null or null of anything. -/
theorem nullable (hread : read.Follows s) : (Reader.nullable read).Follows s := by
  intro v v' h d o
  have hmap : (read d v).map some = .ok o ↔ (read d v').map some = .ok o := by
    simp only [map_eq_ok_iff, hread h]
  rcases h.kind with ⟨items, items', rfl, rfl⟩ | ⟨ms, ms', rfl, rfl⟩
  · exact hmap
  · exact hmap

theorem list (hread : read.Follows s) : (Reader.list read).Follows (.list s) := by
  intro v v' h d as
  rcases h.kind with ⟨items, items', rfl, rfl⟩ | ⟨ms, ms', rfl, rfl⟩
  · cases h with
    | @item _ before after v v' h =>
      rw [list_eq_ok, list_eq_ok, ← mapM_eq_ok_iff, ← mapM_eq_ok_iff]
      simp only [mapM_append_eq_ok_iff, List.mapM_cons, bind_eq_ok_iff, hread h]
  · exact iff_of_false (fun h => nomatch h) fun h => nomatch h

theorem textMap (hread : read.Follows s) : (Reader.textMap read).Follows (.map s) := by
  intro v v' h d map
  rcases h.kind with ⟨items, items', rfl, rfl⟩ | ⟨ms, ms', rfl, rfl⟩
  · exact iff_of_false (fun h => nomatch h) fun h => nomatch h
  · cases h with
    | reorder hnodup hperm =>
        have hnodup' : (ms'.map Prod.fst).Nodup := (hperm.map Prod.fst).nodup_iff.mp hnodup
        exact ⟨textMap_perm hnodup hperm, textMap_perm hnodup' hperm.symm⟩
    | member h =>
        simp only [textMap_eq_ok, mapM_append_eq_ok_iff, List.mapM_cons, bind_eq_ok_iff,
          map_eq_ok_iff, hread h]

theorem choice (all : List α) (label : α → String) : (Reader.choice all label).Follows .leaf := by
  intro v v' h d a
  rcases h.kind with ⟨items, items', rfl, rfl⟩ | ⟨ms, ms', rfl, rfl⟩
  · cases d with
    | json => exact iff_of_false (fun h => nomatch h) fun h => nomatch h
    | toml => exact iff_of_false (fun h => nomatch h) fun h => nomatch h
  · rw [choice_eq_ok, choice_eq_ok]
    cases h with
    | reorder hnodup hperm =>
        refine exists₂_congr fun tag held => and_congr_left fun _ => ?_
        constructor
        · rintro rfl
          exact (List.singleton_perm.mp hperm).symm
        · rintro rfl
          exact List.perm_singleton.mp hperm
    | @member _ before after name v v' h =>
        have hone : ∀ v tag held, before ++ (name, v) :: after = [(tag, held)] ↔
            (before = [] ∧ after = []) ∧ name = tag ∧ v = held := by
          intro v tag held
          cases before with
          | nil => simp [and_comm]
          | cons e before => simp
        have hheld : (d = .json → v = .null) ∧ (d = .toml → isVacant v = true) ↔
            (d = .json → v' = .null) ∧ (d = .toml → isVacant v' = true) :=
          and_congr (imp_congr_right fun _ => iff_of_false h.ne_null.1 h.ne_null.2)
            (by rw [isVacant_eq h])
        constructor
        · rintro ⟨tag, held, hms, ha, hv⟩
          obtain ⟨hrest, rfl, rfl⟩ := (hone _ _ _).mp hms
          exact ⟨name, v', (hone _ _ _).mpr ⟨hrest, rfl, rfl⟩, ha, hheld.mp hv⟩
        · rintro ⟨tag, held, hms, ha, hv⟩
          obtain ⟨hrest, rfl, rfl⟩ := (hone _ _ _).mp hms
          exact ⟨name, v, (hone _ _ _).mpr ⟨hrest, rfl, rfl⟩, ha, hheld.mpr hv⟩

/-! ### Records -/

theorem record {label : String} {fields : Fields α} (hfields : fields.Follows inner IsDefault) :
    (Document.record label fields).Follows (.record fields.names inner IsDefault) := by
  intro v v' h d a
  rcases h.kind with ⟨items, items', rfl, rfl⟩ | ⟨ms, ms', rfl, rfl⟩
  · have hedited := h.editedItems
    rw [record_items_eq_ok, record_items_eq_ok, hedited.length]
    refine and_congr_right fun _ => hfields.ofItems (fun i name hname => ?_) d _ a
    rw [Nat.zero_add]
    exact hedited.field i name hname
  · have hedited := h.editedMembers
    rw [record_eq_ok, record_eq_ok]
    exact and_congr (hedited.orderly_iff (fun _ => id) [.obscure])
      (hfields.ofMembers hedited.field d 0 a)

theorem flattened {label : String} {own : Fields α} {rest : Fields β}
    (hown : own.Follows inner IsDefault) (hrest : rest.Follows inner IsDefault)
    (hdisjoint : ∀ name ∈ rest.names, name ∉ own.names) :
    (Document.flattened label own rest).Follows
      (.record (own.names ++ rest.names) inner IsDefault) := by
  intro v v' h d p
  rcases h.kind with ⟨items, items', rfl, rfl⟩ | ⟨ms, ms', rfl, rfl⟩
  · exact iff_of_false (fun h => nomatch h) fun h => nomatch h
  · have hedited := h.editedMembers
    have hleft : ∀ ms : List (String × Value),
        Orderly rest.names (fun _ => true) (ms.filter fun m => !own.names.contains m.1) ↔
          ∀ name ∈ rest.names, (membersNamed name ms).length ≤ 1 := by
      intro ms
      constructor
      · intro hms name hname
        rw [← membersNamed_filter_not (hdisjoint name hname)]
        exact hms.once name hname
      · intro hms
        refine ⟨fun name hname => ?_, fun _ _ _ => rfl⟩
        rw [membersNamed_filter_not (hdisjoint name hname)]
        exact hms name hname
    rw [flattened_eq_ok, flattened_eq_ok, hleft, hleft]
    refine and_congr (and_congr ?_ ?_) (and_congr ?_ ?_)
    · exact hedited.orderly_iff (fun _ hname => List.mem_append_left _ hname) []
    · exact hown.ofMembers (fun name hname => hedited.field name
        (List.mem_append_left _ hname)) d 0 p.1
    · exact forall₂_congr fun name hname => hedited.once name (List.mem_append_right _ hname)
    · refine hrest.ofMembers (fun name hname => ?_) d 0 p.2
      rw [valueNamed, valueNamed, membersNamed_filter_not (hdisjoint name hname),
        membersNamed_filter_not (hdisjoint name hname)]
      exact hedited.field name (List.mem_append_right _ hname)

/-! ### Any number of edits -/

theorem run {v v' : Value} (hread : read.Follows s) (h : Relation.ReflTransGen (Edit s) v v')
    (d : Dialect) (a : α) : read d v = .ok a ↔ read d v' = .ok a := by
  induction h with
  | refl => exact Iff.rfl
  | tail _ hstep ih => exact ih.trans (hread hstep d a)

end Reader.Follows

end Classpath.Document
