import Classpath.Platform
import Classpath.Proofs.Assembly.Settled

/-! # Additions — a platform keeps what came first

    A dependency that is added again takes the place of the earlier one.  A
    platform does the opposite: a bill of material that is there stays where it
    is, and a property keeps the first value it was given, however often and
    in whatever order others follow.

    `Holds p imports` ties a platform to all the additions that led to it.  One
    more addition keeps it true (`Holds.add`), and what the addition reports can
    be read off the whole list, because the first value given for a name never
    changes any more (`Import.conflict?_append`).  From these two steps
    `addAll_spec` follows for a run, whatever came before it. -/

namespace Classpath.Platform

/-! ## What is given first -/

namespace Import

/-- The bill of material that is added, if it is one. -/
def bom? : Import → Option Artifact
  | .bom artifact => some artifact
  | .property _ _ => none

/-- The name and the value of the property that is added, if it is one. -/
def property? : Import → Option (String × String)
  | .bom _ => none
  | .property name value => some (name, value)

/-- The value that is given first for a name. -/
def first? (imports : List Import) (name : String) : Option String :=
  ((imports.filterMap property?).find? fun e => e.1 = name).map Prod.snd

/-- What is reported of one of several additions: the value that it gives, if
    another one was given first for the same name. -/
def conflict? (imports : List Import) : Import → Option Event
  | .bom _ => none
  | .property name value =>
      ((first? imports name).filter (· ≠ value)).map (.valueKept name · value)

theorem first?_append (xs ys : List Import) (name : String) :
    first? (xs ++ ys) name = (first? xs name).or (first? ys name) := by
  rw [first?, List.filterMap_append, List.find?_append, Option.map_or]
  rfl

@[simp] theorem first?_nil (name : String) : first? [] name = none := rfl

@[simp] theorem first?_bom (artifact : Artifact) (name : String) :
    first? [.bom artifact] name = none := rfl

theorem first?_property (name value k : String) :
    first? [.property name value] k = if name = k then some value else none := by
  show ([(name, value)].find? fun e => e.1 = k).map Prod.snd = _
  rw [List.find?_singleton]
  by_cases h : name = k
  · simp [h]
  · simp [h]

/-- A name for which a value is given has a first one. -/
theorem exists_first?_of_mem {imports : List Import} {name value : String}
    (h : Import.property name value ∈ imports) : ∃ kept, first? imports name = some kept := by
  obtain ⟨xs, ys, rfl⟩ := List.append_of_mem h
  rw [first?_append, ← List.singleton_append, first?_append, first?_property, if_pos rfl]
  cases first? xs name with
  | none => exact ⟨value, rfl⟩
  | some kept => exact ⟨kept, rfl⟩

/-- What is reported of an addition does not depend on what follows it. -/
theorem conflict?_append {xs : List Import} {i : Import} (hi : i ∈ xs) (ys : List Import) :
    conflict? (xs ++ ys) i = conflict? xs i := by
  cases i with
  | bom artifact => rfl
  | property name value =>
      obtain ⟨kept, hkept⟩ := exists_first?_of_mem hi
      rw [conflict?, conflict?, first?_append, hkept]
      rfl

end Import

open Import (first? conflict?)

/-! ## One addition -/

/-- The platform holds what came first among several additions. -/
structure Holds (p : Platform) (imports : List Import) : Prop where
  boms_eq : p.boms = (imports.filterMap Import.bom?).eraseDups
  getElem?_eq : ∀ name, p.properties[name]? = first? imports name

theorem Holds.empty : Holds {} [] where
  boms_eq := rfl
  getElem?_eq _ := Std.ExtTreeMap.getElem?_empty

theorem value_addProperty (p : Platform) (name value : String) :
    (p.addProperty name value).value =
      match p.properties[name]? with
      | some _ => p
      | none => { p with properties := p.properties.insert name value } := by
  rw [addProperty]
  cases p.properties[name]? with
  | none => rfl
  | some kept =>
      by_cases h : kept = value
      · simp [h]
      · simp [h]

/-- A property is no bill of material. -/
theorem boms_addProperty (p : Platform) (name value : String) :
    (p.addProperty name value).value.boms = p.boms := by
  rw [value_addProperty]
  cases p.properties[name]? with
  | none => rfl
  | some kept => rfl

/-- A bill of material is no property. -/
theorem properties_addBom (p : Platform) (artifact : Artifact) :
    (p.addBom artifact).properties = p.properties := by
  rw [addBom]
  by_cases h : artifact ∈ p.boms
  · rw [if_pos h]
  · rw [if_neg h]

theorem boms_addBom (p : Platform) (artifact : Artifact) :
    (p.addBom artifact).boms =
      if artifact ∈ p.boms then p.boms else p.boms ++ [artifact] := by
  rw [addBom]
  by_cases h : artifact ∈ p.boms
  · rw [if_pos h, if_pos h]
  · rw [if_neg h, if_neg h]

/-- A property that has a value keeps it. -/
theorem getElem?_addProperty (p : Platform) (name value k : String) :
    (p.addProperty name value).value.properties[k]? =
      (p.properties[k]?).or (if name = k then some value else none) := by
  rw [value_addProperty]
  cases hname : p.properties[name]? with
  | some kept =>
      show p.properties[k]? = _
      by_cases hk : name = k
      · subst hk
        rw [hname]
        rfl
      · rw [if_neg hk, Option.or_none]
  | none =>
      show (p.properties.insert name value)[k]? = _
      rw [Std.ExtTreeMap.getElem?_insert]
      by_cases hk : name = k
      · subst hk
        rw [if_pos (Std.LawfulEqCmp.compare_eq_iff_eq.mpr rfl), if_pos rfl, hname]
        rfl
      · rw [if_neg fun hc => hk (Std.LawfulEqCmp.compare_eq_iff_eq.mp hc), if_neg hk,
          Option.or_none]

variable {p : Platform} {imports : List Import}

/-- One more addition counts only where nothing came before it. -/
theorem Holds.add (h : Holds p imports) (i : Import) :
    Holds (p.add i).value (imports ++ [i]) := by
  cases i with
  | bom artifact =>
      refine ⟨?_, fun name => ?_⟩
      · show (p.addBom artifact).boms = _
        rw [boms_addBom, h.boms_eq, List.filterMap_append]
        show _ = (imports.filterMap Import.bom? ++ [artifact]).eraseDups
        rw [eraseDups_concat]
        refine if_congr ?_ rfl rfl
        exact List.mem_eraseDups
      · show (p.addBom artifact).properties[name]? = _
        rw [properties_addBom, h.getElem?_eq, Import.first?_append, Import.first?_bom,
          Option.or_none]
  | property name value =>
      refine ⟨?_, fun k => ?_⟩
      · show (p.addProperty name value).value.boms = _
        rw [boms_addProperty, h.boms_eq, List.filterMap_append]
        show _ = (imports.filterMap Import.bom? ++ []).eraseDups
        rw [List.append_nil]
      · show (p.addProperty name value).value.properties[k]? = _
        rw [getElem?_addProperty, h.getElem?_eq, Import.first?_append, Import.first?_property]

/-- It is reported if it gives another value than the first one. -/
theorem Holds.events_add (h : Holds p imports) (i : Import) :
    (p.add i).events = (conflict? (imports ++ [i]) i).toList := by
  cases i with
  | bom artifact => rfl
  | property name value =>
      show (p.addProperty name value).events = _
      rw [addProperty, conflict?, Import.first?_append, ← h.getElem?_eq, Import.first?_property,
        if_pos rfl]
      cases p.properties[name]? with
      | none => simp
      | some kept =>
          by_cases hkept : kept = value
          · simp [hkept]
          · simp [hkept, Option.filter]

/-! ## A run of additions -/

/-- Whatever came before, a run holds what came first in all, and reports its
    conflicts one by one. -/
theorem addAll_spec (h : Holds p imports) (rest : List Import) :
    Holds (p.addAll rest).value (imports ++ rest)
      ∧ (p.addAll rest).events = rest.filterMap (conflict? (imports ++ rest)) := by
  induction rest generalizing p imports with
  | nil =>
      rw [List.append_nil]
      exact ⟨h, rfl⟩
  | cons i rest ih =>
      obtain ⟨hvalue, hevents⟩ := ih (h.add i)
      rw [List.append_assoc, List.singleton_append] at hvalue hevents
      refine ⟨hvalue, ?_⟩
      -- What was reported of `i` is judged by the value that stays the first.
      have hfirst : conflict? (imports ++ i :: rest) i = conflict? (imports ++ [i]) i := by
        rw [← List.singleton_append, ← List.append_assoc]
        exact Import.conflict?_append (List.mem_append_right _ List.mem_cons_self) rest
      calc (p.addAll (i :: rest)).events
          = (p.add i).events ++ ((p.add i).value.addAll rest).events := rfl
        _ = (conflict? (imports ++ i :: rest) i).toList
              ++ rest.filterMap (conflict? (imports ++ i :: rest)) := by
            rw [h.events_add, hevents, hfirst]
        _ = (i :: rest).filterMap (conflict? (imports ++ i :: rest)) := by
            rw [List.filterMap_cons]
            cases conflict? (imports ++ i :: rest) i with
            | none => rfl
            | some e => rfl

/-- A platform is empty only if nothing was ever added to it. -/
theorem Holds.isEmpty_iff (h : Holds p imports) : p.isEmpty = true ↔ imports = [] := by
  rw [isEmpty, Bool.and_eq_true_iff, List.isEmpty_iff]
  constructor
  · rintro ⟨hboms, hproperties⟩
    refine List.eq_nil_iff_forall_not_mem.mpr fun i hi => ?_
    cases i with
    | bom artifact =>
        have hmem : artifact ∈ p.boms := by
          rw [h.boms_eq, List.mem_eraseDups]
          exact List.mem_filterMap.mpr ⟨_, hi, rfl⟩
        rw [hboms] at hmem
        exact nomatch hmem
    | property name value =>
        obtain ⟨kept, hkept⟩ := Import.exists_first?_of_mem hi
        rw [← h.getElem?_eq, Std.ExtTreeMap.isEmpty_iff.mp hproperties,
          Std.ExtTreeMap.getElem?_empty] at hkept
        exact nomatch hkept
  · rintro rfl
    refine ⟨h.boms_eq, Std.ExtTreeMap.isEmpty_iff.mpr ?_⟩
    refine Std.ExtTreeMap.ext_getElem? fun name => ?_
    rw [h.getElem?_eq, Std.ExtTreeMap.getElem?_empty]
    rfl

/-- From the empty platform on, whatever is added in whatever order: the bills of
    material are those that were added, in the order of their first addition; a
    property has the value that was given first for its name; only an empty run
    leaves the platform empty; and there is one warning for each value that
    differs from the first one for its name, and none besides. -/
theorem addAll_keeps_first (imports : List Import) :
    let run := addAll {} imports
    run.value.boms = (imports.filterMap Import.bom?).eraseDups
      ∧ (∀ name, run.value.properties[name]? = first? imports name)
      ∧ (run.value.isEmpty = true ↔ imports = [])
      ∧ run.events.map (fun e => (e.level, e.message)) =
        imports.filterMap fun
          | .bom _ => none
          | .property name value =>
              ((first? imports name).filter (· ≠ value)).map fun kept =>
                (.warn, "Platform property " ++ name ++ " already set to '" ++ kept
                  ++ "', ignoring '" ++ value ++ "'") := by
  intro run
  obtain ⟨hvalue, hevents⟩ := addAll_spec Holds.empty imports
  rw [List.nil_append] at hvalue hevents
  refine ⟨hvalue.boms_eq, hvalue.getElem?_eq, hvalue.isEmpty_iff, ?_⟩
  rw [show run.events = _ from hevents, List.map_filterMap]
  refine List.filterMap_congr fun i _ => ?_
  cases i with
  | bom artifact => rfl
  | property name value =>
      rw [conflict?, Option.map_map]
      rfl

/-- A repeat of the first value is silent, and one of a later value is not. -/
example :
    (addAll {} [.property "r" "1", .property "r" "2", .property "r" "1",
      .property "r" "2"]).events =
      [.valueKept "r" "1" "2", .valueKept "r" "1" "2"] := by
  rfl

end Classpath.Platform
