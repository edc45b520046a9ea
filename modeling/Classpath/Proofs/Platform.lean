import Classpath.Proofs.Assembly.Interleaving
import Classpath.Proofs.Loading.Classification
import Classpath.Proofs.Platform.Additions

/-! # Platforms — bills of material that are imported once

    Whatever is added to a platform, one addition after the other, its bills of
    material stay distinct, because one that is there is not added again.  A
    history of contributions passes the platform on as it was set, so a model
    that is built from such a platform imports no bill of material twice.

    Loading passes on the platform of the descriptor as it was read, and a
    descriptor may list a bill of material twice: nothing adds its bills of
    material one by one.  A loaded model therefore imports each of them once
    exactly if its descriptor lists each of them once (`nodup_boms`). -/

namespace Classpath

namespace Platform

variable {p : Platform}

/-! ## Additions -/

theorem nodup_boms_addBom (h : p.boms.Nodup) (bom : Artifact) : (p.addBom bom).boms.Nodup := by
  rw [addBom]
  by_cases hmem : bom ∈ p.boms
  · rw [if_pos hmem]
    exact h
  · rw [if_neg hmem]
    refine List.nodup_append.mpr ⟨h, List.nodup_singleton bom, ?_⟩
    intro b hb c hc hbc
    rw [List.mem_singleton] at hc
    exact hmem (hc ▸ hbc ▸ hb)

/-- One addition keeps the bills of material distinct. -/
theorem nodup_boms_add (h : p.boms.Nodup) (i : Import) : (p.add i).value.boms.Nodup := by
  cases i with
  | bom artifact => exact nodup_boms_addBom h artifact
  | property name value =>
      show (p.addProperty name value).value.boms.Nodup
      rw [boms_addProperty]
      exact h

/-- So do any number of them. -/
theorem nodup_boms_addAll (h : p.boms.Nodup) (imports : List Import) :
    (p.addAll imports).value.boms.Nodup := by
  rw [addAll, Traced.value_foldlM]
  induction imports generalizing p with
  | nil => exact h
  | cons i imports ih => exact ih (nodup_boms_add h i)

end Platform

/-! ## The platform of a model -/

namespace Assembly

/-- A model has no platform but one that was set. -/
theorem setPlatform_mem_of_build {ops : List Operation} {p : Platform}
    (h : (run ops).build.value.platform = some p) : Operation.setPlatform p ∈ ops := by
  rw [build_run_contribution] at h
  have hlast : ((ops.map Operation.contribution).filterMap fun c => c.platform).getLast? =
      some p := by
    rw [← h]
    exact (Contribution.setting_sum (fun c => c.platform) rfl (fun _ _ => rfl) _).symm
  obtain ⟨c, hc, hp⟩ := List.mem_filterMap.mp (List.mem_of_getLast? hlast)
  obtain ⟨op, hop, rfl⟩ := List.mem_map.mp hc
  cases op with
  | setPlatform q =>
      obtain rfl := Option.some.inj hp
      exact hop
  | _ => exact nomatch hp

end Assembly

namespace Descriptor

/-- A model has the bills of material of its descriptor. -/
theorem forall_boms_model {x : Descriptor} {files : List Source} {P : List Artifact → Prop}
    (hnil : P []) :
    (∀ p, (x.model files).platform = some p → P p.boms) ↔
      ∀ p, x.platform = some p → P p.boms := by
  have hplatform : (x.model files).platform = x.platform.filter fun p => !p.isEmpty := rfl
  rw [hplatform]
  constructor
  · intro h p hp
    by_cases hempty : p.isEmpty = true
    · -- A platform that the model does not have has no bills of material.
      obtain ⟨hboms, -⟩ := Bool.and_eq_true_iff.mp hempty
      rw [List.isEmpty_iff.mp hboms]
      exact hnil
    · exact h p (Option.filter_eq_some_iff.mpr ⟨hp, by simpa using hempty⟩)
  · intro h p hp
    exact h p (Option.filter_eq_some_iff.mp hp).1

end Descriptor

/-! ## Bills of material in models -/

/-- Whatever contributors do, a model imports no bill of material twice if each
    platform that they set was put together by additions.  Whatever is loaded, a
    model imports none twice exactly if its descriptor lists none twice. -/
theorem nodup_boms (ops : List Assembly.Operation) (descriptor : Source)
    (configured explicit : List Source) :
    ((∀ p, .setPlatform p ∈ ops → ∃ imports, (Platform.addAll {} imports).value = p) →
        ∀ p, (Assembly.run ops).build.value.platform = some p → p.boms.Nodup)
      ∧ ∀ x m, Descriptor.ofSource descriptor = .ok x →
        (load descriptor configured explicit).value = .ok m →
        ((∀ p, m.platform = some p → p.boms.Nodup) ↔
          ∀ p, x.platform = some p → p.boms.Nodup) := by
  refine ⟨?_, ?_⟩
  · intro hadded p hp
    obtain ⟨imports, rfl⟩ := hadded p (Assembly.setPlatform_mem_of_build hp)
    exact Platform.nodup_boms_addAll List.nodup_nil imports
  · intro x m hx hm
    obtain ⟨x', hx', -, -, rfl⟩ := value_load_eq_ok_iff.mp hm
    obtain rfl := Except.ok.inj (hx.symm.trans hx')
    exact Descriptor.forall_boms_model List.nodup_nil

/-- A bill of material that is added twice, with a property between, and one
    that a descriptor lists once. -/
theorem nodup_boms_once :
    let bom : Artifact := { group := "g", artifact := "b", type := "pom", version := "1" }
    let p := (Platform.addAll {} [.bom bom, .property "release" "1", .bom bom]).value
    let descriptor : Source := ⟨"m", .ok
      "app=['g','a','','','1']\n[platform]\nboms=[['g','b','','pom','1']]"⟩
    ((Assembly.run [.setPlatform p]).build.value.platform = some p ∧ p.boms.Nodup)
      ∧ ∃ m q, (load descriptor [] []).value = .ok m ∧ m.platform = some q
        ∧ q.boms = [bom] ∧ q.boms.Nodup := by
  intro bom p descriptor
  have hp : (Assembly.run [.setPlatform p]).build.value.platform = some p := rfl
  have hadded : ∀ q, Assembly.Operation.setPlatform q ∈ [.setPlatform p] →
      ∃ imports, (Platform.addAll {} imports).value = q := by
    intro q hq
    rw [List.mem_singleton, Assembly.Operation.setPlatform.injEq] at hq
    exact ⟨_, hq.symm⟩
  have hread : Toml.read?
      "app=['g','a','','','1']\n[platform]\nboms=[['g','b','','pom','1']]" =
      some (.map [("app", .list [.string "g", .string "a", .string "", .string "", .string "1"]),
        ("platform", .map [("boms", .list [.list [.string "g", .string "b", .string "",
          .string "pom", .string "1"]])])]) := by
    cbv
  let x : Descriptor :=
    { app := some { group := "g", artifact := "a", type := "jar", version := "1" }
      platform := some { boms := [bom] } }
  have hx : Descriptor.ofSource descriptor = .ok x :=
    (Descriptor.ofSource_eq_ok rfl hread).mpr (by rfl)
  have hload : (load descriptor [] []).value = .ok (x.model []) :=
    value_load_nil hx (Option.some_ne_none _)
  have hlisted : ∀ q, x.platform = some q → q.boms.Nodup := by
    intro q hq
    obtain rfl := Option.some.inj hq
    exact List.nodup_singleton bom
  obtain ⟨hbuilt, hloaded⟩ := nodup_boms [.setPlatform p] descriptor [] []
  exact ⟨⟨hp, hbuilt hadded p hp⟩, _, _, hload, rfl, rfl,
    (hloaded x _ hx hload).mpr hlisted _ rfl⟩

/-- A bill of material that a descriptor lists twice is imported twice. -/
theorem not_nodup_boms_load :
    let descriptor : Source := ⟨"m", .ok
      ("app=['g','a','','','1']\n[platform]\n"
        ++ "boms=[['g','b','','pom','1'],['g','b','','pom','1']]")⟩
    ∃ m p, (load descriptor [] []).value = .ok m ∧ m.platform = some p ∧ ¬ p.boms.Nodup := by
  intro descriptor
  let bom : Artifact := { group := "g", artifact := "b", type := "pom", version := "1" }
  have hread : Toml.read?
      ("app=['g','a','','','1']\n[platform]\n"
        ++ "boms=[['g','b','','pom','1'],['g','b','','pom','1']]") =
      some (.map [("app", .list [.string "g", .string "a", .string "", .string "", .string "1"]),
        ("platform", .map [("boms", .list [
          .list [.string "g", .string "b", .string "", .string "pom", .string "1"],
          .list [.string "g", .string "b", .string "", .string "pom", .string "1"]])])]) := by
    cbv
  let x : Descriptor :=
    { app := some { group := "g", artifact := "a", type := "jar", version := "1" }
      platform := some { boms := [bom, bom] } }
  have hx : Descriptor.ofSource descriptor = .ok x :=
    (Descriptor.ofSource_eq_ok rfl hread).mpr (by rfl)
  have hload : (load descriptor [] []).value = .ok (x.model []) :=
    value_load_nil hx (Option.some_ne_none _)
  exact ⟨_, _, hload, rfl, by decide⟩

end Classpath
