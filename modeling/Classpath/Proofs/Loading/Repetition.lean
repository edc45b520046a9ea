import Classpath.Proofs.Assembly.Interleaving
import Classpath.Proofs.Loading.Classification

/-! # Repetition — which files are applied, not in which order or how often

    A properties file has its fault or none whatever was applied before it, and
    what it contributes are members of sets.  So two loads of a descriptor come
    to the same if their files have the same contents, whether these come from
    the settings or were named explicitly, in whatever order, under whatever
    names and however often each of them: both have a model, and it is the same,
    or neither has one (`load_of_same_contents`).  Only which fault is reported
    first depends on the order. -/

namespace Classpath

/-! ## One file -/

namespace Source

variable {s t : Source}

theorem fault?_congr (h : s.contents = t.contents) : s.fault? = t.fault? := by
  rw [fault?, fault?, h]

theorem listed_congr (h : s.contents = t.contents) (m : Mark) : s.listed m = t.listed m := by
  rw [listed, listed, h]

end Source

/-! ## Files with the same contents -/

/-- Every file of the one list has the contents of a file of the other. -/
def Source.Covered (files files' : List Source) : Prop :=
  ∀ s ∈ files, ∃ t ∈ files', t.contents = s.contents

variable {files files' : List Source}

/-- Among files that are covered by faultless ones there is no fault. -/
theorem Source.Covered.fault?_eq_none (h : Source.Covered files files')
    (hclean : ∀ t ∈ files', t.fault? = none) : ∀ s ∈ files, s.fault? = none := by
  intro s hs
  obtain ⟨t, ht, hcontents⟩ := h s hs
  rw [← Source.fault?_congr hcontents]
  exact hclean t ht

namespace Descriptor

theorem mem_listed {d : Descriptor} {m : Mark} {k : Coordinate} :
    k ∈ d.listed files m ↔ k ∈ d.classification.get m ∨ ∃ s ∈ files, k ∈ s.listed m := by
  rw [listed, List.mem_append, List.mem_flatMap]

/-- What files list is listed by files that cover them. -/
theorem listed_subset {d : Descriptor} (h : Source.Covered files files') {m : Mark}
    {k : Coordinate} (hk : k ∈ d.listed files m) : k ∈ d.listed files' m := by
  rw [mem_listed] at hk ⊢
  rcases hk with hk | ⟨s, hs, hk⟩
  · exact Or.inl hk
  · obtain ⟨t, ht, hcontents⟩ := h s hs
    rw [← Source.listed_congr hcontents] at hk
    exact Or.inr ⟨t, ht, hk⟩

/-- Of what is listed the model keeps the sets. -/
theorem model_congr {d : Descriptor} (h : Source.Covered files files')
    (h' : Source.Covered files' files) : d.model files = d.model files' := by
  have hmem : ∀ m k, k ∈ d.listed files m ↔ k ∈ d.listed files' m :=
    fun m k => ⟨listed_subset h, listed_subset h'⟩
  have hset : ∀ m, (.ofList (d.listed files m) compare : CoordinateSet) =
      .ofList (d.listed files' m) compare :=
    fun m => Contribution.ofList_congr (hmem m)
  have hdeps : (d.model files).dependencies = (d.model files').dependencies := by
    refine List.filter_congr fun x _ => ?_
    rw [decide_eq_decide]
    exact and_congr_right fun _ => not_congr (hmem .excluded x.key)
  rw [model, hset, hset, hset]
  exact congrArg (fun ds => { d.model files' with dependencies := ds }) hdeps

end Descriptor

/-! ## Loading them -/

variable {descriptor : Source} {configured explicit configured' explicit' : List Source}

/-- With files that cover each other there is a model for the one list if there
    is one for the other. -/
theorem value_load_eq_ok_of_covered
    (h : Source.Covered (configured ++ explicit) (configured' ++ explicit'))
    (h' : Source.Covered (configured' ++ explicit') (configured ++ explicit)) {m : Model}
    (hm : (load descriptor configured explicit).value = .ok m) :
    (load descriptor configured' explicit').value = .ok m := by
  obtain ⟨x, hx, happ, hclean, rfl⟩ := value_load_eq_ok_iff.mp hm
  exact value_load_eq_ok_iff.mpr
    ⟨x, hx, happ, h'.fault?_eq_none hclean, Descriptor.model_congr h h'⟩

/-- The same files, split between the settings and the explicitly named ones in
    any way, in any order and each at least once: either there is one model for
    both, or there is a fault for both.  Files count as the same when they have
    the same contents or cannot be read for the same reason. -/
theorem load_of_same_contents
    (h : ∀ c, c ∈ (configured ++ explicit).map Source.contents ↔
      c ∈ (configured' ++ explicit').map Source.contents) :
    (∃ m, (load descriptor configured explicit).value = .ok m
        ∧ (load descriptor configured' explicit').value = .ok m)
      ∨ ((∃ fault, (load descriptor configured explicit).value = .error fault)
        ∧ ∃ fault', (load descriptor configured' explicit').value = .error fault') := by
  have hcovered : Source.Covered (configured ++ explicit) (configured' ++ explicit') :=
    fun s hs => List.mem_map.mp ((h s.contents).mp (List.mem_map_of_mem hs))
  have hcovered' : Source.Covered (configured' ++ explicit') (configured ++ explicit) :=
    fun s hs => List.mem_map.mp ((h s.contents).mpr (List.mem_map_of_mem hs))
  cases hload : (load descriptor configured explicit).value with
  | ok m => exact Or.inl ⟨m, rfl, value_load_eq_ok_of_covered hcovered hcovered' hload⟩
  | error fault =>
      cases hload' : (load descriptor configured' explicit').value with
      | ok m =>
          rw [value_load_eq_ok_of_covered hcovered' hcovered hload'] at hload
          exact nomatch hload
      | error fault' => exact Or.inr ⟨⟨fault, rfl⟩, fault', rfl⟩

/-- A file of the settings that is named once more, under another name, before
    and after one that is only named explicitly; there is a model. -/
theorem load_of_same_contents_twice :
    let descriptor : Source := ⟨"m", .ok "app=['g','a','','','1']"⟩
    let file : Source := ⟨"x.properties", .ok "excluded-artifacts=x:y"⟩
    let again : Source := ⟨"./x.properties", .ok "excluded-artifacts=x:y"⟩
    let other : Source := ⟨"y.properties", .ok "parent-first-artifacts=h:b"⟩
    (∀ c, c ∈ ([file] ++ [other]).map Source.contents ↔
        c ∈ ([] ++ [again, other, file]).map Source.contents)
      ∧ ∃ m, (load descriptor [file] [other]).value = .ok m
        ∧ (load descriptor [] [again, other, file]).value = .ok m := by
  intro descriptor file again other
  have hcontents : ∀ c, c ∈ ([file] ++ [other]).map Source.contents ↔
      c ∈ ([] ++ [again, other, file]).map Source.contents := by
    intro c
    simp only [file, again, other, List.map_cons, List.map_nil,
      List.nil_append, List.cons_append, List.mem_cons, List.not_mem_nil, or_false]
    constructor
    · rintro (h | h)
      · exact Or.inl h
      · exact Or.inr (Or.inl h)
    · rintro (h | h | h)
      · exact Or.inl h
      · exact Or.inr h
      · exact Or.inl h
  refine ⟨hcontents, ?_⟩
  have hread : Toml.read? "app=['g','a','','','1']" =
      some (.map [("app", .list [.string "g", .string "a", .string "", .string "",
        .string "1"])]) := by
    cbv
  have hx : Descriptor.ofSource descriptor =
      .ok { app := some { group := "g", artifact := "a", type := "jar", version := "1" } } :=
    (Descriptor.ofSource_eq_ok rfl hread).mpr (by rfl)
  have hclean : ∀ s ∈ [file] ++ [other], s.fault? = none := by
    intro s hs
    simp only [List.cons_append, List.nil_append, List.mem_cons, List.not_mem_nil,
      or_false] at hs
    rcases hs with rfl | rfl
    · rfl
    · rfl
  have hload := value_load_eq_ok_iff.mpr ⟨_, hx, Option.some_ne_none _, hclean, rfl⟩
  rcases @load_of_same_contents descriptor _ _ _ _ hcontents with h | ⟨⟨fault, h⟩, -⟩
  · exact h
  · rw [h] at hload
    cases hload

end Classpath
