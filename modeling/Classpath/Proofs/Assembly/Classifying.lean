import Classpath.Proofs.Assembly.Marking

/-! # Classifying — all of a list or nothing of it, and the first fault

    The properties of an extension may hold a list for each of four marks.
    Such a list is absent, or it is well formed and gives its coordinates
    (`Properties.Gives`), or one of its entries is malformed, and then the
    first one spoils it (`Properties.Spoils`).  The lists do not meet: a list
    that is well formed is added to the set of its mark, whatever is wrong
    with the others, and one that is spoiled changes no set, whatever stands
    before its malformed entry.  The fault is that of the first spoiled list,
    and the events name the coordinates of well-formed lists only.

    Each of these follows from one equation: for what a classification leads
    to (`value_classify`) and for what it reports (`events_classify`). -/

namespace Classpath

namespace Coordinate

/-- One of the entries is no coordinate, and this is what is wrong with the
    first such entry. -/
def FirstMalformed (text : String) (cause : MalformedCoordinate) : Prop :=
  ∃ before entry after, entries text = before ++ entry :: after
    ∧ (∀ e ∈ before, ∃ k, parse e = .ok k) ∧ parse entry = .error cause

theorem malformed?_eq_none {entry : String} :
    malformed? entry = none ↔ ∃ k, parse entry = .ok k := by
  rw [malformed?]
  cases parse entry with
  | ok k => exact iff_of_true rfl ⟨k, rfl⟩
  | error cause => simp

theorem malformed?_eq_some {entry : String} {cause : MalformedCoordinate} :
    malformed? entry = some cause ↔ parse entry = .error cause := by
  rw [malformed?]
  cases parse entry with
  | ok k => simp
  | error cause' => simp

/-- A list is spoiled by its first malformed entry. -/
theorem firstMalformed?_eq_some {text : String} {cause : MalformedCoordinate} :
    firstMalformed? text = some cause ↔ FirstMalformed text cause := by
  rw [firstMalformed?, List.findSome?_eq_some_iff]
  constructor
  · rintro ⟨before, entry, after, htext, hentry, hbefore⟩
    exact ⟨before, entry, after, htext,
      fun e he => malformed?_eq_none.mp (hbefore e he), malformed?_eq_some.mp hentry⟩
  · rintro ⟨before, entry, after, htext, hbefore, hentry⟩
    exact ⟨before, entry, after, htext, malformed?_eq_some.mpr hentry,
      fun e he => malformed?_eq_none.mpr (hbefore e he)⟩

/-- A list is well formed or spoiled. -/
theorem exists_lists_iff {text : String} :
    (∃ ks, Lists text ks) ↔ firstMalformed? text = none := by
  constructor
  · rintro ⟨ks, h⟩
    exact (lists_iff.mp h).1
  · intro h
    exact ⟨listed text, lists_iff.mpr ⟨h, rfl⟩⟩

end Coordinate

namespace Properties

/-- The list for the mark is there and well formed, and these are its
    coordinates. -/
def Gives (p : Properties) (m : Mark) (ks : List Coordinate) : Prop :=
  ∃ text, p[m.property]? = some text ∧ Coordinate.Lists text ks

/-- The list for the mark is there, and this is what is wrong with its first
    malformed entry. -/
def Spoils (p : Properties) (m : Mark) (cause : MalformedCoordinate) : Prop :=
  ∃ text, p[m.property]? = some text ∧ Coordinate.FirstMalformed text cause

variable {p : Properties} {m : Mark}

theorem Gives.listed_eq {ks : List Coordinate} (h : p.Gives m ks) :
    p.malformed? m = none ∧ p.listed m = ks := by
  obtain ⟨text, htext, hks⟩ := h
  rw [malformed?, listed, htext]
  exact Coordinate.lists_iff.mp hks

/-- A list that is there and not malformed gives what it lists. -/
theorem gives_listed {text : String} (htext : p[m.property]? = some text)
    (h : p.malformed? m = none) : p.Gives m (p.listed m) := by
  rw [malformed?, htext, Option.bind_some] at h
  refine ⟨text, htext, Coordinate.lists_iff.mpr ⟨h, ?_⟩⟩
  rw [listed, htext]

/-- A list that gives nothing lists nothing. -/
theorem listed_eq_nil (h : ∀ ks, ¬ p.Gives m ks) : p.listed m = [] := by
  rw [listed]
  cases htext : p[m.property]? with
  | none => rfl
  | some text =>
      show Coordinate.listed text = []
      cases hf : Coordinate.firstMalformed? text with
      | some cause => exact Coordinate.listed_of_malformed hf
      | none =>
          obtain ⟨ks, hks⟩ := Coordinate.exists_lists_iff.mpr hf
          exact absurd ⟨text, htext, hks⟩ (h ks)

theorem malformed?_eq_some {cause : MalformedCoordinate} :
    p.malformed? m = some cause ↔ p.Spoils m cause := by
  rw [malformed?, Option.bind_eq_some_iff, Spoils]
  simp only [Coordinate.firstMalformed?_eq_some]

/-- A list is spoiled when it is there and not well formed. -/
theorem exists_spoils_iff :
    (∃ cause, p.Spoils m cause) ↔
      ∃ text, p[m.property]? = some text ∧ ¬ ∃ ks, Coordinate.Lists text ks := by
  simp only [Coordinate.exists_lists_iff]
  constructor
  · rintro ⟨cause, text, htext, h⟩
    refine ⟨text, htext, ?_⟩
    rw [Coordinate.firstMalformed?_eq_some.mpr h]
    exact Option.some_ne_none cause
  · rintro ⟨text, htext, h⟩
    obtain ⟨cause, hcause⟩ := Option.ne_none_iff_exists'.mp h
    exact ⟨cause, text, htext, Coordinate.firstMalformed?_eq_some.mp hcause⟩

theorem malformed?_eq_none : p.malformed? m = none ↔ ∀ cause, ¬ p.Spoils m cause := by
  rw [Option.eq_none_iff_forall_ne_some]
  refine forall_congr' fun cause => ?_
  rw [ne_eq, malformed?_eq_some]

/-- Properties have a fault when a list is there and not well formed. -/
theorem firstMalformed?_ne_none :
    p.firstMalformed? ≠ none ↔ ∃ m ∈ Mark.fromExtensions, ∃ text,
      p[m.property]? = some text ∧ ¬ ∃ ks, Coordinate.Lists text ks := by
  rw [firstMalformed?, ne_eq, List.findSome?_eq_none_iff]
  simp only [malformed?_eq_none, ← exists_spoils_iff]
  simp only [not_forall, not_not]
  simp only [exists_prop]

/-- Their fault is that of the first spoiled list. -/
theorem firstMalformed?_eq_some {cause : MalformedCoordinate} :
    p.firstMalformed? = some cause ↔ ∃ before m after,
      Mark.fromExtensions = before ++ m :: after
        ∧ (∀ m' ∈ before, ∀ cause', ¬ p.Spoils m' cause') ∧ p.Spoils m cause := by
  rw [firstMalformed?, List.findSome?_eq_some_iff]
  constructor
  · rintro ⟨before, m, after, hms, hm, hbefore⟩
    exact ⟨before, m, after, hms, fun m' hm' => malformed?_eq_none.mp (hbefore m' hm'),
      malformed?_eq_some.mp hm⟩
  · rintro ⟨before, m, after, hms, hbefore, hm⟩
    exact ⟨before, m, after, hms, malformed?_eq_some.mpr hm,
      fun m' hm' => malformed?_eq_none.mpr (hbefore m' hm')⟩

end Properties

/-- The extension and the coordinate that an event names as getting a mark. -/
def Event.marking? : Mark → Event → Option (String × Coordinate)
  | .excluded, .excluding extension k => some (extension, k)
  | .lesserPriority, .lowering extension k => some (extension, k)
  | _, _ => none

namespace Assembly

/-! ## What is reported -/

/-- What is reported of the list for a mark. -/
def listEvents (p : Properties) (extension : String) (m : Mark) : List Event :=
  match p.malformed? m with
  | some cause => [.malformedList extension m.property cause]
  | none => markEvents extension m (p.listed m)

theorem events_classifyOne (p : Properties) (extension : String)
    (s : Assembly × Option MalformedCoordinate) (m : Mark) :
    (classifyOne p extension s m).events = listEvents p extension m := by
  rw [classifyOne, listEvents, Properties.malformed?, Properties.listed]
  cases p[m.property]? with
  | none =>
      show [] = markEvents extension m []
      cases m <;> rfl
  | some text =>
      dsimp only
      rw [Coordinate.parseList_eq, Option.bind_some]
      cases Coordinate.firstMalformed? text with
      | none => rfl
      | some cause => rfl

/-- The lists are reported one after the other. -/
theorem events_classify (a : Assembly) (p : Properties) (extension : String) :
    (a.classify p extension).events =
      Mark.fromExtensions.flatMap (listEvents p extension) := by
  have h : ∀ (ms : List Mark) (s : Assembly × Option MalformedCoordinate),
      (ms.foldlM (classifyOne p extension) s).events =
        ms.flatMap (listEvents p extension) := by
    intro ms
    induction ms with
    | nil => intro s; rfl
    | cons m ms ih =>
        intro s
        rw [List.foldlM_cons, Traced.events_bind, events_classifyOne, ih,
          List.flatMap_cons]
  exact h Mark.fromExtensions (a, none)

/-- Marks that are reported by name. -/
def Reported (m : Mark) : Prop := m = .excluded ∨ m = .lesserPriority

/-- The coordinates that get a mark are named one by one. -/
theorem marking?_markEvents {m : Mark} (hm : Reported m) (extension : String)
    (ks : List Coordinate) :
    (markEvents extension m ks).filterMap (Event.marking? m) =
      ks.map fun k => (extension, k) := by
  rcases hm with rfl | rfl
  · rw [markEvents, List.filterMap_map]
    exact congrFun List.filterMap_eq_map ks
  · rw [markEvents, List.filterMap_map]
    exact congrFun List.filterMap_eq_map ks

/-- A list is reported as malformed, or by the coordinates that are excluded
    or get lesser priority. -/
theorem mem_listEvents {p : Properties} {extension : String} {m : Mark} {e : Event}
    (he : e ∈ listEvents p extension m) :
    (∃ cause, e = .malformedList extension m.property cause)
      ∨ (∃ k, m = .excluded ∧ e = .excluding extension k)
      ∨ ∃ k, m = .lesserPriority ∧ e = .lowering extension k := by
  rw [listEvents] at he
  cases hmal : p.malformed? m with
  | some cause =>
      rw [hmal] at he
      exact .inl ⟨cause, List.mem_singleton.mp he⟩
  | none =>
      rw [hmal] at he
      change e ∈ markEvents extension m (p.listed m) at he
      cases m with
      | excluded =>
          obtain ⟨k, -, hk⟩ := List.mem_map.mp he
          exact .inr (.inl ⟨k, rfl, hk.symm⟩)
      | lesserPriority =>
          obtain ⟨k, -, hk⟩ := List.mem_map.mp he
          exact .inr (.inr ⟨k, rfl, hk.symm⟩)
      | _ => exact nomatch he

/-- All of this is meant for who looks for a mistake. -/
theorem level_events_classify {a : Assembly} {p : Properties} {extension : String}
    {e : Event} (he : e ∈ (a.classify p extension).events) : e.level = .debug := by
  rw [events_classify] at he
  obtain ⟨m, -, he⟩ := List.mem_flatMap.mp he
  rcases mem_listEvents he with ⟨cause, rfl⟩ | ⟨k, -, rfl⟩ | ⟨k, -, rfl⟩
  · rfl
  · rfl
  · rfl

/-- The list for a mark is not reported as that for another. -/
theorem marking?_listEvents_of_ne {m m' : Mark} (hne : m' ≠ m) (p : Properties)
    (extension : String) :
    (listEvents p extension m').filterMap (Event.marking? m) = [] := by
  refine List.filterMap_eq_nil_iff.mpr fun e he => ?_
  rcases mem_listEvents he with ⟨cause, rfl⟩ | ⟨k, rfl, rfl⟩ | ⟨k, rfl, rfl⟩
  · cases m <;> rfl
  · cases m with
    | excluded => exact absurd rfl hne
    | _ => rfl
  · cases m with
    | lesserPriority => exact absurd rfl hne
    | _ => rfl

theorem marking?_listEvents {m : Mark} (hm : Reported m) (p : Properties)
    (extension : String) :
    (listEvents p extension m).filterMap (Event.marking? m) =
      (p.listed m).map fun k => (extension, k) := by
  rw [listEvents]
  cases hmal : p.malformed? m with
  | none => exact marking?_markEvents hm extension _
  | some cause =>
      have hnil : p.listed m = [] := by
        refine Properties.listed_eq_nil fun ks hks => ?_
        rw [hks.listed_eq.1] at hmal
        exact nomatch hmal
      rw [hnil]
      rcases hm with rfl | rfl
      · rfl
      · rfl

/-- The events name the coordinates of the list for a mark, in its order. -/
theorem marking?_events_classify {m : Mark} (hm : Reported m) (a : Assembly)
    (p : Properties) (extension : String) :
    (a.classify p extension).events.filterMap (Event.marking? m) =
      (p.listed m).map fun k => (extension, k) := by
  rw [events_classify, List.filterMap_flatMap]
  -- No mark comes twice, so the coordinates of a list are named once.
  have hone : ∀ ms : List Mark, ms.Nodup →
      ms.flatMap (fun m' => (listEvents p extension m').filterMap (Event.marking? m)) =
        if m ∈ ms then (p.listed m).map fun k => (extension, k) else [] := by
    intro ms hms
    induction ms with
    | nil => rfl
    | cons m' ms ih =>
        obtain ⟨hm', hms⟩ := List.nodup_cons.mp hms
        rw [List.flatMap_cons, ih hms]
        by_cases heq : m' = m
        · subst heq
          rw [if_neg hm', if_pos List.mem_cons_self, List.append_nil]
          exact marking?_listEvents hm p extension
        · have hmem : m ∈ m' :: ms ↔ m ∈ ms :=
            ⟨fun h => (List.mem_cons.mp h).resolve_left (Ne.symm heq),
              List.mem_cons_of_mem m'⟩
          rw [marking?_listEvents_of_ne heq, List.nil_append]
          simp only [hmem]
  rw [hone Mark.fromExtensions (by decide)]
  rcases hm with rfl | rfl
  · exact if_pos (by decide)
  · exact if_pos (by decide)

/-! ## What comes of it -/

/-- A classification adds the coordinates of each well-formed list to the set
    of its mark and leaves the other sets and all else alone; its fault is that
    of the first spoiled list; and its events, all of one level, name the
    coordinates of a well-formed list, in its order, and no others. -/
theorem classify_each_list (a : Assembly) (p : Properties) (extension : String) :
    let result := a.classify p extension
    let b := result.value.1
    let fault := result.value.2
    (∀ m ∈ Mark.fromExtensions,
        (∀ ks, p.Gives m ks →
          ∀ k, k ∈ b.marks.get m ↔ k ∈ a.marks.get m ∨ k ∈ ks)
        ∧ ((∀ ks, ¬ p.Gives m ks) → b.marks.get m = a.marks.get m))
      ∧ b.marks.get .localProject = a.marks.get .localProject
      ∧ b = { a with marks := b.marks }
      ∧ (fault ≠ none ↔ ∃ m ∈ Mark.fromExtensions, ∃ text,
          p[m.property]? = some text ∧ ¬ ∃ ks, Coordinate.Lists text ks)
      ∧ (∀ cause, fault = some cause ↔ ∃ before m after,
          Mark.fromExtensions = before ++ m :: after
            ∧ (∀ m' ∈ before, ∀ cause', ¬ p.Spoils m' cause') ∧ p.Spoils m cause)
      ∧ (∀ e ∈ result.events, e.level = .debug)
      ∧ ∀ m, m = .excluded ∨ m = .lesserPriority →
          (∀ ks, p.Gives m ks →
            result.events.filterMap (Event.marking? m) = ks.map fun k => (extension, k))
          ∧ ((∀ ks, ¬ p.Gives m ks) →
            result.events.filterMap (Event.marking? m) = []) := by
  intro result b fault
  have hb : b = a.markEach Mark.fromExtensions p.listed :=
    congrArg Prod.fst (value_classify a p extension)
  have hfault : fault = p.firstMalformed? :=
    congrArg Prod.snd (value_classify a p extension)
  have hmem : ∀ m k, k ∈ b.marks.get m ↔
      k ∈ a.marks.get m ∨ m ∈ Mark.fromExtensions ∧ k ∈ p.listed m := by
    intro m k
    rw [hb]
    exact mem_marks_markEach
  refine ⟨?_, ?_, ?_, ?_, ?_, fun e he => level_events_classify he, ?_⟩
  · intro m hm
    constructor
    · intro ks hks k
      rw [hmem, hks.listed_eq.2, and_iff_right hm]
    · intro hnone
      refine Std.ExtTreeSet.ext_mem fun k => ?_
      rw [hmem, Properties.listed_eq_nil hnone]
      simp
  · refine Std.ExtTreeSet.ext_mem fun k => ?_
    have hlocal : Mark.localProject ∉ Mark.fromExtensions := by decide
    rw [hmem]
    simp [hlocal]
  · rw [hb]
    exact markEach_eq a Mark.fromExtensions p.listed
  · rw [hfault]
    exact Properties.firstMalformed?_ne_none
  · intro cause
    rw [hfault]
    exact Properties.firstMalformed?_eq_some
  · intro m hm
    have hevents := marking?_events_classify hm a p extension
    constructor
    · intro ks hks
      rw [hks.listed_eq.2] at hevents
      exact hevents
    · intro hnone
      rw [Properties.listed_eq_nil hnone] at hevents
      exact hevents

/-- One list is spoiled by its second entry and merged not even in part, the
    other is merged although it stands behind it. -/
theorem classify_each_list_spoiled :
    let p : Properties := (∅ : Properties).insert "excluded-artifacts" "g:a, bad"
      |>.insert "lesser-priority-artifacts" "g:b,,"
    let result := empty.classify p "x"
    result.value.1.marks.get .excluded = ∅
      ∧ ⟨"g", "b", "", "jar"⟩ ∈ result.value.1.marks.get .lesserPriority
      ∧ result.value.2 = some ⟨"bad", 1⟩
      ∧ result.events.filterMap (Event.marking? .excluded) = [] := by
  intro p result
  have hlesser : p[Mark.lesserPriority.property]? = some "g:b,," := by
    decide
  have hgives : p.Gives .lesserPriority [⟨"g", "b", "", "jar"⟩] :=
    ⟨_, hlesser, .cons (by decide) .nil⟩
  have hspoils : p.Spoils .excluded ⟨"bad", 1⟩ :=
    Properties.malformed?_eq_some.mp (by decide)
  have hbefore : ∀ m ∈ [Mark.parentFirst, .runnerParentFirst], p.malformed? m = none := by
    decide
  have hnone : ∀ ks, ¬ p.Gives .excluded ks := by
    intro ks hks
    have h := hks.listed_eq.1
    rw [Properties.malformed?_eq_some.mpr hspoils] at h
    exact nomatch h
  obtain ⟨hsets, -, -, -, hfault, -, hevents⟩ := classify_each_list empty p "x"
  refine ⟨(hsets .excluded (by decide)).2 hnone, ?_, ?_, (hevents .excluded (.inl rfl)).2 hnone⟩
  · exact ((hsets .lesserPriority (by decide)).1 _ hgives _).mpr (.inr List.mem_cons_self)
  · refine (hfault ⟨"bad", 1⟩).mpr
      ⟨[.parentFirst, .runnerParentFirst], .excluded, [.lesserPriority], rfl, ?_, hspoils⟩
    intro m hm cause hcause
    have h := Properties.malformed?_eq_some.mpr hcause
    rw [hbefore m hm] at h
    exact nomatch h

end Assembly

end Classpath
