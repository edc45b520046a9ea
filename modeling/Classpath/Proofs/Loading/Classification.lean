import Mathlib
import Classpath.Proofs.Document.Classified
import Classpath.Proofs.Loading
import Classpath.Proofs.Properties.Listing

/-! # Classification — in the descriptor or in a properties file

    Coordinates get their marks from the lists of a descriptor or from those
    of an extension's properties, and the two are read by different means:
    there text by text from an array, here by cutting one value at its commas.
    They come to the same (`load_listed_or_written`).  Both readers accept the
    same texts, and what the file contributes is what the descriptor has more
    of (`contribution_extend`). -/

namespace Classpath

open Document

/-- What becomes of an assembly when everything has been applied to it. -/
def Assembly.outcome (a : Assembly) : Except Fault Model :=
  if a.app.isNone then .error .missingRoot else .ok a.build.value

/-- A descriptor and then the files are applied to an empty assembly. -/
theorem value_load_eq_bind (s : Source) (configured explicit : List Source) :
    (load s configured explicit).value =
      (Descriptor.ofSource s).bind fun x =>
        ((Assembly.empty.receive x.contribution).applyAll
          (configured ++ explicit)).value.bind Assembly.outcome := by
  rw [load]
  cases Descriptor.ofSource s with
  | error fault => rfl
  | ok x =>
      show Traced.value (Traced.emit _ >>= fun _ =>
        Assembly.empty.applyDescriptor x >>= _) = _
      rw [Traced.value_bind, Traced.value_bind, Traced.value_bind,
        Assembly.value_applyDescriptor, Except.bind]
      cases ((Assembly.empty.receive x.contribution).applyAll
          (configured ++ explicit)).value with
      | error fault => rfl
      | ok a =>
          show Traced.value (if a.app.isNone then pure (Except.error Fault.missingRoot)
            else a.build >>= fun m => pure (Except.ok m)) = a.outcome
          rw [Assembly.outcome]
          cases a.app.isNone with
          | true => rfl
          | false => rfl

theorem Assembly.value_applyAll_singleton (a : Assembly) (s : Source) :
    (a.applyAll [s]).value = match s.fault? with
      | some fault => .error fault
      | none => .ok (a.receive s.contribution) := by
  have hsum : a.receive (.sum [s.contribution]) = a.receive s.contribution := by
    show a.receive ({} ++ s.contribution) = _
    rw [receive_append, receive_empty]
  have happly := value_applyAll a [s]
  rw [List.findSome?_singleton, List.map_singleton, hsum] at happly
  exact happly

/-! ## The file -/

namespace Source

variable {s : Source} {lists : Mark → List String} {ms : List Mark}

/-- A file that lists texts for every mark has no fault exactly if all the
    texts are coordinates, and these are then what it lists. -/
theorem fault?_eq_none_iff (hs : s.contents = .ok (Properties.listLines ms lists))
    (hlistable : ∀ m ∈ ms, ∀ t ∈ lists m, Properties.Listable t)
    (hms : ∀ m ∈ Mark.fromExtensions, m ∈ ms) :
    s.fault? = none ↔ ∀ m ∈ Mark.fromExtensions,
      List.Forall₂ (fun t k => Coordinate.parse t = .ok k) (lists m) (s.listed m) := by
  rw [fault?, hs]
  dsimp only
  rw [Option.map_eq_none_iff, Properties.firstMalformed?, List.findSome?_eq_none_iff]
  refine forall₂_congr fun m hm => ?_
  have htext := Properties.getElem?_parse_listLines hlistable (hms m hm)
  rw [listed, hs, ← Properties.gives_listLines_iff hlistable (hms m hm)]
  exact ⟨Properties.gives_listed htext, fun h => h.listed_eq.1⟩

/-- Whatever coordinates the texts are, the file lists them. -/
theorem listed_eq (hs : s.contents = .ok (Properties.listLines ms lists))
    (hlistable : ∀ m ∈ ms, ∀ t ∈ lists m, Properties.Listable t) {m : Mark} (hm : m ∈ ms)
    {ks : List Coordinate}
    (hks : List.Forall₂ (fun t k => Coordinate.parse t = .ok k) (lists m) ks) :
    s.listed m = ks := by
  rw [listed, hs]
  exact ((Properties.gives_listLines_iff hlistable hm).mpr hks).listed_eq.2

end Source

/-! ## The descriptor -/

namespace Descriptor

theorem ofSource_eq_ok {s : Source} {text : String} {v : Value} {x : Descriptor}
    (hs : s.contents = .ok text) (hv : Toml.read? text = some v) :
    ofSource s = .ok x ↔ reader .toml v = .ok x := by
  rw [ofSource, hs]
  show parse text = .ok x ↔ _
  rw [parse_eq_ok, hv]
  simp only [Option.some.injEq, exists_eq_left']

/-- What a descriptor lists in addition, a file may contribute after it. -/
theorem contribution_extend (x : Descriptor) (s : Source) :
    (x.extend s.listed).contribution = x.contribution ++ s.contribution := by
  have happend : x.contribution ++ s.contribution =
      { app := x.app
        platform := x.platform.filter fun p => !p.isEmpty
        capabilities := some x.capabilities
        added := x.dependencies ++ []
        marked := fun m =>
          x.classification.get m
            ++ if m ∈ Mark.fromExtensions then s.listed m else [] } := rfl
  have hmarked : (x.classification.extend s.listed).get = fun m =>
      x.classification.get m ++ if m ∈ Mark.fromExtensions then s.listed m else [] := by
    funext m
    rw [Marks.extend, Marks.get_of]
  rw [happend, List.append_nil, ← hmarked]
  rfl

theorem extend_congr {x : Descriptor} {ks ks' : Mark → List Coordinate}
    (h : ∀ m ∈ Mark.fromExtensions, ks m = ks' m) : x.extend ks = x.extend ks' := by
  have hmarks : x.classification.extend ks = x.classification.extend ks' := by
    refine Marks.ext_get fun m => ?_
    rw [Marks.extend, Marks.extend, Marks.get_of, Marks.get_of]
    by_cases hm : m ∈ Mark.fromExtensions
    · rw [if_pos hm, if_pos hm, h m hm]
    · rw [if_neg hm, if_neg hm]
  rw [extend, extend, hmarks]

/-- A file that holds a descriptor with these members, whose classification
    has these members and lists these texts. -/
def StandsIn (s : Source) (ms sec : List (String × Value))
    (lists : Mark → List String) : Prop :=
  ∃ text, s.contents = .ok text ∧ Toml.read? text = some (.map ms)
    ∧ ClassifiedBy ms sec lists

end Descriptor

/-! ## Both ways -/

section

variable {full bare file : Source} {ms ms' sec sec' : List (String × Value)}
  {lists : Mark → List String} {order : List Mark}

/-- The descriptor with the lists can be read exactly if the one without them
    can and the file is faultless. -/
theorem ofSource_listed_iff (hfull : Descriptor.StandsIn full ms sec lists)
    (hbare : Descriptor.StandsIn bare ms' sec' fun _ => [])
    (hagree : AgreeApart ["classification"] ms ms')
    (hagree' : AgreeApart (Mark.fromExtensions.map Mark.name) sec sec')
    (hlistable : ∀ m ∈ order, ∀ s ∈ lists m, Properties.Listable s)
    (hall : ∀ m ∈ Mark.fromExtensions, m ∈ order)
    (hfile : file.contents = .ok (Properties.listLines order lists)) {x : Descriptor} :
    Descriptor.ofSource full = .ok x ↔
      ∃ x', Descriptor.ofSource bare = .ok x' ∧ file.fault? = none
        ∧ x = x'.extend file.listed := by
  obtain ⟨text, htext, hread, hclassified⟩ := hfull
  obtain ⟨text', htext', hread', hclassified'⟩ := hbare
  rw [Source.fault?_eq_none_iff hfile hlistable hall, Descriptor.ofSource_eq_ok htext hread,
    Descriptor.reader_classified hclassified hclassified' hagree hagree']
  simp only [Descriptor.ofSource_eq_ok htext' hread']
  constructor
  · rintro ⟨x', ks, hx', hks, rfl⟩
    have hlisted : ∀ m ∈ Mark.fromExtensions, file.listed m = ks m :=
      fun m hm => Source.listed_eq hfile hlistable (hall m hm) (hks m hm)
    refine ⟨x', hx', fun m hm => ?_, Descriptor.extend_congr fun m hm => (hlisted m hm).symm⟩
    rw [hlisted m hm]
    exact hks m hm
  · rintro ⟨x', hx', hks, rfl⟩
    exact ⟨x', file.listed, hx', hks, rfl⟩

/-- Whether a descriptor lists coordinates itself, or leaves its lists empty and
    a properties file lists the same texts, one line a list: either there is a
    model both ways, and it is the same, or there is none. -/
theorem load_listed_or_written {configured explicit : List Source}
    (hfull : Descriptor.StandsIn full ms sec lists)
    (hbare : Descriptor.StandsIn bare ms' sec' fun _ => [])
    (hagree : AgreeApart ["classification"] ms ms')
    (hagree' : AgreeApart (Mark.fromExtensions.map Mark.name) sec sec')
    (hlistable : ∀ m ∈ Mark.fromExtensions, ∀ s ∈ lists m, Properties.Listable s)
    (horder : order.Perm Mark.fromExtensions)
    (hfile : file.contents = .ok (Properties.listLines order lists))
    (hfiles : configured ++ explicit = [file]) :
    (load full [] []).value.toOption = (load bare configured explicit).value.toOption := by
  have hlisted := @ofSource_listed_iff full bare file ms ms' sec sec' lists order hfull hbare
    hagree hagree' (fun m hm => hlistable m (horder.mem_iff.mp hm))
    (fun m hm => horder.mem_iff.mpr hm) hfile
  -- Where one descriptor has no model, neither has the other.
  have hnone : (∀ x, Descriptor.ofSource full ≠ .ok x) →
      (load full [] []).value.toOption = none := by
    intro h
    rw [value_load_eq_bind]
    cases hx : Descriptor.ofSource full with
    | error fault => rfl
    | ok x => exact absurd hx (h x)
  cases hbase : Descriptor.ofSource bare with
  | error fault =>
      rw [hnone, value_load_eq_bind, hbase]
      · rfl
      · intro x hx
        obtain ⟨x', hx', -⟩ := hlisted.mp hx
        rw [hbase] at hx'
        exact nomatch hx'
  | ok x' =>
      cases hfault : file.fault? with
      | some fault =>
          rw [hnone, value_load_eq_bind, hbase, hfiles, Except.bind,
            Assembly.value_applyAll_singleton, hfault]
          · rfl
          · intro x hx
            obtain ⟨-, -, hclean, -⟩ := hlisted.mp hx
            rw [hfault] at hclean
            exact nomatch hclean
      | none =>
          -- The same contribution is received, at once or in two parts.
          have hx : Descriptor.ofSource full = .ok (x'.extend file.listed) :=
            hlisted.mpr ⟨x', hbase, hfault, rfl⟩
          rw [value_load_eq_bind, value_load_eq_bind, hx, hbase, hfiles, Except.bind,
            Except.bind, Assembly.value_applyAll_singleton, hfault,
            Descriptor.contribution_extend, Assembly.receive_append]
          rfl

/-- A list with blanks around its texts, while all others are left out; there
    is a model. -/
theorem load_listed_or_written_blank :
    let full : Source := ⟨"m", .ok
      "[app]\ngroup='g'\nartifact='a'\nversion='1'\n[classification]\nexcluded=[' a:b','c:d ']"⟩
    let bare : Source := ⟨"n", .ok
      "[classification]\nexcluded=[]\n[app]\ngroup='g'\nartifact='a'\nversion='1'"⟩
    let file : Source := ⟨"x.properties", .ok
      ("lesser-priority-artifacts=\nexcluded-artifacts= a:b,c:d \n" ++
        "runner-parent-first-artifacts=\nparent-first-artifacts=\n")⟩
    (load full [] []).value.toOption.isSome = true
      ∧ (load full [] []).value.toOption = (load bare [file] []).value.toOption := by
  intro full bare file
  let root : Value := .map [("group", .string "g"), ("artifact", .string "a"),
    ("version", .string "1")]
  let sec := [("excluded", Value.list [.string " a:b", .string "c:d "])]
  let sec' := [("excluded", Value.list [])]
  let lists : Mark → List String := fun m => if m = .excluded then [" a:b", "c:d "] else []
  have hfull : Descriptor.StandsIn full [("app", root), ("classification", .map sec)] sec
      lists := by
    refine ⟨_, rfl, by cbv, .inl rfl, fun m hm => ?_⟩
    cases m with
    | excluded => exact .inl rfl
    | localProject => exact absurd hm (by decide)
    | _ => exact .inr ⟨rfl, rfl⟩
  have hbare : Descriptor.StandsIn bare [("classification", .map sec'), ("app", root)] sec'
      fun _ => [] := by
    refine ⟨_, rfl, by cbv, .inl rfl, fun m hm => ?_⟩
    cases m with
    | excluded => exact .inl rfl
    | localProject => exact absurd hm (by decide)
    | _ => exact .inr ⟨rfl, rfl⟩
  have hagree : AgreeApart ["classification"]
      [("app", root), ("classification", .map sec)]
      [("classification", .map sec'), ("app", root)] := by
    intro name hname
    have hne : "classification" ≠ name := fun h => hname (List.mem_singleton.mpr h.symm)
    simp [membersNamed, List.filter_cons, hne]
  have hagree' : AgreeApart (Mark.fromExtensions.map Mark.name) sec sec' := by
    intro name hname
    have hne : "excluded" ≠ name := by
      rintro rfl
      exact hname (by decide)
    simp [sec, sec', membersNamed, hne]
  have hlistable : ∀ m ∈ Mark.fromExtensions, ∀ s ∈ lists m, Properties.Listable s := by
    intro m _ s hs
    cases m with
    | excluded =>
        change s ∈ [" a:b", "c:d "] at hs
        simp only [List.mem_cons, List.not_mem_nil, or_false] at hs
        rcases hs with rfl | rfl
        · exact ⟨by decide, by decide, by decide, by decide⟩
        · exact ⟨by decide, by decide, by decide, by decide⟩
    | _ => exact absurd hs List.not_mem_nil
  have horder : Mark.fromExtensions.reverse.Perm Mark.fromExtensions :=
    List.reverse_perm _
  have hmodel : (load full [] []).value.toOption.isSome = true := by
    obtain ⟨text, htext, hread, -⟩ := hfull
    have hreader : Descriptor.reader .toml (.map [("app", root), ("classification", .map sec)]) =
        .ok { app := some { group := "g", artifact := "a", version := "1" }
              classification := ⟨[], [], [⟨"a", "b", "", "jar"⟩, ⟨"c", "d", "", "jar"⟩],
                [], []⟩ } := by
      rfl
    rw [value_load_eq_bind, (Descriptor.ofSource_eq_ok htext hread).mpr hreader]
    rfl
  exact ⟨hmodel, load_listed_or_written hfull hbare hagree hagree' hlistable horder rfl rfl⟩

end

end Classpath
