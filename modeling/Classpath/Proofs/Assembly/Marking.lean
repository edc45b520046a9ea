import Classpath.Assembly
import Classpath.Proofs.Coordinate.Listed

/-! # Marking — what a contribution does to the sets of coordinates

    All that marks coordinates, a contributor's call, a descriptor and the
    properties of an extension alike, is `markEach`: to each mark of a list
    its own coordinates.  It only adds to the sets of those marks
    (`mem_marks_markEach`) and touches nothing else (`markEach_eq`).  The
    properties of an extension are one `markEach` with what each of its lists
    gives, and their fault is that of the first malformed list
    (`value_classify`). -/

namespace Classpath

namespace Properties

/-- The coordinates that properties give a mark. -/
def listed (p : Properties) (m : Mark) : List Coordinate :=
  match p[m.property]? with
  | some text => Coordinate.listed text
  | none => []

/-- What is wrong with the list for a mark. -/
def malformed? (p : Properties) (m : Mark) : Option MalformedCoordinate :=
  p[m.property]?.bind Coordinate.firstMalformed?

/-- What is wrong with the first malformed list. -/
def firstMalformed? (p : Properties) : Option MalformedCoordinate :=
  Mark.fromExtensions.findSome? p.malformed?

variable {p : Properties}

/-- A list that is absent is as good as one without entries. -/
theorem listed_eq_getD (p : Properties) (m : Mark) :
    p.listed m = Coordinate.listed (p[m.property]?.getD "")
      ∧ p.malformed? m = Coordinate.firstMalformed? (p[m.property]?.getD "") := by
  rw [listed, malformed?]
  cases p[m.property]? with
  | none => exact ⟨rfl, rfl⟩
  | some text => exact ⟨rfl, rfl⟩

theorem lists_listed {m : Mark} (h : p.malformed? m = none) :
    Coordinate.Lists (p[m.property]?.getD "") (p.listed m) := by
  rw [(p.listed_eq_getD m).2] at h
  rw [(p.listed_eq_getD m).1]
  exact Coordinate.lists_iff.mpr ⟨h, rfl⟩

/-- A list that gives something is well formed. -/
theorem lists_of_mem_listed {m : Mark} {k : Coordinate} (h : k ∈ p.listed m) :
    Coordinate.Lists (p[m.property]?.getD "") (p.listed m) := by
  cases hm : p.malformed? m with
  | none => exact lists_listed hm
  | some cause =>
      rw [(p.listed_eq_getD m).2] at hm
      rw [(p.listed_eq_getD m).1, Coordinate.listed_of_malformed hm] at h
      exact absurd h List.not_mem_nil

/-- Whatever properties give a mark can be listed again. -/
theorem tidy_of_listed {m : Mark} {k : Coordinate} (h : k ∈ p.listed m) :
    k.Tidy ∧ ',' ∉ k.display.toList :=
  Coordinate.tidy_of_lists (lists_of_mem_listed h) k h

end Properties

namespace Assembly

/-- Gives each of several marks to its own coordinates. -/
def markEach (a : Assembly) (ms : List Mark) (keys : Mark → List Coordinate) :
    Assembly :=
  ms.foldl (fun a m => a.markAll m (keys m)) a

variable {a : Assembly} {ms : List Mark} {keys : Mark → List Coordinate}

/-! ## One mark -/

/-- A set of coordinates after several were added to it. -/
theorem mem_insertMany {s : CoordinateSet} {ks : List Coordinate}
    {k : Coordinate} : k ∈ s.insertMany ks ↔ k ∈ s ∨ k ∈ ks := by
  rw [Std.ExtTreeSet.mem_insertMany_list, List.contains_iff_mem]

theorem marks_markAll (a : Assembly) (m : Mark) (ks : List Coordinate) :
    (a.markAll m ks).marks = a.marks.modify m fun s => s.insertMany ks := rfl

/-- To mark nothing changes nothing. -/
theorem markAll_nil (a : Assembly) (m : Mark) : a.markAll m [] = a := by
  have h : (a.markAll m []).marks = a.marks := by
    refine Marks.ext_get fun m' => ?_
    rw [marks_markAll, Marks.get_modify]
    by_cases hm : m = m'
    · rw [if_pos hm]
      rfl
    · rw [if_neg hm]
  show { a with marks := (a.markAll m []).marks } = a
  rw [h]

theorem mem_marks_markAll {m m' : Mark} {ks : List Coordinate} {k : Coordinate} :
    k ∈ (a.markAll m ks).marks.get m' ↔
      k ∈ a.marks.get m' ∨ m = m' ∧ k ∈ ks := by
  rw [marks_markAll, Marks.get_modify]
  by_cases hm : m = m'
  · rw [if_pos hm, mem_insertMany]
    simp [hm]
  · rw [if_neg hm]
    simp [hm]

/-! ## Several marks -/

theorem markEach_cons (m : Mark) :
    a.markEach (m :: ms) keys = (a.markAll m (keys m)).markEach ms keys := rfl

/-- Marking touches the marks and nothing else. -/
theorem markEach_eq (a : Assembly) (ms : List Mark)
    (keys : Mark → List Coordinate) :
    a.markEach ms keys = { a with marks := (a.markEach ms keys).marks } := by
  induction ms generalizing a with
  | nil => rfl
  | cons m ms ih =>
      rw [markEach_cons]
      exact ih (a.markAll m (keys m))

/-- Marking adds to the sets of the marks that are named. -/
theorem mem_marks_markEach {m : Mark} {k : Coordinate} :
    k ∈ (a.markEach ms keys).marks.get m ↔
      k ∈ a.marks.get m ∨ m ∈ ms ∧ k ∈ keys m := by
  induction ms generalizing a with
  | nil =>
      show k ∈ a.marks.get m ↔ _
      simp
  | cons m' ms ih =>
      rw [markEach_cons, ih, mem_marks_markAll, or_assoc]
      refine or_congr_right ?_
      constructor
      · rintro (⟨rfl, hk⟩ | ⟨hm, hk⟩)
        · exact ⟨List.mem_cons_self, hk⟩
        · exact ⟨List.mem_cons_of_mem _ hm, hk⟩
      · rintro ⟨hm, hk⟩
        rcases List.mem_cons.mp hm with rfl | hm
        · exact Or.inl ⟨rfl, hk⟩
        · exact Or.inr ⟨hm, hk⟩

/-! ## The properties of an extension -/

/-- One list of an extension's properties. -/
theorem value_classifyOne (p : Properties) (extension : String)
    (s : Assembly × Option MalformedCoordinate) (m : Mark) :
    (classifyOne p extension s m).value =
      (s.1.markAll m (p.listed m), s.2.or (p.malformed? m)) := by
  rw [classifyOne, Properties.listed, Properties.malformed?]
  cases p[m.property]? with
  | none =>
      show s = (s.1.markAll m [], s.2.or none)
      rw [markAll_nil, Option.or_none]
  | some text =>
      dsimp only
      rw [Coordinate.parseList_eq, Option.bind_some]
      cases h : Coordinate.firstMalformed? text with
      | none =>
          show (s.1.markAll m (Coordinate.listed text), s.2) = _
          rw [Option.or_none]
      | some cause =>
          rw [Coordinate.listed_of_malformed h, markAll_nil]

/-- All lists of an extension's properties. -/
theorem value_classify (a : Assembly) (p : Properties) (extension : String) :
    (a.classify p extension).value =
      (a.markEach Mark.fromExtensions p.listed, p.firstMalformed?) := by
  have h : ∀ (ms : List Mark) (s : Assembly × Option MalformedCoordinate),
      (ms.foldlM (classifyOne p extension) s).value =
        (s.1.markEach ms p.listed, s.2.or (ms.findSome? p.malformed?)) := by
    intro ms
    induction ms with
    | nil =>
        intro s
        show s = (s.1, s.2.or none)
        rw [Option.or_none]
    | cons m ms ih =>
        intro s
        rw [List.foldlM_cons, Traced.value_bind, ih, value_classifyOne,
          markEach_cons, List.findSome?_cons]
        cases hs : s.2 with
        | some cause => rfl
        | none =>
            cases p.malformed? m with
            | some cause => rfl
            | none => rfl
  exact h Mark.fromExtensions (a, none)

end Assembly

end Classpath
