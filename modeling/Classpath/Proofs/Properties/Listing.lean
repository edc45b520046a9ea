import Classpath.Proofs.Assembly.Classifying
import Classpath.Proofs.Properties.Layout

/-! # Listing — a properties text with one line for each list

    A list of texts can be written as one line: a property, an equals sign,
    and the texts with commas between them.  That is a layout as any other,
    so reading gives the property what the texts make up, trimmed
    (`getElem?_parse_listLines`); and this gives a mark to the coordinates that
    the texts are one by one, or spoils the list if one of them is malformed
    (`gives_listLines_iff`). -/

namespace Classpath

open Text

theorem Mark.property_injective {m m' : Mark} (h : m.property = m'.property) :
    m = m' :=
  Mark.name_injective ((String.append_left_inj "-artifacts").mp h)

namespace Properties

/-- The line that lists texts for a mark. -/
def listLine (m : Mark) (texts : List String) : String :=
  m.property ++ "=" ++ ",".intercalate texts ++ "\n"

/-- A properties text with one such line for each of several marks. -/
def listLines (ms : List Mark) (lists : Mark → List String) : String :=
  String.join (ms.map fun m => listLine m (lists m))

/-- A text that can stand in such a line, and that counts there. -/
structure Listable (s : String) : Prop where
  not_blank : ¬ s.toList.all isBlank = true
  no_comma : ',' ∉ s.toList
  one_line : '\n' ∉ s.toList
  no_backslash : '\\' ∉ s.toList

/-- What a property is read as whose line lists texts. -/
def listValue (texts : List String) : String :=
  String.ofList (trim (",".intercalate texts).toList)

variable {lists : Mark → List String} {ms : List Mark} {m : Mark} {texts : List String}

/-! ## One line -/

theorem writable_listValue (m : Mark) (h : ∀ s ∈ texts, Listable s) :
    Writable (m.property, listValue texts) := by
  have hvalue : (listValue texts).toList = trim (",".intercalate texts).toList :=
    String.toList_ofList
  have hmem : ∀ c ∈ (listValue texts).toList, c ∈ (",".intercalate texts).toList := by
    intro c hc
    rw [hvalue] at hc
    exact mem_of_mem_trim hc
  refine ⟨?_, ?_, ?_, ?_, ?_⟩
  · show '\n' ∉ m.property.toList
    cases m <;> decide
  · intro hline
    exact not_mem_joined (by decide) (fun s hs => (h s hs).one_line) (hmem _ hline)
  · show StartsSolid (listValue texts).toList
    rw [hvalue]
    exact startsSolid_trim _
  · show EndsSolid (listValue texts).toList
    rw [hvalue]
    exact endsSolid_trim _
  · intro hlast
    exact not_mem_joined (by decide) (fun s hs => (h s hs).no_backslash)
      (hmem _ (List.mem_of_getLast? hlast))

/-- The blanks at the ends of the joined texts are gaps of the line. -/
theorem writesEntry_listLine (m : Mark) (h : ∀ s ∈ texts, Listable s) :
    WritesEntry (m.property, listValue texts) (listLine m texts).toList := by
  obtain ⟨w, w', hw, hw', hs, -, -⟩ := exists_trim (",".intercalate texts).toList
  have hline : '\n' ∉ (",".intercalate texts).toList :=
    not_mem_joined (by decide) fun s hs => (h s hs).one_line
  have hgap : Gap w := by
    intro c hc
    refine ⟨hw c hc, ?_⟩
    rintro rfl
    refine hline ?_
    rw [hs]
    exact List.mem_append_left w' (List.mem_append_left _ hc)
  have hgap' : Gap w' := by
    intro c hc
    refine ⟨hw' c hc, ?_⟩
    rintro rfl
    refine hline ?_
    rw [hs]
    exact List.mem_append_right _ hc
  -- Nothing in the name of a property needs a backslash.
  have hkey : escaped m.property.toList = m.property.toList := by
    cases m <;> decide
  have hwrites := @WritesEntry.intro (m.property, listValue texts) [] ([] ++ '=' :: w)
    (listValue texts).toList w' ['\n'] Gap.nil (.sign Gap.nil (.inl rfl) hgap) (.flat _)
    hgap' .lf
  have htext : (listLine m texts).toList =
      [] ++ escaped m.property.toList ++ ([] ++ '=' :: w) ++ (listValue texts).toList
        ++ w' ++ ['\n'] := by
    rw [listLine, String.toList_append, String.toList_append, String.toList_append, hs,
      hkey, listValue, String.toList_ofList]
    simp
  rw [htext]
  exact hwrites

/-! ## All lines -/

theorem writes_listLines (h : ∀ m ∈ ms, ∀ s ∈ lists m, Listable s) :
    Writes (ms.map fun m => (m.property, listValue (lists m)))
      (listLines ms lists).toList := by
  induction ms with
  | nil => exact .nil
  | cons m ms ih =>
      rw [listLines, List.map_cons, List.map_cons, String.join_cons, String.toList_append]
      exact .entry (writesEntry_listLine m (h m List.mem_cons_self))
        (ih fun m' hm' => h m' (List.mem_cons_of_mem m hm'))

theorem getElem?_parse_listLines (h : ∀ m ∈ ms, ∀ s ∈ lists m, Listable s) (hm : m ∈ ms) :
    (parse (listLines ms lists))[m.property]? = some (listValue (lists m)) := by
  have hentries : entries (listLines ms lists) =
      ms.map fun m => (m.property, listValue (lists m)) := by
    refine entries_of_writes (writes_listLines h) fun entry hentry => ?_
    obtain ⟨m', hm', rfl⟩ := List.mem_map.mp hentry
    exact writable_listValue m' (h m' hm')
  rw [getElem?_parse, hentries]
  refine latest?_eq_of_unique (List.mem_map.mpr ⟨m, hm, rfl⟩) fun v hv => ?_
  obtain ⟨m', -, heq⟩ := List.mem_map.mp hv
  rw [← Mark.property_injective (congrArg Prod.fst heq)]
  exact (congrArg Prod.snd heq).symm

/-- A line gives its mark to the coordinates that are listed, if all texts are
    coordinates, and to none otherwise. -/
theorem gives_listLines_iff (h : ∀ m ∈ ms, ∀ s ∈ lists m, Listable s) (hm : m ∈ ms)
    {ks : List Coordinate} :
    (parse (listLines ms lists)).Gives m ks ↔
      List.Forall₂ (fun s k => Coordinate.parse s = .ok k) (lists m) ks := by
  rw [Gives, getElem?_parse_listLines h hm, ← Coordinate.lists_joined
    (fun s hs => (h m hm s hs).not_blank) fun s hs => (h m hm s hs).no_comma]
  constructor
  · rintro ⟨text, htext, hks⟩
    rw [← Option.some.inj htext] at hks
    exact hks
  · intro hks
    exact ⟨_, rfl, hks⟩

end Properties

end Classpath
