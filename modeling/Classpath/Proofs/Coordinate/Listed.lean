import Classpath.Coordinate
import Classpath.Proofs.Outcome
import Classpath.Proofs.Coordinate.Display

/-! # Lists of coordinates — the first fault, or all that is listed

    A text that lists coordinates has entries, the pieces between its commas
    that are not blank.  Either one of them is malformed, and then the first
    such entry is the fault of the list and nothing is listed; or none is,
    and every entry lists its coordinate, in order (`parseList_eq`).  Texts
    that are joined with commas list what they list one by one
    (`lists_joined`), and a list that is appended to another with a comma lists
    what it lists after the other's (`parseList_append_comma`).  One more entry
    is listed at its place (`lists_insert`).  Whatever a list gives comes back
    from its display (`tidy_of_lists`), and without commas it comes back from a
    list of displays (`lists_of_displays`). -/

namespace Classpath

namespace Coordinate

open Text

/-- The entries of a list, without the blank ones. -/
def entries (text : String) : List String :=
  ((pieces ',' text.toList).filter fun entry => !entry.all isBlank).map
    String.ofList

/-- What is wrong with a text that is no coordinate. -/
def malformed? (text : String) : Option MalformedCoordinate :=
  match parse text with
  | .ok _ => none
  | .error cause => some cause

/-- What is wrong with the first entry of a list that is no coordinate. -/
def firstMalformed? (text : String) : Option MalformedCoordinate :=
  (entries text).findSome? malformed?

/-- The coordinates of a list in order, or none at all if one entry is
    malformed. -/
def listed (text : String) : List Coordinate :=
  match firstMalformed? text with
  | some _ => []
  | none => (entries text).filterMap fun entry => (parse entry).toOption

/-- Parsing one text after the other ends at the first that is malformed. -/
theorem mapM_parse (texts : List String) :
    texts.mapM parse = match texts.findSome? malformed? with
      | some cause => .error cause
      | none => .ok (texts.filterMap fun text => (parse text).toOption) := by
  induction texts with
  | nil => rfl
  | cons text texts ih =>
      rw [List.mapM_cons, ih, List.findSome?_cons]
      cases h : parse text with
      | error cause =>
          rw [malformed?, h]
          rfl
      | ok key =>
          have hnone : malformed? text = none := by rw [malformed?, h]
          rw [hnone, List.filterMap_cons, h]
          cases texts.findSome? malformed? with
          | some cause => rfl
          | none => rfl

/-- A list is its first fault or else all that it lists. -/
theorem parseList_eq (text : String) :
    parseList text = match firstMalformed? text with
      | some cause => .error cause
      | none => .ok (listed text) := by
  have h := mapM_parse (entries text)
  rw [listed]
  cases hf : firstMalformed? text with
  | some cause =>
      rw [← firstMalformed?, hf] at h
      exact h
  | none =>
      rw [← firstMalformed?, hf] at h
      exact h

/-- Every entry of the list is a coordinate, and these are the coordinates in
    their order. -/
def Lists (text : String) (ks : List Coordinate) : Prop :=
  List.Forall₂ (fun entry k => parse entry = .ok k) (entries text) ks

theorem parseList_eq_ok_iff {text : String} {ks : List Coordinate} :
    parseList text = .ok ks ↔ Lists text ks :=
  mapM_eq_ok_iff

/-- A list is well formed when no entry is malformed. -/
theorem lists_iff {text : String} {ks : List Coordinate} :
    Lists text ks ↔ firstMalformed? text = none ∧ listed text = ks := by
  rw [← parseList_eq_ok_iff, parseList_eq]
  cases firstMalformed? text with
  | some cause => exact iff_of_false (fun h => nomatch h) (fun ⟨h, _⟩ => nomatch h)
  | none =>
      constructor
      · intro h
        exact ⟨rfl, Except.ok.inj h⟩
      · rintro ⟨-, rfl⟩
        rfl

theorem listed_of_malformed {text : String} {cause : MalformedCoordinate}
    (h : firstMalformed? text = some cause) : listed text = [] := by
  rw [listed, h]

/-! ## Joined lists -/

/-- Blanks at the ends of a text do not count. -/
theorem parse_congr {s t : String} (h : trim s.toList = trim t.toList) :
    parse s = parse t := by
  rw [parse, parse, h]

/-- So coordinates may be read from trimmed texts. -/
theorem forall₂_parse_iff {texts : List String} {ks : List Coordinate} :
    List.Forall₂ (fun s k => parse s = .ok k) texts ks ↔
      List.Forall₂ (fun p k => parse (String.ofList p) = .ok k)
        (texts.map fun s => trim s.toList) ks := by
  have htrim : ∀ s : String, parse s = parse (String.ofList (trim s.toList)) := by
    intro s
    refine parse_congr ?_
    rw [String.toList_ofList, trim_trim]
  rw [List.forall₂_map_left_iff]
  simp only [← htrim]

/-- Texts that differ in such blanks only are the same coordinates. -/
theorem forall₂_parse_congr {texts texts' : List String} {ks : List Coordinate}
    (h : texts.map (fun s => trim s.toList) = texts'.map fun s => trim s.toList) :
    List.Forall₂ (fun s k => parse s = .ok k) texts ks ↔
      List.Forall₂ (fun s k => parse s = .ok k) texts' ks := by
  rw [forall₂_parse_iff, forall₂_parse_iff, h]

/-- The entries of a list without the blanks around them. -/
def items (s : List Char) : List (List Char) :=
  ((pieces ',' s).map trim).filter fun p => !p.isEmpty

/-- The trimmed entries are the trimmed pieces that are not empty. -/
theorem map_trim_entries (text : String) :
    (entries text).map (fun s => trim s.toList) = items text.toList := by
  have hnonblank : (fun p : List Char => !p.all isBlank) =
      (fun p => !p.isEmpty) ∘ trim := by
    funext p
    rw [Function.comp_apply, Bool.eq_iff_iff, Bool.not_eq_true', Bool.not_eq_true',
      ← Bool.not_eq_true, ← trim_eq_nil_iff, List.isEmpty_eq_false_iff]
  have htoList : (fun s : String => trim s.toList) ∘ String.ofList = trim := by
    funext p
    rw [Function.comp_apply, String.toList_ofList]
  rw [entries, items, List.map_map, htoList, hnonblank, ← List.filter_map]

theorem lists_iff_items {text : String} {ks : List Coordinate} :
    Lists text ks ↔
      List.Forall₂ (fun p k => parse (String.ofList p) = .ok k) (items text.toList) ks := by
  rw [Lists, forall₂_parse_iff, map_trim_entries]

/-- Texts that are joined with commas are the entries of a list, but for
    blanks at their ends. -/
theorem map_trim_entries_joined {texts : List String}
    (hblank : ∀ s ∈ texts, ¬ s.toList.all isBlank = true)
    (hcomma : ∀ s ∈ texts, ',' ∉ s.toList) :
    (entries (String.ofList (trim (",".intercalate texts).toList))).map
        (fun s => trim s.toList) =
      texts.map fun s => trim s.toList := by
  have hjoined : (",".intercalate texts).toList =
      [','].intercalate (texts.map String.toList) := String.toList_intercalate
  rw [map_trim_entries, items, String.toList_ofList, map_trim_pieces_trim (by decide), hjoined]
  by_cases hne : texts = []
  · -- No text at all makes up one blank piece, which is no entry.
    rw [hne]
    rfl
  · have hpieces : pieces ',' ([','].intercalate (texts.map String.toList)) =
        texts.map String.toList := by
      refine pieces_intercalate (mt List.map_eq_nil_iff.mp hne) fun p hp => ?_
      obtain ⟨s, hs, rfl⟩ := List.mem_map.mp hp
      exact hcomma s hs
    rw [hpieces, List.map_map]
    refine List.filter_eq_self.mpr fun p hp => ?_
    obtain ⟨s, hs, rfl⟩ := List.mem_map.mp hp
    rw [Bool.not_eq_true', List.isEmpty_eq_false_iff, ne_eq, Function.comp_apply,
      trim_eq_nil_iff]
    exact hblank s hs

/-- A list that is put together is well formed exactly if its texts are, and
    lists their coordinates. -/
theorem lists_joined {texts : List String} {ks : List Coordinate}
    (hblank : ∀ s ∈ texts, ¬ s.toList.all isBlank = true)
    (hcomma : ∀ s ∈ texts, ',' ∉ s.toList) :
    Lists (String.ofList (trim (",".intercalate texts).toList)) ks ↔
      List.Forall₂ (fun s k => parse s = .ok k) texts ks :=
  forall₂_parse_congr (map_trim_entries_joined hblank hcomma)

/-! ## Further entries -/

/-- What is joined with commas has the entries of all its texts. -/
theorem entries_intercalate (texts : List String) :
    entries (",".intercalate texts) = texts.flatMap entries := by
  have hjoined : (",".intercalate texts).toList =
      [','].intercalate (texts.map String.toList) := String.toList_intercalate
  rw [entries, hjoined]
  clear hjoined
  induction texts with
  | nil => rfl
  | cons s texts ih =>
      cases texts with
      | nil =>
          rw [List.map_singleton, List.intercalate_singleton, List.flatMap_singleton]
          rfl
      | cons t texts =>
          rw [List.map_cons, List.map_cons, List.intercalate_cons_cons, List.append_assoc,
            List.singleton_append, pieces_append_cons, List.filter_append, List.map_append,
            List.flatMap_cons, ← ih, List.map_cons]
          rfl

/-- A text that is not blank and has no comma is its own entry. -/
theorem entries_of_not_mem {s : String} (hcomma : ',' ∉ s.toList)
    (hblank : ¬ s.toList.all isBlank = true) : entries s = [s] := by
  rw [entries, pieces_of_not_mem hcomma, List.filter_cons_of_pos (by simpa using hblank)]
  show [String.ofList s.toList] = [s]
  rw [String.ofList_toList]

theorem not_mem_of_mem_entries {text entry : String} (h : entry ∈ entries text) :
    ',' ∉ entry.toList := by
  obtain ⟨p, hp, rfl⟩ := List.mem_map.mp h
  rw [String.toList_ofList]
  exact not_mem_of_mem_pieces (List.mem_of_mem_filter hp)

/-- What was read from several texts was read from one of them. -/
theorem exists_of_forall₂_parse {texts : List String} {ks : List Coordinate} {k : Coordinate}
    (h : List.Forall₂ (fun s k => parse s = .ok k) texts ks) (hk : k ∈ ks) :
    ∃ s ∈ texts, parse s = .ok k := by
  induction h with
  | nil => exact absurd hk List.not_mem_nil
  | cons hs _ ih =>
      rcases List.mem_cons.mp hk with rfl | hk
      · exact ⟨_, List.mem_cons_self, hs⟩
      · obtain ⟨s, hmem, hs⟩ := ih hk
        exact ⟨s, List.mem_cons_of_mem _ hmem, hs⟩

/-- Whatever a list gives can be listed again. -/
theorem tidy_of_lists {text : String} {ks : List Coordinate} (h : Lists text ks) :
    ∀ k ∈ ks, k.Tidy ∧ ',' ∉ k.display.toList := by
  intro k hk
  obtain ⟨entry, hentry, hparse⟩ := exists_of_forall₂_parse h hk
  refine ⟨tidy_of_parse hparse, fun hc => ?_⟩
  rcases mem_of_mem_display hparse hc with hc | hc | hc
  · exact not_mem_of_mem_entries hentry hc
  · exact absurd hc (by decide)
  · exact absurd hc (by decide)

theorem entries_append_comma (s t : String) :
    entries (s ++ "," ++ t) = entries s ++ entries t := by
  have htext : (s ++ "," ++ t).toList = s.toList ++ ',' :: t.toList := by
    rw [String.toList_append, String.toList_append, List.append_assoc]
    rfl
  rw [entries, htext, pieces_append_cons, List.filter_append, List.map_append]
  rfl

theorem parseList_append_comma (s t : String) :
    parseList (s ++ "," ++ t) =
      parseList s >>= fun ks => parseList t >>= fun ls => pure (ks ++ ls) := by
  show (entries (s ++ "," ++ t)).mapM parse = _
  rw [entries_append_comma, List.mapM_append]
  rfl

/-- A comma is not blank. -/
theorem not_mem_of_allBlank {w : List Char} (hw : AllBlank w) : ',' ∉ w := by
  intro hmem
  exact absurd (hw ',' hmem) (by decide)

theorem entries_of_allBlank {s : String} (hs : AllBlank s.toList) : entries s = [] := by
  have hblank : s.toList.all isBlank = true := allBlank_iff.mp hs
  rw [entries, pieces_of_not_mem (not_mem_of_allBlank hs),
    List.filter_cons_of_neg (by simpa using hblank)]
  rfl

/-! ## One more entry -/

theorem items_trim (s : List Char) : items (trim s) = items s := by
  rw [items, items, map_trim_pieces_trim (by decide)]

theorem items_append_comma (s t : List Char) : items (s ++ ',' :: t) = items s ++ items t := by
  rw [items, pieces_append_cons, List.map_append, List.filter_append]
  rfl

theorem items_of_allBlank {s : List Char} (hs : AllBlank s) : items s = [] := by
  rw [items, pieces_of_not_mem (not_mem_of_allBlank hs), List.map_singleton,
    trim_eq_nil_iff.mpr (allBlank_iff.mp hs)]
  rfl

theorem items_blank_append {w : List Char} (hw : AllBlank w) (s : List Char) :
    items (w ++ s) = items s := by
  rw [← items_trim, trim_blank_append hw, items_trim]

theorem items_append_blank (s : List Char) {w : List Char} (hw : AllBlank w) :
    items (s ++ w) = items s := by
  rw [← items_trim, trim_append_blank s hw, items_trim]

/-- A text that can be an entry: it is there, there are no blanks around it, and
    there is no comma in it. -/
structure IsItem (s : List Char) : Prop where
  ne_nil : s ≠ []
  starts : StartsSolid s
  ends : EndsSolid s
  no_comma : ',' ∉ s

theorem IsItem.items_eq {s : List Char} (h : IsItem s) : items s = [s] := by
  rw [items, pieces_of_not_mem h.no_comma, List.map_singleton, trim_of_solid h.starts h.ends]
  refine List.filter_cons_of_pos ?_
  rw [Bool.not_eq_true', List.isEmpty_eq_false_iff]
  exact h.ne_nil

/-- An entry with a comma behind it is listed before the rest. -/
theorem IsItem.items_append {s w : List Char} (h : IsItem s) (hw : AllBlank w) (t : List Char) :
    items (s ++ ',' :: (w ++ t)) = s :: items t := by
  rw [items_append_comma, h.items_eq, items_blank_append hw]
  rfl

/-- The display of a tidy coordinate can be an entry, but for commas. -/
theorem Tidy.isItem {k : Coordinate} (h : k.Tidy) (hcomma : ',' ∉ k.display.toList) :
    IsItem k.display.toList where
  ne_nil := display_ne_nil k
  starts := h.startsSolid_display
  ends := h.endsSolid_display
  no_comma := hcomma

/-- The beginning of a list has come to where an entry begins: there is none
    before it, or a comma behind the last one. -/
def AtEntry (v : List Char) : Prop :=
  ∀ c ∈ (trimEnd v).getLast?, c = ','

instance (v : List Char) : Decidable (AtEntry v) :=
  Option.decidableForallMem (trimEnd v).getLast?

/-- A list is read in two parts where an entry begins. -/
theorem AtEntry.items_append {v : List Char} (h : AtEntry v) (s : List Char) :
    items (v ++ s) = items v ++ items s := by
  obtain ⟨w, hw, hv, -⟩ := exists_trimEnd v
  cases hlast : (trimEnd v).getLast? with
  | none =>
      rw [List.getLast?_eq_none_iff.mp hlast, List.nil_append] at hv
      rw [hv, items_blank_append hw, items_of_allBlank hw, List.nil_append]
  | some c =>
      obtain rfl := h c hlast
      rw [← List.dropLast_append_getLast? ',' hlast, List.append_assoc,
        List.singleton_append] at hv
      rw [hv, List.append_assoc, List.cons_append, items_append_comma, items_append_comma,
        items_blank_append hw, items_of_allBlank hw, List.append_nil]

/-- What one more entry is read as is listed at its place. -/
theorem lists_insert {text text' : String} {xs ys : List (List Char)} {p : List Char}
    {js : List Coordinate} (h : Lists text js) (htext : items text.toList = xs ++ ys)
    (htext' : items text'.toList = xs ++ p :: ys) :
    ∃ ks ls, js = ks ++ ls ∧
      ∀ k, parse (String.ofList p) = .ok k → Lists text' (ks ++ k :: ls) := by
  rw [lists_iff_items, ← mapM_eq_ok_iff, htext] at h
  obtain ⟨ks, ls, hjs, hinsert⟩ := mapM_insert_eq_ok_iff h
  refine ⟨ks, ls, hjs, fun k hk => ?_⟩
  rw [lists_iff_items, ← mapM_eq_ok_iff, htext']
  exact (hinsert p _).mpr ⟨k, hk, rfl⟩

/-! ## Listing coordinates again -/

/-- These entries display coordinates in order.  There may be blanks around
    each of them, and blank entries anywhere. -/
inductive Displays : List String → List Coordinate → Prop
  | nil : Displays [] []
  | blank {s : String} {es : List String} {ks : List Coordinate} (hs : AllBlank s.toList)
      (h : Displays es ks) : Displays (s :: es) ks
  | entry {w w' : String} {k : Coordinate} {es : List String} {ks : List Coordinate}
      (hw : AllBlank w.toList) (hw' : AllBlank w'.toList) (h : Displays es ks) :
      Displays ((w ++ k.display ++ w') :: es) (k :: ks)

/-- None of the fields holds a comma. -/
def NoComma (k : Coordinate) : Prop :=
  ',' ∉ k.group.toList ∧ ',' ∉ k.artifact.toList ∧ ',' ∉ k.classifier.toList
    ∧ ',' ∉ k.type.toList

theorem NoComma.display {k : Coordinate} (h : k.NoComma) : ',' ∉ k.display.toList := by
  obtain ⟨hg, ha, hc, ht⟩ := h
  rw [toList_display]
  simp [hg, ha, hc, ht]

/-- A display between blanks is the one entry of its text and is read as the
    coordinate. -/
theorem entries_display {w w' : String} {k : Coordinate} (hw : AllBlank w.toList)
    (hw' : AllBlank w'.toList) (hk : parse k.display = .ok k) (hcomma : k.NoComma) :
    entries (w ++ k.display ++ w') = [w ++ k.display ++ w']
      ∧ parse (w ++ k.display ++ w') = .ok k := by
  have htext : (w ++ k.display ++ w').toList = w.toList ++ k.display.toList ++ w'.toList := by
    rw [String.toList_append, String.toList_append]
  have hparse : parse (w ++ k.display ++ w') = .ok k := by
    rw [← hk]
    refine parse_congr ?_
    rw [htext, trim_append_blank _ hw', trim_blank_append hw]
  refine ⟨entries_of_not_mem ?_ (not_blank_of_parse hparse), hparse⟩
  rw [htext, List.mem_append, List.mem_append, not_or, not_or]
  exact ⟨⟨not_mem_of_allBlank hw, hcomma.display⟩, not_mem_of_allBlank hw'⟩

/-- Coordinates that come back from their displays come back from a list of
    them. -/
theorem lists_of_displays {es : List String} {ks : List Coordinate} (h : Displays es ks)
    (hks : ∀ k ∈ ks, parse k.display = .ok k ∧ k.NoComma) :
    Lists (",".intercalate es) ks := by
  rw [Lists, entries_intercalate]
  induction h with
  | nil => exact .nil
  | blank hs _ ih =>
      rw [List.flatMap_cons, entries_of_allBlank hs]
      exact ih hks
  | entry hw hw' _ ih =>
      rw [List.forall_mem_cons] at hks
      obtain ⟨⟨hk, hcomma⟩, hks⟩ := hks
      obtain ⟨hentries, hparse⟩ := entries_display hw hw' hk hcomma
      rw [List.flatMap_cons, hentries]
      exact .cons hparse (ih hks)

/-- To join two lists with a comma is to list one after the other, the first
    fault included; and coordinates without commas that come back from their
    displays are listed by these, in order and as often as they stand there,
    whatever blanks are around them and whatever blank entries between them. -/
theorem parseList_joined :
    (∀ s t : String, parseList (s ++ "," ++ t) =
        match parseList s with
        | .error cause => .error cause
        | .ok ks => match parseList t with
          | .error cause => .error cause
          | .ok ls => .ok (ks ++ ls))
      ∧ ∀ (es : List String) (ks : List Coordinate), Displays es ks →
          (∀ k ∈ ks, parse k.display = .ok k ∧ k.NoComma) →
          parseList (",".intercalate es) = .ok ks := by
  refine ⟨fun s t => ?_, fun es ks h hks => ?_⟩
  · rw [parseList_append_comma]
    cases parseList s with
    | error cause => rfl
    | ok ks =>
        cases parseList t with
        | error cause => rfl
        | ok ls => rfl
  · exact parseList_eq_ok_iff.mpr (lists_of_displays h hks)

/-- Twice the same coordinate, with blanks around it and blank entries at both
    ends. -/
theorem parseList_joined_twice :
    parseList ",\tg:a:c:jar ,g:a:c:jar, \n" =
      .ok [⟨"g", "a", "c", "jar"⟩, ⟨"g", "a", "c", "jar"⟩] := by
  let k : Coordinate := ⟨"g", "a", "c", "jar"⟩
  have hblank : ∀ {s : String}, s.toList.all isBlank = true → AllBlank s.toList :=
    allBlank_iff.mpr
  have hdisplays : Displays ["", "\t" ++ k.display ++ " ", "" ++ k.display ++ "", " \n"] [k, k] :=
    .blank (hblank (by decide)) (.entry (hblank (by decide)) (hblank (by decide))
      (.entry (hblank (by decide)) (hblank (by decide)) (.blank (hblank (by decide)) .nil)))
  have hk : parse k.display = .ok k ∧ k.NoComma := by
    refine ⟨by decide, ?_⟩
    exact ⟨by decide, by decide, by decide, by decide⟩
  exact parseList_joined.2 _ _ hdisplays fun l hl => by
    obtain rfl : l = k := by simpa using hl
    exact hk

end Coordinate

end Classpath
