import Classpath.Proofs.Coordinate.Listed
import Classpath.Proofs.Properties.Layout
import Classpath.Proofs.Properties.Spacing

/-! # Insertion — one more entry in the list of a property

    A property may hold a list, and a file is edited to list one text more: the
    text is put before another entry of the value or behind the last one of a
    line, or the property gets a line of its own.  `ListsToo` says which edits of
    the file these are.  They give the property the items it had and the text
    among them, and all other properties what they had (`gainsItem_of_listsToo`).

    The value may have begun on an earlier line, and it may go on with the next
    one.  So a place is known by what has been read when it is reached (`begun?`,
    `InValue`), and the rest of the entry is the same whatever is put there
    (`exists_rest`).  Only a backslash must not come to stand at the end of the
    line: the line would go on with the next one. -/

namespace Classpath.Properties

open Text Coordinate

/-! ## Edits -/

/-- The logical line as far as it has come with the beginning of a line, unless
    that line holds no entry. -/
def begun? : Option (List Char) → List Char → Option (List Char)
  | none, a => if isPassedOver (trimStart a) then none else some (trimStart a)
  | some before, a => some (before ++ trimStart a)

/-- A place between `a` and `b` on a line, with `r` and `u` before and after the
    line: it is in the value of the last entry for the key, of which `v` has
    been read. -/
structure Place (key r a b u : String) (v : List Char) : Prop where
  ended : Ended r
  one_line : '\n' ∉ (a ++ b).toList
  endsLine : EndsLine u
  reached : ∃ q, begun? (openLine? r) a.toList = some q ∧ InValue key.toList q v
  last : ∀ e ∈ (entries (r ++ (a ++ b) ++ u)).drop
    ((finished none (lines r.toList)).length + 1), e.1 ≠ key

/-- What may stand between the beginning `v` of a list and one more entry. -/
inductive LeadsOn (v : List Char) : String → Prop
  | gap {w : String} (hv : AtEntry v) (hw : Gap w.toList) : LeadsOn v w
  | comma {w w' : String} (hw : Gap w.toList) (hw' : Gap w'.toList) : LeadsOn v (w ++ "," ++ w')

/-- `ListsToo key text t t'`: the file `t'` is `t` with one more text in the list
    for the key.  The text is put before another entry, at the end of a line, or
    on a line of its own if the list was empty; a comma may follow it at the end
    of a line, which must not be a backslash. -/
inductive ListsToo (key text : String) : String → String → Prop
  | before {r a g b u w w' : String} {v : List Char} (hplace : Place key r a (g ++ b) u v)
      (hv : AtEntry v) (hg : Gap g.toList) (hb : b ≠ "") (hstart : StartsSolid b.toList)
      (hw : Gap w.toList) (hw' : Gap w'.toList) :
      ListsToo key text (r ++ (a ++ (g ++ b)) ++ u)
        (r ++ (a ++ (w ++ (text ++ "," ++ w' ++ b))) ++ u)
  | behind {r a b u g e : String} {v : List Char} (hplace : Place key r a b u v)
      (ha : a ≠ "") (hend : EndsSolid a.toList) (hopen : a.toList.getLast? ≠ some '\\')
      (hb : Gap b.toList) (hg : LeadsOn v g) (he : e = text ∨ e = text ++ ",")
      (hclosed : e.toList.getLast? ≠ some '\\') :
      ListsToo key text (r ++ (a ++ b) ++ u) (r ++ (a ++ (g ++ e) ++ b) ++ u)
  | line {r s u e : String} (hr : Ended r) (hopen : openLine? r = none)
      (hempty : (parse (r ++ u))[key]?.getD "" = "") (hlast : ∀ e ∈ entries u, e.1 ≠ key)
      (hs : WritesEntry (key, e) s.toList) (he : e = text ∨ e = text ++ ",")
      (hclosed : e.toList.getLast? ≠ some '\\') :
      ListsToo key text (r ++ u) (r ++ s ++ u)

/-- The second properties have one more item in the list for the key, and are
    otherwise the same. -/
def GainsItem (key : String) (item : List Char) (p p' : Properties) : Prop :=
  (∀ k, k ≠ key → p'[k]? = p[k]?)
    ∧ ∃ value xs ys, p'[key]? = some value ∧ items (p[key]?.getD "").toList = xs ++ ys
      ∧ items value.toList = xs ++ item :: ys

/-! ## The rest of an entry -/

theorem isPassedOver_append {s : List Char} (h : isPassedOver s = false) (t : List Char) :
    isPassedOver (s ++ t) = false := by
  cases s with
  | nil => exact nomatch h
  | cons c s => exact h

/-- What is put behind the beginning of a line is put behind the logical line. -/
theorem next_of_begun? {p : Option (List Char)} {a q l x : List Char}
    (h : begun? p a = some q) (hl : trim l = trimStart a ++ x) :
    next p (trim l) = close (q ++ x) := by
  rw [hl]
  cases p with
  | none =>
      rw [begun?] at h
      by_cases hpass : isPassedOver (trimStart a) = true
      · rw [if_pos hpass] at h
        exact nomatch h
      · rw [if_neg hpass] at h
        rw [← Option.some.inj h]
        exact next_first (isPassedOver_append (Bool.eq_false_iff.mpr hpass) x)
  | some before =>
      rw [← Option.some.inj h, next_some, List.append_assoc]

theorem close_append {q x : List Char} (hq : q.getLast? ≠ some '\\')
    (hx : x.getLast? ≠ some '\\') : close (q ++ x) = ([q ++ x], none) := by
  refine close_of_ne ?_
  by_cases hne : x = []
  · rw [hne, List.append_nil]
    exact hq
  · rw [List.getLast?_append_of_ne_nil q hne]
    exact hx

/-- However an entry goes on, the rest of it is the same behind all that does not
    end in a backslash. -/
theorem exists_rest (x : List Char) (xs : List (List Char)) :
    ∃ z rest, (x = [] → z = []) ∧ ∀ q : List Char, q.getLast? ≠ some '\\' →
      (close (q ++ x)).1 ++ logicalLines (close (q ++ x)).2 xs = (q ++ z) :: rest := by
  induction xs generalizing x with
  | nil =>
      rcases close_cases x with ⟨y, rfl⟩ | hx
      · refine ⟨y, [], fun h => absurd h (by simp), fun q _ => ?_⟩
        rw [← List.append_assoc, close_backslash]
        rfl
      · refine ⟨x, [], id, fun q hq => ?_⟩
        rw [close_append hq hx]
        rfl
  | cons line xs ih =>
      rcases close_cases x with ⟨y, rfl⟩ | hx
      · -- The entry goes on with the next line.
        obtain ⟨z, rest, -, h⟩ := ih (y ++ trim line)
        refine ⟨z, rest, fun h => absurd h (by simp), fun q hq => ?_⟩
        rw [← List.append_assoc, close_backslash, List.nil_append, logicalLines_cons, next_some,
          List.append_assoc]
        exact h q hq
      · refine ⟨x, logicalLines none (line :: xs), id, fun q hq => ?_⟩
        rw [close_append hq hx]
        rfl

variable {key text t t' r a b u : String} {q v : List Char}

/-- Whatever is put at a place comes to stand in the value of the same entry, and
    all other entries stay as they are. -/
theorem exists_entries (hr : Ended r) (hu : EndsLine u) (hq : InValue key.toList q v)
    (x : List Char) :
    ∃ z fs, (x = [] → z = []) ∧ ∀ (l : String) (c : List Char), l ≠ "" → '\n' ∉ l.toList →
      next (openLine? r) (trim l.toList) = close (q ++ c ++ x) →
      (q ++ c).getLast? ≠ some '\\' →
      entries (r ++ l ++ u) = (finished none (lines r.toList)).map entry
        ++ (key, String.ofList (trim (v ++ (c ++ z)))) :: fs := by
  obtain ⟨z, rest, hz, hrest⟩ := exists_rest x (lines u.toList.tail)
  refine ⟨z, rest.map entry, hz, fun l c hne hline hnext hback => ?_⟩
  have hentry : entry (q ++ c ++ z) = (key, String.ofList (trim (v ++ (c ++ z)))) := by
    rw [List.append_assoc, hq.entry_append, String.ofList_toList]
  have hlines : logicalLines (openLine? r) (l.toList :: lines u.toList.tail) =
      (q ++ c ++ z) :: rest := by
    rw [logicalLines_cons, hnext]
    exact hrest _ hback
  rw [entries, lines_between hr hline hu (.inl hne), logicalLines_append, ← openLine?, hlines,
    List.map_append, List.map_cons, hentry]

/-- So a line may be replaced by another one with the same end: the property gains
    an item if what stands at the place does, whatever the entry goes on with. -/
theorem Place.gainsItem (h : Place key r a b u v) {l : String} {c c' x item : List Char}
    (hbegun : begun? (openLine? r) a.toList = some q) (hq : InValue key.toList q v)
    (hne : a ++ b ≠ "") (hx : trim (a ++ b).toList = trimStart a.toList ++ (c ++ x))
    (hc : (q ++ c).getLast? ≠ some '\\') (hl : l ≠ "") (hline : '\n' ∉ l.toList)
    (hlx : trim l.toList = trimStart a.toList ++ (c' ++ x))
    (hc' : (q ++ c').getLast? ≠ some '\\')
    (hitems : ∀ z : List Char, (x = [] → z = []) → ∃ xs ys, items (v ++ (c ++ z)) = xs ++ ys
      ∧ items (v ++ (c' ++ z)) = xs ++ item :: ys) :
    GainsItem key item (parse (r ++ (a ++ b) ++ u)) (parse (r ++ l ++ u)) := by
  obtain ⟨z, fs, hz, hentries⟩ := exists_entries h.ended h.endsLine hq x
  have hold := hentries (a ++ b) c hne h.one_line
    (by rw [List.append_assoc]; exact next_of_begun? hbegun hx) hc
  have hnew := hentries l c' hl hline
    (by rw [List.append_assoc]; exact next_of_begun? hbegun hlx) hc'
  have hfs : ∀ e ∈ fs, e.1 ≠ key := by
    have hlast := h.last
    rw [hold, List.append_cons, List.drop_left' (by simp)] at hlast
    exact hlast
  have hvalue : (parse (r ++ (a ++ b) ++ u))[key]? =
      some (String.ofList (trim (v ++ (c ++ z)))) := by
    rw [getElem?_parse, hold]
    exact latest?_insert_self hfs
  have hvalue' : (parse (r ++ l ++ u))[key]? =
      some (String.ofList (trim (v ++ (c' ++ z)))) := by
    rw [getElem?_parse, hnew]
    exact latest?_insert_self hfs
  obtain ⟨xs, ys, hitems, hitems'⟩ := hitems z hz
  refine ⟨fun k hk => ?_, _, xs, ys, hvalue', ?_, ?_⟩
  · rw [getElem?_parse, getElem?_parse, hold, hnew, latest?_insert_of_ne (Ne.symm hk),
      latest?_insert_of_ne (Ne.symm hk)]
  · rw [hvalue, Option.getD_some, String.toList_ofList, items_trim, hitems]
  · rw [String.toList_ofList, items_trim, hitems']

/-! ## Where an entry may be put -/

/-- Where an entry begins, no backslash stands before it. -/
theorem InValue.getLast?_ne (h : InValue key.toList q v) (hv : AtEntry v) :
    q.getLast? ≠ some '\\' := by
  intro hlast
  have hv' : v.getLast? ≠ some '\\' := by
    intro hback
    have hsolid : EndsSolid v := by
      intro c hc
      obtain rfl : '\\' = c := Option.some.inj (hback.symm.trans hc)
      decide
    have hcomma := hv '\\' (by rw [trimEnd_of_endsSolid hsolid]; exact hback)
    exact absurd hcomma (by decide)
  by_cases hne : v = []
  · cases h with
    | @sign q w v c hq hw hc =>
        rw [hne, ← List.append_assoc, List.getLast?_concat] at hlast
        rw [Option.some.inj hlast] at hc
        exact absurd hc (by decide)
    | gap _ _ _ hv => exact hv hne
  · obtain ⟨q', rfl⟩ := h.suffix
    rw [List.getLast?_append_of_ne_nil q' hne] at hlast
    exact hv' hlast

/-- A line that has begun ends as its beginning does. -/
theorem getLast?_of_begun? {p : Option (List Char)} {a : List Char} (h : begun? p a = some q)
    (ha : trimStart a ≠ []) : q.getLast? = a.getLast? := by
  obtain ⟨w, -, hs, -⟩ := exists_trimStart a
  have hlast : a.getLast? = (trimStart a).getLast? := by
    conv_lhs => rw [hs, List.getLast?_append_of_ne_nil w ha]
  rw [hlast]
  cases p with
  | none =>
      rw [begun?] at h
      by_cases hpass : isPassedOver (trimStart a) = true
      · rw [if_pos hpass] at h
        exact nomatch h
      · rw [if_neg hpass] at h
        rw [← Option.some.inj h]
  | some before =>
      rw [← Option.some.inj h, List.getLast?_append_of_ne_nil before ha]

/-- The text as it is put into a file, with or without a comma. -/
structure WritesItem (item s : List Char) : Prop where
  ne_nil : s ≠ []
  one_line : '\n' ∉ s
  starts : StartsSolid s
  ends : EndsSolid s
  items_eq : items s = [item]

theorem writesItem {e : String} (htext : IsItem text.toList) (hline : '\n' ∉ text.toList)
    (he : e = text ∨ e = text ++ ",") : WritesItem text.toList e.toList := by
  rcases he with rfl | rfl
  · exact ⟨htext.ne_nil, hline, htext.starts, htext.ends, htext.items_eq⟩
  · rw [String.toList_append]
    refine ⟨List.append_ne_nil_of_left_ne_nil htext.ne_nil _, ?_,
      startsSolid_append htext.ne_nil htext.starts _, endsSolid_concat (by decide) _, ?_⟩
    · rw [List.mem_append, not_or]
      exact ⟨hline, by decide⟩
    · exact htext.items_append allBlank_nil []

/-- Of the blanks before a text on a line those stay that stand behind something
    else. -/
theorem exists_trim_gap {a g b : List Char} (hg : Gap g) (hb : b ≠ []) (hstart : StartsSolid b) :
    ∃ c, AllBlank c ∧ trim (a ++ (g ++ b)) = trimStart a ++ (c ++ trimEnd b) := by
  by_cases ha : trimStart a = []
  · obtain ⟨w, hw, hs, -⟩ := exists_trimStart a
    rw [ha, List.append_nil] at hs
    refine ⟨[], allBlank_nil, ?_⟩
    rw [ha, hs, trim_blank_append hw, trim_blank_append hg.allBlank, trim,
      trimStart_of_startsSolid hstart]
    rfl
  · refine ⟨g, hg.allBlank, ?_⟩
    rw [trim, trimStart_append_of_ne_nil ha, ← List.append_assoc,
      trimEnd_append _ (trimEnd_ne_nil hb hstart), List.append_assoc]

/-- Blanks are no backslashes. -/
theorem getLast?_append_blank {w : List Char} (hq : q.getLast? ≠ some '\\') (hw : AllBlank w) :
    (q ++ w).getLast? ≠ some '\\' := by
  by_cases hne : w = []
  · rw [hne, List.append_nil]
    exact hq
  · rw [List.getLast?_append_of_ne_nil q hne]
    intro hlast
    exact absurd (hw _ (List.mem_of_getLast? hlast)) (by decide)

/-- A text before another entry is one more item. -/
theorem Place.gainsItem_before {g w w' : String} (h : Place key r a (g ++ b) u v)
    (hv : AtEntry v) (hg : Gap g.toList) (hb : b ≠ "") (hstart : StartsSolid b.toList)
    (hw : Gap w.toList) (hw' : Gap w'.toList) (htext : IsItem text.toList)
    (hline : '\n' ∉ text.toList) :
    GainsItem key text.toList (parse (r ++ (a ++ (g ++ b)) ++ u))
      (parse (r ++ (a ++ (w ++ (text ++ "," ++ w' ++ b))) ++ u)) := by
  obtain ⟨q, hbegun, hq⟩ := h.reached
  have hback := hq.getLast?_ne hv
  have hbne : b.toList ≠ [] := mt String.toList_eq_nil_iff.mp hb
  have hs : (text ++ "," ++ w' ++ b).toList = text.toList ++ ',' :: w'.toList ++ b.toList := by
    simp only [String.toList_append, List.append_assoc]
    rfl
  obtain ⟨c, hc, hx⟩ := exists_trim_gap (a := a.toList) hg hbne hstart
  obtain ⟨c', hc', hx'⟩ := exists_trim_gap (a := a.toList) (b := (text ++ "," ++ w' ++ b).toList)
    hw (by simp) (by
      rw [hs, List.append_assoc]
      exact startsSolid_append htext.ne_nil htext.starts _)
  rw [hs, trimEnd_append _ (trimEnd_ne_nil hbne hstart), ← List.append_assoc c'] at hx'
  have hlast : (q ++ (c' ++ (text.toList ++ ',' :: w'.toList))).getLast? ≠ some '\\' := by
    rw [← List.append_assoc, ← List.append_assoc, List.append_cons _ ',']
    exact getLast?_append_blank (by rw [List.getLast?_concat]; decide) hw'.allBlank
  have hlline : '\n' ∉ (a ++ (w ++ (text ++ "," ++ w' ++ b))).toList := by
    have hab := h.one_line
    simp only [String.toList_append, List.mem_append, not_or] at hab ⊢
    exact ⟨hab.1, hw.one_line, ⟨⟨hline, by decide⟩, hw'.one_line⟩, hab.2.2⟩
  refine h.gainsItem hbegun hq (by simp [hb])
    (by rw [String.toList_append, String.toList_append]; exact hx)
    (getLast?_append_blank hback hc) (by simp) hlline
    (by rw [String.toList_append, String.toList_append, hs]; exact hx') hlast
    fun z _ => ⟨items v, items z, ?_, ?_⟩
  · rw [hv.items_append, items_blank_append hc]
  · rw [hv.items_append, List.append_assoc, items_blank_append hc', List.append_assoc,
      List.cons_append, htext.items_append hw'.allBlank]

theorem LeadsOn.one_line {g : String} (h : LeadsOn v g) : '\n' ∉ g.toList := by
  cases h with
  | gap _ hw => exact hw.one_line
  | comma hw hw' =>
      simp only [String.toList_append, List.mem_append, not_or]
      exact ⟨⟨hw.one_line, by decide⟩, hw'.one_line⟩

/-- A list that is led on has the items it had before those that follow. -/
theorem LeadsOn.items_append {g : String} (h : LeadsOn v g) (s : List Char) :
    items (v ++ (g.toList ++ s)) = items v ++ items s := by
  cases h with
  | gap hv hw => rw [hv.items_append, items_blank_append hw.allBlank]
  | @comma w w' hw hw' =>
      have htext : v ++ ((w ++ "," ++ w').toList ++ s) =
          v ++ w.toList ++ ',' :: (w'.toList ++ s) := by
        simp only [String.toList_append, List.append_assoc]
        rfl
      rw [htext, items_append_comma, items_append_blank v hw.allBlank,
        items_blank_append hw'.allBlank]

/-- So is a text at the end of a line, if the list is led on to it. -/
theorem Place.gainsItem_behind {g e : String} (h : Place key r a b u v) (ha : a ≠ "")
    (hend : EndsSolid a.toList) (hopen : a.toList.getLast? ≠ some '\\') (hb : Gap b.toList)
    (hg : LeadsOn v g) (he : WritesItem text.toList e.toList)
    (hclosed : e.toList.getLast? ≠ some '\\') :
    GainsItem key text.toList (parse (r ++ (a ++ b) ++ u))
      (parse (r ++ (a ++ (g ++ e) ++ b) ++ u)) := by
  obtain ⟨q, hbegun, hq⟩ := h.reached
  have hane : trimStart a.toList ≠ [] :=
    trimStart_ne_nil (mt String.toList_eq_nil_iff.mp ha) hend
  have hback : q.getLast? ≠ some '\\' := by
    rw [getLast?_of_begun? hbegun hane]
    exact hopen
  have hx : trim (a ++ b).toList = trimStart a.toList ++ ([] ++ []) := by
    rw [String.toList_append, trim_append_blank _ hb.allBlank, trim_of_endsSolid hend,
      List.append_nil, List.append_nil]
  have hs : (a ++ (g ++ e)).toList = a.toList ++ (g.toList ++ e.toList) := by
    rw [String.toList_append, String.toList_append]
  have hsolid : EndsSolid (a ++ (g ++ e)).toList := by
    rw [hs, ← List.append_assoc]
    exact endsSolid_append _ he.ne_nil he.ends
  have hlx : trim (a ++ (g ++ e) ++ b).toList =
      trimStart a.toList ++ (g.toList ++ e.toList ++ []) := by
    rw [String.toList_append, trim_append_blank _ hb.allBlank, trim_of_endsSolid hsolid, hs,
      trimStart_append_of_ne_nil hane, List.append_nil]
  have hlast : (q ++ (g.toList ++ e.toList)).getLast? ≠ some '\\' := by
    rw [← List.append_assoc, List.getLast?_append_of_ne_nil _ he.ne_nil]
    exact hclosed
  have hlline : '\n' ∉ (a ++ (g ++ e) ++ b).toList := by
    have hab := h.one_line
    simp only [String.toList_append, List.mem_append, not_or] at hab ⊢
    exact ⟨⟨hab.1, hg.one_line, he.one_line⟩, hab.2⟩
  refine h.gainsItem hbegun hq (by simp [ha]) hx (by rw [List.append_nil]; exact hback)
    (by simp [ha]) hlline hlx hlast fun z hz => ⟨items v, [], ?_, ?_⟩
  -- The line is at its end, and so is the entry.
  · rw [hz rfl, List.append_nil, List.append_nil, List.append_nil]
  · rw [hz rfl, List.append_nil, hg.items_append, he.items_eq]

/-- Where no logical line is open, a text is read on its own. -/
theorem entries_append_of_closed (hr : Ended r) (hopen : openLine? r = none) (t : String) :
    entries (r ++ t) = (finished none (lines r.toList)).map entry ++ entries t := by
  rw [entries, String.toList_append, lines_append_of_ended hr, logicalLines_append, ← openLine?,
    hopen, List.map_append]
  rfl

/-- And so is a text that has a line to itself. -/
theorem gainsItem_line {s e : String} (hkey : '\n' ∉ key.toList) (hr : Ended r)
    (hopen : openLine? r = none) (hempty : (parse (r ++ u))[key]?.getD "" = "")
    (hlast : ∀ e ∈ entries u, e.1 ≠ key) (hs : WritesEntry (key, e) s.toList)
    (he : WritesItem text.toList e.toList) (hclosed : e.toList.getLast? ≠ some '\\') :
    GainsItem key text.toList (parse (r ++ u)) (parse (r ++ s ++ u)) := by
  have hwritable : Writable (key, e) := ⟨hkey, he.one_line, he.starts, he.ends, hclosed⟩
  obtain ⟨l, hl, hentry⟩ := logicalLines_writesEntry hs hwritable u.toList
  have hsu : entries (s ++ u) = (key, e) :: entries u := by
    rw [entries, String.toList_append, hl, List.map_cons, hentry]
    rfl
  have hnew : entries (r ++ s ++ u) =
      (finished none (lines r.toList)).map entry ++ (key, e) :: entries u := by
    rw [String.append_assoc, entries_append_of_closed hr hopen, hsu]
  refine ⟨fun k hk => ?_, e, [], [], ?_, ?_, ?_⟩
  · rw [getElem?_parse, getElem?_parse, hnew, latest?_insert_of_ne (Ne.symm hk),
      entries_append_of_closed hr hopen]
  · rw [getElem?_parse, hnew]
    exact latest?_insert_self hlast
  · rw [hempty]
    rfl
  · exact he.items_eq

/-- An edit that lists one text more gives the property one more item, if the text
    can be one and has no line feed, and changes no other property. -/
theorem gainsItem_of_listsToo (h : ListsToo key text t t') (hkey : '\n' ∉ key.toList)
    (htext : IsItem text.toList) (hline : '\n' ∉ text.toList) :
    GainsItem key text.toList (parse t) (parse t') := by
  cases h with
  | before hplace hv hg hb hstart hw hw' =>
      exact hplace.gainsItem_before hv hg hb hstart hw hw' htext hline
  | behind hplace ha hend hopen hb hg he hclosed =>
      exact hplace.gainsItem_behind ha hend hopen hb hg (writesItem htext hline he) hclosed
  | line hr hopen hempty hlast hs he hclosed =>
      exact gainsItem_line hkey hr hopen hempty hlast hs (writesItem htext hline he) hclosed

/-- A backslash at the end of a line is lost, unless a comma follows it. -/
example : entries "k=g:a::t\\" = [("k", "g:a::t")]
    ∧ entries "k=g:a::t\\," = [("k", "g:a::t\\,")] := by decide

end Classpath.Properties
