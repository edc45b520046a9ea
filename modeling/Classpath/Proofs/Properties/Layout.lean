import Classpath.Proofs.Properties.Cutting
import Classpath.Proofs.Properties.Reading

/-! # Layout — the ways to write a properties text

    An entry may be written in many ways: with blanks around it, with one of
    three separators, with its value folded over several lines, and with
    blank lines and comments before and after it.  `Writes es t` says that
    `t` is one of the ways to write the entries `es`.  Reading undoes all of
    them (`entries_of_writes`), and so a text that writes entries gives each
    key the value of its last entry.

    The proof follows one entry through its lines.  `Opens p y b` says what a
    line has contributed before the value goes on in it; a fold only leads
    from one such place to the next (`logicalLines_folded`). -/

namespace Classpath.Properties

open Text

/-! ## Layouts -/

/-- Blank characters within a line. -/
def Gap (s : List Char) : Prop :=
  ∀ c ∈ s, isBlank c = true ∧ c ≠ '\n'

instance (s : List Char) : Decidable (Gap s) :=
  List.decidableBAll (fun c => isBlank c = true ∧ c ≠ '\n') s

/-- The ends of a line. -/
inductive LineEnd : List Char → Prop
  | lf : LineEnd ['\n']
  | crlf : LineEnd ['\r', '\n']

/-- The characters of a key that are written behind a backslash. -/
def NeedsBackslash (c : Char) : Prop :=
  c = '\\' ∨ c = '#' ∨ c = '!' ∨ Stops c

instance (c : Char) : Decidable (NeedsBackslash c) :=
  inferInstanceAs (Decidable (c = '\\' ∨ c = '#' ∨ c = '!' ∨ Stops c))

/-- A key as it is written. -/
def escaped (k : List Char) : List Char :=
  k.flatMap fun c => if NeedsBackslash c then ['\\', c] else [c]

/-- `Separator k v s`: `s` may stand between the key `k` and the value `v`. -/
inductive Separator (k v : List Char) : List Char → Prop
  | sign {w w' : List Char} {c : Char} (hw : Gap w) (hc : c = '=' ∨ c = ':')
      (hw' : Gap w') : Separator k v (w ++ c :: w')
  | gap {w : List Char} (hk : k ≠ []) (hv : v ≠ [])
      (hsign : ∀ c ∈ v.head?, c ≠ '=' ∧ c ≠ ':') (hne : w ≠ []) (hw : Gap w) :
      Separator k v w

/-- `Folded v s`: the value `v` is written as `s`, on one line or folded. -/
inductive Folded : List Char → List Char → Prop
  | flat (v : List Char) : Folded v v
  | fold (u : List Char) {v s e w : List Char} (hne : v ≠ []) (hstart : StartsSolid v)
      (he : LineEnd e) (hw : Gap w) (h : Folded v s) :
      Folded (u ++ v) (u ++ '\\' :: (e ++ w ++ s))

/-- The ways to write an entry with its line end. -/
inductive WritesEntry (entry : String × String) : List Char → Prop
  | intro {lead sep s trail e : List Char} (hlead : Gap lead)
      (hsep : Separator entry.1.toList entry.2.toList sep)
      (hs : Folded entry.2.toList s) (htrail : Gap trail) (he : LineEnd e) :
      WritesEntry entry (lead ++ escaped entry.1.toList ++ sep ++ s ++ trail ++ e)

/-- The lines that hold no entry. -/
inductive Filler : List Char → Prop
  | blank {w e : List Char} (hw : Gap w) (he : LineEnd e) : Filler (w ++ e)
  | comment {w s e : List Char} {c : Char} (hw : Gap w) (hc : c = '#' ∨ c = '!')
      (hs : '\n' ∉ s) (he : LineEnd e) : Filler (w ++ c :: s ++ e)

/-- `Writes es t`: the text `t` writes the entries `es` in their order. -/
inductive Writes : List (String × String) → List Char → Prop
  | nil : Writes [] []
  | filler {es : List (String × String)} {f t : List Char} (hf : Filler f)
      (h : Writes es t) : Writes es (f ++ t)
  | entry {entry : String × String} {es : List (String × String)} {s t : List Char}
      (hs : WritesEntry entry s) (h : Writes es t) : Writes (entry :: es) (s ++ t)

/-- The entries that can be written: a key and a value of one line each, and
    a value that neither trimming nor folding would change. -/
structure Writable (entry : String × String) : Prop where
  key_line : '\n' ∉ entry.1.toList
  value_line : '\n' ∉ entry.2.toList
  value_start : StartsSolid entry.2.toList
  value_end : EndsSolid entry.2.toList
  value_closed : entry.2.toList.getLast? ≠ some '\\'

theorem Gap.allBlank {s : List Char} (h : Gap s) : AllBlank s :=
  fun c hc => (h c hc).1

theorem Gap.one_line {s : List Char} (h : Gap s) : '\n' ∉ s :=
  fun hs => (h '\n' hs).2 rfl

theorem Gap.nil : Gap [] := by
  intro c hc
  exact nomatch hc

theorem Gap.append {s t : List Char} (hs : Gap s) (ht : Gap t) : Gap (s ++ t) := by
  intro c hc
  rcases List.mem_append.mp hc with h | h
  · exact hs c h
  · exact ht c h

/-- A line end is a line feed after what trimming takes away. -/
theorem LineEnd.eq_gap {e : List Char} (h : LineEnd e) :
    ∃ g, Gap g ∧ e = g ++ ['\n'] := by
  cases h with
  | lf => exact ⟨[], Gap.nil, rfl⟩
  | crlf =>
      refine ⟨['\r'], ?_, rfl⟩
      intro c hc
      obtain rfl := List.mem_singleton.mp hc
      decide

/-! ## One line -/

/-- A line is read by what stands between its blanks. -/
theorem logicalLines_line (p : Option (List Char)) {w x w' e : List Char}
    (hw : Gap w) (hx : '\n' ∉ x) (hw' : Gap w') (he : LineEnd e)
    (hstart : StartsSolid x) (hend : EndsSolid x) (t : List Char) :
    logicalLines p (lines (w ++ x ++ w' ++ e ++ t)) =
      (next p x).1 ++ logicalLines (next p x).2 (lines t) := by
  obtain ⟨g, hg, rfl⟩ := he.eq_gap
  have hline : '\n' ∉ w ++ x ++ (w' ++ g) := by
    simp only [List.mem_append, not_or]
    exact ⟨⟨hw.one_line, hx⟩, hw'.one_line, hg.one_line⟩
  have htext : w ++ x ++ w' ++ (g ++ ['\n']) ++ t =
      w ++ x ++ (w' ++ g) ++ '\n' :: t := by
    simp only [List.append_assoc, List.singleton_append]
  rw [htext, lines_cons hline, logicalLines_cons,
    trim_between hw.allBlank (hw'.append hg).allBlank hstart hend]

/-- A line without an entry is passed over. -/
theorem logicalLines_filler {f : List Char} (hf : Filler f) (t : List Char) :
    logicalLines none (lines (f ++ t)) = logicalLines none (lines t) := by
  cases hf with
  | @blank w e hw he =>
      have hline := logicalLines_line none hw List.not_mem_nil Gap.nil he
        startsSolid_nil endsSolid_nil t
      rw [List.append_nil, List.append_nil] at hline
      rw [hline, next_passedOver rfl]
      rfl
  | @comment w s e c hw hc hs he =>
      obtain ⟨g, hg, rfl⟩ := he.eq_gap
      have hsolid : isBlank c = false := by
        rcases hc with rfl | rfl
        · decide
        · decide
      have hline : '\n' ∉ w ++ c :: s ++ g := by
        simp only [List.mem_append, List.mem_cons, not_or]
        refine ⟨⟨hw.one_line, ?_, hs⟩, hg.one_line⟩
        rintro rfl
        exact absurd hsolid (by decide)
      have htext : w ++ c :: s ++ (g ++ ['\n']) ++ t = w ++ c :: s ++ g ++ '\n' :: t := by
        simp only [List.append_assoc, List.singleton_append]
      have htrim : isPassedOver (trim (w ++ c :: s ++ g)) = true := by
        rw [trim, List.append_assoc, List.cons_append, trimStart_blank_append hw.allBlank,
          trimStart_of_startsSolid (startsSolid_cons hsolid _), trimEnd_cons hsolid]
        rcases hc with rfl | rfl
        · rfl
        · rfl
      rw [htext, lines_cons hline, logicalLines_cons, next_passedOver htrim]
      rfl

/-! ## The lines of a value -/

/-- `Opens p y b`: when `y` has been read at the beginning of a line with `p`
    open, the logical line has come to `b`. -/
inductive Opens : Option (List Char) → List Char → List Char → Prop
  | first {y : List Char} (hne : y ≠ []) (hstart : StartsSolid y)
      (hpass : isPassedOver y = false) : Opens none y y
  | more (b : List Char) : Opens (some b) [] b

namespace Opens

theorem next_eq {p : Option (List Char)} {y b : List Char} (h : Opens p y b)
    (x : List Char) : next p (y ++ x) = close (b ++ x) := by
  cases h with
  | first hne hstart hpass =>
      cases y with
      | nil => exact absurd rfl hne
      | cons c y => exact next_first hpass
  | more b => rfl

theorem startsSolid {p : Option (List Char)} {y b x : List Char} (h : Opens p y b)
    (hx : StartsSolid x) : StartsSolid (y ++ x) := by
  cases h with
  | first hne hstart hpass =>
      cases y with
      | nil => exact absurd rfl hne
      | cons c y => exact hstart
  | more b => exact hx

theorem ne_nil {y b : List Char} (h : Opens none y b) : y ≠ [] := by
  cases h with
  | first hne => exact hne

theorem startsSolid_self {y b : List Char} (h : Opens none y b) : StartsSolid y := by
  cases h with
  | first _ hstart => exact hstart

end Opens

/-- However a value is folded, it is read as a whole. -/
theorem logicalLines_folded {v s : List Char} (hs : Folded v s)
    {p : Option (List Char)} {w y b trail e : List Char} (hw : Gap w)
    (hopen : Opens p y b) (hy : '\n' ∉ y) (htrail : Gap trail) (he : LineEnd e)
    (hne : v ≠ []) (hv : '\n' ∉ v) (hstart : StartsSolid v) (hend : EndsSolid v)
    (hclosed : v.getLast? ≠ some '\\') (t : List Char) :
    logicalLines p (lines (w ++ (y ++ s) ++ trail ++ e ++ t)) =
      (b ++ v) :: logicalLines none (lines t) := by
  induction hs generalizing p w y b with
  | flat v =>
      have hx : '\n' ∉ y ++ v := by
        rw [List.mem_append, not_or]
        exact ⟨hy, hv⟩
      have hclose : (b ++ v).getLast? ≠ some '\\' := by
        rw [List.getLast?_append_of_ne_nil b hne]
        exact hclosed
      rw [logicalLines_line p hw hx htrail he (hopen.startsSolid hstart)
        (endsSolid_append y hne hend), hopen.next_eq, close_of_ne hclose]
      rfl
  | @fold u v s e' w' hne' hstart' he' hw' _ ih =>
      rw [List.mem_append, not_or] at hv
      have hu : StartsSolid (u ++ ['\\']) := by
        cases u with
        | nil => exact startsSolid_cons (by decide) []
        | cons c u => exact hstart
      have hback : EndsSolid (y ++ (u ++ ['\\'])) := by
        rw [← List.append_assoc]
        exact endsSolid_concat (by decide) _
      have hx : '\n' ∉ y ++ (u ++ ['\\']) := by
        simp only [List.mem_append, List.mem_singleton, not_or]
        exact ⟨hy, hv.1, by decide⟩
      have htext : w ++ (y ++ (u ++ '\\' :: (e' ++ w' ++ s))) ++ trail ++ e ++ t =
          w ++ (y ++ (u ++ ['\\'])) ++ [] ++ e' ++ (w' ++ ([] ++ s) ++ trail ++ e ++ t) := by
        simp only [List.append_assoc, List.nil_append, List.cons_append]
      have hlast : (u ++ v).getLast? = v.getLast? := List.getLast?_append_of_ne_nil u hne'
      -- The fold ends the line; the value goes on in the next one.
      rw [htext, logicalLines_line p hw hx Gap.nil he' (hopen.startsSolid hu) hback,
        hopen.next_eq, ← List.append_assoc b, close_backslash]
      have hrest := ih hw' (.more (b ++ u)) (List.not_mem_nil) hne' hv.2 hstart'
        (fun c hc => hend c (hlast ▸ hc)) (hlast ▸ hclosed)
      rw [hrest, List.append_assoc]
      rfl

/-! ## The key and the separator -/

theorem escaped_cons (c : Char) (k : List Char) :
    escaped (c :: k) =
      (if NeedsBackslash c then ['\\', c] else [c]) ++ escaped k :=
  List.flatMap_cons

theorem inKey_escaped (k : List Char) : InKey (escaped k) k := by
  induction k with
  | nil => exact .nil
  | cons c k ih =>
      rw [escaped_cons]
      by_cases h : NeedsBackslash c
      · rw [if_pos h]
        exact .escaped c ih
      · rw [if_neg h]
        exact .plain (fun hc => h (.inl hc)) (fun hc => h (.inr (.inr (.inr hc)))) ih

theorem escaped_one_line {k : List Char} (h : '\n' ∉ k) : '\n' ∉ escaped k := by
  intro hmem
  obtain ⟨c, hc, hn⟩ := List.mem_flatMap.mp hmem
  have hne : '\n' ≠ c := fun heq => h (heq ▸ hc)
  by_cases hb : NeedsBackslash c
  · rw [if_pos hb, List.mem_cons, List.mem_singleton] at hn
    rcases hn with hn | hn
    · exact absurd hn (by decide)
    · exact hne hn
  · rw [if_neg hb, List.mem_singleton] at hn
    exact hne hn

/-- A key is written with a beginning that nothing can mistake. -/
theorem escaped_opens {k : List Char} (hk : k ≠ []) (s : List Char) :
    Opens none (escaped k ++ s) (escaped k ++ s) := by
  cases k with
  | nil => exact absurd rfl hk
  | cons c k =>
      rw [escaped_cons]
      by_cases h : NeedsBackslash c
      · rw [if_pos h]
        exact .first (List.cons_ne_nil _ _) (startsSolid_cons (by decide) _) rfl
      · rw [if_neg h]
        refine .first (List.cons_ne_nil _ _) (startsSolid_cons ?_ _) ?_
        · exact Bool.eq_false_iff.mpr fun hb => h (.inr (.inr (.inr (.inr (.inr hb)))))
        · have h1 : c ≠ '#' := fun hc => h (.inr (.inl hc))
          have h2 : c ≠ '!' := fun hc => h (.inr (.inr (.inl hc)))
          show (c == '#' || c == '!') = false
          rw [beq_false_of_ne h1, beq_false_of_ne h2]
          rfl

/-- So does a sign, which is what is left of an entry without a key. -/
theorem sign_opens {c : Char} (hc : c = '=' ∨ c = ':') (s : List Char) :
    Opens none (c :: s) (c :: s) := by
  refine .first (List.cons_ne_nil _ _) (startsSolid_cons (isBlank_of_isSign hc) s) ?_
  rcases hc with rfl | rfl
  · rfl
  · rfl

theorem Separator.one_line {k v s : List Char} (h : Separator k v s) : '\n' ∉ s := by
  cases h with
  | sign hw hc hw' =>
      rw [List.mem_append, List.mem_cons, not_or, not_or]
      refine ⟨hw.one_line, ?_, hw'.one_line⟩
      rcases hc with rfl | rfl
      · decide
      · decide
  | gap _ _ _ _ hw => exact hw.one_line

/-- A separator is cut away. -/
theorem Separator.cut_append {k v s : List Char} (h : Separator k v s)
    (hv : StartsSolid v) : cut (s ++ v) = ([], v) := by
  cases h with
  | @sign w w' c hw hc hw' =>
      rw [List.append_assoc, List.cons_append, cut_sign hw.allBlank hc,
        trimStart_blank_append hw'.allBlank, trimStart_of_startsSolid hv]
  | gap hk hne hsign hs hw =>
      refine cut_gap hw.allBlank hs ?_
      rintro c hc (h | h | h)
      · exact (hsign c hc).1 h
      · exact (hsign c hc).2 h
      · exact Bool.eq_false_iff.mp (hv c hc) h

/-- The blanks before an entry come to an end where it opens. -/
theorem exists_opening {k v lead sep : List Char} (hlead : Gap lead)
    (hsep : Separator k v sep) :
    ∃ w s, lead ++ escaped k ++ sep = w ++ (escaped k ++ s) ∧ Gap w ∧
      Separator k v s ∧ Opens none (escaped k ++ s) (escaped k ++ s) := by
  by_cases hk : k = []
  · subst hk
    cases hsep with
    | @sign w w' c hw hc hw' =>
        refine ⟨lead ++ w, c :: w', ?_, hlead.append hw, .sign Gap.nil hc hw',
          sign_opens hc w'⟩
        show lead ++ [] ++ (w ++ c :: w') = lead ++ w ++ c :: w'
        rw [List.append_nil, List.append_assoc]
    | gap hk => exact absurd rfl hk
  · exact ⟨lead, sep, List.append_assoc _ _ _, hlead, hsep, escaped_opens hk sep⟩

/-! ## The entries -/

theorem Folded.eq_nil {v s : List Char} (h : Folded v s) (hv : v = []) : s = [] := by
  cases h with
  | flat => exact hv
  | fold u hne => exact absurd (List.append_eq_nil_iff.mp hv).2 hne

/-- A line that opens with a key and a separator holds the entry whose value
    comes after them. -/
theorem entry_eq {entry : String × String} {s : List Char}
    (hentry : Writable entry) (hs : Separator entry.1.toList entry.2.toList s) :
    Properties.entry (escaped entry.1.toList ++ s ++ entry.2.toList) = entry := by
  have hcut : cut (escaped entry.1.toList ++ s ++ entry.2.toList) =
      (entry.1.toList, entry.2.toList) := by
    rw [List.append_assoc, (inKey_escaped _).cut_append, hs.cut_append hentry.value_start]
    show (entry.1.toList ++ [], entry.2.toList) = _
    rw [List.append_nil]
  have htrim : trim entry.2.toList = entry.2.toList := by
    rw [trim, trimStart_of_startsSolid hentry.value_start,
      trimEnd_of_endsSolid hentry.value_end]
  rw [Properties.entry, hcut]
  show (String.ofList entry.1.toList, String.ofList (trim entry.2.toList)) = entry
  rw [htrim, String.ofList_toList, String.ofList_toList]

/-- An entry without a value ends in its sign, and what follows is trimmed
    away with the end of the line. -/
theorem logicalLines_valueless {entry : String × String} (hentry : Writable entry)
    (hv : entry.2.toList = []) {lead w w' trail e : List Char} {c : Char}
    (hlead : Gap lead) (hw : Gap w) (hc : c = '=' ∨ c = ':') (hw' : Gap w')
    (htrail : Gap trail) (he : LineEnd e) (t : List Char) :
    ∃ l, logicalLines none
        (lines (lead ++ escaped entry.1.toList ++ (w ++ c :: w') ++ trail ++ e ++ t)) =
          l :: logicalLines none (lines t) ∧ Properties.entry l = entry := by
  obtain ⟨g, sep, htext, hg, hsep, hopen⟩ := exists_opening hlead
    (.sign hw hc Gap.nil : Separator entry.1.toList entry.2.toList (w ++ [c]))
  have hlast : (escaped entry.1.toList ++ sep).getLast? = some c := by
    rw [← List.getLast?_append_of_ne_nil g hopen.ne_nil, ← htext, ← List.append_assoc]
    exact List.getLast?_concat
  have hend : EndsSolid (escaped entry.1.toList ++ sep) := by
    intro d hd
    obtain rfl : c = d := Option.some.inj (hlast.symm.trans hd)
    exact isBlank_of_isSign hc
  have hclosed : (escaped entry.1.toList ++ sep).getLast? ≠ some '\\' := by
    rw [hlast]
    rintro ⟨⟩
    exact absurd hc (by decide)
  have hline : '\n' ∉ escaped entry.1.toList ++ sep := by
    rw [List.mem_append, not_or]
    exact ⟨escaped_one_line hentry.key_line, hsep.one_line⟩
  have hlayout : lead ++ escaped entry.1.toList ++ (w ++ c :: w') ++ trail ++ e ++ t =
      g ++ (escaped entry.1.toList ++ sep) ++ (w' ++ trail) ++ e ++ t := by
    rw [← htext]
    simp only [List.append_assoc, List.cons_append, List.nil_append]
  have hnext := hopen.next_eq []
  rw [List.append_nil, close_of_ne hclosed] at hnext
  refine ⟨escaped entry.1.toList ++ sep, ?_, ?_⟩
  · rw [hlayout, logicalLines_line none hg hline (hw'.append htrail) he
      hopen.startsSolid_self hend, hnext]
    rfl
  · have h := entry_eq hentry hsep
    rw [hv, List.append_nil] at h
    exact h

/-- A written entry is read as one logical line, which holds that entry. -/
theorem logicalLines_writesEntry {entry : String × String} {s : List Char}
    (hs : WritesEntry entry s) (hentry : Writable entry) (t : List Char) :
    ∃ l, logicalLines none (lines (s ++ t)) = l :: logicalLines none (lines t) ∧
      Properties.entry l = entry := by
  obtain @⟨lead, sep, s, trail, e, hlead, hsep, hs, htrail, he⟩ := hs
  by_cases hv : entry.2.toList = []
  · rw [hs.eq_nil hv, List.append_nil]
    cases hsep with
    | sign hw hc hw' =>
        exact logicalLines_valueless hentry hv hlead hw hc hw' htrail he t
    | gap _ hne => exact absurd hv hne
  · obtain ⟨g, sep', htext, hg, hsep', hopen⟩ := exists_opening hlead hsep
    have hline : '\n' ∉ escaped entry.1.toList ++ sep' := by
      rw [List.mem_append, not_or]
      exact ⟨escaped_one_line hentry.key_line, hsep'.one_line⟩
    refine ⟨escaped entry.1.toList ++ sep' ++ entry.2.toList, ?_, entry_eq hentry hsep'⟩
    rw [htext, List.append_assoc g]
    exact logicalLines_folded hs hg hopen hline htrail he hv hentry.value_line
      hentry.value_start hentry.value_end hentry.value_closed t

/-- Reading undoes every way of writing entries. -/
theorem map_entry_logicalLines {es : List (String × String)} {t : List Char}
    (h : Writes es t) (hes : ∀ entry ∈ es, Writable entry) :
    (logicalLines none (lines t)).map entry = es := by
  induction h with
  | nil => rfl
  | filler hf _ ih =>
      rw [logicalLines_filler hf]
      exact ih hes
  | @entry e es s t hs _ ih =>
      obtain ⟨l, hl, he⟩ := logicalLines_writesEntry hs (hes e List.mem_cons_self) t
      rw [hl, List.map_cons, he, ih fun e' he' => hes e' (List.mem_cons_of_mem e he')]

/-- What a text that writes entries holds. -/
theorem entries_of_writes {es : List (String × String)} {text : String}
    (h : Writes es text.toList) (hes : ∀ entry ∈ es, Writable entry) :
    entries text = es :=
  map_entry_logicalLines h hes

/-- The plainest way to write entries. -/
def written (es : List (String × String)) : List Char :=
  es.flatMap fun entry =>
    escaped entry.1.toList ++ '=' :: entry.2.toList ++ ['\n']

theorem writesEntry_plain (e : String × String) :
    WritesEntry e (escaped e.1.toList ++ '=' :: e.2.toList ++ ['\n']) := by
  have h := @WritesEntry.intro e [] ['='] e.2.toList [] ['\n'] Gap.nil
    (.sign Gap.nil (.inl rfl) Gap.nil) (.flat _) Gap.nil .lf
  rw [List.nil_append, List.append_nil, List.append_assoc (escaped _)] at h
  exact h

/-- It is one of the ways, so all entries can be written. -/
theorem writes_written (es : List (String × String)) : Writes es (written es) := by
  induction es with
  | nil => exact .nil
  | cons e es ih =>
      rw [written, List.flatMap_cons]
      exact .entry (writesEntry_plain e) ih

/-- What is written plainly is read back. -/
theorem entries_written {es : List (String × String)}
    (hes : ∀ entry ∈ es, Writable entry) :
    entries (String.ofList (written es)) = es := by
  refine entries_of_writes ?_ hes
  rw [String.toList_ofList]
  exact writes_written es

/-- A text that writes entries, in whatever way, is read as the map that
    gives each key the value of its last entry. -/
theorem getElem?_parse_of_writes {es : List (String × String)} {text : String}
    (h : Writes es text.toList) (hes : ∀ entry ∈ es, Writable entry) (key : String) :
    (parse text)[key]? = latest? es key := by
  rw [getElem?_parse, entries_of_writes h hes]

/-- A comment that seems to go on, a blank in a key, a fold and an entry
    without a value. -/
theorem getElem?_parse_of_writes_folded :
    (parse "! note \\\n a\\ b = x\\\r\n\t y\n\n\\#:\n")["a b"]? = some "xy" := by
  have hspace : Gap [' '] := by
    intro c hc
    obtain rfl := List.mem_singleton.mp hc
    decide
  have htab : Gap ['\t', ' '] := by
    intro c hc
    simp only [List.mem_cons, List.not_mem_nil, or_false] at hc
    rcases hc with rfl | rfl
    · decide
    · decide
  have hnote : Filler "! note \\\n".toList :=
    .comment (w := []) (s := " note \\".toList) Gap.nil (.inr rfl) (by decide) .lf
  have hfirst : WritesEntry ("a b", "xy") " a\\ b = x\\\r\n\t y\n".toList :=
    @WritesEntry.intro ("a b", "xy") [' '] [' ', '=', ' '] _ [] _ hspace
      (.sign hspace (.inl rfl) hspace)
      (.fold ['x'] (List.cons_ne_nil 'y' []) (startsSolid_cons (by decide) []) .crlf htab
        (.flat ['y'])) Gap.nil .lf
  have hsecond : WritesEntry ("#", "") "\\#:\n".toList :=
    @WritesEntry.intro ("#", "") [] [':'] _ [] _ Gap.nil
      (.sign Gap.nil (.inr rfl) Gap.nil) (.flat []) Gap.nil .lf
  have hwrites : Writes [("a b", "xy"), ("#", "")]
      "! note \\\n a\\ b = x\\\r\n\t y\n\n\\#:\n".toList :=
    .filler hnote (.entry hfirst (.filler (.blank Gap.nil .lf) (.entry hsecond .nil)))
  have hes : ∀ entry ∈ [("a b", "xy"), ("#", "")], Writable entry := by
    intro entry hmem
    simp only [List.mem_cons, List.not_mem_nil, or_false] at hmem
    rcases hmem with rfl | rfl
    · exact ⟨by decide, by decide, startsSolid_cons (by decide) _,
        endsSolid_concat (s := ['x']) (by decide), by decide⟩
    · exact ⟨by decide, by decide, startsSolid_nil, endsSolid_nil, by decide⟩
  rw [getElem?_parse_of_writes hwrites hes]
  decide

end Classpath.Properties
