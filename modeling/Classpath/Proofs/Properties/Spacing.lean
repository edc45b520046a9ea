import Classpath.Proofs.Properties.Layout
import Classpath.Proofs.Properties.Seams

/-! # Spacing — the blanks around a line and the end of a text

    A line is read without the blanks at its ends, whether it begins an entry,
    continues one or holds none.  So a text may be respaced line by line: more
    blanks or fewer around any line, another line end, a line feed after the
    last line or none.  `Respaced s t` says that such edits lead from `s` to
    `t`, and `parse_respaced` that they change nothing.

    One edit is not about the blanks around a line: a blank line more at the
    end of the text.  An open line is tested again there, so a line that ends in
    two backslashes loses both of them.  `Closes` says exactly for which texts
    this does not show. -/

namespace Classpath.Properties

open Text

/-! ## Edits -/

/-- No line is begun at the end of the text. -/
def Ended (s : String) : Prop :=
  ∀ c ∈ s.toList.getLast?, c = '\n'

instance (s : String) : Decidable (Ended s) :=
  Option.decidableForallMem s.toList.getLast?

/-- What stands before the text, if it is a line, is at its end. -/
def EndsLine (t : String) : Prop :=
  ∀ c ∈ t.toList.head?, c = '\n'

instance (t : String) : Decidable (EndsLine t) :=
  Option.decidableForallMem t.toList.head?

/-- A line of blanks, with a line feed or, at the end of a text, without one. -/
inductive BlankLine : String → Prop
  | ended {w : String} (hw : Gap w.toList) : BlankLine (w ++ "\n")
  | last {w : String} (hw : Gap w.toList) (hne : w ≠ "") : BlankLine w

/-- An entry is the latest one for its key among those that the lines of a text
    finish. -/
def IsFinished (s : String) (e : String × String) : Prop :=
  latest? ((finished none (lines s.toList)).map entry) e.1 = some e.2

/-- A blank line at the end of the text does not show: if the logical line that
    is open there ends in a backslash, its entry is the same without it, or both
    entries were there before. -/
def Closes (s : String) : Prop :=
  ∀ q, openLine? s = some (q ++ ['\\']) →
    entry (q ++ ['\\']) = entry q ∨ (IsFinished s (entry (q ++ ['\\'])) ∧ IsFinished s (entry q))

/-- `Respaced s t`: the texts differ in the blanks at the ends of their lines, in
    their line ends and in the line feed after the last line. -/
inductive Respaced : String → String → Prop
  | refl (s : String) : Respaced s s
  | symm {s t : String} (h : Respaced s t) : Respaced t s
  | trans {s t u : String} (h : Respaced s t) (h' : Respaced t u) : Respaced s u
  | blanks {s l t w w' : String} (hs : Ended s) (hl : '\n' ∉ l.toList) (ht : EndsLine t)
      (hline : l ≠ "" ∨ t ≠ "") (hw : Gap w.toList) (hw' : Gap w'.toList) :
      Respaced (s ++ l ++ t) (s ++ (w ++ l ++ w') ++ t)
  | lineEnd (s t : String) : Respaced (s ++ "\n" ++ t) (s ++ "\r\n" ++ t)
  | lineFeed {s : String} (hs : ¬ Ended s) : Respaced s (s ++ "\n")
  | blankLine {s w : String} (hs : Ended s) (hw : BlankLine w) (h : Closes s) :
      Respaced s (s ++ w)

/-! ## Lines -/

/-- A line between others, wherever it is. -/
theorem lines_between {s l t : String} (hs : Ended s) (hl : '\n' ∉ l.toList) (ht : EndsLine t)
    (hline : l ≠ "" ∨ t ≠ "") :
    lines (s ++ l ++ t).toList = lines s.toList ++ l.toList :: lines t.toList.tail := by
  rw [String.toList_append, String.toList_append, List.append_assoc, lines_append_of_ended hs]
  refine congrArg _ ?_
  cases htext : t.toList with
  | nil =>
      -- Nothing follows, so this is the last line, and that is none if it is empty.
      have hne : l.toList ≠ [] := by
        intro hnil
        rcases hline with h | h
        · exact h (String.toList_eq_nil_iff.mp hnil)
        · exact h (String.toList_eq_nil_iff.mp htext)
      rw [List.append_nil, lines_of_not_mem hne hl]
      rfl
  | cons c t' =>
      have hc : c = '\n' := by
        refine ht c ?_
        rw [htext]
        rfl
      rw [hc, lines_cons hl]
      rfl

/-- A text is what ends in its last line feed, and the line begun after it. -/
theorem exists_ended (s : String) : ∃ r l, s = r ++ l ∧ Ended r ∧ '\n' ∉ l.toList := by
  obtain ⟨r, l, hs, hr, hl⟩ := exists_last_line s.toList
  refine ⟨String.ofList r, String.ofList l, ?_, ?_, ?_⟩
  · rw [← String.ofList_append, ← hs, String.ofList_toList]
  · rw [Ended, String.toList_ofList]
    exact hr
  · rw [String.toList_ofList]
    exact hl

/-! ## Reading trimmed lines -/

/-- Lines are read as they are when trimmed. -/
theorem logicalLines_map_trim (p : Option (List Char)) (xs : List (List Char)) :
    logicalLines p (xs.map trim) = logicalLines p xs := by
  induction xs generalizing p with
  | nil => rfl
  | cons x xs ih =>
      rw [List.map_cons, logicalLines_cons, logicalLines_cons, trim_trim, ih]

theorem parse_eq_of_map_trim {s t : String}
    (h : (lines s.toList).map trim = (lines t.toList).map trim) : parse s = parse t := by
  have hentries : entries s = entries t := by
    rw [entries, entries, ← logicalLines_map_trim, h, logicalLines_map_trim]
  rw [parse, parse, hentries]

/-- Blanks at the ends of a line are trimmed away. -/
theorem parse_blanks {s l t w w' : String} (hs : Ended s) (hl : '\n' ∉ l.toList)
    (ht : EndsLine t) (hline : l ≠ "" ∨ t ≠ "") (hw : Gap w.toList) (hw' : Gap w'.toList) :
    parse (s ++ l ++ t) = parse (s ++ (w ++ l ++ w') ++ t) := by
  have htext : (w ++ l ++ w').toList = w.toList ++ l.toList ++ w'.toList := by
    rw [String.toList_append, String.toList_append]
  have hspaced : '\n' ∉ (w ++ l ++ w').toList := by
    rw [htext, List.mem_append, List.mem_append, not_or, not_or]
    exact ⟨⟨hw.one_line, hl⟩, hw'.one_line⟩
  have hline' : w ++ l ++ w' ≠ "" ∨ t ≠ "" := by
    refine hline.imp_left fun hne hempty => hne ?_
    have hnil := String.toList_eq_nil_iff.mpr hempty
    rw [htext, List.append_eq_nil_iff, List.append_eq_nil_iff] at hnil
    exact String.toList_eq_nil_iff.mp hnil.1.2
  have htrim : trim (w ++ l ++ w').toList = trim l.toList := by
    rw [htext, trim_append_blank _ hw'.allBlank, trim_blank_append hw.allBlank]
  refine parse_eq_of_map_trim ?_
  rw [lines_between hs hl ht hline, lines_between hs hspaced ht hline', List.map_append,
    List.map_append, List.map_cons, List.map_cons, htrim]

/-- So is the carriage return of a line end. -/
theorem parse_lineEnd (s t : String) : parse (s ++ "\n" ++ t) = parse (s ++ "\r\n" ++ t) := by
  obtain ⟨r, l, rfl, hr, hl⟩ := exists_ended s
  have hends : EndsLine ("\n" ++ t) := by
    intro c hc
    rw [String.toList_append] at hc
    exact (Option.some.inj hc).symm
  have hreturn : Gap "\r".toList := by decide
  have hline : "\n" ++ t ≠ "" := by simp
  have hcrlf : ("\r\n" : String) = "\r" ++ "\n" := rfl
  calc parse (r ++ l ++ "\n" ++ t)
      = parse (r ++ l ++ ("\n" ++ t)) := by rw [String.append_assoc]
    _ = parse (r ++ ("" ++ l ++ "\r") ++ ("\n" ++ t)) :=
        parse_blanks hr hl hends (.inr hline) Gap.nil hreturn
    _ = parse (r ++ l ++ "\r\n" ++ t) := by
        rw [String.empty_append, hcrlf]
        simp only [String.append_assoc]

/-- A line feed after the last line adds no line. -/
theorem parse_lineFeed {s : String} (hs : ¬ Ended s) : parse s = parse (s ++ "\n") := by
  have hne : s.toList ≠ [] := by
    intro hnil
    refine hs fun c hc => ?_
    rw [hnil] at hc
    exact nomatch hc
  have hlast : s.toList.getLast? ≠ some '\n' := by
    intro hlast
    refine hs fun c hc => ?_
    exact (Option.some.inj (hlast.symm.trans hc)).symm
  have hlines : lines (s ++ "\n").toList = lines s.toList := by
    rw [String.toList_append]
    exact lines_concat hne hlast
  refine parse_eq_of_map_trim ?_
  rw [hlines]

/-! ## A blank line at the end -/

theorem lines_blankLine {w : String} (hw : BlankLine w) :
    ∃ g, lines w.toList = [g] ∧ trim g = [] := by
  have htrim : ∀ {v : String}, Gap v.toList → trim v.toList = [] := by
    intro v hv
    rw [trim_eq_nil_iff, ← allBlank_iff]
    exact hv.allBlank
  cases hw with
  | @ended v hv =>
      refine ⟨v.toList, ?_, htrim hv⟩
      rw [String.toList_append]
      exact lines_cons hv.one_line []
  | last hv hne =>
      refine ⟨w.toList, lines_of_not_mem ?_ hv.one_line, htrim hv⟩
      exact fun hnil => hne (String.toList_eq_nil_iff.mp hnil)

/-- What is open at the end is tested once more. -/
theorem entries_append_blankLine {s w : String} (hs : Ended s) (hw : BlankLine w) :
    entries (s ++ w) = (finished none (lines s.toList)).map entry
      ++ (logicalLines (openLine? s) [[]]).map entry := by
  obtain ⟨g, hg, htrim⟩ := lines_blankLine hw
  rw [entries, String.toList_append, lines_append_of_ended hs, hg, logicalLines_append,
    List.map_append, ← logicalLines_map_trim _ [g], List.map_singleton, htrim]
  rfl

/-- An entry that is the latest for its key already may be repeated. -/
theorem latest?_concat_of_eq {es : List (String × String)} {e : String × String}
    (h : latest? es e.1 = some e.2) (k : String) : latest? (es ++ [e]) k = latest? es k := by
  rw [latest?_append, latest?_singleton]
  by_cases hk : e.1 = k
  · rw [if_pos hk, ← hk, h]
    rfl
  · rw [if_neg hk]
    exact Option.none_or

/-- Two entries that may come last make no difference if they are the same or
    may both be repeated, and otherwise they do. -/
theorem latest?_concat_eq_iff {es : List (String × String)} {e f : String × String} :
    (∀ k, latest? (es ++ [e]) k = latest? (es ++ [f]) k) ↔
      f = e ∨ (latest? es f.1 = some f.2 ∧ latest? es e.1 = some e.2) := by
  constructor
  · intro h
    -- Each of the two is the latest for its own key on one side, so it has to be
    -- found on the other side, too.
    have he := h e.1
    have hf := h f.1
    rw [latest?_append, latest?_singleton, latest?_append, latest?_singleton] at he hf
    rw [if_pos rfl] at he hf
    by_cases hkey : f.1 = e.1
    · rw [if_pos hkey] at he
      exact .inl (Prod.ext hkey (Option.some.inj he).symm)
    · rw [if_neg hkey] at he
      rw [if_neg (Ne.symm hkey)] at hf
      exact .inr ⟨hf, he.symm⟩
  · rintro (rfl | ⟨hf, he⟩) k
    · rfl
    · rw [latest?_concat_of_eq he, latest?_concat_of_eq hf]

theorem parse_eq_iff {s t : String} :
    parse s = parse t ↔ ∀ k, latest? (entries s) k = latest? (entries t) k := by
  simp only [← getElem?_parse]
  constructor
  · intro h k
    rw [h]
  · exact Std.ExtTreeMap.ext_getElem?

/-- A blank line more at the end changes nothing exactly if it does not show. -/
theorem parse_append_blankLine_iff {s w : String} (hs : Ended s) (hw : BlankLine w) :
    parse (s ++ w) = parse s ↔ Closes s := by
  rw [parse_eq_iff, entries_append_blankLine hs hw]
  cases hopen : openLine? s with
  | none =>
      have hentries : entries s = (finished none (lines s.toList)).map entry := by
        rw [entries_eq, hopen]
        exact List.append_nil _
      rw [hentries, logicalLines_none_blank, logicalLines_nil, Option.toList_none,
        List.map_nil, List.append_nil]
      refine iff_of_true (fun k => rfl) fun q hq => ?_
      rw [hopen] at hq
      exact nomatch hq
  | some b =>
      rw [entries_of_openLine? hopen, logicalLines_some_blank]
      -- The blank line closes the open one, which costs it a backslash at its end.
      rcases close_cases b with ⟨q, rfl⟩ | hb
      · rw [close_backslash]
        show (∀ k, latest? (_ ++ [entry q]) k = latest? (_ ++ [entry (q ++ ['\\'])]) k) ↔ _
        rw [latest?_concat_eq_iff]
        constructor
        · intro h q' hq'
          obtain rfl : q' = q := by
            rw [hopen] at hq'
            exact (List.append_inj_left' (Option.some.inj hq') rfl).symm
          exact h
        · intro h
          exact h q hopen
      · rw [close_of_ne hb]
        refine iff_of_true (fun k => rfl) fun q hq => ?_
        rw [hopen] at hq
        rw [Option.some.inj hq] at hb
        exact absurd List.getLast?_concat hb

/-! ## Any number of edits -/

/-- Edits that only respace the lines of a text change nothing. -/
theorem parse_eq_of_respaced {s t : String} (h : Respaced s t) : parse s = parse t := by
  induction h with
  | refl s => rfl
  | symm _ ih => exact ih.symm
  | trans _ _ ih ih' => exact ih.trans ih'
  | blanks hs hl ht hline hw hw' => exact parse_blanks hs hl ht hline hw hw'
  | lineEnd s t => exact parse_lineEnd s t
  | lineFeed hs => exact parse_lineFeed hs
  | blankLine hs hw h => exact ((parse_append_blankLine_iff hs hw).mpr h).symm

/-- A text is read as any other that it may be respaced to.  A blank line more at
    its end is part of this exactly if it does not show. -/
theorem parse_respaced (s : String) :
    (∀ t, Respaced s t → parse s = parse t) ∧
      (Ended s → ∀ w, BlankLine w → (parse (s ++ w) = parse s ↔ Closes s)) :=
  ⟨fun _ => parse_eq_of_respaced, fun hs _ => parse_append_blankLine_iff hs⟩

/-- A continued line between blanks, with a carriage return behind its backslash,
    and a line feed after the last line; and a blank line more at the end. -/
theorem parse_respaced_continued :
    parse "a=b\\\nc" = parse " a=b\\\t\r\nc\n" ∧ parse ("a=b\n" ++ "\n") = parse "a=b\n" := by
  constructor
  · refine (parse_respaced _).1 _ ?_
    have hblanks : Respaced ("" ++ "a=b\\" ++ "\nc") ("" ++ (" " ++ "a=b\\" ++ "\t") ++ "\nc") :=
      .blanks (by decide) (by decide) (by decide) (by decide) (by decide) (by decide)
    have hreturn : Respaced (" a=b\\\t" ++ "\n" ++ "c") (" a=b\\\t" ++ "\r\n" ++ "c") :=
      .lineEnd " a=b\\\t" "c"
    have hfeed : Respaced " a=b\\\t\r\nc" (" a=b\\\t\r\nc" ++ "\n") :=
      .lineFeed (by decide)
    exact hblanks.trans (hreturn.trans hfeed)
  · have hclosed : openLine? "a=b\n" = none := by decide
    have hblank : BlankLine "\n" := .ended (w := "") Gap.nil
    refine ((parse_respaced "a=b\n").2 (by decide) "\n" hblank).mpr fun q hq => ?_
    rw [hclosed] at hq
    exact nomatch hq

/-- After two backslashes the last line feed makes a difference. -/
theorem parse_final_line_feed_two_backslashes :
    parse ("a=b\\\\\n" ++ "\n") ≠ parse "a=b\\\\\n" := by
  intro h
  have hleft : (parse ("a=b\\\\\n" ++ "\n"))["a"]? = some "b" := by
    rw [getElem?_parse]
    decide
  have hright : (parse "a=b\\\\\n")["a"]? = some "b\\" := by
    rw [getElem?_parse]
    decide
  rw [h, hright] at hleft
  exact absurd (Option.some.inj hleft) (by decide)

end Classpath.Properties
