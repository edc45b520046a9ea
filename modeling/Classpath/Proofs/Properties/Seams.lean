import Mathlib.Algebra.Order.BigOperators.Group.List
import Mathlib.Algebra.Order.Group.Nat
import Classpath.Proofs.Properties.Cutting
import Classpath.Proofs.Properties.Reading

/-! # Seams — what a blank line separates

    Two texts with a blank line between them should be read as the one and
    then the other.  They are, unless the first one leaves a logical line
    open that ends in a backslash itself: an open line is tested again at
    every line, the blank one too, and so a backslash of the text before the
    blank line takes the text after it in.  `EndsAtBlank` says exactly for
    which texts a blank line is enough.

    One direction follows the machine over the blank lines.  For the other, a
    comment is put after the seam that is longer than all the entries before
    it: if it is taken in, it shows. -/

namespace Classpath.Properties

open Text

/-- The logical line that the end of a text leaves open, without the
    backslash that keeps it open. -/
def openLine? (s : String) : Option (List Char) :=
  carried none (lines s.toList)

/-- A blank line after the text ends its last entry: if the logical line that
    it leaves open ends in a backslash, there is only that one, it belongs to
    a key, and the text has ended its last line by itself. -/
def EndsAtBlank (s : String) : Prop :=
  ∀ q, openLine? s = some (q ++ ['\\']) →
    s.toList.getLast? = some '\n' ∧ q.getLast? ≠ some '\\' ∧
      (entry (q ++ ['\\'])).2 = ""

/-! ## Blank lines -/

/-- The lines of two texts with a blank line between them. -/
theorem lines_seam (s t : List Char) :
    lines (s ++ '\n' :: '\n' :: t) = lines (s ++ ['\n']) ++ [] :: lines t := by
  rw [lines_append]
  rfl

/-- A text that has ended its last line gets two blank lines. -/
theorem lines_concat_of_ended {s : List Char} (hs : s.getLast? = some '\n') :
    lines (s ++ ['\n']) = lines s ++ [[]] := by
  refine lines_append_of_ended (fun c hc => ?_) ['\n']
  exact (Option.some.inj (hs.symm.trans hc)).symm

/-- A blank line is passed over if no logical line is open. -/
@[simp] theorem logicalLines_none_blank (xs : List (List Char)) :
    logicalLines none ([] :: xs) = logicalLines none xs := by
  rw [logicalLines_cons]
  rfl

/-- Otherwise the open line is tested once more. -/
theorem logicalLines_some_blank (b : List Char) (xs : List (List Char)) :
    logicalLines (some b) ([] :: xs) = (close b).1 ++ logicalLines (close b).2 xs := by
  rw [logicalLines_cons, trim_nil, next_some, List.append_nil]

/-- The entries of two texts with a blank line between them: what the first
    one finishes, and what is read after it. -/
theorem entries_seam (s t : String) :
    entries (s ++ "\n\n" ++ t) =
      (finished none (lines s.toList)).map entry ++
        (logicalLines (openLine? s)
          (if s.toList.getLast? = some '\n' then [] :: [] :: lines t.toList
            else [] :: lines t.toList)).map entry := by
  have htext : (s ++ "\n\n" ++ t).toList = s.toList ++ '\n' :: '\n' :: t.toList := by
    rw [String.toList_append, String.toList_append, List.append_assoc]
    rfl
  rw [entries, htext, lines_seam, openLine?, ← List.map_append]
  by_cases hended : s.toList.getLast? = some '\n'
  · rw [if_pos hended, lines_concat_of_ended hended, List.append_assoc,
      logicalLines_append]
    rfl
  · rw [if_neg hended]
    by_cases hnil : s.toList = []
    · rw [hnil]
      rfl
    · rw [lines_concat hnil hended, logicalLines_append]

theorem entries_eq (s : String) :
    entries s = (finished none (lines s.toList)).map entry ++
      ((openLine? s).toList).map entry := by
  rw [entries, logicalLines_eq, List.map_append]
  rfl

/-- The last entry of a text that leaves a logical line open. -/
theorem entries_of_openLine? {s : String} {b : List Char} (h : openLine? s = some b) :
    entries s = (finished none (lines s.toList)).map entry ++ [entry b] := by
  rw [entries_eq, h]
  rfl

/-! ## Maps -/

/-- If the entries follow each other, the later map overrides the earlier. -/
theorem parse_eq_union {u s t : String} (h : entries u = entries s ++ entries t) :
    parse u = parse s ∪ parse t := by
  refine Std.ExtTreeMap.ext_getElem? fun k => ?_
  rw [Std.ExtTreeMap.getElem?_union, getElem?_parse, getElem?_parse, getElem?_parse, h,
    latest?_append]

/-- A text that ends in an entry gives its key the value of that entry. -/
theorem getElem?_parse_concat {u : String} {es : List (String × String)}
    {e : String × String} (h : entries u = es ++ [e]) : (parse u)[e.1]? = some e.2 := by
  rw [getElem?_parse, h, latest?_append, latest?_singleton, if_pos rfl]
  rfl

/-- An override by nothing changes nothing. -/
theorem getElem?_union_of_entries_nil {s t : String} (h : entries t = []) (k : String) :
    (parse s ∪ parse t)[k]? = latest? (entries s) k := by
  rw [Std.ExtTreeMap.getElem?_union, getElem?_parse, getElem?_parse, h]
  exact Option.none_or

/-! ## When a blank line is enough -/

theorem entries_seam_of_endsAtBlank {s : String} (h : EndsAtBlank s) (t : String) :
    entries (s ++ "\n\n" ++ t) = entries s ++ entries t := by
  have hblank : ∀ xs, logicalLines none
      (if s.toList.getLast? = some '\n' then [] :: [] :: xs else [] :: xs) =
        logicalLines none xs := by
    intro xs
    by_cases hended : s.toList.getLast? = some '\n'
    · rw [if_pos hended, logicalLines_none_blank, logicalLines_none_blank]
    · rw [if_neg hended, logicalLines_none_blank]
  rw [entries_seam]
  cases hopen : openLine? s with
  | none =>
      rw [hblank, entries_eq s, hopen]
      rw [Option.toList_none, List.map_nil, List.append_nil]
      rfl
  | some b =>
      rw [entries_of_openLine? hopen, List.append_assoc]
      refine congrArg _ ?_
      rcases close_cases b with ⟨q, rfl⟩ | hb
      · obtain ⟨hended, hq, hvalue⟩ := h q hopen
        have hentry : entry (q ++ ['\\']) = entry q := by
          rcases entry_backslash hq with ⟨heq, -⟩ | ⟨-, hlt⟩
          · exact heq
          · rw [hvalue] at hlt
            exact absurd hlt (Nat.not_lt_zero _)
        rw [if_pos hended, logicalLines_some_blank, close_backslash, List.nil_append,
          logicalLines_some_blank, close_of_ne hq, hentry]
        rfl
      · by_cases hended : s.toList.getLast? = some '\n'
        · rw [if_pos hended, logicalLines_some_blank, close_of_ne hb]
          show (b :: logicalLines none ([] :: lines t.toList)).map entry = _
          rw [logicalLines_none_blank]
          rfl
        · rw [if_neg hended, logicalLines_some_blank, close_of_ne hb]
          rfl

/-! ## When it is not -/

/-- A comment of some length. -/
def longComment (n : Nat) : List Char := '#' :: List.replicate n 'x'

theorem longComment_ne_nil (n : Nat) : longComment n ≠ [] :=
  List.cons_ne_nil _ _

theorem length_longComment (n : Nat) : (longComment n).length = n + 1 := by
  show (List.replicate n 'x').length + 1 = n + 1
  rw [List.length_replicate]

theorem plain_longComment (n : Nat) : Plain (longComment n) := by
  intro c hc
  have hc' : c = '#' ∨ c = 'x' := by
    rcases List.mem_cons.mp hc with h | h
    · exact .inl h
    · exact .inr (List.eq_of_mem_replicate h)
  rcases hc' with rfl | rfl
  · decide
  · decide

theorem lines_longComment (n : Nat) : lines (longComment n ++ ['\n']) = [longComment n] := by
  refine lines_cons (fun hmem => ?_) []
  exact (plain_longComment n '\n' hmem).2 (.inr (.inr (by decide)))

theorem trim_longComment (n : Nat) : trim (longComment n) = longComment n := by
  have hplain := plain_longComment n
  rw [trim, trimStart_of_startsSolid hplain.startsPlain.startsSolid,
    trimEnd_of_endsSolid hplain.endsSolid]

theorem entries_longComment (n : Nat) :
    entries (String.ofList (longComment n ++ ['\n'])) = [] := by
  rw [entries, String.toList_ofList, lines_longComment, logicalLines_cons, trim_longComment,
    next_passedOver rfl]
  rfl

/-- A logical line that is open takes the comment in. -/
theorem logicalLines_longComment (r : List Char) (n : Nat) :
    logicalLines (some r) [longComment n] = [r ++ longComment n] := by
  have hlast : (r ++ longComment n).getLast? ≠ some '\\' := by
    rw [List.getLast?_append_of_ne_nil r (longComment_ne_nil n)]
    intro h
    exact (plain_longComment n '\\' (List.mem_of_getLast? h)).1 rfl
  rw [logicalLines_cons, trim_longComment, next_some, close_of_ne hlast]
  rfl

/-- A text that takes in what stands after a blank line differs from the one
    without it. -/
theorem exists_parse_seam_ne {s : String} {r : List Char} {es : List (String × String)}
    (h : ∀ t : String, entries (s ++ "\n\n" ++ t) =
      es ++ (logicalLines (some r) (lines t.toList)).map entry) :
    ∃ t, parse (s ++ "\n\n" ++ t) ≠ parse s ∪ parse t := by
  let n := ((entries s).map size).sum
  refine ⟨String.ofList (longComment n ++ ['\n']), fun heq => ?_⟩
  have hseam := h (String.ofList (longComment n ++ ['\n']))
  rw [String.toList_ofList, lines_longComment, logicalLines_longComment] at hseam
  have hvalue := getElem?_parse_concat hseam
  rw [heq, getElem?_union_of_entries_nil (entries_longComment n)] at hvalue
  -- The entry with the comment in it would be one of `s`, and all of those are shorter.
  have hmem : entry (r ++ longComment n) ∈ entries s := mem_of_latest? hvalue
  have hsize : size (entry (r ++ longComment n)) ≤ n :=
    List.le_sum_of_mem (List.mem_map_of_mem hmem)
  have hlength := length_le_size_entry r (longComment_ne_nil n) (plain_longComment n)
  rw [length_longComment] at hlength
  exact Nat.lt_irrefl n (Nat.lt_of_lt_of_le hlength hsize)

/-- Two texts with a blank line between them are read as the one overridden
    by the other, whatever the second one is, exactly if the first one does
    not end in an entry that goes on behind its own backslash. -/
theorem parse_seam_iff (s : String) :
    (∀ t : String, parse (s ++ "\n\n" ++ t) = parse s ∪ parse t) ↔ EndsAtBlank s := by
  constructor
  · intro h q hopen
    have htaken : ∀ r, ¬ ∀ t : String, entries (s ++ "\n\n" ++ t) =
        (finished none (lines s.toList)).map entry ++
          (logicalLines (some r) (lines t.toList)).map entry := by
      intro r hr
      obtain ⟨t, ht⟩ := exists_parse_seam_ne hr
      exact ht (h t)
    have hended : s.toList.getLast? = some '\n' := by
      by_contra hended
      refine htaken q fun t => ?_
      rw [entries_seam, if_neg hended, hopen, logicalLines_some_blank, close_backslash]
      rfl
    have hq : q.getLast? ≠ some '\\' := by
      intro hq
      rcases close_cases q with ⟨q', rfl⟩ | hne
      · refine htaken q' fun t => ?_
        rw [entries_seam, if_pos hended, hopen, logicalLines_some_blank, close_backslash,
          List.nil_append, logicalLines_some_blank, close_backslash]
        rfl
      · exact hne hq
    refine ⟨hended, hq, ?_⟩
    rcases entry_backslash hq with ⟨heq, hvalue⟩ | ⟨hkey, hlt⟩
    · rw [heq]
      exact hvalue
    · -- The value of the last entry has lost its backslash.
      have hseam : entries (s ++ "\n\n" ++ "") =
          (finished none (lines s.toList)).map entry ++ [entry q] := by
        rw [entries_seam, if_pos hended, hopen, logicalLines_some_blank, close_backslash,
          List.nil_append, logicalLines_some_blank, close_of_ne hq]
        rfl
      have hafter := getElem?_parse_concat hseam
      have hbefore := getElem?_parse_concat (entries_of_openLine? hopen)
      rw [h, getElem?_union_of_entries_nil (t := "") rfl, ← getElem?_parse, ← hkey,
        hbefore] at hafter
      rw [Option.some.inj hafter] at hlt
      exact absurd hlt (Nat.lt_irrefl _)
  · intro h t
    exact parse_eq_union (entries_seam_of_endsAtBlank h t)

/-- After two backslashes the blank line is not enough. -/
theorem parse_seam_two_backslashes :
    parse ("a=b\\\\" ++ "\n\n" ++ "c=d") ≠ parse "a=b\\\\" ∪ parse "c=d" := by
  intro h
  have hleft : (parse ("a=b\\\\" ++ "\n\n" ++ "c=d"))["c"]? = none := by
    rw [getElem?_parse]
    decide
  have hright : (parse "a=b\\\\" ∪ parse "c=d")["c"]? = some "d" := by
    rw [Std.ExtTreeMap.getElem?_union, getElem?_parse, getElem?_parse]
    decide
  rw [h, hright] at hleft
  exact nomatch hleft

end Classpath.Properties
