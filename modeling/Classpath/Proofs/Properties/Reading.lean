import Mathlib.Data.List.Basic
import Mathlib.Data.List.Induction
import Classpath.Properties
import Classpath.Proofs.Text.Trimming

/-! # Reading — one line at a time

    Joining lines is a run of a small machine.  Its state is the logical line
    that is still open, without the backslash that keeps it open, and a line
    moves it (`next`) and may finish a logical line.  A run over several
    lines is what it has `finished` together with the line it has `carried`
    on (`logicalLines_append`).  The entries that come out of it are looked
    up by their last occurrence (`getElem?_parse`). -/

namespace Classpath.Properties

open Text

/-! ## The machine -/

/-- What becomes of a logical line at the end of a physical one: it is
    finished, or it ends in a backslash and stays open. -/
def close (text : List Char) : List (List Char) × Option (List Char) :=
  if text.getLast? = some '\\' then ([], some text.dropLast) else ([text], none)

/-- The logical line that a trimmed physical line finishes, if any, and the
    one that is open after it. -/
def next : Option (List Char) → List Char → List (List Char) × Option (List Char)
  | none, text => if isPassedOver text then ([], none) else close text
  | some before, text => close (before ++ text)

/-- The logical lines that are finished within several physical lines. -/
def finished : Option (List Char) → List (List Char) → List (List Char)
  | _, [] => []
  | p, line :: rest =>
      (next p (trim line)).1 ++ finished (next p (trim line)).2 rest

/-- The logical line that is open after several physical lines. -/
def carried : Option (List Char) → List (List Char) → Option (List Char)
  | p, [] => p
  | p, line :: rest => carried (next p (trim line)).2 rest

@[simp] theorem close_backslash (q : List Char) :
    close (q ++ ['\\']) = ([], some q) := by
  rw [close, if_pos List.getLast?_concat, List.dropLast_concat]

theorem close_of_ne {text : List Char} (h : text.getLast? ≠ some '\\') :
    close text = ([text], none) :=
  if_neg h

/-- What is closed ends in a backslash or not. -/
theorem close_cases (text : List Char) :
    (∃ q, text = q ++ ['\\']) ∨ text.getLast? ≠ some '\\' := by
  by_cases h : text.getLast? = some '\\'
  · exact .inl ⟨text.dropLast, (List.dropLast_append_getLast? '\\' h).symm⟩
  · exact .inr h

theorem next_passedOver {text : List Char} (h : isPassedOver text = true) :
    next none text = ([], none) :=
  if_pos h

theorem next_first {text : List Char} (h : isPassedOver text = false) :
    next none text = close text := by
  rw [next, h]
  rfl

@[simp] theorem next_some (before text : List Char) :
    next (some before) text = close (before ++ text) := rfl

/-! ## Runs -/

theorem logicalLines_nil (p : Option (List Char)) : logicalLines p [] = p.toList := by
  cases p with
  | none => rw [logicalLines, Option.toList_none]
  | some text => rw [logicalLines, Option.toList_some]

/-- One line of a run. -/
theorem logicalLines_cons (p : Option (List Char)) (line : List Char)
    (rest : List (List Char)) :
    logicalLines p (line :: rest) =
      (next p (trim line)).1 ++ logicalLines (next p (trim line)).2 rest := by
  cases p with
  | none =>
      rw [logicalLines, next]
      by_cases hpass : isPassedOver (trim line) = true
      · rw [if_pos hpass, if_pos hpass]
        rfl
      · rw [if_neg hpass, if_neg hpass, close]
        by_cases hopen : (trim line).getLast? = some '\\'
        · rw [if_pos hopen, if_pos hopen]
          rfl
        · rw [if_neg hopen, if_neg hopen]
          rfl
  | some before =>
      rw [logicalLines, next, close]
      by_cases hopen : (before ++ trim line).getLast? = some '\\'
      · rw [if_pos hopen, if_pos hopen]
        rfl
      · rw [if_neg hopen, if_neg hopen]
        rfl

/-- A run is interrupted anywhere and taken up again with the open line. -/
theorem logicalLines_append (p : Option (List Char)) (xs ys : List (List Char)) :
    logicalLines p (xs ++ ys) = finished p xs ++ logicalLines (carried p xs) ys := by
  induction xs generalizing p with
  | nil => rfl
  | cons x xs ih =>
      rw [List.cons_append, logicalLines_cons, ih, finished, carried, List.append_assoc]

/-- The end of the text finishes the line that is open. -/
theorem logicalLines_eq (p : Option (List Char)) (xs : List (List Char)) :
    logicalLines p xs = finished p xs ++ (carried p xs).toList := by
  have h := logicalLines_append p xs []
  rw [List.append_nil, logicalLines_nil] at h
  exact h

/-- The value of the last of several entries for a key. -/
def latest? (es : List (String × String)) (k : String) : Option String :=
  (es.reverse.find? fun e => e.1 = k).map Prod.snd

/-- The last entry for a key is among the later ones or else among the
    earlier ones. -/
theorem latest?_append (es fs : List (String × String)) (k : String) :
    latest? (es ++ fs) k = (latest? fs k).or (latest? es k) := by
  rw [latest?, List.reverse_append, List.find?_append, Option.map_or]
  rfl

theorem latest?_singleton (e : String × String) (k : String) :
    latest? [e] k = if e.1 = k then some e.2 else none := by
  rw [latest?, List.reverse_singleton, List.find?_singleton]
  by_cases h : e.1 = k
  · simp [h]
  · simp [h]

theorem latest?_eq_none {es : List (String × String)} {k : String} (h : ∀ e ∈ es, e.1 ≠ k) :
    latest? es k = none := by
  rw [latest?, Option.map_eq_none_iff, List.find?_eq_none]
  intro e he
  rw [decide_eq_true_eq]
  exact h e (List.mem_reverse.mp he)

/-- An entry with no later one for its key is the last. -/
theorem latest?_insert_self {es fs : List (String × String)} {e : String × String}
    (h : ∀ f ∈ fs, f.1 ≠ e.1) : latest? (es ++ e :: fs) e.1 = some e.2 := by
  rw [List.append_cons, latest?_append, latest?_eq_none h, Option.none_or, latest?_append,
    latest?_singleton, if_pos rfl]
  rfl

/-- It makes no difference to other keys. -/
theorem latest?_insert_of_ne {es fs : List (String × String)} {e : String × String} {k : String}
    (h : e.1 ≠ k) : latest? (es ++ e :: fs) k = latest? (es ++ fs) k := by
  rw [List.append_cons, latest?_append, latest?_append es [e], latest?_singleton, if_neg h,
    Option.none_or, ← latest?_append]

theorem mem_of_latest? {es : List (String × String)} {k v : String}
    (h : latest? es k = some v) : (k, v) ∈ es := by
  obtain ⟨e, he, rfl⟩ := Option.map_eq_some_iff.mp h
  have hk := List.find?_some he
  rw [decide_eq_true_eq] at hk
  rw [← hk]
  exact List.mem_reverse.mp (List.mem_of_find?_eq_some he)

/-- Where all entries for a key agree, it does not matter which is the last. -/
theorem latest?_eq_of_unique {es : List (String × String)} {k v : String}
    (hmem : (k, v) ∈ es) (hunique : ∀ v', (k, v') ∈ es → v' = v) :
    latest? es k = some v := by
  cases hlatest : latest? es k with
  | none =>
      rw [latest?, Option.map_eq_none_iff, List.find?_eq_none] at hlatest
      exact absurd (decide_eq_true rfl) (hlatest (k, v) (List.mem_reverse.mpr hmem))
  | some v' => rw [hunique v' (mem_of_latest? hlatest)]

/-- A properties text gives to each key the value of its last entry. -/
theorem getElem?_parse (text k : String) :
    (parse text)[k]? = latest? (entries text) k := by
  rw [parse]
  induction entries text using List.reverseRecOn with
  | nil => exact Std.ExtTreeMap.getElem?_empty
  | append_singleton es e ih =>
      rw [List.foldl_append, List.foldl_cons, List.foldl_nil,
        Std.ExtTreeMap.getElem?_insert, ih, latest?_append, latest?_singleton]
      by_cases h : e.1 = k
      · rw [if_pos h, if_pos (Std.LawfulEqCmp.compare_eq_iff_eq.mpr h)]
        rfl
      · rw [if_neg h, if_neg (fun hc => h (Std.LawfulEqCmp.compare_eq_iff_eq.mp hc))]
        rfl

end Classpath.Properties
