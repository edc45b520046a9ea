import Mathlib.Data.List.Basic
import Classpath.Proofs.Document.Plain
import Classpath.Proofs.Text.Apart
import Classpath.Proofs.Toml.Quoting

/-! # Writing TOML — plain values and lines are known by their text

    A value on the right of a key ends where its text does, unless a quote
    follows (`toldApart_writeValue`), whether arrays are written on one line or
    with a line for each item.  The first character tells what kind of value it
    is, and a second one whether an array is short, long or empty.

    The lines of a table, each a key and a value, end where the text does or
    where an empty line follows, because a key starts with neither
    (`toldApart_lines`). -/

namespace Classpath.Toml

open Document Text

variable {pretty : Bool}

/-! ## Keys -/

/-- No key begins with this character. -/
def StartsNoKey (c : Char) : Prop := ∀ t, scanPart (c :: t) = none

theorem startsNoKey_of_not_bare {c : Char} (hc : isBare c = false) (hquote : c ≠ '"')
    (hliteral : c ≠ '\x27') : StartsNoKey c := by
  intro t
  rw [scanPart, List.takeWhile_cons_of_neg (by simp [hc])]
  · rfl
  · exact fun _ h => hquote (List.cons.inj h).1
  · exact fun _ h => hliteral (List.cons.inj h).1

/-- So a text that begins with it does not begin with a key. -/
theorem quoteKey_append_ne {c : Char} (hc : StartsNoKey c) (s : List Char) {r : List Char}
    (hr : EndsKey r) (t : List Char) : quoteKey s ++ r ≠ c :: t := by
  intro heq
  have hread := scanPart_quoteKey hr s
  rw [heq, hc t] at hread
  exact nomatch hread

theorem toldApart_quoteKey (name name' : String) :
    ToldApart (fun name : String => quoteKey name.toList) EndsKey name name' := by
  refine toldApart_of_read scanPart (fun name r hr => ?_) _ _
  rw [scanPart_quoteKey hr, String.ofList_toList]

theorem toldApart_quote (s t : String) :
    ToldApart (fun s : String => quote s.toList) NoQuote s t := by
  refine toldApart_of_read (fun s => (scanText s).map fun e => (String.ofList e.1, e.2))
    (fun s r hr => ?_) _ _
  rw [scanText_quote hr, Option.map_some, String.ofList_toList]

/-! ## Values -/

/-- A member: its key and its value. -/
def writeMember (pretty : Bool) (e : String × Value) : String :=
  String.ofList (quoteKey e.1.toList) ++ " = " ++ writeValue pretty e.2

theorem writeValues_eq (items : List Value) :
    writeValues pretty items = items.map (writeValue pretty) := by
  induction items with
  | nil => rfl
  | cons v items ih => rw [writeValues, ih, List.map_cons]

theorem writePairs_eq (members : List (String × Value)) :
    writePairs pretty members = members.map (writeMember pretty) := by
  induction members with
  | nil => rfl
  | cons e members ih => rw [writePairs, ih, List.map_cons, writeMember]

theorem bracketed_of_long {items : List String} (h : pretty = true ∧ 2 ≤ items.length) :
    (bracketed pretty items).toList = '[' :: '\n' ::
      (items.flatMap (fun item => [' ', ' ', ' ', ' '] ++ (item.toList ++ [',', '\n']))
        ++ [']']) := by
  have hjoin : (String.join (items.map fun item => "    " ++ item ++ ",\n")).toList =
      items.flatMap fun item => [' ', ' ', ' ', ' '] ++ (item.toList ++ [',', '\n']) := by
    rw [String.toList_join, List.flatMap_map]
    simp
  rw [bracketed, if_pos h]
  simp [hjoin]

theorem bracketed_of_short {items : List String} (h : ¬ (pretty = true ∧ 2 ≤ items.length)) :
    (bracketed pretty items).toList =
      '[' :: ([',', ' '].intercalate (items.map String.toList) ++ [']']) := by
  rw [bracketed, if_neg h]
  simp [String.toList_intercalate]

theorem braced_nil : (braced []).toList = ['\x7b', '\x7d'] := by
  simp [braced]

theorem braced_cons (member : String) (members : List String) :
    (braced (member :: members)).toList = '\x7b' :: ' ' ::
      ([',', ' '].intercalate ((member :: members).map String.toList) ++ [' ', '\x7d']) := by
  simp [braced, String.toList_intercalate]

theorem noQuote_cons {c : Char} (hbasic : c ≠ '"') (hliteral : c ≠ '\x27') (r : List Char) :
    NoQuote (c :: r) := by
  constructor
  · simpa using hbasic
  · simpa using hliteral

section

variable {α : Type} {item : α → String} {as bs : List α}

/-- Items on a line each are told apart if each of them is. -/
theorem toldApart_itemLines
    (h : ∀ a ∈ as, ∀ b ∈ bs, ToldApart (fun a => (item a).toList) NoQuote a b) :
    ToldApart (fun as => as.flatMap fun a => [' ', ' ', ' ', ' '] ++ ((item a).toList ++ [',', '\n']))
      (fun r => r.head? = some ']') as bs := by
  refine toldApart_flatMap (fun r => r.head? = some ' ') (fun _ => True) (fun a r => rfl)
    (fun r hr => ⟨by simp [hr], trivial⟩) (fun _ _ => trivial) fun a ha b hb => ?_
  exact ((h a ha b hb).concat _ fun r _ => noQuote_cons (by decide) (by decide) _).append _

/-- So are items on one line, if none of them starts with the closing bracket. -/
theorem toldApart_itemsUntil
    (hstart : ∀ a ∈ as ++ bs, ∃ c s, (item a).toList = c :: s ∧ c ≠ ']')
    (h : ∀ a ∈ as, ∀ b ∈ bs, ToldApart (fun a => (item a).toList) NoQuote a b) :
    ToldApart (fun as => [',', ' '].intercalate (as.map fun a => (item a).toList))
      (fun r => r.head? = some ']') as bs := by
  intro r s hr hs heq
  obtain ⟨r, rfl⟩ := List.head?_eq_some_iff.mp hr
  obtain ⟨s, rfl⟩ := List.head?_eq_some_iff.mp hs
  -- A first item is not taken for the end.
  have hne : ∀ a ∈ as ++ bs, ∀ (rest : List (List Char)) (u v : List Char),
      [',', ' '].intercalate ((item a).toList :: rest) ++ u ≠ ']' :: v := by
    intro a ha rest u v heq
    obtain ⟨c, t, hc, hne⟩ := hstart a ha
    rw [intercalate_cons, hc] at heq
    exact hne (List.cons.inj heq).1
  have hend : ∀ r, NoQuote (']' :: r) ∧ (']' :: r).head? ≠ some ',' :=
    fun r => ⟨noQuote_cons (by decide) (by decide) r, by simp⟩
  cases as with
  | nil =>
      cases bs with
      | nil => exact ⟨rfl, heq⟩
      | cons b bs => exact absurd heq.symm (hne b (by simp) _ _ _)
  | cons a as =>
      cases bs with
      | nil => exact absurd heq (hne a (by simp) _ _ _)
      | cons b bs =>
          exact toldApart_intercalate [' '] (fun r => noQuote_cons (by decide) (by decide) r) h
            (hend r) (hend s) heq

/-- A short array does not go on as a long one does. -/
theorem itemsUntil_ne (hstart : ∀ a ∈ as, ∃ c s, (item a).toList = c :: s ∧ c ≠ '\n')
    (r s : List Char) :
    [',', ' '].intercalate (as.map fun a => (item a).toList) ++ ']' :: r ≠ '\n' :: s := by
  intro heq
  cases as with
  | nil => exact absurd (List.cons.inj heq).1 (by decide)
  | cons a as =>
      obtain ⟨c, t, hc, hne⟩ := hstart a List.mem_cons_self
      rw [List.map_cons, intercalate_cons, hc] at heq
      exact hne (List.cons.inj heq).1

/-- Items between brackets are told apart if each of them is. -/
theorem toldApart_bracketed
    (hstart : ∀ a ∈ as ++ bs, ∃ c s, (item a).toList = c :: s ∧ c ≠ ']' ∧ c ≠ '\n')
    (h : ∀ a ∈ as, ∀ b ∈ bs, ToldApart (fun a => (item a).toList) NoQuote a b) :
    ToldApart (fun as => (bracketed pretty (as.map item)).toList) (fun _ => True) as bs := by
  have hbracket : ∀ a ∈ as ++ bs, ∃ c s, (item a).toList = c :: s ∧ c ≠ ']' := fun a ha =>
    (hstart a ha).imp fun c => Exists.imp fun s hs => ⟨hs.1, hs.2.1⟩
  have hbreak : ∀ a ∈ as ++ bs, ∃ c s, (item a).toList = c :: s ∧ c ≠ '\n' := fun a ha =>
    (hstart a ha).imp fun c => Exists.imp fun s hs => ⟨hs.1, hs.2.2⟩
  intro r s _ _ heq
  by_cases has : pretty = true ∧ 2 ≤ (as.map item).length
  · by_cases hbs : pretty = true ∧ 2 ≤ (bs.map item).length
    · simp only [bracketed_of_long has, bracketed_of_long hbs, List.flatMap_map, List.cons_append,
        List.cons.injEq, true_and, List.append_assoc] at heq
      obtain ⟨rfl, hrest⟩ := toldApart_itemLines h rfl rfl heq
      exact ⟨rfl, (List.cons.inj hrest).2⟩
    · simp only [bracketed_of_long has, bracketed_of_short hbs, List.cons_append,
        List.cons.injEq, true_and, List.append_assoc, List.map_map] at heq
      exact absurd heq.symm (itemsUntil_ne (fun b hb => hbreak b (List.mem_append_right _ hb)) _ _)
  · by_cases hbs : pretty = true ∧ 2 ≤ (bs.map item).length
    · simp only [bracketed_of_short has, bracketed_of_long hbs, List.cons_append,
        List.cons.injEq, true_and, List.append_assoc, List.map_map] at heq
      exact absurd heq (itemsUntil_ne (fun a ha => hbreak a (List.mem_append_left _ ha)) _ _)
    · simp only [bracketed_of_short has, bracketed_of_short hbs, List.cons_append,
        List.cons.injEq, true_and, List.append_assoc, List.map_map] at heq
      obtain ⟨rfl, hrest⟩ := toldApart_itemsUntil hbracket h rfl rfl heq
      exact ⟨rfl, (List.cons.inj hrest).2⟩

end

theorem toList_writeMember (e : String × Value) :
    (writeMember pretty e).toList =
      quoteKey e.1.toList ++ ([' ', '=', ' '] ++ (writeValue pretty e.2).toList) := by
  simp [writeMember]

theorem endsKey_cons {c : Char} (hc : isBare c = false) (r : List Char) : EndsKey (c :: r) := by
  simpa [EndsKey] using hc

/-- Members are told apart if their values are. -/
theorem toldApart_writeMember {e e' : String × Value}
    (h : ToldApart (fun v => (writeValue pretty v).toList) NoQuote e.2 e'.2) :
    ToldApart (fun e => (writeMember pretty e).toList) NoQuote e e' := by
  have hpair := (toldApart_quoteKey e.1 e'.1).pair (h.append [' ', '=', ' '])
    fun _ _ _ => endsKey_cons (by decide) _
  simpa only [toList_writeMember] using hpair

/-- Members between braces are told apart if each of them is. -/
theorem toldApart_braced {ms ms' : List (String × Value)}
    (h : ∀ e ∈ ms, ∀ e' ∈ ms', ToldApart (fun v => (writeValue pretty v).toList) NoQuote e.2 e'.2) :
    ToldApart (fun ms => (braced (ms.map (writeMember pretty))).toList) (fun _ => True)
      ms ms' := by
  intro r s _ _ heq
  cases ms with
  | nil =>
      cases ms' with
      | nil =>
          simp only [List.map_nil, braced_nil] at heq
          simpa using heq
      | cons e' ms' =>
          simp only [List.map_nil, braced_nil, List.map_cons, braced_cons, List.cons_append] at heq
          simp at heq
  | cons e ms =>
      cases ms' with
      | nil =>
          simp only [List.map_nil, braced_nil, List.map_cons, braced_cons, List.cons_append] at heq
          simp at heq
      | cons e' ms' =>
          simp only [List.map_cons, braced_cons, List.cons_append, List.append_assoc,
            List.cons.injEq, true_and, List.map_map] at heq
          have hend : ∀ r, NoQuote (' ' :: r) ∧ (' ' :: r).head? ≠ some ',' :=
            fun r => ⟨noQuote_cons (by decide) (by decide) r, by simp⟩
          obtain ⟨heqs, hrest⟩ := toldApart_intercalate [' ']
            (fun r => noQuote_cons (by decide) (by decide) r)
            (fun e he e' he' => toldApart_writeMember (h e he e' he')) (hend _) (hend _) heq
          simp only [List.nil_append, List.cons.injEq, true_and] at hrest
          exact ⟨heqs, hrest⟩

/-- The characters that the text of a plain value may begin with.  No character is
    among those of two kinds of values. -/
def openings : Value → List Char
  | .bool b => [if b then 't' else 'f']
  | .string _ => ['"', '\x27']
  | .array _ _ => ['[']
  | _ => ['\x7b']

theorem exists_quote (s : List Char) : ∃ c t, quote s = c :: t ∧ c ∈ ['"', '\x27'] := by
  rw [quote]
  split
  · exact ⟨_, _, rfl, by decide⟩
  split
  · exact ⟨_, _, rfl, by decide⟩
  split
  · exact ⟨_, _, rfl, by decide⟩
  split
  · exact ⟨_, _, rfl, by decide⟩
  split
  · exact ⟨_, _, rfl, by decide⟩
  · exact ⟨_, _, rfl, by decide⟩

theorem exists_writeValue {v : Value} (hv : v.Plain) :
    ∃ c s, (writeValue pretty v).toList = c :: s ∧ c ∈ openings v := by
  cases hv with
  | bool b =>
      rw [writeValue]
      cases b with
      | true => exact ⟨'t', ['r', 'u', 'e'], by decide, by decide⟩
      | false => exact ⟨'f', ['a', 'l', 's', 'e'], by decide, by decide⟩
  | string s =>
      obtain ⟨c, t, hquote, hc⟩ := exists_quote s.toList
      rw [writeValue, String.toList_ofList]
      exact ⟨c, t, hquote, hc⟩
  | @list items h =>
      rw [writeValue]
      by_cases hlong : pretty = true ∧ 2 ≤ (writeValues pretty items).length
      · exact ⟨_, _, bracketed_of_long hlong, List.mem_singleton_self _⟩
      · exact ⟨_, _, bracketed_of_short hlong, List.mem_singleton_self _⟩
  | @map members h =>
      rw [writeValue, writePairs_eq]
      cases members with
      | nil => exact ⟨_, _, braced_nil, List.mem_singleton_self _⟩
      | cons e members => exact ⟨_, _, braced_cons _ _, List.mem_singleton_self _⟩

/-- No value begins like the end of an array or like a long array goes on. -/
theorem ne_of_mem_openings {v : Value} (hv : v.Plain) {c : Char} (hc : c ∈ openings v) :
    c ≠ ']' ∧ c ≠ '\n' := by
  cases hv with
  | bool b =>
      obtain rfl := List.mem_singleton.mp hc
      cases b <;> decide
  | string s =>
      rw [openings, List.mem_pair] at hc
      rcases hc with rfl | rfl <;> decide
  | list h =>
      obtain rfl := List.mem_singleton.mp hc
      decide
  | map h =>
      obtain rfl := List.mem_singleton.mp hc
      decide

/-- Values that are written alike begin alike. -/
theorem exists_mem_openings {v w : Value} (hv : v.Plain) (hw : w.Plain) {r s : List Char}
    (heq : (writeValue pretty v).toList ++ r = (writeValue pretty w).toList ++ s) :
    ∃ c ∈ openings v, c ∈ openings w := by
  obtain ⟨c, t, hvc, hc⟩ := @exists_writeValue pretty v hv
  obtain ⟨d, u, hwd, hd⟩ := @exists_writeValue pretty w hw
  rw [hvc, hwd] at heq
  obtain rfl : c = d := (List.cons.inj heq).1
  exact ⟨c, hc, hd⟩

/-- Plain values are told apart, unless a quote follows. -/
theorem toldApart_writeValue {v w : Value} (hv : v.Plain) (hw : w.Plain) :
    ToldApart (fun v => (writeValue pretty v).toList) NoQuote v w := by
  induction hv generalizing w with
  | bool b =>
      intro r s _ _ heq
      obtain ⟨c, hc, hc'⟩ := exists_mem_openings (.bool b) hw heq
      cases hw with
      | bool b' =>
          have hb : b = b' := by
            cases b <;> cases b' <;> simp_all [openings]
          subst hb
          exact ⟨rfl, List.append_cancel_left heq⟩
      | _ => cases b <;> simp_all [openings]
  | string t =>
      intro r s hr hs heq
      obtain ⟨c, hc, hc'⟩ := exists_mem_openings (.string t) hw heq
      cases hw with
      | string u =>
          simp only [writeValue, String.toList_ofList] at heq
          obtain ⟨rfl, hrs⟩ := toldApart_quote t u hr hs heq
          exact ⟨rfl, hrs⟩
      | bool b => cases b <;> simp_all [openings]
      | _ => simp_all [openings]
  | @list items h ih =>
      intro r s _ _ heq
      obtain ⟨c, hc, hc'⟩ := exists_mem_openings (.list h) hw heq
      cases hw with
      | @list items' h' =>
          have hitems : ToldApart (fun items => (bracketed pretty
              (items.map (writeValue pretty))).toList) (fun _ => True) items items' := by
            refine toldApart_bracketed (fun a ha => ?_) fun a ha b hb => ih a ha (h' b hb)
            have hplain : a.Plain := (List.mem_append.mp ha).elim (h a) (h' a)
            obtain ⟨c, t, ht, hc⟩ := @exists_writeValue pretty a hplain
            exact ⟨c, t, ht, ne_of_mem_openings hplain hc⟩
          simp only [writeValue, writeValues_eq] at heq
          obtain ⟨rfl, hrs⟩ := hitems trivial trivial heq
          exact ⟨rfl, hrs⟩
      | bool b => cases b <;> simp_all [openings]
      | _ => simp_all [openings]
  | @map members h ih =>
      intro r s _ _ heq
      obtain ⟨c, hc, hc'⟩ := exists_mem_openings (.map h) hw heq
      cases hw with
      | @map members' h' =>
          simp only [writeValue, writePairs_eq] at heq
          obtain ⟨rfl, hrs⟩ := toldApart_braced (fun e he e' he' => ih e he (h' e' he'))
            trivial trivial heq
          exact ⟨rfl, hrs⟩
      | bool b => cases b <;> simp_all [openings]
      | _ => simp_all [openings]

/-! ## Lines -/

/-- The members that stand on the line of their key. -/
def direct (members : List (String × Value)) : List (String × Value) :=
  members.filter fun e => isDirect e.2

/-- A member on a line of its own. -/
def line (pretty : Bool) (e : String × Value) : List Char :=
  (writeMember pretty e).toList ++ ['\n']

theorem toList_writeLines (members : List (String × Value)) :
    (writeLines pretty members).toList =
      (direct members).flatMap (line pretty) := by
  induction members with
  | nil => rfl
  | cons e members ih =>
      rw [writeLines, direct]
      by_cases he : isDirect e.2 = true
      · rw [if_pos he, List.filter_cons_of_pos (by simpa using he), List.flatMap_cons, ← direct,
          ← ih]
        simp [line, writeMember]
      · rw [if_neg he, List.filter_cons_of_neg (by simpa using he), ← direct, ← ih]

/-- Lines are told apart, if nothing or an empty line follows. -/
theorem toldApart_lines {ms ms' : List (String × Value)} (hms : ∀ e ∈ ms, e.2.Plain)
    (hms' : ∀ e ∈ ms', e.2.Plain) :
    ToldApart (fun ms => ms.flatMap (line pretty)) (fun r => ∀ c ∈ r.head?, c = '\n') ms ms' := by
  refine toldApart_flatMap (fun r => (scanPart r).isSome) (fun _ => True) (fun e r => ?_)
    (fun r hr => ⟨?_, trivial⟩) (fun _ _ => trivial) fun e he e' he' => ?_
  · have hkey := scanPart_quoteKey (r := [' ', '=', ' '] ++ (writeValue pretty e.2).toList
      ++ ['\n'] ++ r) (endsKey_cons (by decide) _) e.1.toList
    rw [line, toList_writeMember]
    simp only [List.append_assoc] at hkey ⊢
    rw [hkey]
    rfl
  · cases r with
    | nil => simp [scanPart]
    | cons c r =>
        obtain rfl : c = '\n' := hr c rfl
        rw [startsNoKey_of_not_bare (by decide) (by decide) (by decide)]
        simp
  · exact (toldApart_writeMember (toldApart_writeValue (hms e he) (hms' e' he'))).concat _
      fun r _ => noQuote_cons (by decide) (by decide) r

end Classpath.Toml
