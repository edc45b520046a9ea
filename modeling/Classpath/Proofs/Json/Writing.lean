import Mathlib.Data.List.Basic
import Classpath.Json.Writing
import Classpath.Proofs.Document.Plain
import Classpath.Proofs.Text.Apart

/-! # Writing JSON — plain values are known by their text

    The text of a plain value shows where it ends, whatever comes after it
    (`toldApart_writeAt`): a quoted text ends at the first quote that has no
    backslash before it, and arrays and objects at a bracket where the next item
    or member would begin with a comma.  So no two plain values have the same
    text (`write_injective`). -/

namespace Classpath.Json

open Document Text

/-! ## Texts -/

/-- A character is written as a short escape, by its number or as it is. -/
theorem escape_cases (c : Char) :
    (∃ e, e ≠ 'u' ∧ shortEscape? e = some c ∧ escape c = ['\\', e])
      ∨ (c.toNat < 32 ∧ escape c = '\\' :: 'u' :: '0' :: '0' :: hexPair c.toNat)
      ∨ (c ≠ '"' ∧ c ≠ '\\' ∧ ¬ c < ' ' ∧ escape c = [c]) := by
  by_cases hshort : c ∈ ['"', '\\', '\x08', '\x0c', '\n', '\r', '\t']
  · left
    simp only [List.mem_cons, List.not_mem_nil, or_false] at hshort
    rcases hshort with rfl | rfl | rfl | rfl | rfl | rfl | rfl
    · exact ⟨'"', by decide, rfl, rfl⟩
    · exact ⟨'\\', by decide, rfl, rfl⟩
    · exact ⟨'b', by decide, rfl, rfl⟩
    · exact ⟨'f', by decide, rfl, rfl⟩
    · exact ⟨'n', by decide, rfl, rfl⟩
    · exact ⟨'r', by decide, rfl, rfl⟩
    · exact ⟨'t', by decide, rfl, rfl⟩
  · right
    simp only [List.mem_cons, List.not_mem_nil, or_false, not_or] at hshort
    obtain ⟨hquote, hslash, hb, hf, hn, hr, ht⟩ := hshort
    have hescape : escape c = if c < ' ' then '\\' :: 'u' :: '0' :: '0' :: hexPair c.toNat
        else [c] := by
      rw [escape] <;> assumption
    rw [hescape]
    by_cases hc : c < ' '
    · rw [if_pos hc]
      exact .inl ⟨UInt32.lt_iff_toNat_lt.mp hc, rfl⟩
    · rw [if_neg hc]
      exact .inr ⟨hquote, hslash, hc, rfl⟩

theorem hexNumber?_of_lt : ∀ n < 32, hexNumber? ('0' :: '0' :: hexPair n) = some n := by
  decide

/-- A character is scanned as one piece, and this is joined to the character. -/
theorem exists_piece (c : Char) :
    ∃ p, (∀ s, scanQuoted (escape c ++ s) = (scanQuoted s).map fun e => (p :: e.1, e.2))
      ∧ ∀ ps, joinPieces (p :: ps) = (joinPieces ps).map (c :: ·) := by
  rcases escape_cases c with ⟨e, hu, he, hc⟩ | ⟨hlt, hc⟩ | ⟨hquote, hslash, hge, hc⟩
  · refine ⟨.char c, fun s => ?_, fun ps => rfl⟩
    rw [hc]
    show scanQuoted ('\\' :: e :: s) = _
    rw [scanQuoted]
    · rw [he]
      cases scanQuoted s <;> rfl
    · exact fun a b c d rest h _ => hu h
  · refine ⟨.number c.toNat, fun s => ?_, fun ps => ?_⟩
    · rw [hc]
      show scanQuoted ('\\' :: 'u' :: '0' :: '0' :: hexDigit (c.toNat / 16)
        :: hexDigit c.toNat :: s) = _
      have hnumber := hexNumber?_of_lt _ hlt
      rw [hexPair] at hnumber
      rw [scanQuoted, hnumber]
      cases scanQuoted s <;> rfl
    · have hfirst : isFirstHalf c.toNat = false := by
        rw [isFirstHalf, Bool.and_eq_false_iff]
        exact .inl (decide_eq_false (by omega))
      have hsecond : isSecondHalf c.toNat = false := by
        rw [isSecondHalf, Bool.and_eq_false_iff]
        exact .inl (decide_eq_false (by omega))
      rw [joinPieces.eq_def]
      dsimp only
      rw [hfirst, hsecond, Char.ofNat_toNat]
      rfl
  · refine ⟨.char c, fun s => ?_, fun ps => rfl⟩
    rw [hc]
    show scanQuoted (c :: s) = _
    rw [scanQuoted, if_neg (by simp [hslash, hge])]
    · cases scanQuoted s <;> rfl
    · exact hquote
    · exact fun _ _ _ _ _ h _ => hslash h
    · exact fun _ _ h _ => hslash h

/-- A quoted text ends at its closing quote and is read as what it was. -/
theorem scanQuoted_escape (s r : List Char) :
    ∃ ps, scanQuoted (s.flatMap escape ++ '"' :: r) = some (ps, r) ∧ joinPieces ps = some s := by
  induction s with
  | nil => exact ⟨[], rfl, rfl⟩
  | cons c s ih =>
      obtain ⟨p, hscan, hjoin⟩ := exists_piece c
      obtain ⟨ps, hps, hs⟩ := ih
      refine ⟨p :: ps, ?_, ?_⟩
      · rw [List.flatMap_cons, List.append_assoc, hscan, hps]
        rfl
      · rw [hjoin, hs]
        rfl

/-- Reads the text behind its opening quote, and what follows it. -/
def readQuoted (s : List Char) : Option (String × List Char) :=
  (scanQuoted s.tail).bind fun e => (joinPieces e.1).map fun cs => (String.ofList cs, e.2)

/-- Quoted texts are told apart, whatever follows. -/
theorem toldApart_quote (s t : String) :
    ToldApart (fun s => (quote s).toList) (fun _ => True) s t := by
  refine toldApart_of_read readQuoted (fun s r _ => ?_) s t
  obtain ⟨ps, hps, hs⟩ := scanQuoted_escape s.toList r
  have hquote : ((quote s).toList ++ r).tail = s.toList.flatMap escape ++ '"' :: r := by
    simp [quote]
  rw [readQuoted, hquote, hps, Option.bind_some, hs, Option.map_some, String.ofList_toList]

/-! ## Arrays and objects -/

/-- A line break if the text is to be pretty. -/
def breakAt (pretty : Bool) (level : Nat) : List Char :=
  if pretty then (lineBreak level).toList else []

variable {pretty : Bool} {level : Nat} {first last : Char}

theorem enclose_nil :
    (enclose pretty level first last []).toList = [first, last] := by
  simp [enclose]

theorem enclose_cons (part : String) (parts : List String) :
    (enclose pretty level first last (part :: parts)).toList =
      first :: (breakAt pretty (level + 1)
        ++ ((',' :: breakAt pretty (level + 1)).intercalate ((part :: parts).map String.toList)
          ++ (breakAt pretty level ++ [last]))) := by
  cases pretty with
  | false => simp [enclose, breakAt, String.toList_intercalate]
  | true => simp [enclose, breakAt, String.toList_intercalate]

theorem breakAt_append_ne {c d : Char} (hc : c ≠ '\n') (hd : d ≠ c) (r : List Char) :
    (breakAt pretty level ++ d :: r).head? ≠ some c := by
  cases pretty with
  | false => simpa [breakAt] using hd
  | true =>
      rw [breakAt, if_pos rfl, lineBreak, String.toList_ofList]
      simpa using Ne.symm hc

/-- Enclosed parts are told apart if each of them is, and none of them starts
    with the closing bracket. -/
theorem toldApart_enclose {α : Type} {part : α → String} {as bs : List α}
    (hlast : last ≠ ',') (hbreak : last ≠ '\n')
    (hstart : ∀ a ∈ as ++ bs, ∃ c s, (part a).toList = c :: s ∧ c ≠ last)
    (h : ∀ a ∈ as, ∀ b ∈ bs, ToldApart (fun a => (part a).toList) (fun _ => True) a b) :
    ToldApart (fun as => (enclose pretty level first last (as.map part)).toList)
      (fun _ => True) as bs := by
  intro r s _ _ heq
  -- A first part is not taken for the closing bracket.
  have hne : ∀ a ∈ as ++ bs, ∀ (parts : List (List Char)) (u v : List Char),
      breakAt pretty (level + 1)
        ++ ((',' :: breakAt pretty (level + 1)).intercalate ((part a).toList :: parts) ++ u)
      ≠ last :: v := by
    intro a ha parts u v heq
    obtain ⟨c, t, ha, hc⟩ := hstart a ha
    rw [intercalate_cons, ha] at heq
    exact breakAt_append_ne hbreak hc _ (congrArg List.head? heq)
  have hend : ∀ r, (breakAt pretty level ++ last :: r).head? ≠ some ',' :=
    breakAt_append_ne (by decide) hlast
  cases as with
  | nil =>
      cases bs with
      | nil =>
          simp only [List.map_nil, enclose_nil] at heq
          simpa using heq
      | cons b bs =>
          simp only [List.map_nil, enclose_nil, List.map_cons, enclose_cons, List.cons_append,
            List.append_assoc, List.cons.injEq, true_and] at heq
          exact absurd heq.symm (hne b (by simp) _ _ _)
  | cons a as =>
      cases bs with
      | nil =>
          simp only [List.map_nil, enclose_nil, List.map_cons, enclose_cons, List.cons_append,
            List.append_assoc, List.cons.injEq, true_and] at heq
          exact absurd heq (hne a (by simp) _ _ _)
      | cons b bs =>
          simp only [List.map_cons, enclose_cons, List.cons_append, List.append_assoc,
            List.cons.injEq, true_and, List.append_cancel_left_eq, List.map_map] at heq
          obtain ⟨heqs, hrest⟩ := toldApart_intercalate _ (fun _ => trivial) h
            ⟨trivial, hend r⟩ ⟨trivial, hend s⟩ heq
          simp only [List.append_cancel_left_eq, List.cons.injEq, true_and] at hrest
          exact ⟨heqs, hrest⟩

/-! ## Values -/

theorem writeItems_eq (items : List Value) :
    writeItems pretty level items = items.map (writeAt pretty level) := by
  induction items with
  | nil => rfl
  | cons v items ih => rw [writeItems, ih, List.map_cons]

/-- The text of a member. -/
def writeMember (pretty : Bool) (level : Nat) (e : String × Value) : String :=
  quote e.1 ++ (if pretty then ": " else ":") ++ writeAt pretty level e.2

theorem writeMembers_eq (members : List (String × Value)) :
    writeMembers pretty level members = members.map (writeMember pretty level) := by
  induction members with
  | nil => rfl
  | cons e members ih => rw [writeMembers, ih, List.map_cons, writeMember]

/-- The character that the text of a plain value begins with. -/
def opening : Value → Char
  | .bool b => if b then 't' else 'f'
  | .string _ => '"'
  | .array _ _ => '['
  | _ => '\x7b'

theorem exists_writeAt {v : Value} (hv : v.Plain) :
    ∃ s, (writeAt pretty level v).toList = opening v :: s := by
  cases hv with
  | bool b =>
      rw [writeAt]
      cases b with
      | true => exact ⟨['r', 'u', 'e'], by decide⟩
      | false => exact ⟨['a', 'l', 's', 'e'], by decide⟩
  | string s =>
      rw [writeAt, quote, String.toList_ofList]
      exact ⟨_, rfl⟩
  | @list items h =>
      rw [writeAt, writeItems_eq]
      cases items with
      | nil => exact ⟨_, enclose_nil⟩
      | cons v items => exact ⟨_, enclose_cons _ _⟩
  | @map members h =>
      rw [writeAt, writeMembers_eq]
      cases members with
      | nil => exact ⟨_, enclose_nil⟩
      | cons e members => exact ⟨_, enclose_cons _ _⟩

theorem opening_ne {v : Value} (hv : v.Plain) : opening v ≠ ']' := by
  cases hv with
  | bool b => cases b <;> simp [opening]
  | _ => simp [opening]

theorem opening_eq {v w : Value} (hv : v.Plain) (hw : w.Plain) {r s : List Char}
    (heq : (writeAt pretty level v).toList ++ r = (writeAt pretty level w).toList ++ s) :
    opening v = opening w := by
  obtain ⟨t, ht⟩ := @exists_writeAt pretty level v hv
  obtain ⟨u, hu⟩ := @exists_writeAt pretty level w hw
  rw [ht, hu] at heq
  exact (List.cons.inj heq).1

theorem exists_writeMember (e : String × Value) :
    ∃ s, (writeMember pretty level e).toList = '"' :: s := by
  rw [writeMember, String.toList_append, String.toList_append, quote, String.toList_ofList]
  exact ⟨_, rfl⟩

/-- Members are told apart if their values are. -/
theorem toldApart_writeMember {e e' : String × Value}
    (h : ToldApart (fun v => (writeAt pretty level v).toList) (fun _ => True) e.2 e'.2) :
    ToldApart (fun e => (writeMember pretty level e).toList) (fun _ => True) e e' := by
  have hpair := (toldApart_quote e.1 e'.1).pair (h.append (if pretty then ": " else ":").toList)
    fun _ _ _ => trivial
  intro r s hr hs heq
  refine hpair hr hs ?_
  simpa [writeMember] using heq

/-- Plain values are told apart, whatever follows. -/
theorem toldApart_writeAt {v w : Value} (hv : v.Plain) (hw : w.Plain) :
    ∀ level, ToldApart (fun v => (writeAt pretty level v).toList) (fun _ => True) v w := by
  induction hv generalizing w with
  | bool b =>
      intro level r s _ _ heq
      have hopening := opening_eq (.bool b) hw heq
      cases hw with
      | bool c =>
          have hbc : b = c := by
            cases b <;> cases c <;> simp [opening] at hopening ⊢
          subst hbc
          exact ⟨rfl, List.append_cancel_left heq⟩
      | _ => cases b <;> simp [opening] at hopening
  | string t =>
      intro level r s _ _ heq
      have hopening := opening_eq (.string t) hw heq
      cases hw with
      | string u =>
          obtain ⟨rfl, hrs⟩ := toldApart_quote t u trivial trivial heq
          exact ⟨rfl, hrs⟩
      | bool c => cases c <;> simp [opening] at hopening
      | _ => simp [opening] at hopening
  | @list items h ih =>
      intro level r s _ _ heq
      have hopening := opening_eq (.list h) hw heq
      cases hw with
      | @list items' h' =>
          have hitems : ToldApart (fun items => (enclose pretty level '[' ']'
              (items.map (writeAt pretty (level + 1)))).toList) (fun _ => True) items items' := by
            refine toldApart_enclose (by decide) (by decide) (fun a ha => ?_)
              fun a ha b hb => ih a ha (h' b hb) (level + 1)
            have hplain : a.Plain := (List.mem_append.mp ha).elim (h a) (h' a)
            obtain ⟨t, ht⟩ := @exists_writeAt pretty (level + 1) a hplain
            exact ⟨_, t, ht, opening_ne hplain⟩
          simp only [writeAt, writeItems_eq] at heq
          obtain ⟨rfl, hrs⟩ := hitems trivial trivial heq
          exact ⟨rfl, hrs⟩
      | bool c => cases c <;> simp [opening] at hopening
      | _ => simp [opening] at hopening
  | @map members h ih =>
      intro level r s _ _ heq
      have hopening := opening_eq (.map h) hw heq
      cases hw with
      | @map members' h' =>
          have hmembers : ToldApart (fun members => (enclose pretty level '\x7b' '\x7d'
              (members.map (writeMember pretty (level + 1)))).toList) (fun _ => True)
              members members' := by
            refine toldApart_enclose (by decide) (by decide) (fun e _ => ?_)
              fun e he e' he' => toldApart_writeMember (ih e he (h' e' he') (level + 1))
            obtain ⟨t, ht⟩ := @exists_writeMember pretty (level + 1) e
            exact ⟨_, t, ht, by decide⟩
          simp only [writeAt, writeMembers_eq] at heq
          obtain ⟨rfl, hrs⟩ := hmembers trivial trivial heq
          exact ⟨rfl, hrs⟩
      | bool c => cases c <;> simp [opening] at hopening
      | _ => simp [opening] at hopening

/-- Plain values are known by their text. -/
theorem write_injective {v w : Value} (hv : v.Plain) (hw : w.Plain)
    (h : write pretty v = write pretty w) : v = w := by
  have heq : (writeAt pretty 0 v).toList ++ [] = (writeAt pretty 0 w).toList ++ [] := by
    rw [← write, ← write, h]
  exact (toldApart_writeAt hv hw 0 trivial trivial heq).1

end Classpath.Json
