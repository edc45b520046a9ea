import Classpath.Properties
import Classpath.Proofs.Text.Trimming

/-! # Cutting — where the key of a line ends

    A logical line is read from the left.  Some of its beginning is all key
    (`InKey`): it can be set aside, and the rest cut on its own
    (`InKey.cut_append`).  What follows is nothing, a backslash with nothing
    behind it, or a character that stops the key (`reading`).  After such a
    stop comes the value, and whatever plain text is put behind the line is
    put behind the value (`valueAfter_append`).  So a line that has come as far
    as its value (`InValue`) has its key, whatever follows. -/

namespace Classpath.Properties

open Text

/-- The characters that end a key: a sign or a blank. -/
def Stops (c : Char) : Prop :=
  c = '=' ∨ c = ':' ∨ isBlank c = true

instance (c : Char) : Decidable (Stops c) :=
  inferInstanceAs (Decidable (c = '=' ∨ c = ':' ∨ isBlank c = true))

/-- A text that begins with nothing that could belong to a gap. -/
def StartsPlain (s : List Char) : Prop :=
  ∀ c ∈ s.head?, ¬ Stops c

/-- What stands behind a character that ends a key, without the gap. -/
def valueAfter (c : Char) (s : List Char) : List Char :=
  if c = '=' ∨ c = ':' then trimStart s else afterGap s

/-- `InKey q k`: all of `q` belongs to the key and stands for `k`. -/
inductive InKey : List Char → List Char → Prop
  | nil : InKey [] []
  | escaped (c : Char) {q k : List Char} (h : InKey q k) :
      InKey ('\\' :: c :: q) (c :: k)
  | plain {c : Char} {q k : List Char} (hesc : c ≠ '\\') (hstop : ¬ Stops c)
      (h : InKey q k) : InKey (c :: q) (c :: k)

theorem StartsPlain.startsSolid {s : List Char} (h : StartsPlain s) :
    StartsSolid s := by
  intro c hc
  exact Bool.eq_false_iff.mpr fun hb => h c hc (.inr (.inr hb))

/-! ## The steps of a cut -/

theorem cut_escaped (c : Char) (s : List Char) :
    cut ('\\' :: c :: s) = (c :: (cut s).1, (cut s).2) := by
  rw [cut]

theorem cut_cons {c : Char} (hesc : c ≠ '\\') (s : List Char) :
    cut (c :: s) = if c = '=' ∨ c = ':' then ([], trimStart s)
      else if isBlank c then ([], afterGap s)
      else (c :: (cut s).1, (cut s).2) := by
  rw [cut]
  · exact fun h => absurd h hesc
  · exact fun _ _ h => absurd h hesc

theorem cut_plain {c : Char} (hesc : c ≠ '\\') (hstop : ¬ Stops c) (s : List Char) :
    cut (c :: s) = (c :: (cut s).1, (cut s).2) := by
  rw [cut_cons hesc, if_neg fun h => hstop (h.imp_right .inl),
    if_neg fun h => hstop (.inr (.inr h))]

theorem cut_stop {c : Char} (hstop : Stops c) (s : List Char) :
    cut (c :: s) = ([], valueAfter c s) := by
  have hesc : c ≠ '\\' := by
    rintro rfl
    exact absurd hstop (by decide)
  rw [cut_cons hesc, valueAfter]
  by_cases hsign : c = '=' ∨ c = ':'
  · rw [if_pos hsign, if_pos hsign]
  · have hblank : isBlank c = true := by
      rcases hstop with h | h | h
      · exact absurd (.inl h) hsign
      · exact absurd (.inr h) hsign
      · exact h
    rw [if_neg hsign, if_neg hsign, if_pos hblank]

namespace InKey

/-- A beginning that is all key is set aside. -/
theorem cut_append {q k : List Char} (h : InKey q k) (s : List Char) :
    cut (q ++ s) = (k ++ (cut s).1, (cut s).2) := by
  induction h with
  | nil => rfl
  | escaped c _ ih =>
      rw [List.cons_append, List.cons_append, cut_escaped, ih]
      rfl
  | plain hesc hstop _ ih =>
      rw [List.cons_append, cut_plain hesc hstop, ih]
      rfl

theorem cut_eq {q k : List Char} (h : InKey q k) : cut q = (k, []) := by
  have hcut := h.cut_append []
  rw [List.append_nil] at hcut
  rw [hcut]
  show (k ++ [], []) = (k, [])
  rw [List.append_nil]

theorem append {q k q' k' : List Char} (h : InKey q k) (h' : InKey q' k') :
    InKey (q ++ q') (k ++ k') := by
  induction h with
  | nil => exact h'
  | escaped c _ ih => exact .escaped c ih
  | plain hesc hstop _ ih => exact .plain hesc hstop ih

end InKey

/-- How a line goes on behind what is all key. -/
theorem reading (s : List Char) :
    (∃ k, InKey s k)
    ∨ (∃ q k, s = q ++ ['\\'] ∧ InKey q k)
    ∨ ∃ q k c r, s = q ++ c :: r ∧ InKey q k ∧ Stops c := by
  fun_induction cut s with
  | case1 => exact .inl ⟨[], .nil⟩
  | case2 => exact .inr (.inl ⟨[], [], rfl, .nil⟩)
  | case3 c s key value hcut ih =>
      rcases ih with ⟨k, h⟩ | ⟨q, k, rfl, h⟩ | ⟨q, k, d, r, rfl, h, hd⟩
      · exact .inl ⟨c :: k, .escaped c h⟩
      · exact .inr (.inl ⟨'\\' :: c :: q, c :: k, rfl, .escaped c h⟩)
      · exact .inr (.inr ⟨'\\' :: c :: q, c :: k, d, r, rfl, .escaped c h, hd⟩)
  | case4 c s hne hesc hsign =>
      exact .inr (.inr ⟨[], [], c, s, rfl, .nil, hsign.imp_right .inl⟩)
  | case5 c s hne hesc hsign hblank =>
      exact .inr (.inr ⟨[], [], c, s, rfl, .nil, .inr (.inr hblank)⟩)
  | case6 c s hne hesc hsign hblank key value hcut ih =>
      have hc : c ≠ '\\' := by
        rintro rfl
        cases s with
        | nil => exact hne rfl rfl
        | cons d s => exact hesc d s rfl rfl
      have hstop : ¬ Stops c := by
        rintro (h | h | h)
        · exact hsign (.inl h)
        · exact hsign (.inr h)
        · exact hblank h
      rcases ih with ⟨k, h⟩ | ⟨q, k, rfl, h⟩ | ⟨q, k, d, r, rfl, h, hd⟩
      · exact .inl ⟨c :: k, .plain hc hstop h⟩
      · exact .inr (.inl ⟨c :: q, c :: k, rfl, .plain hc hstop h⟩)
      · exact .inr (.inr ⟨c :: q, c :: k, d, r, rfl, .plain hc hstop h, hd⟩)

/-! ## The value -/

theorem isBlank_of_isSign {c : Char} (h : c = '=' ∨ c = ':') : isBlank c = false := by
  rcases h with rfl | rfl
  · decide
  · decide

theorem valueAfter_sign {c : Char} (hc : c = '=' ∨ c = ':') (s : List Char) :
    valueAfter c s = trimStart s :=
  if_pos hc

theorem valueAfter_blank {c : Char} (hc : isBlank c = true) (s : List Char) :
    valueAfter c s = afterGap s := by
  refine if_neg fun hsign => ?_
  exact Bool.eq_false_iff.mp (isBlank_of_isSign hsign) hc

theorem afterGap_of_trimStart_nil {s : List Char} (h : trimStart s = []) :
    afterGap s = [] := by
  rw [afterGap, h]

theorem afterGap_of_trimStart_cons {s r : List Char} {c : Char}
    (h : trimStart s = c :: r) :
    afterGap s = if c = '=' ∨ c = ':' then trimStart r else c :: r := by
  rw [afterGap, h]

theorem afterGap_append (s : List Char) {t : List Char} (ht : StartsPlain t) :
    afterGap (s ++ t) = afterGap s ++ t := by
  have happ : trimStart (s ++ t) = trimStart s ++ t :=
    trimStart_append s ht.startsSolid
  cases hs : trimStart s with
  | nil =>
      rw [hs, List.nil_append] at happ
      rw [afterGap_of_trimStart_nil hs, List.nil_append]
      cases t with
      | nil => exact afterGap_of_trimStart_nil happ
      | cons d t =>
          have hd : ¬ (d = '=' ∨ d = ':') :=
            fun h => ht d rfl (h.imp_right .inl)
          rw [afterGap_of_trimStart_cons happ, if_neg hd]
  | cons c r =>
      rw [hs, List.cons_append] at happ
      rw [afterGap_of_trimStart_cons hs, afterGap_of_trimStart_cons happ]
      by_cases hc : c = '=' ∨ c = ':'
      · rw [if_pos hc, if_pos hc]
        exact trimStart_append r ht.startsSolid
      · rw [if_neg hc, if_neg hc]
        rfl

/-- What is put behind the line is put behind the value. -/
theorem valueAfter_append (c : Char) (s : List Char) {t : List Char}
    (ht : StartsPlain t) : valueAfter c (s ++ t) = valueAfter c s ++ t := by
  rw [valueAfter, valueAfter]
  by_cases hc : c = '=' ∨ c = ':'
  · rw [if_pos hc, if_pos hc]
    exact trimStart_append s ht.startsSolid
  · rw [if_neg hc, if_neg hc]
    exact afterGap_append s ht

/-- Blanks before a sign belong to the gap, and so do those after it. -/
theorem cut_sign {w : List Char} {c : Char} (hw : AllBlank w) (hc : c = '=' ∨ c = ':')
    (s : List Char) : cut (w ++ c :: s) = ([], trimStart s) := by
  -- The key ends at the sign or at the first blank before it.
  cases w with
  | nil => rw [List.nil_append, cut_stop (hc.imp_right .inl), valueAfter_sign hc]
  | cons b w =>
      have hb : isBlank b = true := hw b List.mem_cons_self
      have hgap : trimStart (w ++ c :: s) = c :: s := by
        rw [trimStart_blank_append fun d hd => hw d (List.mem_cons_of_mem b hd),
          trimStart_of_startsSolid (startsSolid_cons (isBlank_of_isSign hc) s)]
      rw [List.cons_append, cut_stop (.inr (.inr hb)), valueAfter_blank hb,
        afterGap_of_trimStart_cons hgap, if_pos hc]

/-- Blanks alone are a gap as well, before a value that does not begin with a
    sign. -/
theorem cut_gap {w v : List Char} (hw : AllBlank w) (hne : w ≠ []) (hv : StartsPlain v) :
    cut (w ++ v) = ([], v) := by
  cases w with
  | nil => exact absurd rfl hne
  | cons b w =>
      have hb : isBlank b = true := hw b List.mem_cons_self
      have hgap : trimStart w = [] :=
        trimStart_of_allBlank fun d hd => hw d (List.mem_cons_of_mem b hd)
      rw [List.cons_append, cut_stop (.inr (.inr hb)), valueAfter_append b w hv,
        valueAfter_blank hb, afterGap_of_trimStart_nil hgap]
      rfl

/-- `InValue k q v`: the beginning `q` of a line holds the key `k`, what stands
    between it and its value, and the beginning `v` of the value. -/
inductive InValue (k : List Char) : List Char → List Char → Prop
  | sign {q w v : List Char} {c : Char} (hq : InKey q k) (hw : AllBlank w)
      (hc : c = '=' ∨ c = ':') : InValue k (q ++ (w ++ c :: v)) v
  | gap {q w v : List Char} (hq : InKey q k) (hw : AllBlank w) (hne : w ≠ [])
      (hv : v ≠ []) (hstart : StartsPlain v) : InValue k (q ++ (w ++ v)) v

namespace InValue

/-- The rest of the line belongs to the value. -/
theorem cut_append {k q v : List Char} (h : InValue k q v) (s : List Char) :
    (cut (q ++ s)).1 = k ∧ trim (cut (q ++ s)).2 = trim (v ++ s) := by
  cases h with
  | @sign q w v c hq hw hc =>
      rw [List.append_assoc, List.append_assoc, hq.cut_append, List.cons_append, cut_sign hw hc]
      exact ⟨List.append_nil k, trim_trimStart _⟩
  | @gap q w v hq hw hne hv hstart =>
      have hplain : StartsPlain (v ++ s) := by
        intro c hc
        rw [List.head?_append_of_ne_nil v hv] at hc
        exact hstart c hc
      rw [List.append_assoc, List.append_assoc, hq.cut_append, cut_gap hw hne hplain]
      exact ⟨List.append_nil k, rfl⟩

/-- A line has a value before it has come to its end. -/
theorem suffix {k q v : List Char} (h : InValue k q v) : v <:+ q := by
  cases h with
  | @sign q w v c =>
      exact (List.suffix_cons c v).trans ((List.suffix_append w _).trans (List.suffix_append q _))
  | @gap q w v => exact (List.suffix_append w v).trans (List.suffix_append q _)

end InValue

/-! ## The entry -/

theorem InValue.entry_append {k q v : List Char} (h : InValue k q v) (s : List Char) :
    entry (q ++ s) = (String.ofList k, String.ofList (trim (v ++ s))) := by
  obtain ⟨hkey, hvalue⟩ := h.cut_append s
  rw [entry, ← hkey, ← hvalue]

/-- The number of characters of an entry. -/
def size (e : String × String) : Nat := e.1.length + e.2.length

theorem size_entry (line : List Char) :
    size (entry line) = (cut line).1.length + (trim (cut line).2).length := by
  show (String.ofList (cut line).1).length + (String.ofList (trim (cut line).2)).length = _
  rw [String.length_ofList, String.length_ofList]

theorem entry_congr {l l' : List Char} (h : cut l = cut l') : entry l = entry l' := by
  rw [entry, entry, h]

/-- A backslash at the end of a line is dropped, or it is one more character
    of the value. -/
theorem entry_backslash {q : List Char} (hq : q.getLast? ≠ some '\\') :
    (entry (q ++ ['\\']) = entry q ∧ (entry q).2 = "") ∨
    ((entry (q ++ ['\\'])).1 = (entry q).1 ∧
      (entry q).2.length < (entry (q ++ ['\\'])).2.length) := by
  rcases reading q with ⟨k, h⟩ | ⟨q, k, rfl, h⟩ | ⟨q, k, c, r, rfl, h, hc⟩
  · have hcut : cut (q ++ ['\\']) = cut q := by
      rw [h.cut_append, h.cut_eq]
      show (k ++ [], []) = (k, [])
      rw [List.append_nil]
    refine .inl ⟨entry_congr hcut, ?_⟩
    rw [entry, h.cut_eq]
    rfl
  · exact absurd List.getLast?_concat hq
  · have hback : StartsPlain ['\\'] := by
      intro d hd
      obtain rfl : '\\' = d := Option.some.inj hd
      decide
    have hshort : cut (q ++ c :: r) = (k, valueAfter c r) := by
      rw [h.cut_append, cut_stop hc, List.append_nil]
    have hlong : cut (q ++ c :: r ++ ['\\']) = (k, valueAfter c r ++ ['\\']) := by
      rw [List.append_assoc, h.cut_append, List.cons_append, cut_stop hc,
        valueAfter_append c r hback, List.append_nil]
    have htrim : trim (valueAfter c r ++ ['\\']) = trimStart (valueAfter c r) ++ ['\\'] :=
      trim_append _ (List.cons_ne_nil _ _) hback.startsSolid (endsSolid_concat (by decide) [])
    refine .inr ⟨?_, ?_⟩
    · rw [entry, entry, hshort, hlong]
    · rw [entry, entry, hshort, hlong]
      show (String.ofList (trim (valueAfter c r))).length
        < (String.ofList (trim (valueAfter c r ++ ['\\']))).length
      rw [htrim, String.length_ofList, String.length_ofList, List.length_append,
        List.length_singleton]
      exact Nat.lt_succ_of_le (length_trimEnd_le _)

/-- Text without a backslash and without a character that ends a key. -/
def Plain (s : List Char) : Prop :=
  ∀ c ∈ s, c ≠ '\\' ∧ ¬ Stops c

theorem Plain.inKey {s : List Char} (h : Plain s) : InKey s s := by
  induction s with
  | nil => exact .nil
  | cons c s ih =>
      obtain ⟨hesc, hstop⟩ := h c List.mem_cons_self
      exact .plain hesc hstop (ih fun d hd => h d (List.mem_cons_of_mem c hd))

theorem Plain.startsPlain {s : List Char} (h : Plain s) : StartsPlain s :=
  fun c hc => (h c (List.mem_of_head? hc)).2

theorem Plain.endsSolid {s : List Char} (h : Plain s) : EndsSolid s := by
  intro c hc
  have hstop := (h c (List.mem_of_getLast? hc)).2
  exact Bool.eq_false_iff.mpr fun hb => hstop (.inr (.inr hb))

/-- None of the plain text at the end of a line is lost. -/
theorem length_le_size_entry (r : List Char) {t : List Char} (hne : t ≠ [])
    (ht : Plain t) : t.length ≤ size (entry (r ++ t)) := by
  rw [size_entry]
  rcases reading r with ⟨k, h⟩ | ⟨q, k, rfl, h⟩ | ⟨q, k, c, r, rfl, h, hc⟩
  · rw [(h.append ht.inKey).cut_eq, List.length_append]
    omega
  · -- The backslash takes the first character of the text with it.
    cases t with
    | nil => exact absurd rfl hne
    | cons c t =>
        have htail : Plain t := fun d hd => ht d (List.mem_cons_of_mem c hd)
        rw [List.append_assoc, List.singleton_append,
          (h.append (.escaped c htail.inKey)).cut_eq, List.length_append]
        omega
  · have hvalue : cut (q ++ c :: r ++ t) = (k, valueAfter c r ++ t) := by
      rw [List.append_assoc, h.cut_append, List.cons_append, cut_stop hc,
        valueAfter_append c r ht.startsPlain, List.append_nil]
    rw [hvalue, trim_append _ hne ht.startsPlain.startsSolid ht.endsSolid,
      List.length_append]
    omega

end Classpath.Properties
