import Mathlib.Data.List.Basic
import Classpath.Toml.Reading
import Classpath.Toml.Writing

/-! # Quoting in TOML — what is quoted is read back

    A text is quoted in one of four ways, two of them on one line and two on
    several.  Whichever is taken, the reader finds the end of the text and
    what it was (`scanText_quote`), unless a quote follows that might belong to
    it; and so it does for the names of members, which may stand without quotes
    (`scanPart_quoteKey`).  In a long text a quote is the delicate character: it
    may stand as it is, unless it would close the text too early, and this is
    what `Quotable` is about. -/

namespace Classpath.Toml

open Text

theorem isControl_eq_false {c : Char} : isControl c = false ↔ isOnLine c = true ∨ c = '\n' := by
  rw [isControl, isOnLine]
  by_cases hn : c = '\n'
  · subst hn
    decide
  · by_cases ht : c = '\t'
    · subst ht
      decide
    · by_cases hd : c = '\x7f'
      · subst hd
        decide
      · simp [hn, ht, hd]

theorem hexChar?_of_lt : ∀ n < 128,
    hexChar? ('0' :: '0' :: (hexPair n).map Char.toUpper) = some (Char.ofNat n) := by
  decide

/-- A character is written as a short escape, by its number or as it is. -/
theorem escape_cases (long : Bool) (c : Char) :
    (∃ e, e ∉ ['u', 'U', '\r', '\n', ' ', '\t'] ∧ shortEscape? e = some c
        ∧ escape long c = ['\\', e])
      ∨ (c.toNat < 128 ∧
        escape long c = '\\' :: 'u' :: '0' :: '0' :: (hexPair c.toNat).map Char.toUpper)
      ∨ (c ≠ '\\' ∧ c ≠ '\r' ∧ (isOnLine c = true ∨ long = true ∧ c = '\n')
        ∧ escape long c = [c]) := by
  by_cases hshort : c ∈ ['\x08', '\t', '\x0c', '\r', '\\']
  · left
    simp only [List.mem_cons, List.not_mem_nil, or_false] at hshort
    rcases hshort with rfl | rfl | rfl | rfl | rfl
    · exact ⟨'b', by decide, rfl, rfl⟩
    · exact ⟨'t', by decide, rfl, rfl⟩
    · exact ⟨'f', by decide, rfl, rfl⟩
    · exact ⟨'r', by decide, rfl, rfl⟩
    · exact ⟨'\\', by decide, rfl, rfl⟩
  · simp only [List.mem_cons, List.not_mem_nil, or_false, not_or] at hshort
    obtain ⟨hb, ht, hf, hr, hslash⟩ := hshort
    by_cases hn : c = '\n'
    · subst hn
      cases long with
      | false => exact .inl ⟨'n', by decide, rfl, rfl⟩
      | true => exact .inr (.inr ⟨by decide, by decide, .inr ⟨rfl, rfl⟩, rfl⟩)
    · right
      have hescape : escape long c = if isControl c then
          '\\' :: 'u' :: '0' :: '0' :: (hexPair c.toNat).map Char.toUpper else [c] := by
        rw [escape] <;> assumption
      rw [hescape]
      cases hc : isControl c with
      | true =>
          refine .inl ⟨?_, rfl⟩
          rw [isControl] at hc
          simp only [Bool.or_eq_true, Bool.and_eq_true, decide_eq_true_eq, beq_iff_eq] at hc
          rcases hc with ⟨⟨hlt, -⟩, -⟩ | rfl
          · have : c.toNat < 32 := UInt32.lt_iff_toNat_lt.mp hlt
            omega
          · decide
      | false =>
          exact .inr ⟨hslash, hr, (isControl_eq_false.mp hc).imp_right fun h => absurd h hn, rfl⟩

/-! ## Basic texts -/

/-- A character other than a quote is read as what it was. -/
theorem scanBasic_escape {c : Char} (hquote : c ≠ '"') (s : List Char) :
    scanBasic (escape false c ++ s) = (scanBasic s).cons c := by
  rcases escape_cases false c with ⟨e, hne, he, hc⟩ | ⟨hlt, hc⟩ | ⟨hslash, hr, hline, hc⟩
  · rw [hc]
    simp only [List.mem_cons, List.not_mem_nil, or_false, not_or] at hne
    show scanBasic ('\\' :: e :: s) = _
    rw [scanBasic, he]
    · rfl
    · exact fun _ _ _ _ _ h _ => hne.1 h
    · exact fun _ _ _ _ _ _ _ _ _ h _ => hne.2.1 h
  · rw [hc]
    show scanBasic ('\\' :: 'u' :: '0' :: '0' :: (hexDigit (c.toNat / 16)).toUpper
      :: (hexDigit c.toNat).toUpper :: s) = _
    have hchar := hexChar?_of_lt _ hlt
    rw [hexPair, List.map_cons, List.map_cons, List.map_nil] at hchar
    rw [scanBasic, hchar, Char.ofNat_toNat]
    rfl
  · rw [hc]
    show scanBasic (c :: s) = _
    have hon : isOnLine c = true := hline.resolve_right fun h => nomatch h.1
    rw [scanBasic, if_pos ⟨hon, hslash⟩]
    · exact hquote
    · exact fun _ _ _ _ _ h _ => hslash h
    · exact fun _ _ _ _ _ _ _ _ _ h _ => hslash h
    · exact fun _ _ h _ => hslash h

/-- A basic text ends at its closing quote and is read as what it was. -/
theorem scanBasic_escapeAll (s r : List Char) (quotes : Nat) :
    scanBasic (escapeAll false quotes s ++ '"' :: r) = some (s, r) := by
  induction s generalizing quotes with
  | nil => rfl
  | cons c s ih =>
      by_cases hc : c = '"'
      · subst hc
        rw [escapeAll, if_neg (by simp)]
        show scanBasic ('\\' :: '"' :: (escapeAll false 0 s ++ '"' :: r)) = _
        rw [scanBasic, ih]
        · rfl
        · exact fun _ _ _ _ _ h _ => absurd h (by decide)
        · exact fun _ _ _ _ _ _ _ _ _ h _ => absurd h (by decide)
      · rw [escapeAll, List.append_assoc, scanBasic_escape hc, ih]
        · rfl
        · exact hc

/-- So does a literal text, which has nothing but itself between its quotes. -/
theorem scanLiteral_append {s : List Char} (hquote : '\x27' ∉ s)
    (hline : ∀ c ∈ s, isOnLine c = true) (r : List Char) :
    scanLiteral (s ++ '\x27' :: r) = some (s, r) := by
  induction s with
  | nil => rfl
  | cons c s ih =>
      rw [List.mem_cons, not_or] at hquote
      rw [List.forall_mem_cons] at hline
      rw [List.cons_append, scanLiteral, if_pos hline.1, ih hquote.2 hline.2]
      · rfl
      · exact Ne.symm hquote.1

/-! ## Long texts -/

theorem scanLongBasic_escape {c : Char} (hquote : c ≠ '"') (s : List Char) :
    scanLongBasic false (escape true c ++ s) = (scanLongBasic false s).cons c := by
  rcases escape_cases true c with ⟨e, hne, he, hc⟩ | ⟨hlt, hc⟩ | ⟨hslash, hr, hline, hc⟩
  · rw [hc]
    simp only [List.mem_cons, List.not_mem_nil, or_false, not_or] at hne
    obtain ⟨hu, hU, hcr, hlf, hspace, htab⟩ := hne
    show scanLongBasic false ('\\' :: e :: s) = _
    have hjoin : joinsLines (e :: s) = false := by
      have hgap : skipGap (e :: s) = e :: s := by
        rw [skipGap, List.dropWhile_cons_of_neg]
        simp [isGap, hspace, htab]
      rw [joinsLines, hgap, afterBreak?]
      · rfl
      · exact fun _ h => hlf (List.cons.inj h).1
      · exact fun _ h => hcr (List.cons.inj h).1
    rw [scanLongBasic, hjoin, he]
    · rfl
    · exact fun _ _ _ _ _ h _ => hu h
    · exact fun _ _ _ _ _ _ _ _ _ h _ => hU h
    · exact fun _ h _ => hcr h
  · rw [hc]
    show scanLongBasic false ('\\' :: 'u' :: '0' :: '0' :: (hexDigit (c.toNat / 16)).toUpper
      :: (hexDigit c.toNat).toUpper :: s) = _
    have hchar := hexChar?_of_lt _ hlt
    rw [hexPair, List.map_cons, List.map_cons, List.map_nil] at hchar
    rw [scanLongBasic, hchar, Char.ofNat_toNat]
    rfl
  · rw [hc]
    show scanLongBasic false (c :: s) = _
    have hon : c = '\n' ∨ isOnLine c = true ∧ c ≠ '\\' :=
      hline.elim (fun h => .inr ⟨h, hslash⟩) fun h => .inl h.2
    rw [scanLongBasic, if_neg (by simp), if_pos hon]
    · exact fun _ h _ => hquote h
    · exact fun _ h _ => hquote h
    · exact fun _ h _ => hquote h
    · exact fun _ _ _ _ _ h _ => hslash h
    · exact fun _ _ _ _ _ _ _ _ _ h _ => hslash h
    · exact fun _ h _ => hslash h
    · exact fun _ _ h _ => hslash h
    · exact fun _ h _ => hr h

/-- Where one more quote may stand in a long text: before the closing ones, before one
    more that stands there, or where no two quotes come after it. -/
inductive Quotable (q : Char) (r : List Char) : List Char → Prop
  | closing : Quotable q r (q :: q :: q :: r)
  | last : Quotable q r (q :: q :: q :: q :: r)
  | inner {s : List Char} (h : ∀ t, s ≠ q :: q :: t) : Quotable q r s

theorem scanLongBasic_quote {r s : List Char} (hr : r.head? ≠ some '"')
    (hs : Quotable '"' r s) :
    scanLongBasic false ('"' :: s) = (scanLongBasic false s).cons '"' := by
  have hne : ∀ t, r ≠ '"' :: t := fun t h => hr (by rw [h]; rfl)
  cases hs with
  | closing =>
      rw [scanLongBasic, scanLongBasic]
      · rfl
      · exact fun t => hne _
      · exact fun t => hne _
      · exact fun t => hne _
  | last =>
      rw [scanLongBasic, scanLongBasic]
      · rfl
      · exact fun t => hne _
  | inner h =>
      rw [scanLongBasic, if_neg (by simp), if_pos (by decide)]
      · exact fun _ _ => h _
      · exact fun _ _ => h _
      · exact fun _ _ => h _
      · exact fun _ _ _ _ _ h _ => absurd h (by decide)
      · exact fun _ _ _ _ _ _ _ _ _ h _ => absurd h (by decide)
      · exact fun _ h _ => absurd h (by decide)
      · exact fun _ _ h _ => absurd h (by decide)
      · exact fun _ h _ => absurd h (by decide)

theorem escape_head {long : Bool} {c : Char} (hquote : c ≠ '"') :
    ∃ d t, escape long c = d :: t ∧ d ≠ '"' ∧ d ≠ '\r' ∧ (d = '\n' → c = '\n') := by
  rcases escape_cases long c with ⟨e, -, -, hc⟩ | ⟨-, hc⟩ | ⟨-, hr, -, hc⟩
  · exact ⟨_, _, hc, by decide, by decide, fun h => absurd h (by decide)⟩
  · exact ⟨_, _, hc, by decide, by decide, fun h => absurd h (by decide)⟩
  · exact ⟨_, _, hc, hquote, hr, id⟩

/-- A basic text does not begin with a quote if none may stand there as it is. -/
theorem escapeAll_cons_ne {long : Bool} {quotes : Nat} (h : ¬ (long = true ∧ quotes < 2))
    (c : Char) (s t u : List Char) : escapeAll long quotes (c :: s) ++ t ≠ '"' :: u := by
  intro heq
  by_cases hc : c = '"'
  · subst hc
    rw [escapeAll, if_neg h] at heq
    exact absurd (List.cons.inj heq).1 (by decide)
  · obtain ⟨d, v, hd, hquote, -⟩ := @escape_head long c hc
    rw [escapeAll, hd] at heq
    · exact hquote (List.cons.inj heq).1
    · exact hc

theorem quotable_escapeAll (s r : List Char) {quotes : Nat} (h : 0 < quotes) :
    Quotable '"' r (escapeAll true quotes s ++ '"' :: '"' :: '"' :: r) := by
  cases s with
  | nil => exact .closing
  | cons c s =>
      by_cases hc : c = '"'
      · subst hc
        rw [escapeAll]
        by_cases hquotes : quotes < 2
        · obtain rfl : quotes = 1 := by omega
          rw [if_pos ⟨rfl, hquotes⟩]
          cases s with
          | nil => exact .last
          | cons c s =>
              refine .inner fun t heq => ?_
              exact escapeAll_cons_ne (by simp) c s _ t (List.cons.inj heq).2
        · rw [if_neg fun h => hquotes h.2]
          exact .inner fun t heq => absurd (List.cons.inj heq).1 (by decide)
      · obtain ⟨d, v, hd, hquote, -⟩ := @escape_head true c hc
        rw [escapeAll, hd]
        · exact .inner fun t heq => hquote (List.cons.inj heq).1
        · exact hc

/-- A long basic text ends at the last of its closing quotes and is read as what
    it was. -/
theorem scanLongBasic_escapeAll (s : List Char) {r : List Char} (hr : r.head? ≠ some '"')
    (quotes : Nat) :
    scanLongBasic false (escapeAll true quotes s ++ '"' :: '"' :: '"' :: r) = some (s, r) := by
  induction s generalizing quotes with
  | nil =>
      have hne : ∀ t, r ≠ '"' :: t := fun t h => hr (by rw [h]; rfl)
      show scanLongBasic false ('"' :: '"' :: '"' :: r) = _
      rw [scanLongBasic]
      · exact fun t => hne _
      · exact fun t => hne _
  | cons c s ih =>
      by_cases hc : c = '"'
      · subst hc
        rw [escapeAll]
        by_cases hquotes : true = true ∧ quotes < 2
        · rw [if_pos hquotes, List.cons_append,
            scanLongBasic_quote hr (quotable_escapeAll s r (Nat.succ_pos quotes)), ih]
          rfl
        · rw [if_neg hquotes]
          show scanLongBasic false ('\\' :: '"' :: (escapeAll true 0 s ++ _)) = _
          have hjoin : ∀ t, joinsLines ('"' :: t) = false := fun t => rfl
          rw [scanLongBasic, hjoin, if_neg (by simp), ih]
          · rfl
          · exact fun _ _ _ _ _ h _ => absurd h (by decide)
          · exact fun _ _ _ _ _ _ _ _ _ h _ => absurd h (by decide)
          · exact fun _ h _ => absurd h (by decide)
      · rw [escapeAll, List.append_assoc, scanLongBasic_escape hc, ih]
        · rfl
        · exact hc

theorem scanLongLiteral_quote {r s : List Char} (hr : r.head? ≠ some '\x27')
    (hs : Quotable '\x27' r s) :
    scanLongLiteral ('\x27' :: s) = (scanLongLiteral s).cons '\x27' := by
  have hne : ∀ t, r ≠ '\x27' :: t := fun t h => hr (by rw [h]; rfl)
  cases hs with
  | closing =>
      rw [scanLongLiteral, scanLongLiteral]
      · rfl
      · exact fun t => hne _
      · exact fun t => hne _
      · exact fun t => hne _
  | last =>
      rw [scanLongLiteral, scanLongLiteral]
      · rfl
      · exact fun t => hne _
  | inner h =>
      rw [scanLongLiteral, if_pos (by decide)]
      · exact fun _ _ => h _
      · exact fun _ _ => h _
      · exact fun _ _ => h _
      · exact fun _ h _ => absurd h (by decide)

/-- So does a long literal text, in which no quote is repeated three times. -/
theorem scanLongLiteral_append {s r : List Char} (hr : r.head? ≠ some '\x27')
    (htriple : hasTriple '\x27' s = false) (hline : ∀ c ∈ s, isOnLine c = true ∨ c = '\n') :
    scanLongLiteral (s ++ '\x27' :: '\x27' :: '\x27' :: r) = some (s, r) := by
  induction s with
  | nil =>
      have hne : ∀ t, r ≠ '\x27' :: t := fun t h => hr (by rw [h]; rfl)
      show scanLongLiteral ('\x27' :: '\x27' :: '\x27' :: r) = _
      rw [scanLongLiteral]
      · exact fun t => hne _
      · exact fun t => hne _
  | cons c s ih =>
      rw [List.forall_mem_cons] at hline
      have hrest : hasTriple '\x27' s = false := by
        match s, htriple with
        | [], _ => rfl
        | [_], _ => rfl
        | _ :: _ :: _, htriple =>
            rw [hasTriple, Bool.or_eq_false_iff] at htriple
            exact htriple.2
      by_cases hc : c = '\x27'
      · subst hc
        have hquotable : Quotable '\x27' r (s ++ '\x27' :: '\x27' :: '\x27' :: r) := by
          match s, htriple with
          | [], _ => exact .closing
          | [d], _ =>
              by_cases hd : d = '\x27'
              · subst hd
                exact .last
              · exact .inner fun t h => hd (List.cons.inj h).1
          | d :: e :: s, htriple =>
              refine .inner fun t h => ?_
              simp only [List.cons_append, List.cons.injEq] at h
              obtain ⟨hd, he, -⟩ := h
              rw [hd, he, hasTriple] at htriple
              exact absurd htriple (by simp)
        rw [List.cons_append, scanLongLiteral_quote hr hquotable, ih hrest hline.2]
        rfl
      · rw [List.cons_append, scanLongLiteral, if_pos hline.1.symm, ih hrest hline.2]
        · rfl
        · exact fun _ h _ => hc h
        · exact fun _ h _ => hc h
        · exact fun _ h _ => hc h
        · intro _ hcr _
          rw [hcr] at hline
          exact absurd hline.1 (by decide)

/-! ## Quoting -/

/-- A text in which no quote follows. -/
def NoQuote (r : List Char) : Prop := r.head? ≠ some '"' ∧ r.head? ≠ some '\x27'

theorem NoQuote.ne {r : List Char} (hr : NoQuote r) (t : List Char) :
    r ≠ '"' :: t ∧ r ≠ '\x27' :: t :=
  ⟨fun h => hr.1 (by rw [h]; rfl), fun h => hr.2 (by rw [h]; rfl)⟩

/-- A basic text has no second quote behind its first one unless it is empty, so
    it is not taken for a long one. -/
theorem scanText_basic {r : List Char} (hr : NoQuote r) (s : List Char) :
    scanText (basic s ++ r) = some (s, r) := by
  have hbasic : basic s ++ r = '"' :: (escapeAll false 0 s ++ '"' :: r) := by
    simp [basic, between]
  rw [hbasic, scanText, scanBasic_escapeAll]
  intro t h
  cases s with
  | nil => exact (hr.ne t).1 (List.cons.inj h).2
  | cons c s => exact escapeAll_cons_ne (by simp) c s _ _ h

theorem scanText_literal {s r : List Char} (hr : NoQuote r) (hquote : '\x27' ∉ s)
    (hline : ∀ c ∈ s, isOnLine c = true) : scanText (literal s ++ r) = some (s, r) := by
  have hliteral : literal s ++ r = '\x27' :: (s ++ '\x27' :: r) := by
    simp [literal, between]
  rw [hliteral, scanText, scanLiteral_append hquote hline]
  intro t h
  cases s with
  | nil => exact (hr.ne t).2 (List.cons.inj h).2
  | cons c s => exact hquote ((List.cons.inj h).1 ▸ List.mem_cons_self)

/-- The line break that starts a long text of several lines is passed over, and
    nothing else is taken for one. -/
theorem skipFirstBreak_between {s inner t : List Char}
    (hhead : '\n' ∉ s → ∀ c ∈ (inner ++ t).head?, c ≠ '\n' ∧ c ≠ '\r') :
    skipFirstBreak ((if s.contains '\n' then ['\n'] else []) ++ (inner ++ t)) = inner ++ t := by
  by_cases hs : '\n' ∈ s
  · rw [if_pos (by simpa using hs)]
    rfl
  · rw [if_neg (by simpa using hs), List.nil_append, skipFirstBreak]
    cases h : inner ++ t with
    | nil => rfl
    | cons c u =>
        obtain ⟨hn, hr⟩ := hhead hs c (by rw [h]; rfl)
        rw [afterBreak?]
        · rfl
        · exact fun _ h => hn (List.cons.inj h).1
        · exact fun _ h => hr (List.cons.inj h).1

theorem scanText_longBasic {r : List Char} (hr : NoQuote r) (s : List Char) :
    scanText (between ['"', '"', '"'] s (escapeAll true 0 s) ++ r) = some (s, r) := by
  have hlong : between ['"', '"', '"'] s (escapeAll true 0 s) ++ r =
      '"' :: '"' :: '"' :: ((if s.contains '\n' then ['\n'] else [])
        ++ (escapeAll true 0 s ++ '"' :: '"' :: '"' :: r)) := by
    simp [between]
  rw [hlong, scanText, skipFirstBreak_between, scanLongBasic_escapeAll s hr.1]
  intro hs c hc
  cases s with
  | nil =>
      obtain rfl : '"' = c := Option.some.inj hc
      decide
  | cons d s =>
      rw [List.mem_cons, not_or] at hs
      by_cases hd : d = '"'
      · subst hd
        obtain rfl : '"' = c := Option.some.inj hc
        decide
      · obtain ⟨e, t, he, -, hr, hn⟩ := @escape_head true d hd
        rw [escapeAll, he] at hc
        · obtain rfl : e = c := Option.some.inj hc
          exact ⟨fun h => hs.1 (hn h).symm, hr⟩
        · exact hd

theorem scanText_longLiteral {s r : List Char} (hr : NoQuote r)
    (htriple : hasTriple '\x27' s = false) (hline : ∀ c ∈ s, isOnLine c = true ∨ c = '\n') :
    scanText (between ['\x27', '\x27', '\x27'] s s ++ r) = some (s, r) := by
  have hlong : between ['\x27', '\x27', '\x27'] s s ++ r =
      '\x27' :: '\x27' :: '\x27' :: ((if s.contains '\n' then ['\n'] else [])
        ++ (s ++ '\x27' :: '\x27' :: '\x27' :: r)) := by
    simp [between]
  rw [hlong, scanText, skipFirstBreak_between, scanLongLiteral_append hr.2 htriple hline]
  intro hs c hc
  cases s with
  | nil =>
      obtain rfl : '\x27' = c := Option.some.inj hc
      decide
  | cons d s =>
      obtain rfl : d = c := Option.some.inj hc
      rw [List.mem_cons, not_or] at hs
      refine ⟨Ne.symm hs.1, ?_⟩
      rintro rfl
      exact absurd (hline _ List.mem_cons_self) (by decide)

/-- Whatever way of quoting fits, a quoted text is read as what it was. -/
theorem scanText_quote {r : List Char} (hr : NoQuote r) (s : List Char) :
    scanText (quote s ++ r) = some (s, r) := by
  have hclean : (!s.any isControl) = true → ∀ c ∈ s, isOnLine c = true ∨ c = '\n' := by
    intro h c hc
    rw [Bool.not_eq_true', List.any_eq_false] at h
    exact isControl_eq_false.mp (Bool.eq_false_iff.mpr (h c hc))
  have honLine : (!s.any isControl) = true → (!s.contains '\n') = true →
      ∀ c ∈ s, isOnLine c = true := by
    intro h hn c hc
    refine (hclean h c hc).resolve_right ?_
    rintro rfl
    simp [hc] at hn
  rw [quote]
  split
  · exact scanText_basic hr s
  split
  · rename_i h
    exact scanText_literal hr (by simpa using h.2.2) (honLine h.1 h.2.1)
  split
  · exact scanText_longBasic hr s
  split
  · rename_i h
    exact scanText_longLiteral hr (by simpa using h.2) (hclean h.1)
  split
  · exact scanText_basic hr s
  · exact scanText_longBasic hr s

/-! ## Keys -/

/-- A key ends where something comes that may not stand in a key without quotes. -/
def EndsKey (r : List Char) : Prop := ∀ c ∈ r.head?, isBare c = false

theorem scanPart_basic (s r : List Char) :
    scanPart (basic s ++ r) = some (String.ofList s, r) := by
  have hbasic : basic s ++ r = '"' :: (escapeAll false 0 s ++ '"' :: r) := by
    simp [basic, between]
  rw [hbasic, scanPart, scanBasic_escapeAll]
  rfl

/-- A key is read as what it was, with or without quotes. -/
theorem scanPart_quoteKey {r : List Char} (hr : EndsKey r) (s : List Char) :
    scanPart (quoteKey s ++ r) = some (String.ofList s, r) := by
  rw [quoteKey]
  split
  · rename_i h
    obtain ⟨hne, hall⟩ := h
    have hbare : ∀ c ∈ s, isBare c = true := by
      simpa [isBare] using hall
    have htake : (s ++ r).takeWhile isBare = s := by
      rw [List.takeWhile_append_of_pos hbare]
      cases r with
      | nil => simp
      | cons c r => rw [List.takeWhile_cons_of_neg (by simp [hr c rfl]), List.append_nil]
    have hquote {q : Char} {t : List Char} (h : s ++ r = q :: t) (hq : isBare q = false) :
        False := by
      cases s with
      | nil => simp at hne
      | cons c s =>
          obtain rfl : c = q := (List.cons.inj h).1
          exact absurd (hbare c List.mem_cons_self) (by simp [hq])
    rw [scanPart, htake]
    · simp at hne
      simp [hne]
    · exact fun _ h => hquote h (by decide)
    · exact fun _ h => hquote h (by decide)
  split
  · rename_i h
    obtain ⟨hclean, -, hquote⟩ := h
    have hline : ∀ c ∈ s, isOnLine c = true := by
      rw [Bool.and_eq_true, Bool.not_eq_true', List.any_eq_false] at hclean
      intro c hc
      refine (isControl_eq_false.mp (Bool.eq_false_iff.mpr (hclean.1 c hc))).resolve_right ?_
      rintro rfl
      simp [hc] at hclean
    have hliteral : literal s ++ r = '\x27' :: (s ++ '\x27' :: r) := by
      simp [literal, between]
    rw [hliteral, scanPart, scanLiteral_append (by simpa using hquote) hline]
    rfl
  · exact scanPart_basic s r

end Classpath.Toml
