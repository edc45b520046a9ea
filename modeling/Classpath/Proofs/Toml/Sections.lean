import Mathlib.Data.List.Basic
import Classpath.Proofs.Toml.Writing

/-! # Sections — a TOML document table by table

    A document is written as its own lines and then one section after another,
    each with a header that has its path and with lines of its own.  The
    functions that write it (`writeTables`) and that list its sections
    (`sections`) recurse alike, so the text is that of the lines and the sections
    (`toList_write`).  Since headers, lines and therefore sections are told apart,
    the text of a plain document tells all of them (`sections_eq_of_write_eq`).

    Which tables and which lines come first is lost: documents with the same
    lines and sections have the same text.  A document whose tables are flat is a
    list of sections that can be written down (`Flat.sectionsAt_map`,
    `sectionsAt_list`, `sectionsAt_tables`). -/

namespace Classpath.Toml

open Document Text

variable {pretty : Bool}

/-! ## Paths -/

/-- The text of a path. -/
def pathText (path : List String) : String := path.foldl extend ""

theorem pathText_concat (path : List String) (name : String) :
    pathText (path ++ [name]) = extend (pathText path) name := by
  rw [pathText, List.foldl_append]
  rfl

theorem quoteKey_ne_nil (s : List Char) : quoteKey s ≠ [] := by
  intro h
  have hread := scanPart_quoteKey (r := []) (by simp [EndsKey]) s
  rw [h] at hread
  simp [scanPart] at hread

theorem toList_pathText (name : String) (path : List String) :
    (pathText (name :: path)).toList =
      ['.'].intercalate ((name :: path).map fun name => quoteKey name.toList) := by
  have hfold : ∀ (path : List String) (text : String), text ≠ "" →
      (path.foldl extend text).toList =
        text.toList ++ path.flatMap fun name => '.' :: quoteKey name.toList := by
    intro path
    induction path with
    | nil =>
        intro text _
        simp
    | cons name path ih =>
        intro text htext
        rw [List.foldl_cons, extend, if_neg htext, ih _ (by simp), List.flatMap_cons]
        simp
  have hkey : String.ofList (quoteKey name.toList) ≠ "" := by
    simpa [String.ofList_eq_empty_iff] using quoteKey_ne_nil name.toList
  rw [pathText, List.foldl_cons, extend, if_pos rfl, hfold path _ hkey, List.map_cons,
    intercalate_cons, List.flatMap_map, String.toList_ofList]
  rfl

theorem endsKey_bracket {r : List Char} (hr : r.head? = some ']') : EndsKey r := by
  intro c hc
  obtain rfl : ']' = c := Option.some.inj (hr.symm.trans hc)
  decide

theorem pathText_append_ne {c : Char} (hc : StartsNoKey c) (name : String) (path : List String)
    {r : List Char} (hr : r.head? = some ']') (t : List Char) :
    (pathText (name :: path)).toList ++ r ≠ c :: t := by
  rw [toList_pathText, List.map_cons, intercalate_cons, List.append_assoc]
  refine quoteKey_append_ne hc name.toList ?_ t
  cases path with
  | nil => exact endsKey_bracket hr
  | cons _ _ => exact endsKey_cons (by decide) _

/-- Paths between brackets are told apart. -/
theorem toldApart_pathText (path path' : List String) :
    ToldApart (fun path => (pathText path).toList) (fun r => r.head? = some ']') path path' := by
  intro r s hr hs heq
  have hbracket : StartsNoKey ']' := startsNoKey_of_not_bare (by decide) (by decide) (by decide)
  obtain ⟨t, rfl⟩ := List.head?_eq_some_iff.mp hr
  obtain ⟨u, rfl⟩ := List.head?_eq_some_iff.mp hs
  cases path with
  | nil =>
      cases path' with
      | nil => exact ⟨rfl, heq⟩
      | cons name' path' => exact absurd heq.symm (pathText_append_ne hbracket name' path' rfl t)
  | cons name path =>
      cases path' with
      | nil => exact absurd heq (pathText_append_ne hbracket name path rfl u)
      | cons name' path' =>
          simp only [toList_pathText] at heq
          exact toldApart_intercalate [] (fun r => endsKey_cons (by decide) r)
            (fun name _ name' _ => toldApart_quoteKey name name')
            ⟨endsKey_bracket rfl, by simp⟩ ⟨endsKey_bracket rfl, by simp⟩ heq

/-! ## Sections -/

/-- A table without the tables within it: where it is and what stands on its
    lines.  It may be an element of an array of tables. -/
structure Section where
  element : Bool := false
  path : List String
  lines : List (String × Value)

namespace Section

/-- The header of a section, behind its first bracket. -/
def header (t : Section) : List Char :=
  (if t.element then ['['] else []) ++ (pathText t.path).toList
    ++ (if t.element then [']', ']', '\n'] else [']', '\n'])

/-- The text of a section. -/
def text (pretty : Bool) (t : Section) : List Char :=
  '[' :: (t.header ++ t.lines.flatMap (line pretty))

end Section

mutual

/-- The sections of the members of a table at a path. -/
def sections (path : List String) : List (String × Value) → List Section
  | [] => []
  | (name, v) :: rest => sectionsAt (path ++ [name]) v ++ sections path rest

/-- The sections of a value at a path. -/
def sectionsAt (path : List String) : Value → List Section
  | .object members _ =>
      (if members.isEmpty ∨ members.any (fun e => isDirect e.2) then
        [⟨false, path, direct members⟩] else []) ++ sections path members
  | .array items _ =>
      if items.isEmpty || !items.all isTable then [] else sectionsOf path items
  | _ => []

/-- The sections of the elements of an array of tables. -/
def sectionsOf (path : List String) : List Value → List Section
  | [] => []
  | .object members _ :: rest =>
      ⟨true, path, direct members⟩ :: sections path members ++ sectionsOf path rest
  | _ :: rest => sectionsOf path rest

end

/-- A header with the lines below it is the text of a section. -/
theorem toList_table (path : List String) (members : List (String × Value)) :
    ("[" ++ pathText path ++ "]\n" ++ writeLines pretty members).toList =
      Section.text pretty ⟨false, path, direct members⟩ := by
  simp [Section.text, Section.header, toList_writeLines]

theorem toList_element (path : List String) (members : List (String × Value)) :
    ("[[" ++ pathText path ++ "]]\n" ++ writeLines pretty members).toList =
      Section.text pretty ⟨true, path, direct members⟩ := by
  simp [Section.text, Section.header, toList_writeLines]

theorem map_writeHead (path : List String) (members : List (String × Value)) :
    (writeHead pretty (pathText path) members).map String.toList =
      (if members.isEmpty ∨ members.any (fun e => isDirect e.2) then
        [⟨false, path, direct members⟩] else []).map (Section.text pretty) := by
  rw [writeHead]
  split
  · rw [List.map_singleton, toList_table, List.map_singleton]
  · rfl

-- By induction on the values of the document, which the functions that write it
-- and those that list its sections go through alike.
mutual

/-- What is written of a table after its lines is the text of its sections. -/
theorem map_writeTables (path : List String) : (members : List (String × Value)) →
    (writeTables pretty (pathText path) members).map String.toList =
      (sections path members).map (Section.text pretty)
  | [] => rfl
  | (name, v) :: rest => by
      rw [writeTables, sections, List.map_append, List.map_append, ← pathText_concat,
        map_writeTable, map_writeTables path rest]

theorem map_writeTable (path : List String) : (v : Value) →
    (writeTable pretty (pathText path) v).map String.toList =
      (sectionsAt path v).map (Section.text pretty)
  | .object members _ => by
      rw [writeTable, sectionsAt, List.map_append, List.map_append, map_writeHead,
        map_writeTables path members]
  | .array items _ => by
      rw [writeTable, sectionsAt]
      split
      · rfl
      · exact map_writeElements path items
  | .null | .bool _ | .integer _ | .decimal _ | .string _ | .moment _ | .flawed _ => rfl

theorem map_writeElements (path : List String) : (items : List Value) →
    (writeElements pretty (pathText path) items).map String.toList =
      (sectionsOf path items).map (Section.text pretty)
  | [] => rfl
  | .object members _ :: rest => by
      rw [writeElements, sectionsOf, List.map_append, List.map_append, List.map_cons,
        List.map_cons, toList_element, map_writeTables path members, map_writeElements path rest]
  | .null :: rest | .bool _ :: rest | .integer _ :: rest | .decimal _ :: rest
  | .string _ :: rest | .moment _ :: rest | .flawed _ :: rest | .array _ _ :: rest => by
      rw [writeElements, sectionsOf, map_writeElements path rest]
      all_goals exact fun _ _ h => nomatch h

end

/-! ## Flat tables -/

/-- Members that all stand on the line of their key. -/
def Flat (members : List (String × Value)) : Prop := ∀ e ∈ members, isDirect e.2 = true

theorem sections_eq_flatMap (path : List String) (members : List (String × Value)) :
    sections path members = members.flatMap fun e => sectionsAt (path ++ [e.1]) e.2 := by
  induction members with
  | nil => rw [sections, List.flatMap_nil]
  | cons e members ih => rw [sections, ih, List.flatMap_cons]

theorem sections_append (path : List String) (members members' : List (String × Value)) :
    sections path (members ++ members') = sections path members ++ sections path members' := by
  rw [sections_eq_flatMap, sections_eq_flatMap, sections_eq_flatMap, List.flatMap_append]

theorem sectionsAt_of_isDirect {v : Value} (h : isDirect v = true) (path : List String) :
    sectionsAt path v = [] := by
  cases v with
  | object members flaw => exact nomatch h
  | array items flaw =>
      rw [isDirect] at h
      rw [sectionsAt]
      by_cases hempty : items.isEmpty = true
      · rw [if_pos (by simp [hempty])]
      · rw [if_pos (by simpa [hempty] using h)]
  | _ => rw [sectionsAt] <;> simp

variable {members : List (String × Value)}

theorem Flat.direct_eq (h : Flat members) : direct members = members :=
  List.filter_eq_self.mpr h

theorem Flat.sections_eq_nil (h : Flat members) (path : List String) :
    sections path members = [] := by
  rw [sections_eq_flatMap, List.flatMap_eq_nil_iff]
  exact fun e he => sectionsAt_of_isDirect (h e he) _

/-- A flat table is one section. -/
theorem Flat.sectionsAt_map (h : Flat members) (path : List String) :
    sectionsAt path (.map members) = [⟨false, path, members⟩] := by
  rw [sectionsAt, h.sections_eq_nil, h.direct_eq, List.append_nil, if_pos]
  cases members with
  | nil => exact .inl rfl
  | cons e members => exact .inr (by simp [h e List.mem_cons_self])

variable {α : Type} {value : α → List (String × Value)}

/-- Data are known by their sections if they are known by their members. -/
theorem Section.map_injective (hvalue : value.Injective) {element : Bool} {path : List String} :
    (List.map fun a => Section.mk element path (value a)).Injective :=
  List.map_injective_iff.mpr fun _ _ h => hvalue (Section.mk.inj h).2.2

/-- Several flat tables are a section each. -/
theorem sectionsAt_list (h : ∀ a, Flat (value a)) (path : List String) (as : List α) :
    sectionsAt path (.list (as.map fun a => .map (value a))) =
      as.map fun a => ⟨true, path, value a⟩ := by
  have hall : (as.map fun a => Value.map (value a)).all isTable = true := by
    simp [isTable]
  have hof : sectionsOf path (as.map fun a => .map (value a)) =
      as.map fun a => ⟨true, path, value a⟩ := by
    induction as with
    | nil => rfl
    | cons a as ih =>
        rw [List.map_cons, sectionsOf, (h a).sections_eq_nil, (h a).direct_eq,
          ih (by simp [isTable]), List.map_cons]
        rfl
  rw [sectionsAt, hall, Bool.not_true, Bool.or_false]
  cases as with
  | nil => rfl
  | cons a as => exact hof

/-- So they are if they have names. -/
theorem sectionsAt_tables (h : ∀ a, Flat (value a)) (path : List String)
    (es : List (String × α)) :
    sectionsAt path (.map (es.map fun e => (e.1, .map (value e.2)))) =
      (if es = [] then [⟨false, path, []⟩] else [])
        ++ es.map fun e => ⟨false, path ++ [e.1], value e.2⟩ := by
  have hnone :
      (es.map fun e => (e.1, Value.map (value e.2))).any (fun e => isDirect e.2) = false := by
    simp [isDirect]
  rw [sectionsAt, hnone, sections_eq_flatMap, List.flatMap_map]
  simp only [(h _).sectionsAt_map]
  cases es with
  | nil => rfl
  | cons e es => simp [List.map_eq_flatMap]

/-! ## Sections told apart -/

/-- A section with plain values on its lines. -/
def Section.Plain (t : Section) : Prop := ∀ e ∈ t.lines, e.2.Plain

theorem plain_direct {members : List (String × Value)} (h : ∀ e ∈ members, e.2.Plain) :
    ∀ e ∈ direct members, e.2.Plain :=
  fun e he => h e (List.mem_of_mem_filter he)

mutual

/-- The sections of plain values are plain. -/
theorem plain_of_mem_sections (path : List String) : (members : List (String × Value)) →
    (∀ e ∈ members, e.2.Plain) → ∀ t ∈ sections path members, t.Plain
  | [], _ => by
      intro t ht
      rw [sections] at ht
      exact absurd ht List.not_mem_nil
  | (name, v) :: rest, h => by
      rw [List.forall_mem_cons] at h
      intro t ht
      rw [sections, List.mem_append] at ht
      rcases ht with ht | ht
      · exact plain_of_mem_sectionsAt _ v h.1 t ht
      · exact plain_of_mem_sections path rest h.2 t ht

theorem plain_of_mem_sectionsAt (path : List String) : (v : Value) → v.Plain →
    ∀ t ∈ sectionsAt path v, t.Plain
  | .object members flaw, h => by
      have h : ∀ e ∈ members, e.2.Plain := by
        cases h with
        | map h => exact h
      intro t ht
      rw [sectionsAt, List.mem_append] at ht
      rcases ht with ht | ht
      · split at ht
        · rw [List.mem_singleton.mp ht]
          exact plain_direct h
        · exact absurd ht List.not_mem_nil
      · exact plain_of_mem_sections path members h t ht
  | .array items flaw, h => by
      have h : ∀ v ∈ items, v.Plain := by
        cases h with
        | list h => exact h
      intro t ht
      rw [sectionsAt] at ht
      split at ht
      · exact absurd ht List.not_mem_nil
      · exact plain_of_mem_sectionsOf path items h t ht
  | .null, _ | .bool _, _ | .integer _, _ | .decimal _, _ | .string _, _ | .moment _, _
  | .flawed _, _ => by
      intro t ht
      exact absurd ht List.not_mem_nil

theorem plain_of_mem_sectionsOf (path : List String) : (items : List Value) →
    (∀ v ∈ items, v.Plain) → ∀ t ∈ sectionsOf path items, t.Plain
  | [], _ => by
      intro t ht
      exact absurd ht List.not_mem_nil
  | .object members flaw :: rest, h => by
      rw [List.forall_mem_cons] at h
      have hmembers : ∀ e ∈ members, e.2.Plain := by
        cases h.1 with
        | map hmembers => exact hmembers
      intro t ht
      rw [sectionsOf, List.mem_append, List.mem_cons] at ht
      rcases ht with (rfl | ht) | ht
      · exact plain_direct hmembers
      · exact plain_of_mem_sections path members hmembers t ht
      · exact plain_of_mem_sectionsOf path rest h.2 t ht
  | .null :: rest, h | .bool _ :: rest, h | .integer _ :: rest, h | .decimal _ :: rest, h
  | .string _ :: rest, h | .moment _ :: rest, h | .flawed _ :: rest, h
  | .array _ _ :: rest, h => by
      intro t ht
      rw [sectionsOf] at ht
      · exact plain_of_mem_sectionsOf path rest (List.forall_mem_cons.mp h).2 t ht
      · exact fun _ _ h => nomatch h

end

/-- Headers are told apart, whatever follows. -/
theorem header_append_inj {t u : Section} {r s : List Char}
    (heq : t.header ++ r = u.header ++ s) :
    t.element = u.element ∧ t.path = u.path ∧ r = s := by
  have hbracket : StartsNoKey '[' := startsNoKey_of_not_bare (by decide) (by decide) (by decide)
  -- The second bracket of an element is not taken for the beginning of a path.
  have hne : ∀ (path : List String) (r s : List Char),
      (pathText path).toList ++ ']' :: r ≠ '[' :: s := by
    intro path r s heq
    cases path with
    | nil => exact absurd (List.cons.inj heq).1 (by decide)
    | cons name path => exact pathText_append_ne hbracket name path rfl s heq
  obtain ⟨_ | _, path, lines⟩ := t
  · obtain ⟨_ | _, path', lines'⟩ := u
    · simp only [Section.header, Bool.false_eq_true, if_false, List.nil_append,
        List.append_assoc] at heq
      obtain ⟨rfl, hrest⟩ := toldApart_pathText path path' rfl rfl heq
      exact ⟨rfl, rfl, List.append_cancel_left hrest⟩
    · simp only [Section.header, Bool.false_eq_true, if_false, if_true, List.nil_append,
        List.append_assoc] at heq
      exact absurd heq (hne _ _ _)
  · obtain ⟨_ | _, path', lines'⟩ := u
    · simp only [Section.header, Bool.false_eq_true, if_false, if_true, List.nil_append,
        List.append_assoc] at heq
      exact absurd heq.symm (hne _ _ _)
    · simp only [Section.header, if_true, List.append_assoc, List.append_cancel_left_eq] at heq
      obtain ⟨rfl, hrest⟩ := toldApart_pathText path path' rfl rfl heq
      exact ⟨rfl, rfl, List.append_cancel_left hrest⟩

/-- Sections are told apart, if nothing or an empty line follows. -/
theorem toldApart_text {t u : Section} (ht : t.Plain) (hu : u.Plain) :
    ToldApart (Section.text pretty) (fun r => ∀ c ∈ r.head?, c = '\n') t u := by
  intro r s hr hs heq
  simp only [Section.text, List.cons_append, List.cons.injEq, true_and, List.append_assoc] at heq
  obtain ⟨helement, hpath, hrest⟩ := header_append_inj heq
  obtain ⟨hlines, hrs⟩ := toldApart_lines ht hu hr hs hrest
  obtain ⟨_, _, _⟩ := t
  obtain ⟨_, _, _⟩ := u
  subst helement hpath hlines
  exact ⟨rfl, hrs⟩

/-! ## Documents -/

/-- The text of a document with lines of its own: these, and then each section
    after an empty line. -/
theorem toList_write {members : List (String × Value)} (h : direct members ≠ []) :
    (write pretty (.map members)).toList =
      (direct members).flatMap (line pretty)
        ++ (sections [] members).flatMap fun t => '\n' :: t.text pretty := by
  have hhead : writeLines pretty members ≠ "" := by
    intro hhead
    have hlines := @toList_writeLines pretty members
    obtain ⟨e, rest, he⟩ := List.exists_cons_of_ne_nil h
    rw [hhead, he] at hlines
    simp [line] at hlines
  have htables : (writeTables pretty "" members).map String.toList =
      (sections [] members).map (Section.text pretty) := map_writeTables [] members
  rw [write, if_neg hhead, String.toList_intercalate, List.map_cons, htables, intercalate_cons,
    toList_writeLines, List.flatMap_map]
  rfl

/-- What is on the lines of a plain document and what is in its sections is known by
    its text. -/
theorem sections_eq_of_write_eq {members members' : List (String × Value)}
    (hplain : ∀ e ∈ members, e.2.Plain) (hplain' : ∀ e ∈ members', e.2.Plain)
    (h : direct members ≠ []) (h' : direct members' ≠ [])
    (heq : write pretty (.map members) = write pretty (.map members')) :
    direct members = direct members' ∧ sections [] members = sections [] members' := by
  have hlist := congrArg String.toList heq
  rw [toList_write h, toList_write h'] at hlist
  have hnext : ∀ ts : List Section, ∀ c ∈ (ts.flatMap fun t => '\n' :: t.text pretty).head?,
      c = '\n' := by
    intro ts c hc
    cases ts with
    | nil => exact nomatch hc
    | cons t ts => exact (Option.some.inj hc).symm
  obtain ⟨hdirect, hrest⟩ := toldApart_lines (plain_direct hplain) (plain_direct hplain')
    (hnext _) (hnext _) hlist
  have hsections : ToldApart (fun ts : List Section => ts.flatMap fun t => '\n' :: t.text pretty)
      (fun r => r = []) (sections [] members) (sections [] members') := by
    refine toldApart_flatMap (fun r => r.head? = some '\n') (fun r => ∀ c ∈ r.head?, c = '\n')
      (fun t r => rfl) (fun r hr => by simp [hr]) (fun t r => by simp) fun t ht u hu => ?_
    exact (toldApart_text (plain_of_mem_sections [] members hplain t ht)
      (plain_of_mem_sections [] members' hplain' u hu)).cons _
  refine ⟨hdirect, (hsections rfl rfl ?_).1⟩
  rw [List.append_nil, List.append_nil]
  exact hrest

end Classpath.Toml
