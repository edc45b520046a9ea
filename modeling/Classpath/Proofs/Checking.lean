import Classpath.CommandLine.Run
import Classpath.FileTree
import Classpath.Proofs.Assembly.Classifying
import Classpath.Proofs.Loading

/-! # Checking — the verdict on a file foretells what applying it does

    A check applies a file to an assembly of its own, and it does so only if
    the file sets marks at all.  Neither matters: what is wrong with a file
    depends on the file alone (`fault?_eq_check`), and a file without marks
    has nothing to contribute (`value_applyProperties_of_unmarked`).  Even what
    is reported of the lists is the same (`events_applyProperties`).  So
    several files pass their check just when they can be applied one after
    the other to whatever there is (`checkFault_eq_none_iff`); and if all of
    them can be read, each gets its verdict (`checkAll_of_readable`). -/

namespace Classpath

/-! ## Files without marks -/

namespace Properties

variable {p : Properties}

theorem getElem?_of_not_hasMarks (h : p.hasMarks = false) {m : Mark}
    (hm : m ∈ Mark.fromExtensions) : p[m.property]? = none := by
  rw [hasMarks, List.any_eq_false] at h
  have hnot : m.property ∉ p := by
    rw [← Std.ExtTreeMap.contains_iff_mem]
    exact h m hm
  exact Std.ExtTreeMap.getElem?_eq_none hnot

theorem listed_of_not_hasMarks (h : p.hasMarks = false) {m : Mark}
    (hm : m ∈ Mark.fromExtensions) : p.listed m = [] := by
  rw [listed, getElem?_of_not_hasMarks h hm]

theorem firstMalformed?_of_not_hasMarks (h : p.hasMarks = false) :
    p.firstMalformed? = none := by
  refine List.findSome?_eq_none_iff.mpr fun m hm => ?_
  rw [malformed?, getElem?_of_not_hasMarks h hm]
  rfl

end Properties

/-! ## One file -/

/-- The fault that a verdict foretells. -/
def Verdict.fault? : Verdict → Option Fault
  | .invalid cause => some (.malformedCoordinate cause)
  | _ => none

variable {s : Source}

theorem check_of_error {cause : IoFault} (h : s.contents = .error cause) :
    check s = .error (.io cause) := by
  rw [check, examine, Properties.ofSource, h]
  rfl

theorem check_of_ok {text : String} (h : s.contents = .ok text) :
    check s = .ok (if (Properties.parse text).hasMarks then
      match (Properties.parse text).firstMalformed? with
      | none => .valid
      | some cause => .invalid cause
      else .unmarked) := by
  rw [check, examine, Properties.ofSource, h]
  dsimp only
  cases (Properties.parse text).hasMarks with
  | false => rfl
  | true =>
      show Traced.value (Assembly.empty.classify (Properties.parse text)
        (Path.extensionName s.path) >>= _) = _
      rw [Traced.value_bind, Assembly.value_classify]
      cases (Properties.parse text).firstMalformed? with
      | none => rfl
      | some cause => rfl

/-- A check reports what there is to say about each list of the file. -/
theorem events_examine {text : String} (h : s.contents = .ok text) :
    (examine s).events = Mark.fromExtensions.flatMap
      (Assembly.listEvents (Properties.parse text) (Path.extensionName s.path)) := by
  rw [examine, Properties.ofSource, h]
  dsimp only
  cases hmarks : (Properties.parse text).hasMarks with
  | false =>
      -- Where there is no list there is nothing to say.
      refine (List.flatMap_eq_nil_iff.mpr fun m hm => ?_).symm
      rw [Assembly.listEvents, Properties.listed_of_not_hasMarks hmarks hm, Properties.malformed?,
        Properties.getElem?_of_not_hasMarks hmarks hm]
      cases m <;> rfl
  | true =>
      show Traced.events (Assembly.empty.classify (Properties.parse text)
        (Path.extensionName s.path) >>= _) = _
      rw [Traced.events_bind, Assembly.events_classify, Assembly.value_classify]
      cases (Properties.parse text).firstMalformed? with
      | none => exact List.append_nil _
      | some cause => exact List.append_nil _

/-- Applying the file, to whatever there is, reports the same between its path and
    its fault. -/
theorem events_applyProperties {text : String} (h : s.contents = .ok text) (a : Assembly) :
    (a.applyProperties s).events = .applyingProperties s.path :: ((examine s).events ++
      ((Properties.parse text).firstMalformed?.map (Event.invalidProperties s.path)).toList) := by
  rw [events_examine h, Assembly.applyProperties, Properties.ofSource, h]
  show Traced.events (Traced.emit _ >>= fun _ =>
    a.classify (Properties.parse text) (Path.extensionName s.path) >>= _) = _
  rw [Traced.events_bind, Traced.events_bind, Assembly.events_classify, Assembly.value_classify]
  cases (Properties.parse text).firstMalformed? with
  | none => rfl
  | some cause => rfl

/-- A check finds the fault of a file, whether it ends the check or not. -/
theorem fault?_eq_check (s : Source) : s.fault? = match check s with
    | .error fault => some fault
    | .ok verdict => verdict.fault? := by
  rw [Source.fault?]
  cases hs : s.contents with
  | error cause => rw [check_of_error hs]
  | ok text =>
      rw [check_of_ok hs]
      dsimp only
      cases hmarks : (Properties.parse text).hasMarks with
      | false =>
          rw [Properties.firstMalformed?_of_not_hasMarks hmarks]
          rfl
      | true =>
          cases (Properties.parse text).firstMalformed? with
          | none => rfl
          | some cause => rfl

theorem check_eq_error_iff {fault : Fault} :
    check s = .error fault ↔ ∃ cause, s.contents = .error cause ∧ fault = .io cause := by
  cases hs : s.contents with
  | error cause =>
      rw [check_of_error hs]
      constructor
      · intro h
        exact ⟨cause, rfl, (Except.error.inj h).symm⟩
      · rintro ⟨cause', h, rfl⟩
        rw [Except.error.inj h]
  | ok text =>
      rw [check_of_ok hs]
      exact iff_of_false (fun h => nomatch h) fun ⟨_, h, _⟩ => nomatch h

/-- Reading a file fails in a check just as it does otherwise. -/
theorem check_eq_io_iff {cause : IoFault} :
    check s = .error (.io cause) ↔ s.fault? = some (.io cause) := by
  rw [fault?_eq_check]
  cases hs : check s with
  | error fault =>
      constructor
      · intro h
        exact congrArg some (Except.error.inj h)
      · intro h
        exact congrArg Except.error (Option.some.inj h)
  | ok verdict =>
      refine iff_of_false (fun h => nomatch h) ?_
      cases verdict with
      | invalid cause => exact fun h => nomatch h
      | valid => exact fun h => nomatch h
      | unmarked => exact fun h => nomatch h

/-- A file is invalid for what is wrong with its lists. -/
theorem check_eq_invalid_iff {cause : MalformedCoordinate} :
    check s = .ok (.invalid cause) ↔ s.fault? = some (.malformedCoordinate cause) := by
  rw [fault?_eq_check]
  cases hs : check s with
  | error fault =>
      obtain ⟨cause, -, rfl⟩ := check_eq_error_iff.mp hs
      exact iff_of_false (fun h => nomatch h) fun h => nomatch h
  | ok verdict =>
      cases verdict with
      | invalid cause =>
          constructor
          · intro h
            rw [Except.ok.inj h]
            rfl
          · intro h
            rw [Fault.malformedCoordinate.inj (Option.some.inj h)]
      | valid => exact iff_of_false (fun h => nomatch h) fun h => nomatch h
      | unmarked => exact iff_of_false (fun h => nomatch h) fun h => nomatch h

/-- There is nothing else that could be wrong. -/
theorem fault?_cases {fault : Fault} (h : s.fault? = some fault) :
    (∃ cause, fault = .io cause) ∨ ∃ cause, fault = .malformedCoordinate cause := by
  rw [Source.fault?] at h
  cases hs : s.contents with
  | error cause =>
      rw [hs] at h
      exact .inl ⟨cause, (Option.some.inj h).symm⟩
  | ok text =>
      rw [hs] at h
      obtain ⟨cause, -, hcause⟩ := Option.map_eq_some_iff.mp h
      exact .inr ⟨cause, hcause.symm⟩

/-- A file can be applied when it passes its check. -/
theorem fault?_eq_none_iff_check :
    s.fault? = none ↔ ∃ verdict, check s = .ok verdict ∧ verdict.isValid = true := by
  rw [fault?_eq_check]
  cases check s with
  | error fault => exact iff_of_false (fun h => nomatch h) fun ⟨_, h, _⟩ => nomatch h
  | ok verdict =>
      cases verdict with
      | invalid cause =>
          refine iff_of_false (fun h => nomatch h) ?_
          rintro ⟨verdict, h, hvalid⟩
          rw [← Except.ok.inj h] at hvalid
          exact nomatch hvalid
      | valid => exact iff_of_true rfl ⟨_, rfl, rfl⟩
      | unmarked => exact iff_of_true rfl ⟨_, rfl, rfl⟩

theorem isValid_iff {verdict : Verdict} :
    verdict.isValid = true ↔ verdict = .valid ∨ verdict = .unmarked := by
  cases verdict <;> simp [Verdict.isValid]

/-- A file without marks changes nothing when it is applied. -/
theorem value_applyProperties_of_unmarked (h : check s = .ok .unmarked) (a : Assembly) :
    (a.applyProperties s).value = (a, none) := by
  have hfault : s.fault? = none := by
    rw [fault?_eq_check, h]
    rfl
  have hmarked : ∀ m ∈ Mark.fromExtensions, s.listed m = [] := by
    intro m hm
    rw [Source.listed]
    cases hs : s.contents with
    | error cause => rfl
    | ok text =>
        rw [check_of_ok hs] at h
        dsimp only
        cases hmarks : (Properties.parse text).hasMarks with
        | false => exact Properties.listed_of_not_hasMarks hmarks hm
        | true =>
            rw [hmarks, if_pos rfl] at h
            cases hf : (Properties.parse text).firstMalformed? with
            | none =>
                rw [hf] at h
                cases h
            | some cause =>
                rw [hf] at h
                cases h
  have hcontribution : s.contribution = {} := by
    rw [Source.contribution]
    refine congrArg (fun f => ({ marked := f } : Contribution)) ?_
    funext m
    by_cases hm : m ∈ Mark.fromExtensions
    · rw [if_pos hm, hmarked m hm]
    · rw [if_neg hm]
  rw [Assembly.value_applyProperties, hfault, hcontribution, Assembly.receive_empty]

/-! ## Several files -/

theorem checkAll_cons_of_error {files : List Source} {fault : Fault}
    (h : check s = .error fault) : checkAll (s :: files) = ([], some fault) := by
  rw [checkAll, examineAll, Traced.value_bind, ← check, h]
  rfl

theorem checkAll_cons_of_ok {files : List Source} {verdict : Verdict}
    (h : check s = .ok verdict) :
    checkAll (s :: files) =
      ((s.path, verdict) :: (checkAll files).1, (checkAll files).2) := by
  rw [checkAll, examineAll, Traced.value_bind, ← check, h]
  rfl

/-- What is reported of several files is what is reported of each up to the first
    that cannot be read. -/
theorem events_examineAll (files : List Source) :
    (examineAll files).events =
      (files.takeWhile fun s => s.contents.isOk).flatMap fun s => (examine s).events := by
  induction files with
  | nil => rfl
  | cons s files ih =>
      rw [examineAll, Traced.events_bind, ← check]
      cases hs : s.contents with
      | error cause =>
          rw [List.takeWhile_cons_of_neg (by rw [hs]; exact Bool.false_ne_true), check_of_error hs,
            examine, Properties.ofSource, hs]
          rfl
      | ok text =>
          rw [List.takeWhile_cons_of_pos (by rw [hs]; rfl), List.flatMap_cons, ← ih,
            check_of_ok hs]
          show (examine s).events ++ ((examineAll files).events ++ []) = _
          rw [List.append_nil]

/-- The number of files that do not pass. -/
def failures (verdicts : List (String × Verdict)) : Nat :=
  verdicts.countP fun r => !r.2.isValid

theorem checkFault_eq (result : List (String × Verdict) × Option Fault) :
    checkFault result = result.2.or (if failures result.1 = 0 then none
      else some (.failedValidation (failures result.1))) := by
  rw [checkFault, failures, List.countP_eq_length_filter]

/-- There is nothing to complain of when each file is read and passes. -/
theorem checkFault_eq_none_iff {files : List Source} :
    checkFault (checkAll files) = none ↔ files.findSome? Source.fault? = none := by
  rw [List.findSome?_eq_none_iff]
  induction files with
  | nil => exact iff_of_true rfl fun s hs => absurd hs List.not_mem_nil
  | cons s files ih =>
      rw [List.forall_mem_cons, ← ih, fault?_eq_none_iff_check]
      cases hs : check s with
      | error fault =>
          rw [checkAll_cons_of_error hs]
          exact iff_of_false (fun h => nomatch h) fun ⟨⟨_, h, _⟩, _⟩ => nomatch h
      | ok verdict =>
          rw [checkAll_cons_of_ok hs, checkFault_eq, checkFault_eq, failures,
            List.countP_cons, ← failures]
          dsimp only
          cases (checkAll files).2 with
          | some fault => simp
          | none =>
              -- One more invalid file makes the count positive.
              cases hvalid : verdict.isValid with
              | false => simp [hvalid]
              | true => simp [hvalid]

/-- If all files can be read, each of them gets its verdict, in order. -/
theorem checkAll_of_readable {files : List Source}
    (h : ∀ s ∈ files, ∃ text, s.contents = .ok text) :
    ∃ verdicts, List.Forall₂ (fun s verdict => check s = .ok verdict) files verdicts
      ∧ checkAll files =
          ((files.map fun s => s.path).zip verdicts, none) := by
  induction files with
  | nil => exact ⟨[], .nil, rfl⟩
  | cons s files ih =>
      obtain ⟨⟨text, htext⟩, hfiles⟩ := List.forall_mem_cons.mp h
      obtain ⟨verdicts, hverdicts, hall⟩ := ih hfiles
      have hs := check_of_ok htext
      refine ⟨_ :: verdicts, .cons hs hverdicts, ?_⟩
      rw [checkAll_cons_of_ok hs, hall]
      rfl

/-- The report on files that have been read. -/
def CommandLine.checkReport (files : List Source) : CommandLine.Report where
  out := String.join ((checkAll files).1.map fun r => r.2.line r.1 ++ "\n")
  events := (examineAll files).events
  fault := checkFault (checkAll files)

/-- Files can be applied one after the other, to whatever there is, when there
    is nothing to report of them. -/
theorem fault_checkReport_eq_none_iff {files : List Source} (a : Assembly) :
    (CommandLine.checkReport files).fault = none ↔
      ∃ b, (a.applyAll files).value = .ok b := by
  show checkFault (checkAll files) = none ↔ _
  rw [checkFault_eq_none_iff, Assembly.value_applyAll]
  cases files.findSome? Source.fault? with
  | some fault => exact iff_of_false (fun h => nomatch h) fun ⟨_, h⟩ => nomatch h
  | none => exact iff_of_true rfl ⟨_, rfl⟩

/-- A descriptor with an application makes a model together with such files,
    and with no others. -/
theorem load_iff_checkReport {descriptor : Source} {configured explicit : List Source}
    {d : Descriptor} (hd : Descriptor.ofSource descriptor = .ok d) (happ : d.app ≠ none) :
    (∃ m, (load descriptor configured explicit).value = .ok m) ↔
      (CommandLine.checkReport (configured ++ explicit)).fault = none := by
  show _ ↔ checkFault (checkAll (configured ++ explicit)) = none
  rw [checkFault_eq_none_iff, value_load, hd]
  dsimp only
  cases (configured ++ explicit).findSome? Source.fault? with
  | some fault => exact iff_of_false (fun ⟨_, h⟩ => nomatch h) fun h => nomatch h
  | none =>
      rw [if_neg happ]
      exact iff_of_true ⟨_, rfl⟩ rfl

/-- Invalid verdicts are counted whatever their files are called. -/
theorem failures_zip {paths : List String} {verdicts : List Verdict}
    (h : paths.length = verdicts.length) :
    failures (paths.zip verdicts) =
      verdicts.countP fun verdict => !verdict.isValid := by
  conv_rhs => rw [← List.map_snd_zip (Nat.le_of_eq h.symm), List.countP_map]
  rfl

/-- A file is reported as invalid. -/
def Invalid (s : Source) : Prop := ∃ cause, check s = .ok (.invalid cause)

/-- Invalid files are those whose verdicts are counted. -/
theorem countP_eq_zero_iff {files : List Source} {verdicts : List Verdict}
    (h : List.Forall₂ (fun s verdict => check s = .ok verdict) files verdicts) :
    verdicts.countP (fun verdict => !verdict.isValid) = 0 ↔ ∀ s ∈ files, ¬ Invalid s := by
  induction h with
  | nil => exact iff_of_true rfl fun s hs => absurd hs List.not_mem_nil
  | @cons s verdict files verdicts hs _ ih =>
      rw [List.countP_cons, List.forall_mem_cons, ← ih, Invalid, hs]
      cases verdict with
      | invalid cause => simp [Verdict.isValid]
      | valid => simp [Verdict.isValid]
      | unmarked => simp [Verdict.isValid]

/-! ## What is foretold -/

/-- A check foretells what becomes of applying files to any assembly: for a
    single file it ends in the same fault of reading, is invalid with the words
    of any other fault and passes if there is none; and a file without marks
    changes nothing.  A report on several files is faultless just when all of
    them can be applied, and hence when they make a model together with a
    descriptor that has an application.  If all of them can be read, the report
    tells every verdict once and in order, and its fault counts the invalid
    ones. -/
theorem check_foretells_apply {m : Type → Type} [Monad m] [FileAccess m]
    (files : List Source) (a : Assembly) :
    (∀ paths, (CommandLine.runCheck paths : m CommandLine.Report) =
        paths.mapM FileAccess.source >>= fun read => pure (CommandLine.checkReport read))
      ∧ (∀ s : Source,
        (∀ cause, check s = .error (.io cause) ↔
          (a.applyProperties s).value.2 = some (.io cause))
        ∧ (∀ fault, check s = .error fault → ∃ cause, fault = .io cause)
        ∧ (∀ text, (∃ cause, check s = .ok (.invalid cause) ∧ cause.message = text) ↔
            ∃ fault, (a.applyProperties s).value.2 = some fault
              ∧ (∀ cause, fault ≠ .io cause) ∧ fault.message = text)
        ∧ (check s = .ok .valid ∨ check s = .ok .unmarked ↔
            (a.applyProperties s).value.2 = none)
        ∧ (check s = .ok .unmarked → (a.applyProperties s).value.1 = a))
      ∧ ((CommandLine.checkReport files).fault = none ↔
          ∃ b, (a.applyAll files).value = .ok b)
      ∧ (∀ descriptor d configured explicit, configured ++ explicit = files →
          Descriptor.ofSource descriptor = .ok d → d.app ≠ none →
          ((∃ m, (load descriptor configured explicit).value = .ok m) ↔
            (CommandLine.checkReport files).fault = none))
      ∧ ((∀ s ∈ files, ∃ text, s.contents = .ok text) →
          ∃ verdicts,
            List.Forall₂ (fun s verdict => check s = .ok verdict) files verdicts
            ∧ (CommandLine.checkReport files).out = String.join
                (List.zipWith (fun s verdict => verdict.line s.path ++ "\n") files verdicts)
            ∧ ((CommandLine.checkReport files).fault ≠ none ↔ ∃ s ∈ files, Invalid s)
            ∧ ∀ fault, (CommandLine.checkReport files).fault = some fault →
                fault = .failedValidation
                  (verdicts.countP fun verdict => !verdict.isValid)) := by
  refine ⟨fun _ => rfl, fun s => ?_, fault_checkReport_eq_none_iff a, ?_, fun h => ?_⟩
  · have hfault : (a.applyProperties s).value.2 = s.fault? := by
      rw [Assembly.value_applyProperties]
    refine ⟨fun cause => ?_, fun fault h => ?_, fun text => ?_, ?_, fun h => ?_⟩
    · rw [hfault]
      exact check_eq_io_iff
    · obtain ⟨cause, -, hcause⟩ := check_eq_error_iff.mp h
      exact ⟨cause, hcause⟩
    · rw [hfault]
      constructor
      · rintro ⟨cause, h, rfl⟩
        exact ⟨_, check_eq_invalid_iff.mp h, (fun _ h => nomatch h), rfl⟩
      · rintro ⟨fault, h, hio, rfl⟩
        rcases fault?_cases h with ⟨cause, rfl⟩ | ⟨cause, rfl⟩
        · exact absurd rfl (hio cause)
        · exact ⟨cause, check_eq_invalid_iff.mpr h, rfl⟩
    · rw [hfault, fault?_eq_none_iff_check]
      simp only [isValid_iff]
      constructor
      · rintro (h | h)
        · exact ⟨_, h, .inl rfl⟩
        · exact ⟨_, h, .inr rfl⟩
      · rintro ⟨verdict, h, rfl | rfl⟩
        · exact .inl h
        · exact .inr h
    · rw [value_applyProperties_of_unmarked h]
  · rintro descriptor d configured explicit rfl hd happ
    exact load_iff_checkReport hd happ
  · obtain ⟨verdicts, hverdicts, hall⟩ := checkAll_of_readable h
    have hlength : (files.map fun s => s.path).length = verdicts.length := by
      rw [List.length_map]
      exact hverdicts.length_eq
    have hreport : (CommandLine.checkReport files).fault =
        if verdicts.countP (fun verdict => !verdict.isValid) = 0 then none
        else some (.failedValidation (verdicts.countP fun verdict => !verdict.isValid)) := by
      show checkFault (checkAll files) = _
      rw [hall, checkFault_eq, Option.none_or, failures_zip hlength]
    refine ⟨verdicts, hverdicts, ?_, ?_, fun fault hfault => ?_⟩
    · show String.join ((checkAll files).1.map _) = _
      rw [hall, List.zip, List.map_zipWith, List.zipWith_map_left]
    · rw [hreport, ne_eq, ite_eq_left_iff]
      rw [countP_eq_zero_iff hverdicts]
      simp
    · rw [hreport] at hfault
      split at hfault
      · exact nomatch hfault
      · exact (Option.some.inj hfault).symm

/-- Of three files the last one is invalid, and the one before it is not about
    marks at all. -/
theorem check_foretells_apply_three :
    let good : Source := ⟨"a.properties", .ok "excluded-artifacts = g:a,, g:b"⟩
    let other : Source := ⟨"b.properties", .ok "name = x"⟩
    let bad : Source := ⟨"c.properties", .ok "excluded-artifacts = g:a, b"⟩
    let report := CommandLine.checkReport [good, other, bad]
    report.out = "ok       a.properties\n"
        ++ "skipped  b.properties (no classification keys)\n"
        ++ "invalid  c.properties: Malformed artifact coordinate 'b' (1 segment(s))\n"
      ∧ report.fault = some (.failedValidation 1)
      ∧ ¬ ∃ b, (Assembly.empty.applyAll [good, other, bad]).value = .ok b := by
  intro good other bad report
  have hgood : check good = .ok .valid := by rfl
  have hother : check other = .ok .unmarked := by rfl
  have hbad : check bad = .ok (.invalid ⟨"b", 1⟩) := by rfl
  obtain ⟨-, -, happly, -, hread⟩ :=
    check_foretells_apply (m := StateM FileTree) [good, other, bad] Assembly.empty
  have hreadable : ∀ s ∈ [good, other, bad], ∃ text, s.contents = .ok text := by
    intro s hs
    simp only [List.mem_cons, List.not_mem_nil, or_false] at hs
    rcases hs with rfl | rfl | rfl
    · exact ⟨_, rfl⟩
    · exact ⟨_, rfl⟩
    · exact ⟨_, rfl⟩
  obtain ⟨verdicts, hverdicts, hout, hinvalid, hcount⟩ := hread hreadable
  have hall : verdicts = [.valid, .unmarked, .invalid ⟨"b", 1⟩] := by
    cases hverdicts with
    | cons h₁ h =>
        cases h with
        | cons h₂ h =>
            cases h with
            | cons h₃ h =>
                cases h with
                | nil =>
                    rw [← Except.ok.inj (hgood.symm.trans h₁),
                      ← Except.ok.inj (hother.symm.trans h₂),
                      ← Except.ok.inj (hbad.symm.trans h₃)]
  have hfails : report.fault ≠ none :=
    hinvalid.mpr ⟨bad, by simp, _, hbad⟩
  obtain ⟨fault, hfault⟩ := Option.ne_none_iff_exists'.mp hfails
  refine ⟨?_, ?_, mt happly.mpr hfails⟩
  · rw [hout, hall]
    rfl
  · rw [hfault, hcount fault hfault, hall]
    rfl

end Classpath
