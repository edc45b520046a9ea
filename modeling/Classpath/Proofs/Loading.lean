import Classpath.Loading
import Classpath.Proofs.Assembly.History

/-! # Loading — the first fault, or the model of all that was read

    What comes of loading is decided in a fixed order: the descriptor, then
    the properties files one after the other (`value_applyAll`), then whether
    there is an application.  The fault of a properties file is that of
    reading it or else of its first malformed list.  If there is no fault, the
    model is that of the descriptor, whose sets have been joined with those of
    every file; nothing that a file says replaces what another said. -/

namespace Classpath

open Dependency (settled)

/-! ## What a file says -/

namespace Source

/-- What is wrong with a properties file: it cannot be read, or a list in it
    is malformed. -/
def fault? (s : Source) : Option Fault :=
  match s.contents with
  | .error cause => some (.io cause)
  | .ok text =>
      (Properties.parse text).firstMalformed?.map .malformedCoordinate

/-- The coordinates to which a properties file gives a mark. -/
def listed (s : Source) (m : Mark) : List Coordinate :=
  match s.contents with
  | .error _ => []
  | .ok text => (Properties.parse text).listed m

/-- The contribution of a properties file. -/
def contribution (s : Source) : Contribution where
  marked m := if m ∈ Mark.fromExtensions then s.listed m else []

theorem contribution_of_error {s : Source} {cause : IoFault}
    (h : s.contents = .error cause) : s.contribution = {} := by
  rw [contribution]
  refine congrArg (fun f => ({ marked := f } : Contribution)) ?_
  funext m
  rw [listed, h]
  exact ite_self _

theorem contribution_of_ok {s : Source} {text : String} (h : s.contents = .ok text) :
    s.contribution = .ofProperties (Properties.parse text) := by
  rw [contribution, Contribution.ofProperties]
  refine congrArg (fun f => ({ marked := f } : Contribution)) ?_
  funext m
  rw [listed, h]

/-- What gives a mark to something has been read. -/
theorem exists_of_mem_listed {s : Source} {m : Mark} {k : Coordinate} (h : k ∈ s.listed m) :
    ∃ text, s.contents = .ok text ∧ k ∈ (Properties.parse text).listed m := by
  rw [listed] at h
  cases hs : s.contents with
  | error cause =>
      rw [hs] at h
      exact absurd h List.not_mem_nil
  | ok text =>
      rw [hs] at h
      exact ⟨text, rfl, h⟩

/-- Whatever a file gives a mark can be listed again. -/
theorem tidy_of_listed {s : Source} {m : Mark} {k : Coordinate} (h : k ∈ s.listed m) :
    k.Tidy ∧ ',' ∉ k.display.toList := by
  obtain ⟨text, -, hk⟩ := exists_of_mem_listed h
  exact Properties.tidy_of_listed hk

end Source

namespace Descriptor

/-- The contribution of a descriptor.  A platform without contents counts as
    none. -/
def contribution (d : Descriptor) : Contribution where
  app := d.app
  platform := d.platform.filter fun p => !p.isEmpty
  capabilities := some d.capabilities
  added := d.dependencies
  marked := d.classification.get

/-- The coordinates to which a descriptor and properties files give a mark. -/
def listed (d : Descriptor) (files : List Source) (m : Mark) : List Coordinate :=
  d.classification.get m ++ files.flatMap fun s => s.listed m

/-- The model of a descriptor and properties files. -/
def model (d : Descriptor) (files : List Source) : Model where
  parentFirst := .ofList (d.listed files .parentFirst) compare
  runnerParentFirst := .ofList (d.listed files .runnerParentFirst) compare
  lesserPriority := .ofList (d.listed files .lesserPriority) compare
  localProject := .ofList d.classification.localProject compare
  app := d.app
  dependencies := (settled d.dependencies).filter fun x =>
    ¬ (x.key.group = "io.quarkus" ∧ x.key.artifact = "quarkus-ide-launcher")
      ∧ x.key ∉ d.listed files .excluded
  capabilities := d.capabilities
  platform := d.platform.filter fun p => !p.isEmpty

end Descriptor

/-! ## Applying them -/

namespace Assembly

theorem value_applyDescriptor (a : Assembly) (d : Descriptor) :
    (a.applyDescriptor d).value = a.receive d.contribution := by
  have hadd := addAll_with a { a with
      app := d.app.or a.app
      platform := (d.platform.filter fun p => !p.isEmpty).or a.platform }
    rfl rfl d.dependencies
  show { (Assembly.addAll { a with
      app := d.app.or a.app
      platform := (d.platform.filter fun p => !p.isEmpty).or a.platform }
    d.dependencies).value.markEach Mark.all d.classification.get with
      capabilities := d.capabilities } = a.receive d.contribution
  rw [markEach_eq]
  refine eq_receive ?_ ?_ ?_ ?_ rfl fun m k => ?_
  · rw [hadd]
    rfl
  · rw [hadd]
    rfl
  · rw [hadd]
    rfl
  · rw [hadd]
    rfl
  · rw [mem_marks_markEach, hadd]
    show k ∈ a.marks.get m ∨ m ∈ Mark.all ∧ k ∈ d.classification.get m ↔ _
    rw [and_iff_right (Mark.mem_all m)]
    exact Iff.rfl

/-- A file is applied as far as it is well formed. -/
theorem value_applyProperties (a : Assembly) (s : Source) :
    (a.applyProperties s).value = (a.receive s.contribution, s.fault?) := by
  rw [applyProperties, Properties.ofSource, Source.fault?]
  cases hs : s.contents with
  | error cause =>
      show (a, some (Fault.io cause)) = _
      rw [Source.contribution_of_error hs, receive_empty]
  | ok text =>
      have houtcome : (a.classify (Properties.parse text)
          (Path.extensionName s.path)).value =
          (a.receive s.contribution, (Properties.parse text).firstMalformed?) := by
        rw [Source.contribution_of_ok hs]
        refine Prod.ext (classify_eq_receive a _ _) ?_
        rw [value_classify]
      show Traced.value (Traced.emit _ >>= fun _ =>
        a.classify (Properties.parse text) (Path.extensionName s.path) >>= _)
        = (a.receive s.contribution,
            (Properties.parse text).firstMalformed?.map Fault.malformedCoordinate)
      rw [Traced.value_bind, Traced.value_bind, houtcome]
      cases (Properties.parse text).firstMalformed? with
      | none => rfl
      | some cause => rfl

/-- Files are applied one after the other up to the first fault. -/
theorem value_applyAll (a : Assembly) (files : List Source) :
    (a.applyAll files).value = match files.findSome? Source.fault? with
      | some fault => .error fault
      | none => .ok (a.receive (.sum (files.map Source.contribution))) := by
  induction files generalizing a with
  | nil =>
      show Except.ok a = .ok (a.receive {})
      rw [receive_empty]
  | cons s files ih =>
      rw [applyAll, Traced.value_bind, value_applyProperties, List.findSome?_cons]
      cases hf : s.fault? with
      -- A fault ends the run, whatever is wrong with the files after it.
      | some fault => rfl
      | none =>
          show ((a.receive s.contribution).applyAll files).value = _
          rw [ih, ← foldl_receive, ← foldl_receive]
          rfl

end Assembly

/-! ## The outcome -/

/-- The contributions of a descriptor and of files after it. -/
def filesAfter (d : Descriptor) (files : List Source) : Contribution :=
  d.contribution ++ .sum (files.map Source.contribution)

/-- A file sets nothing: what it could set stays as the descriptor has it. -/
theorem setting_filesAfter {σ : Type} (setting : Contribution → Option σ)
    (hempty : setting {} = none)
    (happend : ∀ c c' : Contribution,
      setting (c ++ c') = (setting c').or (setting c))
    (hfile : ∀ s : Source, setting s.contribution = none)
    (d : Descriptor) (files : List Source) :
    setting (filesAfter d files) = setting d.contribution := by
  have hnone : (files.map Source.contribution).filterMap setting = [] := by
    rw [List.filterMap_map]
    exact List.filterMap_eq_nil_iff.mpr fun s _ => hfile s
  rw [filesAfter, happend, Contribution.setting_sum setting hempty happend, hnone]
  exact Option.none_or

theorem added_filesAfter (d : Descriptor) (files : List Source) :
    (filesAfter d files).added = d.dependencies := by
  show d.dependencies ++ (Contribution.sum (files.map Source.contribution)).added = _
  rw [Contribution.added_sum, List.flatMap_map]
  have hnil : files.flatMap (fun s => s.contribution.added) = [] :=
    List.flatMap_eq_nil_iff.mpr fun s _ => rfl
  rw [hnil, List.append_nil]

theorem marked_filesAfter (d : Descriptor) (files : List Source) {m : Mark}
    (h : m ∈ Mark.fromExtensions) :
    (filesAfter d files).marked m = d.listed files m := by
  show d.classification.get m
    ++ (Contribution.sum (files.map Source.contribution)).marked m = _
  rw [Contribution.marked_sum, List.flatMap_map, Descriptor.listed]
  refine congrArg (fun f => d.classification.get m ++ files.flatMap f) ?_
  funext s
  exact if_pos h

theorem localProject_filesAfter (d : Descriptor) (files : List Source) :
    (filesAfter d files).marked .localProject = d.classification.localProject := by
  show d.classification.localProject
    ++ (Contribution.sum (files.map Source.contribution)).marked .localProject = _
  rw [Contribution.marked_sum, List.flatMap_map]
  have hnil : files.flatMap (fun s => s.contribution.marked .localProject) = [] :=
    List.flatMap_eq_nil_iff.mpr fun s _ => rfl
  rw [hnil, List.append_nil]

theorem model_filesAfter (d : Descriptor) (files : List Source) :
    (filesAfter d files).model = d.model files := by
  have happ := setting_filesAfter (fun c => c.app) rfl (fun _ _ => rfl)
    (fun _ => rfl) d files
  have hplatform := setting_filesAfter (fun c => c.platform) rfl (fun _ _ => rfl)
    (fun _ => rfl) d files
  have hcapabilities := setting_filesAfter (fun c => c.capabilities) rfl
    (fun _ _ => rfl) (fun _ => rfl) d files
  have hdeps : (filesAfter d files).model.dependencies = (d.model files).dependencies := by
    show (settled (filesAfter d files).added).filter
      (fun x => (filesAfter d files).keeps x.key) = _
    rw [added_filesAfter]
    refine List.filter_congr fun x _ => ?_
    rw [Contribution.keeps, marked_filesAfter d files (by decide)]
  rw [Contribution.model, Descriptor.model]
  congr 1
  · rw [marked_filesAfter d files (by decide)]
  · rw [marked_filesAfter d files (by decide)]
  · rw [marked_filesAfter d files (by decide)]
  · rw [localProject_filesAfter]
  · rw [hcapabilities]
    rfl

/-- What comes of loading a descriptor together with the properties files of
    the settings and those that were named explicitly. -/
theorem value_load (descriptor : Source) (configured explicit : List Source) :
    (load descriptor configured explicit).value =
      match Descriptor.ofSource descriptor with
      | .error fault => .error fault
      | .ok d =>
          match (configured ++ explicit).findSome? Source.fault? with
          | some fault => .error fault
          | none =>
              if d.app = none then .error .missingRoot
              else .ok (d.model (configured ++ explicit)) := by
  rw [load]
  cases Descriptor.ofSource descriptor with
  | error fault => rfl
  | ok d =>
      show Traced.value (Traced.emit _ >>= fun _ =>
        Assembly.empty.applyDescriptor d >>= _) = _
      rw [Traced.value_bind, Traced.value_bind, Traced.value_bind,
        Assembly.value_applyAll, Assembly.value_applyDescriptor,
        ← Assembly.receive_append]
      cases (configured ++ explicit).findSome? Source.fault? with
      | some fault => rfl
      | none =>
          have happ : (Assembly.empty.receive
              (filesAfter d (configured ++ explicit))).app = d.app := by
            rw [Assembly.app_receive, setting_filesAfter (fun c => c.app) rfl
              (fun _ _ => rfl) (fun _ => rfl)]
            exact Option.or_none
          show Traced.value (if (Assembly.empty.receive
              (filesAfter d (configured ++ explicit))).app.isNone
            then pure (Except.error Fault.missingRoot)
            else (Assembly.empty.receive
              (filesAfter d (configured ++ explicit))).build >>= fun m =>
                pure (Except.ok m))
            = if d.app = none then Except.error Fault.missingRoot
              else Except.ok (d.model (configured ++ explicit))
          rw [happ]
          cases d.app with
          | none => rfl
          | some app =>
              show (Except.ok (Assembly.empty.receive
                (filesAfter d (configured ++ explicit))).build.value :
                  Except Fault Model) = _
              rw [Assembly.build_receive, model_filesAfter]
              rfl

/-- There is a model if the descriptor can be read and names an application,
    and no file has a fault. -/
theorem value_load_eq_ok_iff {descriptor : Source} {configured explicit : List Source}
    {m : Model} :
    (load descriptor configured explicit).value = .ok m ↔
      ∃ x, Descriptor.ofSource descriptor = .ok x ∧ x.app ≠ none
        ∧ (∀ s ∈ configured ++ explicit, s.fault? = none)
        ∧ m = x.model (configured ++ explicit) := by
  rw [value_load, ← List.findSome?_eq_none_iff]
  cases Descriptor.ofSource descriptor with
  | error fault => exact iff_of_false (fun h => nomatch h) fun ⟨_, h, _⟩ => nomatch h
  | ok x =>
      simp only [Except.ok.injEq, exists_eq_left']
      cases (configured ++ explicit).findSome? Source.fault? with
      | some fault => simp
      | none =>
          by_cases happ : x.app = none
          · simp [happ]
          · simp [happ, eq_comm]

/-- Without properties files an application is all that a model takes. -/
theorem value_load_nil {descriptor : Source} {x : Descriptor}
    (hx : Descriptor.ofSource descriptor = .ok x) (happ : x.app ≠ none) :
    (load descriptor [] []).value = .ok (x.model []) :=
  value_load_eq_ok_iff.mpr ⟨x, hx, happ, fun _ hs => absurd hs List.not_mem_nil, rfl⟩

end Classpath
