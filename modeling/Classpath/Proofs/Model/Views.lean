import Classpath.Model.Rendering
import Classpath.Proofs.Assembly.Lookup
import Classpath.Proofs.Text.Joining

/-! # Views — the two halves of a model and of its listing

    Each dependency is either for the running application or only for the
    build.  So the two views are the halves of the dependencies, `Merged` back
    together by the places of the one half, and their listings are the same
    halves of the lines (`Merged.map`).  As no two dependencies of a model have
    one coordinate, none occurs in both halves.

    What a line says with flags but not without is a list of names, and a name
    is in it exactly if the coordinate of the dependency has that mark
    (`name_mem_flags`). -/

namespace Classpath

/-! ## Halves of a list -/

/-- `Merged places whole left right`: the elements of `whole` are in their order
    those of `left`, at the places that are true, and those of `right`. -/
inductive Merged {α : Type} : List Bool → List α → List α → List α → Prop
  | nil : Merged [] [] [] []
  | left {places : List Bool} {whole left right : List α} (a : α)
      (h : Merged places whole left right) :
      Merged (true :: places) (a :: whole) (a :: left) right
  | right {places : List Bool} {whole left right : List α} (a : α)
      (h : Merged places whole left right) :
      Merged (false :: places) (a :: whole) left (a :: right)

/-- The elements with a property and those without it are two halves. -/
theorem merged_filter {α : Type} (p : α → Bool) (l : List α) :
    Merged (l.map p) l (l.filter p) (l.filter fun a => !p a) := by
  induction l with
  | nil => exact .nil
  | cons a l ih =>
      rw [List.map_cons, List.filter_cons, List.filter_cons]
      cases p a with
      | true => exact .left a ih
      | false => exact .right a ih

/-- Halves stay halves when each element becomes another. -/
theorem Merged.map {α β : Type} {places : List Bool} {whole left right : List α}
    (h : Merged places whole left right) (f : α → β) :
    Merged places (whole.map f) (left.map f) (right.map f) := by
  induction h with
  | nil => exact .nil
  | left a _ ih => exact .left (f a) ih
  | right a _ ih => exact .right (f a) ih

namespace Model

variable {m : Model} {d : Dependency}

/-! ## Lines -/

/-- The names that a line shows, in brackets unless there are none. -/
def bracketed (names : List String) : String :=
  if names = [] then "" else " [" ++ ", ".intercalate names ++ "]"

/-- Flags are shown behind the line as it is without them. -/
theorem line_true (m : Model) (d : Dependency) :
    m.line true d = m.line false d ++ bracketed (m.flags d) := by
  show d.display ++ _ = d.display ++ "" ++ bracketed (m.flags d)
  rw [String.append_empty, bracketed]
  cases m.flags d with
  | nil => rfl
  | cons name names => rfl

theorem flags_sublist (m : Model) (d : Dependency) :
    (m.flags d).Sublist (Mark.shown.map Mark.name) :=
  List.filter_sublist.map Mark.name

/-- A mark is named exactly if the coordinate of the dependency has it. -/
theorem name_mem_flags (mark : Mark) (hmark : mark ∈ Mark.shown) :
    mark.name ∈ m.flags d ↔ d.key ∈ m.marked mark := by
  rw [flags, List.mem_map, ← Std.ExtTreeSet.contains_iff_mem]
  constructor
  · rintro ⟨other, hother, hname⟩
    obtain rfl := Mark.name_injective hname
    exact (List.mem_filter.mp hother).2
  · intro h
    exact ⟨mark, List.mem_filter.mpr ⟨hmark, h⟩, rfl⟩

/-- The names of marks do not break a line. -/
theorem not_mem_bracketed (m : Model) (d : Dependency) :
    '\n' ∉ (bracketed (m.flags d)).toList := by
  rw [bracketed]
  by_cases h : m.flags d = []
  · rw [if_pos h]
    exact List.not_mem_nil
  · have hall : ∀ name ∈ Mark.shown.map Mark.name, '\n' ∉ name.toList := by decide
    have hnames : '\n' ∉ (", ".intercalate (m.flags d)).toList :=
      Text.not_mem_joined (by decide) fun name hname => hall name ((flags_sublist m d).mem hname)
    rw [if_neg h, String.toList_append, String.toList_append, List.mem_append, List.mem_append,
      not_or, not_or]
    exact ⟨⟨by decide, hnames⟩, by decide⟩

theorem not_mem_line (hd : '\n' ∉ d.display.toList) (withFlags : Bool) :
    '\n' ∉ (m.line withFlags d).toList := by
  have hplain : '\n' ∉ (m.line false d).toList := by
    show '\n' ∉ (d.display ++ "").toList
    rw [String.append_empty]
    exact hd
  cases withFlags with
  | false => exact hplain
  | true =>
      rw [line_true, String.toList_append, List.mem_append, not_or]
      exact ⟨hplain, not_mem_bracketed m d⟩

/-- A listing has the lines of the view. -/
theorem lines_listing (hone : ∀ d ∈ m.dependencies, '\n' ∉ d.display.toList) (view : View)
    (withFlags : Bool) :
    Text.lines (m.listing view withFlags).toList =
      (view.select m).map fun d => (m.line withFlags d).toList := by
  have hselect : ∀ d ∈ view.select m, d ∈ m.dependencies := by
    intro d hd
    cases view with
    | all => exact hd
    | runtime => exact List.mem_of_mem_filter hd
    | deployment => exact List.mem_of_mem_filter hd
  rw [listing, Text.lines_join, lines, List.map_map]
  · rfl
  · intro l hl
    obtain ⟨d, hd, rfl⟩ := List.mem_map.mp hl
    exact not_mem_line (hone d (hselect d hd)) withFlags

/-! ## Halves of a model -/

theorem merged_views (m : Model) :
    Merged (m.dependencies.map Dependency.runtime) m.dependencies m.runtime m.deployment :=
  merged_filter Dependency.runtime m.dependencies

/-- One coordinate is one dependency, and that is of one kind. -/
theorem key_ne_of_mem_views (hnodup : (m.dependencies.map Dependency.key).Nodup) :
    ∀ d ∈ m.runtime, ∀ e ∈ m.deployment, d.key ≠ e.key := by
  intro d hd e he hkey
  obtain ⟨hd, hruntime⟩ := List.mem_filter.mp hd
  obtain ⟨he, hbuild⟩ := List.mem_filter.mp he
  obtain rfl := List.inj_on_of_nodup_map hnodup hd he hkey
  rw [hruntime] at hbuild
  exact nomatch hbuild

end Model

/-! ## Views of a model -/

namespace Assembly

/-- The two views of a model are the halves of its dependencies and share no
    coordinate.  A listing has one line for each dependency, and the listings of
    the views have the same halves of these lines; as long as no field holds a
    line feed, they are the lines of the text as well.  With flags, a line goes
    on with the names of the marks that the coordinate of its dependency has, a
    blank type being that of a jar. -/
theorem views_split (ops : List Operation) :
    let m := (run ops).build.value
    let places := m.dependencies.map Dependency.runtime
    Merged places m.dependencies m.runtime m.deployment
      ∧ (∀ d ∈ m.runtime, ∀ e ∈ m.deployment, d.key ≠ e.key)
      ∧ (∀ withFlags, ∃ left right,
          Merged places (m.dependencies.map (m.line withFlags)) left right
            ∧ m.listing .all withFlags =
              String.join ((m.dependencies.map (m.line withFlags)).map (· ++ "\n"))
            ∧ m.listing .runtime withFlags = String.join (left.map (· ++ "\n"))
            ∧ m.listing .deployment withFlags = String.join (right.map (· ++ "\n")))
      ∧ ((∀ d ∈ m.dependencies, '\n' ∉ d.display.toList) → ∀ view withFlags,
          Text.lines (m.listing view withFlags).toList =
            (view.select m).map fun d => (m.line withFlags d).toList)
      ∧ ∀ d ∈ m.dependencies, ∃ names,
          let key : Coordinate :=
            { group := d.artifact.group, artifact := d.artifact.artifact
              classifier := d.artifact.classifier
              type := if d.artifact.type.toList.all Text.isBlank then "jar" else d.artifact.type }
          m.line true d = m.line false d
              ++ (if names = [] then "" else " [" ++ ", ".intercalate names ++ "]")
            ∧ names.Sublist
              ["parent-first", "runner-parent-first", "lesser-priority", "local-project"]
            ∧ ("parent-first" ∈ names ↔ key ∈ m.parentFirst)
            ∧ ("runner-parent-first" ∈ names ↔ key ∈ m.runnerParentFirst)
            ∧ ("lesser-priority" ∈ names ↔ key ∈ m.lesserPriority)
            ∧ ("local-project" ∈ names ↔ key ∈ m.localProject) := by
  intro m places
  have hhalves : Merged places m.dependencies m.runtime m.deployment := m.merged_views
  have hnodup : (m.dependencies.map Dependency.key).Nodup := by
    show ((run ops).build.value.dependencies.map Dependency.key).Nodup
    rw [build_run_contribution]
    exact (contribution ops).nodup_keys_model
  refine ⟨hhalves, Model.key_ne_of_mem_views hnodup, fun withFlags => ?_, Model.lines_listing,
    fun d _ => ?_⟩
  · -- The lines of a view are its dependencies, each become a line.
    exact ⟨_, _, hhalves.map (m.line withFlags), rfl, rfl, rfl⟩
  · exact ⟨m.flags d, Model.line_true m d, Model.flags_sublist m d,
      Model.name_mem_flags .parentFirst (by decide),
      Model.name_mem_flags .runnerParentFirst (by decide),
      Model.name_mem_flags .lesserPriority (by decide),
      Model.name_mem_flags .localProject (by decide)⟩

/-- A dependency that is added for the build and again for the application, in
    another spelling of its type, and one for the build. -/
theorem views_split_added_again :
    let d : Dependency :=
      { artifact := { group := "g", artifact := "a", type := " ", version := "1" }
        runtime := true }
    let e : Dependency := { artifact := { group := "g", artifact := "b", version := "2" } }
    let m := (run [.add { d with runtime := false }, .add e, .add d,
      .mark .lesserPriority d.key, .mark .parentFirst d.key]).build.value
    (∀ d ∈ m.dependencies, '\n' ∉ d.display.toList)
      ∧ Text.lines (m.listing .all true).toList =
        ["g:a:: :1 (compile) [parent-first, lesser-priority]".toList,
          "g:b::jar:2 (compile)".toList] := by
  intro d e m
  have hm : m.dependencies = [d, e] := by
    show (run _).build.value.dependencies = _
    rw [build_run_contribution]
    decide
  have hone : ∀ d ∈ m.dependencies, '\n' ∉ d.display.toList := by
    rw [hm]
    decide
  refine ⟨hone, ?_⟩
  rw [(views_split _).2.2.2.1 hone .all true]
  show m.dependencies.map _ = _
  rw [hm, build_run_contribution]
  cbv

end Assembly

end Classpath
