import Classpath.Proofs.Document.Defaults
import Classpath.Proofs.Document.Insertion
import Classpath.Proofs.Loading.Classification

/-! # Defaults in files — a setting left out is a setting at its default

    A descriptor may be edited in ways that its reader does not notice.  One
    more way is noticed there but nowhere else: an empty platform where there
    was none makes another descriptor, which contributes the same
    (`Descriptor.reader_platform`, `Descriptor.contribution_pruned`).  So
    nothing that comes of loading depends on whether a default is written
    (`value_load_of_revisions`), except that of several faults in a descriptor
    another one may come first. -/

namespace Classpath

open Document

/-! ## A platform without contents -/

namespace Descriptor

/-- A descriptor as far as it contributes to a model: a platform without contents
    is none. -/
def pruned (x : Descriptor) : Descriptor :=
  { x with platform := x.platform.filter fun p => !p.isEmpty }

theorem contribution_pruned (x : Descriptor) : x.pruned.contribution = x.contribution := by
  have hfilter : x.pruned.platform.filter (fun p => !p.isEmpty) = x.pruned.platform := by
    show (x.platform.filter fun p => !p.isEmpty).filter (fun p => !p.isEmpty) =
      x.platform.filter fun p => !p.isEmpty
    rw [Option.filter_filter]
    simp only [Bool.and_self]
  rw [contribution, hfilter]
  rfl

/-- With an empty platform where there was none a descriptor is the same to a
    model, and so is what is wrong with it. -/
theorem reader_platform {d : Dialect} {before after : List (String × Value)}
    (habsent : "platform" ∉ (before ++ after).map Prod.fst) :
    (reader d (.map (before ++ after))).map pruned =
      (reader d (.map (before ++ ("platform", .map []) :: after))).map pruned := by
  have hempty : Reader.nullable Platform.reader d (.map []) = .ok (some {}) := by rfl
  refine record_map_eq_of_insertion (by decide) habsent (.seq (.seq (.seq (.seq
    (.map (.other (by decide)) ?_) (.other (by decide))) (.other (by decide)))
    (.other (by decide))) (.self habsent hempty))
  rintro app _ rfl dependencies _ rfl classification _ rfl capabilities _ rfl _ _ ⟨rfl, rfl⟩
  rfl

end Descriptor

/-- One change to the document of a descriptor that is not to matter to any
    model. -/
inductive Revision : Value → Value → Prop
  | edit {v v' : Value} (h : Edit Descriptor.shape v v') : Revision v v'
  /-- An empty platform comes in where there is none. -/
  | platform {before after : List (String × Value)}
      (habsent : "platform" ∉ (before ++ after).map Prod.fst) :
      Revision (.map (before ++ after)) (.map (before ++ ("platform", .map []) :: after))

namespace Revision

theorem toOption_eq {v v' : Value} (h : Revision v v') (d : Dialect) :
    ((Descriptor.reader d v).map Descriptor.pruned).toOption =
      ((Descriptor.reader d v').map Descriptor.pruned).toOption := by
  cases h with
  | edit h =>
      refine toOption_congr fun x => ?_
      simp only [map_eq_ok_iff, Descriptor.follows_reader h]
  | platform habsent => rw [Descriptor.reader_platform habsent]

theorem run {v v' : Value} (h : Relation.ReflTransGen Revision v v') (d : Dialect) :
    ((Descriptor.reader d v).map Descriptor.pruned).toOption =
      ((Descriptor.reader d v').map Descriptor.pruned).toOption := by
  induction h with
  | refl => rfl
  | tail _ hstep ih => exact ih.trans (hstep.toOption_eq d)

end Revision

/-! ## Loading -/

/-- A file that holds this document. -/
def Source.Holds (s : Source) (v : Value) : Prop :=
  ∃ text, s.contents = .ok text ∧ Toml.read? text = some v

theorem Source.Holds.ofSource_eq {s : Source} {v : Value} (h : s.Holds v) :
    Descriptor.ofSource s =
      (Descriptor.reader .toml v).mapError fun cause => .descriptor (.invalid cause) := by
  obtain ⟨text, hs, hv⟩ := h
  rw [Descriptor.ofSource, hs]
  show Descriptor.parse text = _
  rw [Descriptor.parse, Toml.decode, hv]
  dsimp only
  cases Descriptor.reader .toml v with
  | ok x => rfl
  | error cause => rfl

/-- A model has the same of two descriptors if it has the same of what is read. -/
theorem Source.Holds.pruned_congr {s s' : Source} {v v' : Value} (hs : s.Holds v)
    (hs' : s'.Holds v')
    (h : (Descriptor.reader .toml v).map Descriptor.pruned =
      (Descriptor.reader .toml v').map Descriptor.pruned) :
    (Descriptor.ofSource s).map Descriptor.pruned =
      (Descriptor.ofSource s').map Descriptor.pruned := by
  have hswap : ∀ x : Except ReadFault Descriptor,
      (x.mapError fun cause => Fault.descriptor (.invalid cause)).map Descriptor.pruned =
        (x.map Descriptor.pruned).mapError fun cause => .descriptor (.invalid cause) := by
    intro x
    cases x with
    | ok x => rfl
    | error cause => rfl
  rw [hs.ofSource_eq, hs'.ofSource_eq, hswap, hswap, h]

/-- What comes of loading depends on what a model has of the descriptor. -/
theorem value_load_eq_of_pruned {s s' : Source}
    (h : (Descriptor.ofSource s).map Descriptor.pruned =
      (Descriptor.ofSource s').map Descriptor.pruned) (configured explicit : List Source) :
    (load s configured explicit).value = (load s' configured explicit).value := by
  have hload : ∀ s, (load s configured explicit).value =
      ((Descriptor.ofSource s).map Descriptor.pruned).bind fun x =>
        ((Assembly.empty.receive x.contribution).applyAll
          (configured ++ explicit)).value.bind Assembly.outcome := by
    intro s
    rw [value_load_eq_bind]
    cases Descriptor.ofSource s with
    | error fault => rfl
    | ok x =>
        rw [Except.map, Except.bind, Except.bind, Descriptor.contribution_pruned]
  rw [hload, hload, h]

/-- One document leads to a model exactly if the other does, and to the same
    one; a fault that only one of them could have is one of reading it. -/
theorem value_load_of_revisions {s s' : Source} {v v' : Value} (hs : s.Holds v)
    (hs' : s'.Holds v') (h : Relation.ReflTransGen Revision v v')
    (configured explicit : List Source) :
    (load s configured explicit).value = (load s' configured explicit).value
      ∨ ∃ cause cause',
        (load s configured explicit).value = .error (.descriptor (.invalid cause))
          ∧ (load s' configured explicit).value = .error (.descriptor (.invalid cause')) := by
  have hrun := Revision.run h .toml
  cases hv : Descriptor.reader .toml v with
  | error cause =>
      cases hv' : Descriptor.reader .toml v' with
      | error cause' =>
          refine Or.inr ⟨cause, cause', ?_, ?_⟩
          · rw [value_load, hs.ofSource_eq, hv]
            rfl
          · rw [value_load, hs'.ofSource_eq, hv']
            rfl
      | ok x' =>
          rw [hv, hv'] at hrun
          exact nomatch hrun
  | ok x =>
      cases hv' : Descriptor.reader .toml v' with
      | error cause' =>
          rw [hv, hv'] at hrun
          exact nomatch hrun
      | ok x' =>
          rw [hv, hv'] at hrun
          refine Or.inl (value_load_eq_of_pruned (hs.pruned_congr hs' ?_) configured explicit)
          rw [hv, hv']
          exact congrArg Except.ok (Option.some.inj hrun)

/-- What is left out of a document may as well be written with its default, in
    any number of edits and at any depth: a descriptor or configuration is read
    before exactly if it is read after, and is the same.  A platform without
    contents may come in besides: then the same comes of loading, or the
    descriptor cannot be read before and cannot be read after.  If that is all
    that comes in, the same comes of loading in any case. -/
theorem defaults_left_out_or_written :
    (∀ v v' : Value, Relation.ReflTransGen (Edit Descriptor.shape) v v' →
        ∀ d x, Descriptor.reader d v = .ok x ↔ Descriptor.reader d v' = .ok x)
      ∧ (∀ v v' : Value, Relation.ReflTransGen (Edit Config.shape) v v' →
          ∀ d c, Config.reader d v = .ok c ↔ Config.reader d v' = .ok c)
      ∧ ∀ (s s' : Source) (v v' : Value) (configured explicit : List Source),
          s.Holds v → s'.Holds v' →
            (Relation.ReflTransGen Revision v v' →
              (load s configured explicit).value = (load s' configured explicit).value
                ∨ ∃ cause cause',
                  (load s configured explicit).value = .error (.descriptor (.invalid cause))
                    ∧ (load s' configured explicit).value =
                      .error (.descriptor (.invalid cause')))
            ∧ ∀ before after, "platform" ∉ (before ++ after).map Prod.fst →
                v = .map (before ++ after) → v' = .map (before ++ ("platform", .map []) :: after) →
                  (load s configured explicit).value = (load s' configured explicit).value := by
  refine ⟨fun v v' h d x => Descriptor.follows_reader.run h d x,
    fun v v' h d c => Config.follows_reader.run h d c, ?_⟩
  intro s s' v v' configured explicit hs hs'
  refine ⟨fun h => value_load_of_revisions hs hs' h configured explicit, ?_⟩
  rintro before after habsent rfl rfl
  refine value_load_eq_of_pruned ?_ configured explicit
  exact hs.pruned_congr hs' (Descriptor.reader_platform habsent)

set_option maxRecDepth 4000 in
/-- A blank type, an empty list of a classification that was not there, and an
    empty platform: there is a model before and after.  And a configuration that
    says nothing is read like one that says what is so anyway. -/
theorem defaults_left_out_or_written_blank :
    let s : Source := ⟨"m", .ok "[app]\ngroup='g'\nartifact='a'\nversion='1'"⟩
    let s' : Source := ⟨"n", .ok
      ("[app]\nversion='1'\nartifact='a'\ngroup='g'\ntype=' '\n[platform]\n" ++
        "[classification]\nexcluded=[]")⟩
    (∃ m, (load s [] []).value = .ok m ∧ (load s' [] []).value = .ok m)
      ∧ Config.reader .toml (.map [("output", .map [("pretty", .bool true)])]) = .ok {} := by
  intro s s'
  let group : String × Value := ("group", .string "g")
  let artifact : String × Value := ("artifact", .string "a")
  let version : String × Value := ("version", .string "1")
  let type : String × Value := ("type", .string " ")
  let platform : String × Value := ("platform", .map [])
  let excluded : String × Value := ("excluded", .list [])
  let app (ms : List (String × Value)) : String × Value := ("app", .map ms)
  let classification (ms : List (String × Value)) : String × Value := ("classification", .map ms)
  have hs : s.Holds (.map [app [group, artifact, version]]) := ⟨_, rfl, by cbv⟩
  have hs' : s'.Holds (.map [app [version, artifact, group, type], platform,
      classification [excluded]]) := ⟨_, rfl, by cbv⟩
  -- One edit after the other, each at the end of what it comes into.
  have hreorder : Revision (.map [app [group, artifact, version]])
      (.map [app [version, artifact, group]]) :=
    .edit (@Edit.member _ [] [] _ _ _
      (.reorder (by decide) (List.reverse_perm [version, artifact, group])))
  have htype : Revision (.map [app [version, artifact, group]])
      (.map [app [version, artifact, group, type]]) :=
    .edit (@Edit.member _ [] [] _ _ _ (.default (by decide) (Or.inr ⟨" ", rfl, by decide⟩) rfl))
  have hplatform : Revision (.map [app [version, artifact, group, type]])
      (.map [app [version, artifact, group, type], platform]) :=
    @Revision.platform [app [version, artifact, group, type]] [] (by decide)
  have hclassification : Revision (.map [app [version, artifact, group, type], platform])
      (.map [app [version, artifact, group, type], platform, classification []]) :=
    .edit (.default (by decide) rfl rfl)
  have hexcluded : Revision
      (.map [app [version, artifact, group, type], platform, classification []])
      (.map [app [version, artifact, group, type], platform, classification [excluded]]) :=
    .edit (@Edit.member _ [app [version, artifact, group, type], platform] [] _ _ _
      (.default (by decide) rfl rfl))
  have hrevisions := ((((Relation.ReflTransGen.single hreorder).tail htype).tail
    hplatform).tail hclassification).tail hexcluded
  have hread : Descriptor.reader .toml (.map [app [group, artifact, version]]) =
      .ok { app := some { group := "g", artifact := "a", version := "1" } } := by
    rfl
  have hx : Descriptor.ofSource s =
      .ok { app := some { group := "g", artifact := "a", version := "1" } } := by
    rw [hs.ofSource_eq, hread]
    rfl
  have hload := value_load_nil hx (Option.some_ne_none _)
  refine ⟨⟨_, hload, ?_⟩, ?_⟩
  · rcases (defaults_left_out_or_written.2.2 s s' _ _ [] [] hs hs').1 hrevisions with
      h | ⟨cause, cause', h, -⟩
    · rw [← h, hload]
    · rw [h] at hload
      cases hload
  · have houtput : Edit Config.shape (.map []) (.map [("output", .map [])]) :=
      .default (by decide) rfl rfl
    have hpretty : Edit Config.shape (.map [("output", .map [])])
        (.map [("output", .map [("pretty", .bool true)])]) :=
      @Edit.member _ [] [] _ _ _ (.default (by decide) rfl rfl)
    exact (defaults_left_out_or_written.2.1 _ _ ((Relation.ReflTransGen.single houtput).tail
      hpretty) .toml {}).mp rfl

end Classpath
