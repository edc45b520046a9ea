import Mathlib.Data.List.Induction
import Classpath.Proofs.Assembly.Classifying
import Classpath.Proofs.Assembly.Interleaving

/-! # Positions — a coordinate and the place where it stands

    An assembly keeps the position of a coordinate apart from the dependency
    that stands there, and finds the dependency through the position.  After any
    history the two describe each other: a coordinate has a position exactly
    where the dependency has this coordinate.  So every position is a place, no
    place belongs to two coordinates, and an addition replaces what it says it
    supersedes.

    `Records` is kept by each operation (`Records.step`) and so by a history
    (`records_run`).  With it `dependency?` and `add` come down to one access at
    the position (`Records.dependency?_of_position`, `Records.add_of_position`),
    and an addition that reports that it supersedes something replaces just that
    (`Records.replaced_of_superseded`).

    What a history reports is its `trace`.  Several additions at once report
    what they would one by one (`trace_parts`), and where the trace says that
    something is superseded, the history is at a single addition
    (`exists_addition_of_trace`). -/

namespace Classpath.Assembly

variable {a : Assembly} {ds : List Dependency} {k : Coordinate} {i : Nat}
  {d : Dependency}

/-! ## Access at a position -/

/-- A coordinate has the position at which a dependency with it stands. -/
theorem Records.positions_eq_some_iff (h : Records a ds) :
    a.positions[k]? = some i ↔
      ∃ hi : i < a.dependencies.size, a.dependencies[i].key = k := by
  rw [h.positions]
  constructor
  · rintro ⟨d, hd, hk⟩
    obtain ⟨hi, rfl⟩ := Array.getElem?_eq_some_iff.mp hd
    exact ⟨hi, hk⟩
  · rintro ⟨hi, hk⟩
    exact ⟨_, Array.getElem?_eq_getElem hi, hk⟩

theorem occupant?_of_no_position (hk : a.positions[k]? = none) :
    a.occupant? k = none := by
  rw [occupant?, hk]
  rfl

theorem Records.occupant?_of_position (h : Records a ds)
    (hk : a.positions[k]? = some i) :
    ∃ hi : i < a.dependencies.size, a.occupant? k = some (i, a.dependencies[i]) := by
  obtain ⟨hi, -⟩ := h.positions_eq_some_iff.mp hk
  exact ⟨hi, Assembly.occupant?_eq_some.mpr ⟨hk, Array.getElem?_eq_getElem hi⟩⟩

theorem dependency?_of_no_position (hk : a.positions[k]? = none) :
    a.dependency? k = none := by
  rw [dependency?, occupant?_of_no_position hk]
  rfl

/-- A coordinate that has a position is looked up there. -/
theorem Records.dependency?_of_position (h : Records a ds)
    (hk : a.positions[k]? = some i) :
    ∃ hi : i < a.dependencies.size, a.dependency? k = some a.dependencies[i] := by
  obtain ⟨hi, ho⟩ := h.occupant?_of_position hk
  refine ⟨hi, ?_⟩
  rw [dependency?, ho]
  rfl

/-- The assembly with another dependency at a place. -/
def replaced (a : Assembly) (i : Nat) (hi : i < a.dependencies.size)
    (d : Dependency) : Assembly :=
  { a with dependencies := a.dependencies.set i d hi }

/-- The assembly with one more dependency at the end, and its position. -/
def appended (a : Assembly) (d : Dependency) : Assembly :=
  { a with
    dependencies := a.dependencies.push d
    positions := a.positions.insert d.key a.dependencies.size }

theorem add_of_no_position (hd : a.positions[d.key]? = none) :
    a.add d = ⟨a.appended d, [.added d.artifact]⟩ := by
  rw [add, occupant?_of_no_position hd]
  rfl

/-- A dependency whose coordinate has a position goes there and supersedes what
    stood there. -/
theorem Records.add_of_position (h : Records a ds)
    (hd : a.positions[d.key]? = some i) :
    ∃ hi : i < a.dependencies.size, a.add d =
      ⟨a.replaced i hi d, [.superseded d.artifact a.dependencies[i].artifact]⟩ := by
  obtain ⟨hi, ho⟩ := h.occupant?_of_position hd
  have hset : a.dependencies.setIfInBounds i d = a.dependencies.set i d hi :=
    dif_pos hi
  refine ⟨hi, ?_⟩
  rw [Assembly.add, ho, replaced, ← hset]

/-- What an addition says it supersedes is what it replaces. -/
theorem Records.replaced_of_superseded (h : Records a ds) {new old : Artifact}
    (he : (a.add d).events = [.superseded new old]) :
    ∃ i, ∃ hi : i < a.dependencies.size, a.positions[d.key]? = some i
      ∧ new = d.artifact ∧ old = a.dependencies[i].artifact
      ∧ (a.add d).value = a.replaced i hi d := by
  cases hp : a.positions[d.key]? with
  | none =>
      -- Without a position the dependency is only said to be added.
      rw [add_of_no_position hp] at he
      exact nomatch he
  | some i =>
      obtain ⟨hi, hadd⟩ := h.add_of_position hp
      rw [hadd] at he
      obtain ⟨hevent, -⟩ := List.cons.inj he
      obtain ⟨hnew, hold⟩ := Event.superseded.inj hevent
      exact ⟨i, hi, rfl, hnew.symm, hold.symm, congrArg Traced.value hadd⟩

/-! ## Histories -/

/-- An operation keeps an assembly in step with what was added. -/
theorem Records.step (h : Records a ds) (op : Operation) :
    Records (a.step op) (ds ++ op.contribution.added) := by
  rw [step_eq]
  exact h.receive op.contribution

theorem run_concat (ops : List Operation) (op : Operation) :
    run (ops ++ [op]) = (run ops).step op := by
  rw [run, List.foldl_append]
  rfl

/-- Hence a history leads to an assembly in step with all its additions. -/
theorem records_run (ops : List Operation) : Records (run ops) (additions ops) := by
  induction ops using List.reverseRecOn with
  | nil => exact Records.empty
  | append_singleton ops op ih =>
      rw [run_concat, additions, List.flatMap_append, List.flatMap_singleton]
      exact ih.step op

/-! ## Traces -/

/-- Where an operation leads and what it reports. -/
def advance (a : Assembly) (op : Operation) : Traced Assembly :=
  (a.perform op).map Prod.fst

/-- What is reported in the course of a history. -/
def trace (ops : List Operation) : List Event :=
  (ops.foldlM advance empty).events

theorem value_foldlM_advance (ops : List Operation) :
    (ops.foldlM advance empty).value = run ops :=
  Traced.value_foldlM advance ops empty

/-- A trace goes on with what the next operation reports. -/
theorem trace_concat (ops : List Operation) (op : Operation) :
    trace (ops ++ [op]) = trace ops ++ ((run ops).advance op).events := by
  rw [trace, List.foldlM_append, Traced.events_bind, value_foldlM_advance]
  exact congrArg (fun t => trace ops ++ t.events) (bind_pure ((run ops).advance op))

/-- Whatever a trace says is said by one operation. -/
theorem exists_operation_of_trace {ops : List Operation} {e : Event}
    {es es' : List Event} (h : trace ops = es ++ e :: es') :
    ∃ before op after l l', ops = before ++ op :: after ∧ es = trace before ++ l
      ∧ ((run before).advance op).events = l ++ e :: l' := by
  induction ops using List.reverseRecOn generalizing es' with
  | nil =>
      have hnil : [] = es ++ e :: es' := h
      exact absurd hnil.symm (List.append_ne_nil_of_right_ne_nil es (List.cons_ne_nil e es'))
  | append_singleton ops op ih =>
      rw [trace_concat] at h
      -- The event stands among those of the last operation or before them.
      rcases List.append_eq_append_iff.mp h with ⟨l, hes, hl⟩ | ⟨l, hbefore, hl⟩
      · exact ⟨ops, op, [], l, es', rfl, hes, hl⟩
      · cases l with
        | nil =>
            rw [List.append_nil] at hbefore
            exact ⟨ops, op, [], [], es', rfl, by rw [hbefore, List.append_nil], hl.symm⟩
        | cons x l =>
            obtain ⟨rfl, -⟩ := List.cons.inj hl
            obtain ⟨before, op', after, l₁, l₂, rfl, hes, hop'⟩ := ih hbefore
            exact ⟨before, op', after ++ [op], l₁, l₂, List.append_assoc _ _ _, hes, hop'⟩

/-! ## Single operations -/

/-- The single operations of which an operation consists. -/
def Operation.parts : Operation → List Operation
  | .addAll ds => ds.map .add
  | op => [op]

theorem ne_addAll_of_mem_parts {ops : List Operation} {op : Operation}
    (h : op ∈ ops.flatMap Operation.parts) (ds : List Dependency) :
    op ≠ .addAll ds := by
  rintro rfl
  obtain ⟨op, -, hop⟩ := List.mem_flatMap.mp h
  cases op with
  | addAll es =>
      obtain ⟨e, -, he⟩ := List.mem_map.mp hop
      exact nomatch he
  | _ => exact nomatch List.mem_singleton.mp hop

theorem foldlM_parts (a : Assembly) (op : Operation) :
    op.parts.foldlM advance a = a.advance op := by
  cases op with
  | addAll ds =>
      show (ds.map Operation.add).foldlM advance a = (a.addAll ds).map id
      rw [List.foldlM_map]
      rfl
  | _ => exact bind_pure _

/-- An operation may be carried out part by part. -/
theorem foldlM_flatMap_parts (ops : List Operation) (a : Assembly) :
    (ops.flatMap Operation.parts).foldlM advance a = ops.foldlM advance a := by
  induction ops generalizing a with
  | nil => rfl
  | cons op ops ih =>
      rw [List.flatMap_cons, List.foldlM_append, foldlM_parts, List.foldlM_cons]
      exact congrArg (a.advance op >>= ·) (funext ih)

theorem run_parts (ops : List Operation) :
    run (ops.flatMap Operation.parts) = run ops := by
  rw [← value_foldlM_advance, foldlM_flatMap_parts, value_foldlM_advance]

theorem trace_parts (ops : List Operation) :
    trace (ops.flatMap Operation.parts) = trace ops := by
  rw [trace, foldlM_flatMap_parts, trace]

/-! ## What is superseded -/

/-- An addition reports one thing. -/
theorem exists_events_add (a : Assembly) (d : Dependency) :
    ∃ e, (a.add d).events = [e] := by
  rw [add]
  cases a.occupant? d.key with
  | none => exact ⟨_, rfl⟩
  | some p => exact ⟨_, rfl⟩

/-- Of single operations only an addition reports that something is
    superseded. -/
theorem eq_add_of_superseded {op : Operation} (hone : ∀ ds, op ≠ .addAll ds)
    {new old : Artifact} (he : .superseded new old ∈ (a.advance op).events) :
    ∃ d, op = .add d := by
  cases op with
  | add d => exact ⟨d, rfl⟩
  | addAll ds => exact absurd rfl (hone ds)
  | classify p extension => exact nomatch level_events_classify he
  | _ => exact nomatch he

/-- And it reports nothing else. -/
theorem eq_add_of_events {op : Operation} (hone : ∀ ds, op ≠ .addAll ds)
    {new old : Artifact} {es es' : List Event}
    (h : (a.advance op).events = es ++ .superseded new old :: es') :
    es = [] ∧ ∃ d, op = .add d ∧ (a.add d).events = [.superseded new old] := by
  have hmem : .superseded new old ∈ (a.advance op).events := by
    rw [h]
    exact List.mem_append_right es List.mem_cons_self
  obtain ⟨d, rfl⟩ := eq_add_of_superseded hone hmem
  obtain ⟨e, he⟩ := a.exists_events_add d
  have h' : [e] = es ++ .superseded new old :: es' := he.symm.trans h
  cases es with
  | nil =>
      obtain ⟨rfl, -⟩ := List.cons.inj h'
      exact ⟨rfl, d, rfl, he⟩
  | cons x es =>
      obtain ⟨-, htail⟩ := List.cons.inj h'
      exact absurd htail.symm (List.append_ne_nil_of_right_ne_nil es (List.cons_ne_nil _ _))

/-- Where a trace of single operations says that something is superseded, the
    history is at an addition that says so. -/
theorem exists_addition_of_trace {ops : List Operation}
    (hone : ∀ op ∈ ops, ∀ ds, op ≠ .addAll ds) {new old : Artifact}
    {es es' : List Event} (h : trace ops = es ++ .superseded new old :: es') :
    ∃ before d after, ops = before ++ .add d :: after ∧ trace before = es
      ∧ ((run before).add d).events = [.superseded new old] := by
  obtain ⟨before, op, after, l, l', rfl, hes, hl⟩ := exists_operation_of_trace h
  have hop := hone op (List.mem_append_right before List.mem_cons_self)
  obtain ⟨rfl, d, rfl, hd⟩ := eq_add_of_events hop hl
  exact ⟨before, d, after, rfl, by rw [hes, List.append_nil], hd⟩

/-- After any history an assembly and its positions describe each other: a
    coordinate has the position `i` exactly if there is a place `i` and the
    dependency there has this coordinate, so every position is a place, no
    place is the position of two coordinates, and every place is the position of
    one.  So a coordinate is looked up where it stands, and a dependency is
    added there, in the place of the one that it is said to supersede; without a
    position nothing is found, and the dependency goes to the end.  Several
    additions at once are the same as one by one, and wherever the trace of a
    history says that one artifact supersedes another, it is at an addition of
    the one that just then takes the place of the other. -/
theorem positions_run (ops : List Operation) :
    let a := run ops
    let single := ops.flatMap Operation.parts
    (∀ (k : Coordinate) (i : Nat), a.positions[k]? = some i ↔
        ∃ hi : i < a.dependencies.size, a.dependencies[i].key = k)
      ∧ (∀ (k : Coordinate) i, a.positions[k]? = some i → i < a.dependencies.size)
      ∧ (∀ (k k' : Coordinate) i, a.positions[k]? = some i →
        a.positions[k']? = some i → k = k')
      ∧ (∀ i, i < a.dependencies.size → ∃ k : Coordinate, a.positions[k]? = some i)
      ∧ (∀ k : Coordinate, (a.positions[k]? = none → a.dependency? k = none)
        ∧ ∀ i, a.positions[k]? = some i →
          ∃ hi : i < a.dependencies.size, a.dependency? k = some a.dependencies[i])
      ∧ (∀ d : Dependency,
        (a.positions[d.key]? = none →
          a.add d = ⟨a.appended d, [.added d.artifact]⟩)
        ∧ ∀ i, a.positions[d.key]? = some i → ∃ hi : i < a.dependencies.size,
          a.add d =
            ⟨a.replaced i hi d, [.superseded d.artifact a.dependencies[i].artifact]⟩)
      ∧ (run single = a ∧ trace single = trace ops)
      ∧ ∀ es new old es', trace ops = es ++ .superseded new old :: es' →
        ∃ before d after, single = before ++ .add d :: after ∧ trace before = es ∧
          let b := run before
          ∃ i, ∃ hi : i < b.dependencies.size, b.positions[d.key]? = some i
            ∧ new = d.artifact ∧ old = b.dependencies[i].artifact
            ∧ ((Event.superseded new old).level, (Event.superseded new old).message) =
              (.trace, d.artifact.display ++ " supersedes "
                ++ b.dependencies[i].artifact.display)
            ∧ run (before ++ [.add d]) = b.replaced i hi d := by
  intro a single
  have ha : Records a (additions ops) := records_run ops
  refine ⟨fun k i => ha.positions_eq_some_iff, fun k i hk => ?_, fun k k' i hk hk' => ?_,
    fun i hi => ⟨_, ha.positions_eq_some_iff.mpr ⟨hi, rfl⟩⟩,
    fun k => ⟨dependency?_of_no_position, fun i => ha.dependency?_of_position⟩,
    fun d => ⟨add_of_no_position, fun i => ha.add_of_position⟩,
    ⟨run_parts ops, trace_parts ops⟩, fun es new old es' h => ?_⟩
  · obtain ⟨hi, -⟩ := ha.positions_eq_some_iff.mp hk
    exact hi
  · obtain ⟨hi, rfl⟩ := ha.positions_eq_some_iff.mp hk
    obtain ⟨-, rfl⟩ := ha.positions_eq_some_iff.mp hk'
    rfl
  · rw [← trace_parts] at h
    obtain ⟨before, d, after, hsingle, hbefore, hd⟩ :=
      exists_addition_of_trace (fun op => ne_addAll_of_mem_parts) h
    obtain ⟨i, hi, hp, rfl, rfl, hvalue⟩ :=
      (records_run before).replaced_of_superseded hd
    refine ⟨before, d, after, hsingle, hbefore, i, hi, hp, rfl, rfl, rfl, ?_⟩
    rw [run_concat]
    exact hvalue

/-- A dependency that is added a second time, with its type left blank, after
    its coordinate was excluded. -/
theorem positions_run_retyped :
    let old : Dependency := { artifact := { group := "g", artifact := "a", version := "1" } }
    let other : Dependency := { artifact := { group := "g", artifact := "b", version := "1" } }
    let d : Dependency :=
      { artifact := { group := "g", artifact := "a", type := " ", version := "2" } }
    let a := run [.addAll [old, other], .mark .excluded d.key]
    a.positions[d.key]? = some 0
      ∧ (a.add d).events = [.superseded d.artifact old.artifact]
      ∧ (a.add d).value.dependencies = #[d, other] := by
  intro old other d a
  have hdeps : a.dependencies = #[old, other] := by
    refine Array.toList_inj.mp ?_
    rw [(records_run _).toList_eq]
    decide
  obtain ⟨hi, hold⟩ : ∃ hi : 0 < a.dependencies.size, a.dependencies[0] = old := by
    refine Array.getElem?_eq_some_iff.mp ?_
    rw [hdeps]
    rfl
  have hkey : a.dependencies[0].key = d.key := by
    rw [hold]
    decide
  obtain ⟨hpositions, -, -, -, -, hadd, -⟩ :=
    positions_run [.addAll [old, other], .mark .excluded d.key]
  have hzero : a.positions[d.key]? = some 0 := (hpositions d.key 0).mpr ⟨hi, hkey⟩
  obtain ⟨hi, hd⟩ : ∃ hi : 0 < a.dependencies.size, a.add d =
      ⟨a.replaced 0 hi d, [.superseded d.artifact a.dependencies[0].artifact]⟩ :=
    (hadd d).2 0 hzero
  refine ⟨hzero, ?_, ?_⟩
  · rw [hd, hold]
  · rw [hd]
    show a.dependencies.set 0 d hi = #[d, other]
    simp only [hdeps]
    rfl

end Classpath.Assembly
