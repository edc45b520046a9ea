import Classpath.Model.Rendering

/-! # Plain values — what the data of this library are written as

    A plain value is a text, a truth value, or a whole array or object of plain
    values.  All values that are made here are plain; the others come up only
    in documents that are read. -/

namespace Classpath

namespace Document.Value

/-- A value made of texts and truth values only. -/
inductive Plain : Value → Prop
  | bool (b : Bool) : Plain (.bool b)
  | string (s : String) : Plain (.string s)
  | list {items : List Value} (h : ∀ v ∈ items, Plain v) : Plain (.list items)
  | map {members : List (String × Value)} (h : ∀ e ∈ members, Plain e.2) :
      Plain (.map members)

theorem Plain.of_map {α : Type} {value : α → Value} (h : ∀ a, (value a).Plain) (as : List α) :
    (Value.list (as.map value)).Plain := by
  refine .list fun v hv => ?_
  obtain ⟨a, -, rfl⟩ := List.mem_map.mp hv
  exact h a

end Document.Value

open Document

theorem Artifact.plain_members (a : Artifact) : ∀ e ∈ a.members, e.2.Plain := by
  intro e he
  rw [members] at he
  simp only [List.mem_append, List.mem_cons, List.not_mem_nil, or_false] at he
  rcases he with ((rfl | rfl) | he) | rfl | rfl
  · exact .string _
  · exact .string _
  · split at he
    · exact absurd he List.not_mem_nil
    · rw [List.mem_singleton.mp he]
      exact .string _
  · exact .string _
  · exact .string _

theorem Artifact.plain_toValue (a : Artifact) : a.toValue.Plain := .map a.plain_members

theorem Dependency.plain_toValue (d : Dependency) : d.toValue.Plain := by
  refine .map fun e he => ?_
  rcases List.mem_append.mp he with he | he
  · exact d.artifact.plain_members e he
  · simp only [List.mem_cons, List.not_mem_nil, or_false] at he
    rcases he with rfl | rfl | rfl
    · exact .string _
    · exact .bool _
    · exact .bool _

theorem Contract.plain_toValue (c : Contract) : c.toValue.Plain := by
  refine .map fun e he => ?_
  simp only [List.mem_cons, List.not_mem_nil, or_false] at he
  rcases he with rfl | rfl
  · exact .string _
  · exact .of_map .string _

theorem TextMap.plain_toValue {α : Type} {value : α → Value} (h : ∀ a, (value a).Plain)
    (map : TextMap α) : (TextMap.toValue value map).Plain := by
  refine .map fun e he => ?_
  obtain ⟨e, -, rfl⟩ := List.mem_map.mp he
  exact h e.2

theorem Platform.plain_toValue (p : Platform) : p.toValue.Plain := by
  refine .map fun e he => ?_
  simp only [List.mem_cons, List.not_mem_nil, or_false] at he
  rcases he with rfl | rfl
  · exact .of_map Artifact.plain_toValue _
  · exact TextMap.plain_toValue .string _

namespace Model

theorem plain_setValue (keys : CoordinateSet) : (setValue keys).Plain :=
  .of_map (fun _ => .string _) _

theorem plain_presentMember {α : Type} {name : String} {value : α → Value}
    (h : ∀ a, (value a).Plain) (o : Option α) : ∀ e ∈ presentMember name value o, e.2.Plain := by
  intro e he
  cases o with
  | none => exact absurd he List.not_mem_nil
  | some a =>
      rw [List.mem_singleton.mp he]
      exact h a

/-- The document of a model is plain. -/
theorem plain_toValue (m : Model) : m.toValue.Plain := by
  refine .map fun e he => ?_
  simp only [List.mem_append] at he
  rcases he with ((he | he) | he) | he
  · obtain ⟨mark, -, rfl⟩ := List.mem_map.mp he
    exact plain_setValue _
  · exact plain_presentMember Artifact.plain_toValue _ e he
  · simp only [List.mem_cons, List.not_mem_nil, or_false] at he
    rcases he with rfl | rfl
    · exact .of_map Dependency.plain_toValue _
    · exact TextMap.plain_toValue Contract.plain_toValue _
  · exact plain_presentMember Platform.plain_toValue _ e he

end Model

end Classpath
