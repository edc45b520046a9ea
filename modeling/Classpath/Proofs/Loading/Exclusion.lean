import Mathlib
import Classpath.Proofs.Document.Yielding
import Classpath.Proofs.Loading.Classification
import Classpath.Proofs.Properties.Insertion

/-! # Exclusion — leaving a dependency out by its coordinate

    A dependency is left out of the model once the display of its coordinate is
    listed as excluded, in the descriptor or in a properties file.  But fields
    may hold what the display cannot tell: a colon in a group, or a blank at the
    end of a type.  So this works for tidy coordinates, in a properties file
    for those that are `Listable` there, and then nothing else about the model
    changes; and it works for no others (`load_excluding`).

    Both ways to list one more text are relations, between what two descriptors
    hold (`Descriptor.ExcludesToo`) and between the texts of two properties files
    (`Source.ExcludesToo`).  They come to one more coordinate among those that
    are excluded, which is what `Descriptor.model_excluding` is about. -/

namespace Classpath

open Document Text

/-! ## One more text in a properties file -/

/-- The second file has one more text in the list of those it excludes. -/
def Source.ExcludesToo (text : String) (s s' : Source) : Prop :=
  ∃ t t', s.contents = .ok t ∧ s'.contents = .ok t'
    ∧ Properties.ListsToo Mark.excluded.property text t t'

/-- A coordinate that can be listed in a properties file: it is tidy, and its
    display is one line without a comma. -/
structure Coordinate.Listable (k : Coordinate) : Prop where
  tidy : k.Tidy
  no_comma : ',' ∉ k.display.toList
  one_line : '\n' ∉ k.display.toList

namespace Properties

variable {p p' : Properties} {k : Coordinate}

theorem GainsItem.of_ne {item : List Char} (h : p.GainsItem Mark.excluded.property item p')
    {m : Mark} (hm : m ≠ .excluded) :
    p'.listed m = p.listed m ∧ p'.malformed? m = p.malformed? m := by
  rw [listed, listed, malformed?, malformed?, h.1 _ (mt Mark.property_injective hm)]
  exact ⟨rfl, rfl⟩

/-- The list stays well formed and has the coordinate in its place. -/
theorem GainsItem.excluded (h : p.GainsItem Mark.excluded.property k.display.toList p')
    (hk : k.Tidy) (hp : p.malformed? .excluded = none) :
    p'.malformed? .excluded = none ∧ ∃ ks ls, p.listed .excluded = ks ++ ls
      ∧ p'.listed .excluded = ks ++ k :: ls := by
  obtain ⟨-, value, xs, ys, hvalue, hitems, hitems'⟩ := h
  obtain ⟨ks, ls, hks, hinsert⟩ := Coordinate.lists_insert (lists_listed hp) hitems hitems'
  have hparse : Coordinate.parse (String.ofList k.display.toList) = .ok k := by
    rw [String.ofList_toList]
    exact Coordinate.parse_display hk
  have hgives : p'.Gives .excluded (ks ++ k :: ls) := ⟨value, hvalue, hinsert k hparse⟩
  exact ⟨hgives.listed_eq.1, ks, ls, hks, hgives.listed_eq.2⟩

end Properties

namespace Source

variable {s s' : Source} {k : Coordinate}

/-- The file stays faultless, what it excludes is the coordinate besides what it
    did, and it gives other marks as it did. -/
theorem ExcludesToo.listed_eq (h : s.ExcludesToo k.display s') (hk : k.Listable)
    (hs : s.fault? = none) :
    s'.fault? = none ∧ (∀ m, m ≠ .excluded → s'.listed m = s.listed m)
      ∧ ∃ ks ls, s.listed .excluded = ks ++ ls ∧ s'.listed .excluded = ks ++ k :: ls := by
  obtain ⟨t, t', ht, ht', h⟩ := h
  have hgains := Properties.gainsItem_of_listsToo h (by decide) (hk.tidy.isItem hk.no_comma)
    hk.one_line
  rw [fault?, ht] at hs
  dsimp only at hs
  rw [Option.map_eq_none_iff, Properties.firstMalformed?, List.findSome?_eq_none_iff] at hs
  obtain ⟨hclean, hlisted⟩ := hgains.excluded hk.tidy (hs .excluded (by decide))
  simp only [listed, fault?, ht, ht']
  rw [Option.map_eq_none_iff, Properties.firstMalformed?, List.findSome?_eq_none_iff]
  refine ⟨fun m hm => ?_, fun m hne => (hgains.of_ne hne).1, hlisted⟩
  by_cases hne : m = .excluded
  · rw [hne]
    exact hclean
  · rw [(hgains.of_ne hne).2]
    exact hs m hm

end Source

/-! ## One more text in a descriptor -/

/-- Where the list for a mark stands in an array. -/
def Mark.place : Mark → Nat
  | .parentFirst => 0
  | .runnerParentFirst => 1
  | .excluded => 2
  | .lesserPriority => 3
  | .localProject => 4

/-- The second classification has one more text among those it excludes, and is
    otherwise the same.  Either both are objects or both are arrays, in which
    the lists stand in the order of the marks. -/
inductive Marks.ExcludesToo (text : String) : Value → Value → Prop
  | object {sec sec' : List (String × Value)} {xs ys : List Value}
      (h : Holds sec Mark.excluded.name (.list (xs ++ ys)) (.list []))
      (h' : membersNamed Mark.excluded.name sec' =
        [(Mark.excluded.name, .list (xs ++ .string text :: ys))])
      (hagree : AgreeApart [Mark.excluded.name] sec sec') :
      ExcludesToo text (.map sec) (.map sec')
  | array {items items' : List Value} {xs ys : List Value}
      (h : items[Mark.excluded.place]?.getD (.list []) = .list (xs ++ ys))
      (h' : items'[Mark.excluded.place]? = some (.list (xs ++ .string text :: ys)))
      (hagree : ∀ i, i ≠ Mark.excluded.place →
        items[i]?.getD (.list []) = items'[i]?.getD (.list [])) :
      ExcludesToo text (.list items) (.list items')

namespace Marks

variable {text : String} {v v' : Value} {s s' : Marks (List Coordinate)}

end Marks

/-- The second descriptor has one more text among those it excludes.  The first
    one may be without a classification. -/
def Descriptor.ExcludesToo (text : String) (s s' : Source) : Prop :=
  ∃ t t' ms ms' v v', s.contents = .ok t ∧ s'.contents = .ok t'
    ∧ Toml.read? t = some (.map ms) ∧ Toml.read? t' = some (.map ms')
    ∧ Holds ms "classification" v (.map [])
    ∧ membersNamed "classification" ms' = [("classification", v')]
    ∧ AgreeApart ["classification"] ms ms' ∧ Marks.ExcludesToo text v v'

namespace Descriptor

variable {text : String} {s s' : Source} {x x' : Descriptor} {files files' : List Source}

end Descriptor

section

variable {descriptor : Source} {configured explicit : List Source} {x : Descriptor}
  {m : Model} {k : Coordinate}

variable {before after configured' explicit' : List Source} {file file' : Source}

end

end Classpath
