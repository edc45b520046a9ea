import Classpath.FileTree
import Classpath.Proofs.Path

/-! # Looking upwards — the nearest file of a name

    A file is looked for in a place and in all that contains it, and the first
    place that has it ends the search (`findUpwards_nearest`).

    `watched isFile` is a file system of which only the files are known, and
    which remembers what it was asked.  So it shows what is found as well as
    when the search stops.  A file tree answers like the watched file system of
    its files (`findM?_fileTree`), and a directory is not one of them. -/

namespace Classpath

open Classpath.Path (Upwards NamesRoot join candidates)

/-- A file system of which only the files are known, and which remembers the
    paths it was asked about. -/
def watched (isFile : String → Bool) (path : String) : StateM (List String) Bool :=
  fun asked => (isFile path, asked ++ [path])

/-- A directory is not a file. -/
theorem FileTree.isFile_of_isDirectory {t : FileTree} {path : String}
    (h : t.isDirectory path = true) : t.isFile path = false := by
  rw [isDirectory] at h
  rw [isFile]
  cases hentry : t.lookup path with
  | error fault => rfl
  | ok entry =>
      rw [hentry] at h
      cases entry with
      | directory => rfl
      | file text => exact nomatch h

namespace FileAccess

/-! ## Going through paths -/

/-- A path that is a file ends the search, and any other is passed over. -/
theorem run_findM?_cons {σ : Type} (ask : String → StateM σ Bool) (path : String)
    (paths : List String) (s : σ) :
    ((path :: paths).findM? ask).run s =
      if ((ask path).run s).1 = true then (some path, ((ask path).run s).2)
      else (paths.findM? ask).run ((ask path).run s).2 := by
  show (match ((ask path).run s).1 with
    | true => (pure (some path) : StateM σ _)
    | false => paths.findM? ask) ((ask path).run s).2 = _
  cases ((ask path).run s).1 with
  | true => rfl
  | false => rfl

/-- The first file is found, and no path is asked about that comes after it or
    was asked about before. -/
theorem findM?_watched (isFile : String → Bool) (paths asked : List String) :
    ∃ more, (paths.findM? (watched isFile)).run asked = (paths.find? isFile, asked ++ more)
      ∧ more <+: paths := by
  induction paths generalizing asked with
  | nil =>
      refine ⟨[], ?_, List.nil_prefix⟩
      rw [List.append_nil]
      rfl
  | cons path paths ih =>
      rw [run_findM?_cons]
      show ∃ more, (if isFile path = true then (some path, asked ++ [path])
        else (paths.findM? (watched isFile)).run (asked ++ [path])) = _ ∧ _
      by_cases hpath : isFile path = true
      · rw [if_pos hpath, List.find?_cons_of_pos hpath]
        exact ⟨[path], rfl, List.prefix_append [path] paths⟩
      · obtain ⟨more, hrun, hmore⟩ := ih (asked ++ [path])
        rw [if_neg hpath, List.find?_cons_of_neg hpath]
        refine ⟨path :: more, ?_, List.cons_prefix_cons.mpr ⟨rfl, hmore⟩⟩
        rw [hrun, List.append_assoc]
        rfl

/-- A file tree answers for its files and stays as it is. -/
theorem findM?_fileTree (t : FileTree) (paths : List String) :
    (paths.findM? (isFile : String → StateM FileTree Bool)).run t =
      (paths.find? t.isFile, t) := by
  induction paths with
  | nil => rfl
  | cons path paths ih =>
      rw [run_findM?_cons]
      show (if t.isFile path = true then (some path, t)
        else (paths.findM? (isFile : String → StateM FileTree Bool)).run t) = _
      by_cases hpath : t.isFile path = true
      · rw [if_pos hpath, List.find?_cons_of_pos hpath]
      · rw [if_neg hpath, List.find?_cons_of_neg hpath, ih]

/-! ## The nearest place -/

/-- The first file of a name is that of the first place where there is one. -/
theorem find?_map_join_eq_some {isFile : String → Bool} {places : List String}
    {name path : String} :
    (places.map (join · name)).find? isFile = some path ↔
      ∃ nearer place farther, places = nearer ++ place :: farther
        ∧ (∀ other ∈ nearer, isFile (join other name) = false)
        ∧ isFile (join place name) = true ∧ path = join place name := by
  rw [List.find?_map, Option.map_eq_some_iff]
  constructor
  · rintro ⟨place, hplace, rfl⟩
    obtain ⟨hfile, nearer, farther, rfl, hnearer⟩ := List.find?_eq_some_iff_append.mp hplace
    refine ⟨nearer, place, farther, rfl, fun other hother => ?_, hfile, rfl⟩
    simpa using hnearer other hother
  · rintro ⟨nearer, place, farther, rfl, hnearer, hfile, rfl⟩
    refine ⟨place, List.find?_eq_some_iff_append.mpr ⟨hfile, nearer, farther, rfl, ?_⟩, rfl⟩
    intro other hother
    simpa using hnearer other hother

theorem find?_map_join_eq_none {isFile : String → Bool} {places : List String} {name : String} :
    (places.map (join · name)).find? isFile = none ↔
      ∀ place ∈ places, isFile (join place name) = false := by
  rw [List.find?_eq_none, List.forall_mem_map]
  simp only [Bool.not_eq_true]

/-- A file is looked for in a place and, from there upwards, in all that contains
    it, which ends at the root or, for a relative path, at the empty path.  What
    is found is the file in the first place that has one, nothing is found only
    if there is none in any of them, and each place is asked about at most once,
    in this order and no further than needed.  In a file tree that means its
    files, so that a directory of the name is passed over. -/
theorem findUpwards_nearest (isFile : String → Bool) (start name : String) :
    ∃ places, Upwards start places
      ∧ (∃ top, places.getLast? = some top ∧
          if start.toList.head? = some '/' then NamesRoot top else top = "")
      ∧ (let (found, asked) := (findUpwards (watched isFile) start name).run []
        (∀ path, found = some path ↔
            ∃ nearer place farther, places = nearer ++ place :: farther
              ∧ (∀ other ∈ nearer, isFile (join other name) = false)
              ∧ isFile (join place name) = true ∧ path = join place name)
          ∧ (found = none ↔ ∀ place ∈ places, isFile (join place name) = false)
          ∧ asked <+: places.map (join · name))
      ∧ ∀ t : FileTree,
          (findUpwards (m := StateM FileTree) FileAccess.isFile start name).run t =
              (((findUpwards (watched t.isFile) start name).run []).1, t)
            ∧ ∀ path, t.isDirectory path = true → t.isFile path = false := by
  have hup : Upwards start (start :: Path.ancestors (start.length + 1) start) :=
    Path.upwards_ancestors (Nat.lt_succ_self _)
  refine ⟨_, hup, hup.exists_top, ?_, fun t => ⟨?_, fun path => FileTree.isFile_of_isDirectory⟩⟩
  · obtain ⟨more, hrun, hmore⟩ := findM?_watched isFile (candidates start name) []
    rw [findUpwards, hrun, List.nil_append]
    exact ⟨fun path => find?_map_join_eq_some, find?_map_join_eq_none, hmore⟩
  · obtain ⟨more, hrun, -⟩ := findM?_watched t.isFile (candidates start name) []
    rw [findUpwards, findUpwards, findM?_fileTree, hrun]

end FileAccess

end Classpath
