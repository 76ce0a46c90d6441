import CilProbe.FileTree
import CilProbe.Proofs.Path

/-!
# Files at the end of a path

A path that leads to a file describes the way to it (`wayOf_mem_of_isFile`).  The other way round a path also has to go
through directories only; without `.` and `..` these are the directories in which the file stands
(`isFile_iff_of_isName`).
-/

namespace CilProbe.FileTree

variable {t : FileTree} {way : List String} {path : String}

/-- Following components leads along the way that they describe. -/
theorem map_follow {names : List (List Char)} {result : List String} (h : t.follow way names = some result) :
    result.map String.toList = (names.foldl Path.step (way.map String.toList).reverse).reverse := by
  induction names generalizing way with
  | nil =>
    cases h
    rw [List.foldl_nil, List.reverse_reverse]
  | cons component names ih =>
    rw [follow] at h
    rw [List.foldl_cons, Path.step]
    split at h
    · contradiction
    · split at h
      · next hblank => rw [if_pos hblank, ih h]
      · next hblank =>
        split at h
        · next hup => rw [if_neg hblank, if_pos hup, ih h, List.map_dropLast, ← List.tail_reverse, List.drop_one]
        · next hup => rw [if_neg hblank, if_neg hup, ih h]; simp

theorem wayOf_mem_of_isFile (h : t.isFile path) : Path.wayOf path ∈ t.files := by
  rw [isFile] at h
  split at h
  · next way hway =>
    have hnames := map_follow hway
    have hsame : way = Path.wayOf path := by
      rw [Path.wayOf, ← List.reverse_nil, ← List.map_nil (f := String.toList), ← hnames, List.map_map]
      simp [Function.comp_def]
    rw [← hsame]
    exact List.contains_iff_mem.1 h
  · contradiction

theorem isDirectory_of_append_mem {rest : List String} (h : way ++ rest ∈ t.files) (hne : rest ≠ []) :
    t.isDirectory way := by
  rw [isDirectory, Bool.or_eq_true, List.any_eq_true]
  refine .inr ⟨_, h, ?_⟩
  simp [hne]

/-- On the way to a file one goes through directories. -/
theorem follow_of_mem {names : List (List Char)} {last : List Char}
    (hnames : ∀ component ∈ names, component = [] ∨ Path.IsName component) (hlast : Path.IsName last)
    (h : way ++ ((names.filter (· ≠ [])).map String.ofList ++ [String.ofList last]) ∈ t.files) :
    t.follow way (names ++ [last]) =
      some (way ++ ((names.filter (· ≠ [])).map String.ofList ++ [String.ofList last])) := by
  induction names generalizing way with
  | nil =>
    have hdirectory : t.isDirectory way := isDirectory_of_append_mem h (by simp)
    simp [follow, hdirectory, hlast.1, hlast.2.1, hlast.2.2]
  | cons component names ih =>
    have hdirectory : t.isDirectory way := isDirectory_of_append_mem h (by simp)
    have hrest := fun c hc => hnames c (List.mem_cons_of_mem component hc)
    obtain rfl | hname := hnames component (by simp)
    · rw [List.filter_cons_of_neg (by simp)] at h ⊢
      rw [List.cons_append, follow]
      simpa [hdirectory] using ih hrest h
    · rw [List.filter_cons_of_pos (by simpa using hname.1), List.map_cons, List.cons_append,
        List.append_cons] at h ⊢
      rw [List.cons_append, follow]
      simpa [hdirectory, hname.1, hname.2.1, hname.2.2] using ih hrest h

theorem isFile_iff_of_isName {names : List (List Char)} {last : List Char}
    (hpath : Path.components path.toList = names ++ [last])
    (hnames : ∀ component ∈ names, component = [] ∨ Path.IsName component) (hlast : Path.IsName last) :
    t.isFile path ↔ Path.wayOf path ∈ t.files := by
  refine ⟨wayOf_mem_of_isFile, fun h => ?_⟩
  have hway : Path.wayOf path = [] ++ ((names.filter (· ≠ [])).map String.ofList ++ [String.ofList last]) := by
    rw [Path.wayOf, hpath, List.foldl_append, List.foldl_cons, List.foldl_nil, Path.step_of_isName hlast,
      Path.foldl_step_of_isName hnames]
    simp
  rw [hway] at h
  rw [isFile, hpath, follow_of_mem hnames hlast h]
  exact List.contains_iff_mem.2 h

end CilProbe.FileTree
