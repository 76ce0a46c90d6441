import CilProbe.Dependency
import CilProbe.Proofs.FileTree
import CilProbe.Proofs.Lists

/-!
# Where dependencies are found

Each assembly and each native module that is referred to is looked for once, in the order of the references
(`FirstOccurrences`).  An assembly is looked for in the directory of the assembly that refers to it: one whose name has
no slashes is found there or not at all.  But a name comes from the metadata and may be a path itself.  It is then
followed from this directory, or from the root, and what is found lies wherever it leads (`references_located`), also
outside of the directory (`reference_outside`).
-/

namespace CilProbe.Dependency

variable {files : FileTree} {kind : Kind} {name file base path assembly : String} {d : Dependency}

/-- The directory of the assembly at a path. -/
def directoryOf (assembly : String) : String := Path.directory (Path.normalised assembly)

/-- The path leads to a file that lies directly in a directory, which is given by the way to it. -/
structure LiesIn (files : FileTree) (directory : List String) (path : String) : Prop where
  isFile : files.isFile path
  exists_file : ∃ file, Path.wayOf path = directory ++ [file] ∧ directory ++ [file] ∈ files.files

theorem wayOf_directoryOf (assembly : String) : Path.wayOf (directoryOf assembly) = (Path.wayOf assembly).dropLast :=
  Path.wayOf_directory_normalised assembly

/-! ### File names -/

theorem spelled_of_mem_extensions {ending : String} (h : ending ∈ extensions kind) :
    '/' ∉ ending.toList ∧ ∃ c ∈ ending.toList, c ≠ '.' := by
  have hcases : ending = ".dll" ∨ ending = ".exe" := by
    cases kind with
    | managed => simpa [extensions] using h
    | native => exact .inl (List.mem_singleton.1 h)
  obtain rfl | rfl := hcases
  · exact ⟨by decide, 'd', by decide, by decide⟩
  · exact ⟨by decide, 'e', by decide, by decide⟩

/-- The name itself is tried if it has an extension, or else the name with each of the endings. -/
theorem cases_of_mem_candidates (h : file ∈ candidates kind name) :
    file = name ∧ Path.extension name ≠ "" ∨ ∃ ending ∈ extensions kind, file = name ++ ending := by
  rw [candidates] at h
  split at h
  · next hextension =>
    refine .inl ⟨List.mem_singleton.1 h, fun hempty => ?_⟩
    rw [hempty] at hextension
    revert hextension
    cases kind <;> decide
  · obtain ⟨ending, hending, rfl⟩ := List.mem_map.1 h
    exact .inr ⟨ending, hending, rfl⟩

theorem exists_ending (h : file ∈ candidates kind name) :
    ∃ ending : String, '/' ∉ ending.toList ∧ file = name ++ ending := by
  obtain ⟨rfl, -⟩ | ⟨ending, hending, rfl⟩ := cases_of_mem_candidates h
  · exact ⟨"", by simp, String.append_empty.symm⟩
  · exact ⟨ending, (spelled_of_mem_extensions hending).1, rfl⟩

theorem isName_of_mem_candidates (h : file ∈ candidates kind name) : Path.IsName (Path.name file) := by
  obtain ⟨rfl, hextension⟩ | ⟨ending, hending, rfl⟩ := cases_of_mem_candidates h
  · exact Path.isName_of_extension hextension
  · obtain ⟨hslash, c, hc, hpoint⟩ := spelled_of_mem_extensions hending
    rw [Path.name_append hslash]
    exact Path.isName_of_mem (List.mem_append_right _ hc) hpoint

/-- A file that is tried lies in the directory to which the name leads. -/
theorem wayOf_join (h : file ∈ candidates kind name) (base : String) : Path.wayOf (Path.join base file) =
    Path.wayOf (Path.directory (Path.join base name)) ++ [String.ofList (Path.name file)] := by
  have hname := isName_of_mem_candidates h
  rw [← Path.name_join base] at hname ⊢
  rw [Path.wayOf_of_isName hname]
  obtain ⟨ending, hending, rfl⟩ := exists_ending h
  rw [Path.join_append hending, Path.directory_append hending]

/-! ### References -/

theorem exists_of_find? {directories names : List String} (h : find? files directories names = some path) :
    ∃ directory ∈ directories, ∃ file ∈ names, path = Path.join directory file ∧ files.isFile path := by
  obtain ⟨directory, hdirectory, hpath⟩ := List.mem_flatMap.1 (List.mem_of_find?_eq_some h)
  obtain ⟨file, hfile, rfl⟩ := List.mem_map.1 hpath
  exact ⟨directory, hdirectory, file, hfile, rfl, List.find?_some h⟩

/-- A path that is shown is that of a file. -/
theorem finding_of_path_ne (h : d.path ≠ "") : d.finding = .file d.path := by
  rw [path] at h ⊢
  cases hfinding : d.finding with
  | file path => rfl
  | providedByRuntime => simp [hfinding] at h
  | missing => simp [hfinding] at h

theorem finding_ofReference_eq_file (h : (ofReference files base name).finding = .file path) :
    ∃ file ∈ candidates .managed name, path = Path.join base file ∧ files.isFile path := by
  simp only [ofReference] at h
  split at h
  · next found hfound =>
    cases h
    obtain ⟨directory, hdirectory, hfile⟩ := exists_of_find? hfound
    rwa [List.mem_singleton.1 hdirectory] at hfile
  · split at h <;> cases h

/-- What is found of a reference lies in the directory to which its name leads. -/
theorem liesIn_of_finding (h : (ofReference files base name).finding = .file path) :
    LiesIn files (Path.wayOf (Path.directory (Path.join base name))) path := by
  obtain ⟨file, hfile, rfl, hisFile⟩ := finding_ofReference_eq_file h
  have hway := wayOf_join hfile base
  exact ⟨hisFile, _, hway, hway ▸ FileTree.wayOf_mem_of_isFile hisFile⟩

/-- Next to an assembly a name without slashes is tried by looking into the directory. -/
theorem isFile_join_iff (h : file ∈ candidates kind name) (hname : '/' ∉ name.toList) :
    files.isFile (Path.join (directoryOf assembly) file) ↔ (Path.wayOf assembly).dropLast ++ [file] ∈ files.files := by
  have hslash : '/' ∉ file.toList := by
    obtain ⟨ending, hending, rfl⟩ := exists_ending h
    simp [hname, hending]
  have hlast : Path.name file = file.toList := Path.name_of_notMem hslash
  have hhead : file.toList.head? ≠ some '/' := fun hhead => hslash (List.mem_of_mem_head? hhead)
  obtain ⟨front, hjoin, -, hfront⟩ := Path.components_join hhead (directoryOf assembly)
  rw [Path.components_of_notMem hslash] at hjoin
  have hplain : ∀ component ∈ front, component = [] ∨ Path.IsName component := by
    intro component hcomponent
    obtain hblank | hmem := Path.mem_components_directory (hfront component hcomponent)
    · exact .inl hblank
    · exact Path.isName_of_mem_components_normalised hmem
  rw [FileTree.isFile_iff_of_isName hjoin hplain (hlast ▸ isName_of_mem_candidates h), wayOf_join h,
    Path.wayOf_directory_join hname, wayOf_directoryOf, hlast, String.ofList_toList]

theorem exists_finding_iff (hname : '/' ∉ name.toList) :
    (∃ path, (ofReference files (directoryOf assembly) name).finding = .file path) ↔
      ∃ file ∈ candidates .managed name, (Path.wayOf assembly).dropLast ++ [file] ∈ files.files := by
  constructor
  · rintro ⟨path, hpath⟩
    obtain ⟨file, hfile, rfl, hisFile⟩ := finding_ofReference_eq_file hpath
    exact ⟨file, hfile, (isFile_join_iff hfile hname).1 hisFile⟩
  · rintro ⟨file, hfile, hmem⟩
    have hsome : (find? files [directoryOf assembly] (candidates .managed name)).isSome := by
      rw [find?, List.find?_isSome]
      exact ⟨_, List.mem_flatMap.2 ⟨_, List.mem_singleton_self _, List.mem_map_of_mem hfile⟩,
        (isFile_join_iff hfile hname).2 hmem⟩
    obtain ⟨path, hpath⟩ := Option.isSome_iff_exists.1 hsome
    exact ⟨path, by simp only [ofReference, hpath]⟩

theorem LiesIn.path_ne {directory : List String} (h : LiesIn files directory path) : path ≠ "" := by
  rintro rfl
  obtain ⟨file, hway, -⟩ := h.exists_file
  exact List.append_ne_nil_of_right_ne_nil directory (List.cons_ne_nil file []) hway.symm

/-- A path is shown of a resolved reference if and only if a file was found. -/
theorem resolved_ofReference_iff :
    (ofReference files base name).isResolved ∧ (ofReference files base name).path ≠ "" ↔
      ∃ path, (ofReference files base name).finding = .file path := by
  constructor
  · rintro ⟨-, hpath⟩
    exact ⟨_, finding_of_path_ne hpath⟩
  · rintro ⟨path, hfinding⟩
    have hpath : (ofReference files base name).path = path := by rw [Dependency.path, hfinding]
    exact ⟨by rw [isResolved, hfinding]; rfl, hpath ▸ (liesIn_of_finding hfinding).path_ne⟩

/-- The files in two directories are the same only if the directories are. -/
theorem liesIn_iff {directory directory' : List String} (h : LiesIn files directory path) :
    LiesIn files directory' path ↔ directory = directory' := by
  constructor
  · intro h'
    obtain ⟨file, hway, -⟩ := h.exists_file
    obtain ⟨file', hway', -⟩ := h'.exists_file
    exact (List.append_inj' (hway.symm.trans hway') rfl).1
  · rintro rfl
    exact h

/-- The references come first, each name once and in the order of the first references with it, and then the modules.
If a file is found for a reference, it lies in the directory to which the name leads from that of the assembly.  With a
name without slashes this is the directory of the assembly itself, and then a file is found if there is one there. -/
theorem references_located (files : FileTree) (search : List String) (assembly : String)
    (references modules : List String) :
    ∃ managed unmanaged, check files search assembly references modules = managed ++ unmanaged ∧
      (∀ d ∈ managed, d.kind = .managed) ∧ (∀ d ∈ unmanaged, d.kind = .native) ∧
      FirstOccurrences (managed.map (·.name)) references ∧ FirstOccurrences (unmanaged.map (·.name)) modules ∧
      (∀ d ∈ managed, d.isResolved → d.path ≠ "" →
        (∃ file ∈ candidates .managed d.name, d.path = Path.join (directoryOf assembly) file) ∧
        LiesIn files (Path.wayOf (Path.directory (Path.join (directoryOf assembly) d.name))) d.path ∧
        (LiesIn files (Path.wayOf assembly).dropLast d.path ↔
          Path.wayOf (Path.directory (Path.join (directoryOf assembly) d.name)) = (Path.wayOf assembly).dropLast)) ∧
      ∀ d ∈ managed, '/' ∉ d.name.toList →
        (d.isResolved → d.path ≠ "" → LiesIn files (Path.wayOf assembly).dropLast d.path) ∧
        (d.isResolved ∧ d.path ≠ "" ↔
          ∃ file ∈ candidates .managed d.name, (Path.wayOf assembly).dropLast ++ [file] ∈ files.files) := by
  refine ⟨references.eraseDups.map (ofReference files (directoryOf assembly)),
    modules.eraseDups.map (ofModule files (directoryOf assembly) search), rfl, ?_, ?_, ?_, ?_, ?_, ?_⟩
  · simp [ofReference]
  · simp [ofModule]
  · simpa [ofReference, Function.comp_def] using firstOccurrences_eraseDups references
  · simpa [ofModule, Function.comp_def] using firstOccurrences_eraseDups modules
  · rintro d hd - hpath
    obtain ⟨name, -, rfl⟩ := List.mem_map.1 hd
    have hfinding := finding_of_path_ne hpath
    obtain ⟨file, hfile, hjoin, -⟩ := finding_ofReference_eq_file hfinding
    have hlies := liesIn_of_finding hfinding
    exact ⟨⟨file, hfile, hjoin⟩, hlies, liesIn_iff hlies⟩
  · intro d hd hname
    obtain ⟨name, -, rfl⟩ := List.mem_map.1 hd
    change '/' ∉ name.toList at hname
    refine ⟨fun _ hpath => ?_, resolved_ofReference_iff.trans (exists_finding_iff hname)⟩
    rw [← wayOf_directoryOf, ← Path.wayOf_directory_join hname]
    exact liesIn_of_finding (finding_of_path_ne hpath)

/-- An assembly with another one next to it and one outside of its directory. -/
private def installation : FileTree := .ofPaths [] ["/app/App.exe", "/app/Helper.dll", "/outside.dll"]

theorem references_located_installation :
    LiesIn installation ["app"] "/app/Helper.dll" ∧ LiesIn installation [] "/app/../outside.dll" := by
  obtain ⟨managed, unmanaged, hcheck, -, -, -, hunmanaged, hleads, hnext⟩ :=
    references_located installation [] "/app/App.exe" ["Helper", "../outside", "Helper"] []
  have hnone : unmanaged = [] := by
    refine List.eq_nil_iff_forall_not_mem.2 fun d hd => ?_
    exact List.not_mem_nil ((hunmanaged.mem_iff d.name).1 (List.mem_map_of_mem hd))
  rw [hnone, List.append_nil] at hcheck
  have hmanaged : managed =
      [⟨.managed, "Helper", .file "/app/Helper.dll"⟩, ⟨.managed, "../outside", .file "/app/../outside.dll"⟩] := by
    rw [← hcheck]
    decide +kernel
  subst hmanaged
  exact ⟨(hnext _ List.mem_cons_self (by decide)).1 rfl (by decide),
    (hleads ⟨.managed, "../outside", .file "/app/../outside.dll"⟩ (by simp) rfl (by decide)).2.1⟩

/-- A name that leads out of the directory of the assembly is found outside. -/
theorem reference_outside : ∃ d ∈ check installation [] "/app/App.exe" ["../outside"] [], d.kind = .managed ∧
    d.isResolved ∧ d.path ≠ "" ∧ ¬LiesIn installation (Path.wayOf "/app/App.exe").dropLast d.path := by
  refine ⟨⟨.managed, "../outside", .file "/app/../outside.dll"⟩, by decide +kernel, rfl, rfl, by decide, fun h => ?_⟩
  obtain ⟨file, hway, -⟩ := h.exists_file
  have hlength := congrArg List.length hway
  rw [List.length_append, List.length_singleton] at hlength
  revert hlength
  decide +kernel

end CilProbe.Dependency
