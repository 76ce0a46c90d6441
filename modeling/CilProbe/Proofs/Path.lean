import CilProbe.Path
import CilProbe.Proofs.Lists

/-!
# Ways that paths describe

The way to a place lists the names from the root on.  A path in a directory goes on from the way to that directory
(`components_join`), and its own directory is reached without its last component (`foldl_step_directory`).  So the way to
a file is the way to its directory and its name (`wayOf_of_isName`), and the directory of a normalised path is reached on
the way that the path describes, without its last name (`wayOf_directory_normalised`).
-/

namespace CilProbe.Path

variable {way : List (List Char)} {component : List Char} {xs ys : List Char}

/-! ### Components -/

/-- A component that names something in the directory in which it stands. -/
def IsName (component : List Char) : Prop := component ≠ [] ∧ component ≠ ['.'] ∧ component ≠ ['.', '.']

theorem isName_of_mem {c : Char} (h : c ∈ component) (hpoint : c ≠ '.') : IsName component := by
  refine ⟨List.ne_nil_of_mem h, ?_, ?_⟩
  · rintro rfl
    exact hpoint (List.mem_singleton.1 h)
  · rintro rfl
    simp [hpoint] at h

@[simp] theorem step_nil (way : List (List Char)) : step way [] = way := rfl

theorem step_of_isName (h : IsName component) : step way component = component :: way := by
  simp [step, h.1, h.2.1, h.2.2]

/-- Without `.` and `..` the names are put in front one after the other, and blanks are left out. -/
theorem foldl_step_of_isName {names : List (List Char)} (h : ∀ component ∈ names, component = [] ∨ IsName component) :
    names.foldl step way = (names.filter (· ≠ [])).reverse ++ way := by
  induction names generalizing way with
  | nil => rfl
  | cons component names ih =>
    rw [List.foldl_cons, ih fun c hc => h c (by simp [hc])]
    obtain rfl | hname := h component (by simp)
    · rw [step_nil, List.filter_cons_of_neg (by simp)]
    · rw [step_of_isName hname, List.filter_cons_of_pos (by simpa using hname.1), List.reverse_cons, List.append_assoc,
        List.singleton_append]

theorem components_ne_nil (xs : List Char) : components xs ≠ [] := by
  cases xs with
  | nil => simp [components]
  | cons c xs =>
    rw [components]
    split
    · simp
    · split <;> simp

theorem components_append_slash (xs ys : List Char) :
    components (xs ++ '/' :: ys) = components xs ++ components ys := by
  induction xs with
  | nil => simp [components]
  | cons c xs ih =>
    rw [List.cons_append, components, components, ih]
    split
    · rfl
    · cases hxs : components xs with
      | nil => exact absurd hxs (components_ne_nil xs)
      | cons first others => rfl

theorem components_of_notMem (h : '/' ∉ xs) : components xs = [xs] := by
  induction xs with
  | nil => rfl
  | cons c xs ih =>
    simp only [List.mem_cons, not_or] at h
    rw [components, if_neg (Ne.symm h.1), ih h.2]

theorem notMem_of_mem_components (h : component ∈ components xs) : '/' ∉ component := by
  induction xs generalizing component with
  | nil => simp_all [components]
  | cons c xs ih =>
    rw [components] at h
    split at h
    · rcases List.mem_cons.1 h with rfl | h
      · simp
      · exact ih h
    · next hc =>
      cases hxs : components xs with
      | nil => exact absurd hxs (components_ne_nil xs)
      | cons first others =>
        rw [hxs] at h ih
        rcases List.mem_cons.1 h with rfl | h
        · simp [Ne.symm hc, ih (List.mem_cons_self)]
        · exact ih (List.mem_cons_of_mem _ h)

/-- A text without slashes, or one that goes on behind its last slash. -/
theorem exists_last_slash (xs : List Char) :
    '/' ∉ xs ∨ ∃ front last, xs = front ++ '/' :: last ∧ '/' ∉ last := by
  by_cases h : '/' ∈ xs
  · right
    obtain ⟨last, front, hsplit, hlast⟩ := List.eq_append_cons_of_mem (List.mem_reverse.2 h)
    refine ⟨front.reverse, last.reverse, ?_, by rwa [List.mem_reverse]⟩
    rw [← List.reverse_reverse xs, hsplit]
    simp
  · exact .inl h

/-- Slashes lead nowhere. -/
theorem foldl_step_slashes (h : ∀ c ∈ xs, c = '/') (way : List (List Char)) : (components xs).foldl step way = way := by
  induction xs with
  | nil => rfl
  | cons c xs ih =>
    rw [components, if_pos (h c (by simp)), List.foldl_cons, step_nil]
    exact ih fun c hc => h c (by simp [hc])

theorem foldl_step_append_slashes (h : ∀ c ∈ ys, c = '/') (xs : List Char) (way : List (List Char)) :
    (components (xs ++ ys)).foldl step way = (components xs).foldl step way := by
  cases ys with
  | nil => rw [List.append_nil]
  | cons c ys =>
    obtain rfl := h c (by simp)
    rw [components_append_slash, List.foldl_append, foldl_step_slashes fun c hc => h c (by simp [hc])]

/-! ### The last component -/

/-- What is added without slashes goes on with the last component. -/
theorem name_append {ending : String} (h : '/' ∉ ending.toList) (path : String) :
    name (path ++ ending) = name path ++ ending.toList := by
  rw [name, name, String.toList_append, reverse_takeWhile_append_of_notMem h]

theorem directory_append {ending : String} (h : '/' ∉ ending.toList) (path : String) :
    directory (path ++ ending) = directory path := by
  simp only [directory, String.toList_append, List.reverse_append,
    List.dropWhile_append_of_pos (bne_of_mem_reverse h)]

theorem name_of_toList_eq {path : String} {front last : List Char} (hpath : path.toList = front ++ '/' :: last)
    (hlast : '/' ∉ last) : name path = last := by
  rw [name, hpath, List.append_cons, reverse_takeWhile_append_of_notMem hlast, List.reverse_append]
  simp

theorem name_of_notMem {path : String} (h : '/' ∉ path.toList) : name path = path.toList := by
  rw [name, reverse_takeWhile_of_notMem h]

theorem components_eq (path : String) :
    components path.toList = (components path.toList).dropLast ++ [name path] := by
  obtain h | ⟨front, last, hpath, hlast⟩ := exists_last_slash path.toList
  · rw [name_of_notMem h, components_of_notMem h]
    rfl
  · rw [name_of_toList_eq hpath hlast, hpath, components_append_slash, components_of_notMem hlast, List.dropLast_concat]

/-- A last component with an extension is a name. -/
theorem isName_of_extension {path : String} (h : extension path ≠ "") : IsName (name path) := by
  rw [extension] at h
  split at h
  · next hpoint =>
    cases hinner : (name path).dropWhile (· == '.') with
    | nil => simp [hinner] at hpoint
    | cons c rest =>
      have hc : c ∈ name path := (List.dropWhile_sublist _).mem (hinner ▸ List.mem_cons_self)
      refine isName_of_mem hc ?_
      have hhead := List.head?_dropWhile_not (· == '.') (name path)
      simpa [hinner] using hhead
  · contradiction

/-! ### Directories -/

/-- Of what stands in front of the last slash, the slashes at its end are no part of the directory; if there is nothing
else, the directory is the root. -/
theorem directory_cases {path : String} {front last : List Char} (hpath : path.toList = front ++ '/' :: last)
    (hlast : '/' ∉ last) : (∃ slashes, (∀ c ∈ slashes, c = '/') ∧ front = (directory path).toList ++ slashes) ∨
      (∀ c ∈ front, c = '/') ∧ ∀ c ∈ (directory path).toList, c = '/' := by
  have hupTo : path.toList.reverse.dropWhile (· != '/') = '/' :: front.reverse := by
    rw [hpath, List.reverse_append, List.reverse_cons, List.append_assoc,
      List.dropWhile_append_of_pos (bne_of_mem_reverse hlast), List.singleton_append,
      List.dropWhile_cons_of_neg (by simp)]
  have htrimmed : ('/' :: front.reverse).dropWhile (· == '/') = front.reverse.dropWhile (· == '/') :=
    List.dropWhile_cons_of_pos rfl
  have hslashes : ∀ c ∈ front.reverse.takeWhile (· == '/'), c = '/' := fun c hc =>
    beq_iff_eq.1 (List.mem_takeWhile_imp (p := (· == '/')) hc)
  have hfront := List.takeWhile_append_dropWhile (p := (· == '/')) (l := front.reverse)
  simp only [directory, hupTo, htrimmed, String.toList_ofList]
  split
  · next hempty =>
    rw [List.isEmpty_iff.1 hempty, List.append_nil] at hfront
    rw [hfront] at hslashes
    refine .inr ⟨fun c hc => hslashes c (List.mem_reverse.2 hc), fun c hc => ?_⟩
    rcases List.mem_cons.1 hc with rfl | hc
    · rfl
    · exact hslashes c hc
  · refine .inl ⟨(front.reverse.takeWhile (· == '/')).reverse, fun c hc => hslashes c (List.mem_reverse.1 hc), ?_⟩
    rw [← List.reverse_append, hfront, List.reverse_reverse]

theorem directory_of_notMem {path : String} (h : '/' ∉ path.toList) : directory path = "" := by
  have hnone : path.toList.reverse.dropWhile (· != '/') = [] :=
    List.dropWhile_eq_nil_iff.2 (bne_of_mem_reverse h)
  simp [directory, hnone]

/-- The directory is reached without the last component. -/
theorem foldl_step_directory (path : String) (way : List (List Char)) :
    (components (directory path).toList).foldl step way = (components path.toList).dropLast.foldl step way := by
  obtain h | ⟨front, last, hpath, hlast⟩ := exists_last_slash path.toList
  · rw [directory_of_notMem h, components_of_notMem h]
    rfl
  · rw [hpath, components_append_slash, components_of_notMem hlast, List.dropLast_concat]
    obtain ⟨slashes, hslashes, hfront⟩ | ⟨hfront, hdirectory⟩ := directory_cases hpath hlast
    · rw [hfront, foldl_step_append_slashes hslashes]
    · rw [foldl_step_slashes hfront, foldl_step_slashes hdirectory]

theorem components_slashes (h : ∀ c ∈ xs, c = '/') : ∀ component ∈ components xs, component = [] := by
  induction xs with
  | nil => simp [components]
  | cons c xs ih =>
    rw [components, if_pos (h c (by simp)), List.forall_mem_cons]
    exact ⟨rfl, ih fun c hc => h c (by simp [hc])⟩

theorem mem_components_directory {path : String} (h : component ∈ components (directory path).toList) :
    component = [] ∨ component ∈ components path.toList := by
  obtain hnone | ⟨front, last, hpath, hlast⟩ := exists_last_slash path.toList
  · rw [directory_of_notMem hnone] at h
    exact .inl (List.mem_singleton.1 h)
  · obtain ⟨slashes, hslashes, hfront⟩ | ⟨-, hdirectory⟩ := directory_cases hpath hlast
    · right
      rw [hpath, components_append_slash, hfront]
      cases slashes with
      | nil => rw [List.append_nil]; exact List.mem_append_left _ h
      | cons c slashes =>
        obtain rfl := hslashes c (by simp)
        rw [components_append_slash, List.append_assoc]
        exact List.mem_append_left _ h
    · exact .inl (components_slashes hdirectory component h)

/-! ### Paths in a directory -/

/-- A path in a directory goes on from the components of the directory, except for blanks at their end. -/
theorem components_join {path : String} (h : path.toList.head? ≠ some '/') (base : String) :
    ∃ front, components (join base path).toList = front ++ components path.toList ∧
      (∀ way, front.foldl step way = (components base.toList).foldl step way) ∧
      ∀ component ∈ front, component ∈ components base.toList := by
  rw [join]
  by_cases hempty : base = ""
  · subst hempty
    exact ⟨[], by simp, fun way => rfl, by simp⟩
  rw [if_neg (by simpa [h] using hempty)]
  split
  · next hend =>
    obtain ⟨front, hfront⟩ := List.getLast?_eq_some_iff.1 hend
    refine ⟨components front, ?_, fun way => ?_, fun component hc => ?_⟩
    · rw [String.toList_append, hfront, List.append_assoc, List.singleton_append, components_append_slash]
    · rw [hfront, components_append_slash, List.foldl_append]
      rfl
    · rw [hfront, components_append_slash]
      exact List.mem_append_left _ hc
  · refine ⟨components base.toList, ?_, fun way => rfl, fun _ => id⟩
    rw [String.toList_append, String.toList_append, List.append_assoc]
    exact components_append_slash base.toList path.toList

theorem join_of_head? {path : String} (h : path.toList.head? = some '/') (base : String) : join base path = path := by
  rw [join, if_pos (by simp [h])]

theorem join_append {ending : String} (h : '/' ∉ ending.toList) (base path : String) :
    join base (path ++ ending) = join base path ++ ending := by
  have hhead : (path ++ ending).toList.head? = some '/' ↔ path.toList.head? = some '/' := by
    rw [String.toList_append, List.head?_append]
    cases path.toList.head? with
    | none => simpa using fun hhead => h (List.mem_of_mem_head? hhead)
    | some c => rfl
  simp only [join, hhead]
  split
  · rfl
  · split
    · exact String.append_assoc.symm
    · exact String.append_assoc.symm

theorem name_join (base path : String) : name (join base path) = name path := by
  by_cases h : path.toList.head? = some '/'
  · rw [join_of_head? h]
  · obtain ⟨front, hjoin, -, -⟩ := components_join h base
    have hlast := congrArg List.getLast? hjoin
    rw [components_eq (join base path), components_eq path, ← List.append_assoc, List.getLast?_concat,
      List.getLast?_concat] at hlast
    exact Option.some.inj hlast

/-! ### Ways -/

/-- The way to what has a name is the way to its directory, and then the name. -/
theorem wayOf_of_isName {path : String} (h : IsName (name path)) :
    wayOf path = wayOf (directory path) ++ [String.ofList (name path)] := by
  rw [wayOf, components_eq, List.foldl_append, List.foldl_cons, List.foldl_nil, step_of_isName h,
    ← foldl_step_directory, List.reverse_cons, List.map_append, List.map_singleton, wayOf]

/-- What is named without slashes stands in the directory itself. -/
theorem wayOf_directory_join {path : String} (h : '/' ∉ path.toList) (base : String) :
    wayOf (directory (join base path)) = wayOf base := by
  have hhead : path.toList.head? ≠ some '/' := fun hhead => h (List.mem_of_mem_head? hhead)
  obtain ⟨front, hjoin, hway, -⟩ := components_join hhead base
  rw [wayOf, foldl_step_directory, hjoin, components_of_notMem h, List.dropLast_concat, hway, wayOf]

theorem isName_of_mem_foldl_step {names : List (List Char)} (h : ∀ component ∈ way, IsName component) :
    ∀ component ∈ names.foldl step way, IsName component := by
  induction names generalizing way with
  | nil => exact h
  | cons first names ih =>
    refine ih ?_
    rw [step]
    split
    · exact h
    · split
      · exact fun component hc => h component (List.mem_of_mem_drop hc)
      · next hblank hup =>
        simp only [Bool.or_eq_true, decide_eq_true_eq, not_or] at hblank
        rw [List.forall_mem_cons]
        exact ⟨⟨hblank.1, hblank.2, hup⟩, h⟩

theorem mem_of_mem_foldl_step {names : List (List Char)} (h : component ∈ names.foldl step way) :
    component ∈ way ∨ component ∈ names := by
  induction names generalizing way with
  | nil => exact .inl h
  | cons first names ih =>
    rcases ih h with h | h
    · rw [step] at h
      split at h
      · exact .inl h
      · split at h
        · exact .inl (List.mem_of_mem_drop h)
        · exact (List.mem_cons.1 h).elim (fun h => .inr (by simp [h])) .inl
    · exact .inr (List.mem_cons_of_mem _ h)

theorem exists_names (path : String) : ∃ names : List (List Char), wayOf path = names.map String.ofList ∧
    (∀ component ∈ names, IsName component) ∧ ∀ component ∈ names, '/' ∉ component := by
  refine ⟨((components path.toList).foldl step []).reverse, rfl, fun component hc => ?_, fun component hc => ?_⟩
  · exact isName_of_mem_foldl_step (by simp) component (List.mem_reverse.1 hc)
  · obtain hnil | hcomponent := mem_of_mem_foldl_step (List.mem_reverse.1 hc)
    · contradiction
    · exact notMem_of_mem_components hcomponent

theorem components_intercalate {names : List (List Char)} (h : ∀ component ∈ names, '/' ∉ component)
    (hne : names ≠ []) : components (['/'].intercalate names) = names := by
  induction names with
  | nil => contradiction
  | cons first names ih =>
    have hfirst := h first (by simp)
    cases names with
    | nil => rw [List.intercalate_singleton, components_of_notMem hfirst]
    | cons second names =>
      rw [List.intercalate_cons_cons, List.append_assoc, List.singleton_append, components_append_slash,
        components_of_notMem hfirst, ih (fun component hc => h component (by simp [hc])) (by simp),
        List.singleton_append]

/-- A normalised path has the names of the way, behind one or more blanks for the slashes at its start. -/
theorem components_normalised (path : String) : ∃ (slashes : List Char) (names : List (List Char)),
    (∀ c ∈ slashes, c = '/') ∧ (∀ component ∈ names, IsName component) ∧ wayOf path = names.map String.ofList ∧
      components (normalised path).toList = components slashes ++ if names = [] then [[]] else names := by
  obtain ⟨names, hway, hnames, hplain⟩ := exists_names path
  have hjoined : ("/".intercalate (wayOf path)).toList = ['/'].intercalate names := by
    rw [String.toList_intercalate, hway, List.map_map]
    simp [Function.comp_def]
  have hcomponents : components (['/'].intercalate names) = if names = [] then [[]] else names := by
    split
    · next hnil => rw [hnil]; rfl
    · next hne => exact components_intercalate hplain hne
  have hroot : ∃ slashes : List Char, (∀ c ∈ slashes, c = '/') ∧
      (normalised path).toList = slashes ++ '/' :: ['/'].intercalate names := by
    rw [normalised, String.toList_append, hjoined]
    split
    · exact ⟨[], by simp, rfl⟩
    · exact ⟨['/'], by simp, rfl⟩
    · exact ⟨[], by simp, rfl⟩
  obtain ⟨slashes, hslashes, hnormalised⟩ := hroot
  exact ⟨slashes, names, hslashes, hnames, hway, by rw [hnormalised, components_append_slash, hcomponents]⟩

/-- In the directory of a normalised path there is no more `.` and `..`. -/
theorem isName_of_mem_components_normalised {path : String} (h : component ∈ components (normalised path).toList) :
    component = [] ∨ IsName component := by
  obtain ⟨slashes, names, hslashes, hnames, -, hcomponents⟩ := components_normalised path
  rw [hcomponents] at h
  rcases List.mem_append.1 h with h | h
  · exact .inl (components_slashes hslashes component h)
  · split at h
    · exact .inl (List.mem_singleton.1 h)
    · exact .inr (hnames component h)

theorem wayOf_directory_normalised (path : String) : wayOf (directory (normalised path)) = (wayOf path).dropLast := by
  obtain ⟨slashes, names, hslashes, hnames, hway, hcomponents⟩ := components_normalised path
  rw [hway, wayOf, foldl_step_directory, hcomponents]
  split
  · next hnil =>
    rw [List.dropLast_concat, foldl_step_slashes hslashes, hnil]
    rfl
  · next hne =>
    have hfront : ∀ component ∈ names.dropLast, IsName component := fun component hc =>
      hnames component ((List.dropLast_sublist names).mem hc)
    rw [List.dropLast_append_of_ne_nil hne, List.foldl_append, foldl_step_slashes hslashes,
      foldl_step_of_isName fun component hc => .inr (hfront component hc),
      List.filter_eq_self.2 fun component hc => by simpa using (hfront component hc).1, List.append_nil,
      List.reverse_reverse, List.map_dropLast]

end CilProbe.Path
