import Bindery.Proofs.Files.Writing

/-!
The directories above a file. The directory that a path stands in is spelled as in the path, with
dots and doubled slashes left out only at its end. Its names are therefore those of the path without
the last one, up to names that stay where they are (`filter_names_parent`), and making it makes the
directories that the path passes (`withParents_eq`).
-/

set_option autoImplicit false
set_option relaxedAutoImplicit false

namespace Bindery

namespace Path

/-! ### Splitting at slashes -/

theorem not_mem_of_mem_splitOn {a : Char} {cs piece : List Char} (h : piece ∈ cs.splitOn a) :
    a ∉ piece := by
  induction cs generalizing piece with
  | nil =>
    rw [List.splitOn_nil, List.mem_singleton] at h
    rw [h]
    exact List.not_mem_nil
  | cons c cs ih =>
    rw [List.splitOn_cons_eq_if_modifyHead] at h
    split at h
    · rcases List.mem_cons.1 h with rfl | hmem
      · exact List.not_mem_nil
      · exact ih hmem
    · rename_i hne
      obtain ⟨first, rest, hsplit⟩ := List.exists_cons_of_ne_nil (List.splitOn_ne_nil a cs)
      rw [hsplit] at h ih
      rcases List.mem_cons.1 h with rfl | hmem
      · have hfirst := ih List.mem_cons_self
        have hne : a ≠ c := fun heq ↦ hne (by simp [heq])
        simp [hne, hfirst]
      · exact ih (List.mem_cons_of_mem _ hmem)

/-- A text that is not split itself goes to the last piece. -/
theorem exists_splitOn_append {a : Char} {ending : List Char} (h : a ∉ ending) (cs : List Char) :
    ∃ before last, cs.splitOn a = before ++ [last] ∧
      (cs ++ ending).splitOn a = before ++ [last ++ ending] := by
  induction cs with
  | nil => exact ⟨[], [], List.splitOn_nil a, List.splitOn_eq_singleton h⟩
  | cons d cs ih =>
    obtain ⟨before, last, hcs, hall⟩ := ih
    rw [List.cons_append, List.splitOn_cons_eq_if_modifyHead, List.splitOn_cons_eq_if_modifyHead,
      hcs, hall]
    by_cases hd : (d == a) = true
    · rw [if_pos hd, if_pos hd]
      exact ⟨[] :: before, last, rfl, rfl⟩
    · rw [if_neg hd, if_neg hd]
      cases before with
      | nil => exact ⟨[], d :: last, rfl, rfl⟩
      | cons first before => exact ⟨(d :: first) :: before, last, rfl, rfl⟩

/-- The last character, unless it is a slash, ends the last name. -/
theorem getLast?_splitOn_concat {a c : Char} (hc : c ≠ a) (cs : List Char) :
    ∃ start, ((cs ++ [c]).splitOn a).getLast? = some (start ++ [c]) := by
  obtain ⟨before, last, -, hall⟩ := exists_splitOn_append (by simpa using hc.symm : a ∉ [c]) cs
  exact ⟨last, by rw [hall, List.getLast?_concat]⟩

/-! ### Trimming -/

theorem filter_trimNames (names : List (List Char)) :
    (trimNames names).filter (!isTrivial ·) = names.filter (!isTrivial ·) := by
  have hdrop (l : List (List Char)) :
      (l.dropWhile isTrivial).filter (!isTrivial ·) = l.filter (!isTrivial ·) := by
    induction l with
    | nil => rfl
    | cons name l ih => cases h : isTrivial name <;> simp [h, ih]
  rw [trimNames, List.filter_reverse, hdrop, ← List.filter_reverse, List.reverse_reverse]

theorem trimNames_concat {last : List Char} (hlast : isTrivial last = false)
    (before : List (List Char)) : trimNames (before ++ [last]) = before ++ [last] := by
  rw [trimNames, List.reverse_append, List.reverse_singleton, List.singleton_append,
    List.dropWhile_cons, hlast]
  simp

theorem isPrefix_trimNames (names : List (List Char)) : trimNames names <+: names := by
  rw [trimNames, ← List.reverse_suffix, List.reverse_reverse]
  exact List.dropWhile_suffix _

/-! ### The directory of a path -/

theorem isAbsolute_ofList (cs : List Char) :
    isAbsolute (String.ofList cs) = true ↔ cs.head? = some '/' := by
  rw [isAbsolute, Text.startsWith, String.toList_ofList]
  cases cs with
  | nil => simp
  | cons c cs => simp [@eq_comm Char '/' c]

/-- Joining names and splitting them again keeps all but the names that stay. -/
theorem filter_splitOn_intercalate {names : List (List Char)}
    (hnames : ∀ name ∈ names, '/' ∉ name) :
    ((['/'].intercalate names).splitOn '/').filter (!isTrivial ·) =
      names.filter (!isTrivial ·) := by
  by_cases hempty : names = []
  · rw [hempty]
    rfl
  · rw [List.splitOn_intercalate '/' hnames hempty]

theorem splitOn_slash_cons (cs : List Char) :
    ('/' :: cs).splitOn '/' = [] :: cs.splitOn '/' := by
  rw [List.splitOn_cons_eq_if_modifyHead, if_pos (beq_self_eq_true _)]

theorem splitOn_dot_slash_cons (cs : List Char) :
    ('.' :: '/' :: cs).splitOn '/' = ['.'] :: cs.splitOn '/' := by
  rw [List.splitOn_cons_eq_if_modifyHead, splitOn_slash_cons]
  rfl

theorem split_cases (path : String) :
    (∃ body, path.toList = '/' :: body ∧ split path = (.root, body.splitOn '/')) ∨
    path.toList = ['.'] ∨
    (∃ body, path.toList = '.' :: '/' :: body ∧ split path = (.dot, [] :: body.splitOn '/')) ∨
    path.toList.head? ≠ some '/' ∧ split path = (.none, path.toList.splitOn '/') := by
  unfold split
  split
  · rename_i body h
    exact .inl ⟨body, h, rfl⟩
  · rename_i h
    exact .inr (.inl h)
  · rename_i body h
    exact .inr (.inr (.inl ⟨body, h, rfl⟩))
  · rename_i hroot _ _
    refine .inr (.inr (.inr ⟨fun hhead ↦ ?_, rfl⟩))
    obtain ⟨body, hbody⟩ := List.head?_eq_some_iff.1 hhead
    exact hroot body hbody

section Parent

variable {path : String} {last : List Char} {before : List (List Char)}

theorem parent?_of_split {lead : Lead} (hsplit : split path = (lead, before ++ [last]))
    (hlast : isTrivial last = false) :
    parent? path =
      some (String.ofList (lead.text ++ ['/'].intercalate (trimNames before))) := by
  simp [parent?, hsplit, trimNames_concat hlast]

theorem not_mem_of_mem_trimNames (hnames : ∀ name ∈ before, '/' ∉ name) :
    ∀ name ∈ trimNames before, '/' ∉ name :=
  fun name hmem ↦ hnames name ((isPrefix_trimNames before).subset hmem)

/-- The directory of a path below the root. -/
theorem filter_splitOn_of_root (hnames : ∀ name ∈ before, '/' ∉ name) :
    (('/' :: ['/'].intercalate (trimNames before)).splitOn '/').filter (!isTrivial ·) =
      before.filter (!isTrivial ·) := by
  have htrimmed := filter_splitOn_intercalate (not_mem_of_mem_trimNames hnames)
  rw [splitOn_slash_cons, List.filter_cons_of_neg (by decide), htrimmed, filter_trimNames]

/-- The directory of a path behind a dot. -/
theorem filter_splitOn_of_dot (hnames : ∀ name ∈ before, '/' ∉ name) :
    (('.' :: ['/'].intercalate (trimNames ([] :: before))).splitOn '/').filter (!isTrivial ·) =
      before.filter (!isTrivial ·) := by
  have hbefore : before.filter (!isTrivial ·) =
      (trimNames ([] :: before)).filter (!isTrivial ·) := by
    rw [filter_trimNames, List.filter_cons_of_neg (by decide)]
  have hprefix := isPrefix_trimNames ([] :: before)
  have hslash := not_mem_of_mem_trimNames (List.forall_mem_cons.2 ⟨List.not_mem_nil, hnames⟩)
  rw [hbefore]
  cases htrimmed : trimNames ([] :: before) with
  | nil => rfl
  | cons first rest =>
    rw [htrimmed] at hprefix hslash
    obtain ⟨rfl, -⟩ := List.cons_prefix_cons.1 hprefix
    cases rest with
    | nil => rfl
    | cons second rest =>
      have hrest : ∀ name ∈ second :: rest, '/' ∉ name :=
        fun name hmem ↦ hslash name (List.mem_cons_of_mem _ hmem)
      rw [List.intercalate_cons_cons, List.nil_append, List.singleton_append,
        splitOn_dot_slash_cons, List.filter_cons_of_neg (by decide),
        filter_splitOn_intercalate hrest]
      rfl

/-- The directory of a path without a lead does not begin at the root either. -/
theorem head?_intercalate_ne (hsplit : path.toList.splitOn '/' = before ++ [last])
    (hhead : path.toList.head? ≠ some '/') :
    (['/'].intercalate (trimNames before)).head? ≠ some '/' := by
  cases htrimmed : trimNames before with
  | nil => simp
  | cons first rest =>
    obtain ⟨more, hmore⟩ := isPrefix_trimNames before
    have hpath : path.toList = ['/'].intercalate (first :: (rest ++ (more ++ [last]))) := by
      rw [← List.cons_append, ← htrimmed, ← List.append_assoc, hmore, ← hsplit,
        List.intercalate_splitOn]
    have hne : rest ++ (more ++ [last]) ≠ [] := by simp
    rw [List.intercalate_cons_of_ne_nil hne] at hpath
    cases first with
    | nil => simp [hpath] at hhead
    | cons c first =>
      have hc : c ≠ '/' := by simpa [hpath] using hhead
      cases rest <;> simp [hc]

/-- A name that stays is not the last one, if that one does not stay. -/
theorem cons_eq_concat {first : List Char} {names : List (List Char)}
    (h : first :: names = before ++ [last]) (hlast : isTrivial last = false)
    (hfirst : isTrivial first = true) :
    ∃ rest, before = first :: rest ∧ names = rest ++ [last] := by
  cases before with
  | nil =>
    obtain ⟨rfl, -⟩ := List.cons_eq_cons.1 h
    rw [hlast] at hfirst
    cases hfirst
  | cons second rest =>
    obtain ⟨rfl, hrest⟩ := List.cons_eq_cons.1 h
    exact ⟨rest, rfl, hrest⟩

theorem isPrefix_intercalate {names more : List (List Char)} (h : names <+: more) :
    ['/'].intercalate names <+: ['/'].intercalate more := by
  obtain ⟨rest, rfl⟩ := h
  induction names with
  | nil => exact List.nil_prefix
  | cons first names ih =>
    by_cases hnames : names = []
    · rw [hnames, List.intercalate_singleton, List.singleton_append]
      cases rest with
      | nil => exact ⟨[], by rw [List.intercalate_singleton, List.append_nil]⟩
      | cons second rest =>
        rw [List.intercalate_cons_cons, List.append_assoc]
        exact List.prefix_append _ _
    · have hmore : names ++ rest ≠ [] := fun h ↦ hnames (List.append_eq_nil_iff.1 h).1
      rw [List.cons_append, List.intercalate_cons_of_ne_nil hnames,
        List.intercalate_cons_of_ne_nil hmore]
      exact (List.prefix_append_right_inj _).2 ih

theorem isPrefix_of_splitOn {cs : List Char} (h : cs.splitOn '/' = before ++ [last]) :
    ['/'].intercalate (trimNames before) <+: cs := by
  have hall := isPrefix_intercalate
    ((isPrefix_trimNames before).trans (List.prefix_append before [last]))
  rwa [← h, List.intercalate_splitOn] at hall

/-- The directory of a path is a beginning of it, and has its names but the last one, up to names
that stay. -/
theorem parent?_eq (hnames : path.toList.splitOn '/' = before ++ [last])
    (hlast : isTrivial last = false) :
    ∃ dir, parent? path = some dir ∧ dir.toList <+: path.toList ∧
      isAbsolute dir = isAbsolute path ∧
      (dir.toList.splitOn '/').filter (!isTrivial ·) = before.filter (!isTrivial ·) := by
  have hslash : ∀ name ∈ before, '/' ∉ name :=
    fun name hmem ↦ not_mem_of_mem_splitOn (hnames ▸ List.mem_append_left _ hmem)
  have hpath : isAbsolute path = true ↔ path.toList.head? = some '/' := by
    rw [← isAbsolute_ofList, String.ofList_toList]
  rcases split_cases path with
    ⟨body, hbody, hsplit⟩ | hdot | ⟨body, hbody, hsplit⟩ | ⟨hhead, hsplit⟩
  · rw [hbody, splitOn_slash_cons] at hnames
    obtain ⟨rest, rfl, hrest⟩ := cons_eq_concat hnames hlast rfl
    rw [hrest] at hsplit
    refine ⟨_, parent?_of_split hsplit hlast, ?_, ?_, ?_⟩
    · rw [String.toList_ofList, hbody]
      exact (List.prefix_append_right_inj ['/']).2 (isPrefix_of_splitOn hrest)
    · rw [Bool.eq_iff_iff, isAbsolute_ofList, hpath, hbody]
      rfl
    · rw [String.toList_ofList, List.filter_cons_of_neg (by decide)]
      exact filter_splitOn_of_root fun name hmem ↦ hslash name (List.mem_cons_of_mem _ hmem)
  · rw [hdot] at hnames
    obtain ⟨rest, -, hrest⟩ := cons_eq_concat hnames hlast rfl
    simp at hrest
  · rw [hbody, splitOn_dot_slash_cons] at hnames
    obtain ⟨rest, rfl, hrest⟩ := cons_eq_concat hnames hlast rfl
    rw [hrest, ← List.cons_append] at hsplit
    have hslashed : ('/' :: body).splitOn '/' = ([] :: rest) ++ [last] := by
      rw [splitOn_slash_cons, hrest, List.cons_append]
    refine ⟨_, parent?_of_split hsplit hlast, ?_, ?_, ?_⟩
    · rw [String.toList_ofList, hbody]
      exact (List.prefix_append_right_inj ['.']).2 (isPrefix_of_splitOn hslashed)
    · rw [Bool.eq_iff_iff, isAbsolute_ofList, hpath, hbody]
      simp [Lead.text]
    · rw [String.toList_ofList, List.filter_cons_of_neg (by decide)]
      exact filter_splitOn_of_dot fun name hmem ↦ hslash name (List.mem_cons_of_mem _ hmem)
  · rw [hnames] at hsplit
    refine ⟨_, parent?_of_split hsplit hlast, ?_, ?_, ?_⟩
    · rw [String.toList_ofList]
      exact isPrefix_of_splitOn hnames
    · rw [Bool.eq_iff_iff, isAbsolute_ofList, hpath]
      exact ⟨fun h ↦ (head?_intercalate_ne hnames hhead h).elim, fun h ↦ (hhead h).elim⟩
    · rw [String.toList_ofList]
      exact (filter_splitOn_intercalate (not_mem_of_mem_trimNames hslash)).trans
        (filter_trimNames before)

end Parent

end Path

namespace Files

theorem stays_ofList (name : List Char) : stays (String.ofList name) = Path.isTrivial name := by
  have hempty : (String.ofList name == "") = name.isEmpty := by
    rw [Bool.eq_iff_iff, beq_iff_eq, List.isEmpty_iff, ← String.toList_inj, String.toList_ofList]
    rfl
  have hdot : (String.ofList name == ".") = (name == ['.']) := by
    rw [Bool.eq_iff_iff, beq_iff_eq, beq_iff_eq, ← String.toList_inj, String.toList_ofList]
    rfl
  rw [stays, Path.isTrivial, hempty, hdot]

theorem filter_map_ofList (names : List (List Char)) :
    (names.map String.ofList).filter (!stays ·) =
      (names.filter (!Path.isTrivial ·)).map String.ofList := by
  rw [List.filter_map]
  congr 1
  refine List.filter_congr fun name _ ↦ ?_
  rw [Function.comp_apply, stays_ofList]

/-! ### The last name of a path -/

section LastName

variable {path other : String} {c d : Char}

theorem fileName_getLast? (hc : c ≠ '/') (h : path.toList.getLast? = some c) :
    (fileName path).toList.getLast? = some c := by
  obtain ⟨cs, hcs⟩ := List.getLast?_eq_some_iff.1 h
  obtain ⟨start, hstart⟩ := Path.getLast?_splitOn_concat hc cs
  rw [fileName, List.getLastD_eq_getLast?, names, List.getLast?_map, hcs, hstart]
  simp

/-- A path that ends neither in a slash nor in a dot names a file. -/
theorem isFileName_of_getLast? (hslash : c ≠ '/') (hdot : c ≠ '.')
    (h : path.toList.getLast? = some c) : isFileName (fileName path) = true := by
  have hlast := fileName_getLast? hslash h
  have hne {name : String} (hname : name.toList.getLast? = some '.' ∨ name = "") :
      fileName path ≠ name := by
    intro heq
    rw [heq] at hlast
    rcases hname with hname | rfl
    · rw [hname] at hlast
      exact hdot (Option.some.inj hlast).symm
    · cases hlast
  simp [isFileName, stays, hne (.inr rfl), hne (.inl (by decide : ".".toList.getLast? = some '.')),
    hne (.inl (by decide : "..".toList.getLast? = some '.'))]

/-- Paths that end in different characters lead to different places. -/
theorem destination_ne (hne : c ≠ d) (hpath : isFileName (fileName path) = true)
    (hother : isFileName (fileName other) = true) (hc : c ≠ '/') (hd : d ≠ '/')
    (h : path.toList.getLast? = some c) (h' : other.toList.getLast? = some d) :
    destination path ≠ destination other := by
  intro heq
  rw [destination_eq hpath, destination_eq hother] at heq
  obtain ⟨-, hname⟩ := List.append_inj' heq rfl
  have hlast := fileName_getLast? hc h
  rw [List.singleton_inj.1 hname, fileName_getLast? hd h'] at hlast
  exact hne (Option.some.inj hlast).symm

end LastName

/-! ### Making the directories of a path -/

/-- Names that stay make no difference to the directories that are made. -/
theorem makeDirsFrom_filter (fs : Files) (place : Place) (names : List String) :
    fs.makeDirsFrom place (names.filter (!stays ·)) = fs.makeDirsFrom place names := by
  induction names generalizing fs place with
  | nil => rfl
  | cons name rest ih =>
    cases hstays : stays name with
    | true =>
      rw [List.filter_cons_of_neg (by simp [hstays]), ih, makeDirsFrom, if_pos hstays]
    | false =>
      rw [List.filter_cons_of_pos (by simp [hstays]), makeDirsFrom, makeDirsFrom]
      simp only [ih]

/-- Whether the directory of a path can be handed to the file system. -/
def isParentUsable (path : String) : Bool :=
  match Path.parent? path with
  | some dir => dir.isEmpty || isUsableText dir
  | none => true

variable {path : String}

theorem isTrivial_of_isFileName {last : List Char}
    (h : isFileName (String.ofList last) = true) : Path.isTrivial last = false := by
  rw [isFileName, Bool.and_eq_true, stays_ofList] at h
  simpa using h.1

theorem exists_splitOn_concat (path : String) :
    ∃ before last, path.toList.splitOn '/' = before ++ [last] ∧
      names path = before.map String.ofList ++ [String.ofList last] := by
  have hsplit := (List.dropLast_concat_getLast (List.splitOn_ne_nil '/' path.toList)).symm
  exact ⟨_, _, hsplit, (congrArg (List.map String.ofList) hsplit).trans List.map_append⟩

/-- The directory of a file can be handed to the file system when the file can. -/
theorem isParentUsable_of_isUsableText (hname : isFileName (fileName path) = true)
    (h : isUsableText path = true) : isParentUsable path = true := by
  obtain ⟨before, last, hsplit, hnames⟩ := exists_splitOn_concat path
  rw [fileName, hnames, List.getLastD_concat] at hname
  obtain ⟨dir, hdir, hbegins, -⟩ := Path.parent?_eq hsplit (isTrivial_of_isFileName hname)
  obtain ⟨rest, hrest⟩ := hbegins
  have hpath : path = dir ++ String.ofList rest := by
    rw [← String.toList_inj, String.toList_append, String.toList_ofList, hrest]
  rw [isParentUsable, hdir]
  simp only [isUsableText, hpath, String.utf8ByteSize_append, String.toList_append,
    Bool.and_eq_true, decide_eq_true_eq, Bool.not_eq_eq_eq_not, Bool.not_true,
    Bool.or_eq_true] at h ⊢
  by_cases hempty : dir.isEmpty = true
  · exact .inl hempty
  · refine .inr ⟨⟨by simpa using hempty, by omega⟩, ?_⟩
    simpa using fun hmem ↦ by simpa [hmem] using h.2

/-- The directories above a file are those that its path passes. -/
theorem withParents_eq (fs : Files) (hname : isFileName (fileName path) = true) :
    fs.withParents path =
      if isParentUsable path then fs.makeDirsFrom (startPlace path) (names path).dropLast
      else (false, fs) := by
  obtain ⟨before, last, hsplit, hnames⟩ := exists_splitOn_concat path
  rw [fileName, hnames, List.getLastD_concat] at hname
  obtain ⟨dir, hdir, -, habsolute, hfilter⟩ :=
    Path.parent?_eq hsplit (isTrivial_of_isFileName hname)
  have hmake : fs.makeDirsFrom (startPlace dir) (names dir) =
      fs.makeDirsFrom (startPlace path) (names path).dropLast := by
    rw [← makeDirsFrom_filter fs _ (names dir), ← makeDirsFrom_filter fs _ (names path).dropLast,
      startPlace, startPlace, habsolute, hnames, List.dropLast_concat, filter_map_ofList, names,
      filter_map_ofList, hfilter]
  rw [withParents, isParentUsable, hdir]
  simp only
  rw [← hmake, makeDirs]
  by_cases hempty : dir.isEmpty = true
  · rw [String.isEmpty_iff.1 hempty]
    rfl
  · simp [hempty]

end Files

end Bindery
