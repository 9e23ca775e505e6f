import Bindery.Proofs.Files.Parents

/-!
Spellings of a path. Two paths are the same when they have the same components, however often a
slash is doubled or a dot stands between two slashes. Joining keeps paths the same
(`Path.components_join_congr`). Paths that are the same lead to one place
(`Files.destination_congr`), so that a file has one text and one directory under all spellings under
which it can be read (`Files.read?_congr`, `Files.components_parent?_congr`). These are all
spellings but those that are too long or end in a slash or a dot (`Files.isFile_congr`).
-/

set_option autoImplicit false
set_option relaxedAutoImplicit false

namespace Bindery

namespace Path

variable {path other dir otherDir name : String}

/-! ### The components of a path -/

theorem same_iff : same path other = true ↔ components path = components other := beq_iff_eq

/-- The lead of a path, by its first characters. -/
def leadOf : List Char → Lead
  | '/' :: _ => .root
  | ['.'] => .dot
  | '.' :: '/' :: _ => .dot
  | _ => .none

theorem components_eq (path : String) :
    components path = (leadOf path.toList, (path.toList.splitOn '/').filter (!isTrivial ·)) := by
  change ((split path).1, (split path).2.filter (!isTrivial ·)) = _
  unfold split
  generalize path.toList = cs
  split
  · rw [splitOn_slash_cons, List.filter_cons_of_neg (by decide)]
    rfl
  · rfl
  · rw [splitOn_dot_slash_cons, List.filter_cons_of_neg (by decide),
      List.filter_cons_of_neg (by decide)]
    rfl
  · rw [leadOf] <;> assumption

theorem leadOf_append_slash {cs : List Char} (hcs : cs ≠ []) (rest : List Char) :
    leadOf (cs ++ '/' :: rest) = leadOf cs := by
  obtain ⟨c, cs, rfl⟩ := List.exists_cons_of_ne_nil hcs
  by_cases hslash : c = '/'
  · rw [hslash]
    rfl
  · by_cases hdot : c = '.'
    · subst hdot
      cases cs with
      | nil => rfl
      | cons next cs =>
        by_cases hnext : next = '/'
        · rw [hnext]
          rfl
        · simp [leadOf, hnext]
    · simp [leadOf, hslash, hdot]

theorem leadOf_eq_root_iff {cs : List Char} : leadOf cs = .root ↔ cs.head? = some '/' := by
  unfold leadOf
  split
  · simp
  · simp
  · simp
  · rename_i hroot _ _
    simp only [reduceCtorEq, false_iff]
    intro hhead
    obtain ⟨body, hbody⟩ := List.head?_eq_some_iff.1 hhead
    exact hroot body hbody

theorem isAbsolute_iff : isAbsolute path = true ↔ leadOf path.toList = .root := by
  rw [leadOf_eq_root_iff, ← isAbsolute_ofList, String.ofList_toList]

theorem mem_iff_exists_splitOn {a c : Char} (hc : c ≠ a) (cs : List Char) :
    c ∈ cs ↔ ∃ piece ∈ cs.splitOn a, c ∈ piece := by
  induction cs with
  | nil => simp
  | cons d cs ih =>
    rw [List.splitOn_cons_eq_if_modifyHead]
    obtain ⟨first, rest, hsplit⟩ := List.exists_cons_of_ne_nil (List.splitOn_ne_nil a cs)
    rw [hsplit] at ih ⊢
    split
    · rename_i hd
      have hne : c ≠ d := fun h ↦ hc (h.trans (beq_iff_eq.1 hd))
      simp [ih, hne]
    · simp [ih, or_assoc]

/-- Only the empty path has no components at all. -/
theorem components_eq_empty_iff : components path = (.none, []) ↔ path = "" := by
  refine ⟨fun h ↦ ?_, fun h ↦ h ▸ rfl⟩
  rw [components_eq, Prod.mk.injEq] at h
  obtain ⟨hlead, hnames⟩ := h
  obtain ⟨first, rest, hsplit⟩ := List.exists_cons_of_ne_nil (List.splitOn_ne_nil '/' path.toList)
  have hfirst : isTrivial first = true := by
    have hall := List.filter_eq_nil_iff.1 hnames first (hsplit ▸ List.mem_cons_self)
    simpa using hall
  have hpath : path.toList = ['/'].intercalate (first :: rest) := by
    rw [← hsplit, List.intercalate_splitOn]
  -- A path of more than an empty name has a lead, since its first name is empty or a dot.
  have hcases : first = [] ∨ first = ['.'] := by simpa [isTrivial] using hfirst
  rw [← String.toList_inj, hpath]
  rw [hpath] at hlead
  rcases hcases with rfl | rfl <;> cases rest <;>
    simp_all [List.intercalate_cons_cons, leadOf]


/-! ### Joining -/

theorem endsWith_slash_iff : Text.endsWith "/" path = true ↔ ∃ cs, path.toList = cs ++ ['/'] := by
  rw [Text.endsWith, List.isPrefixOf_iff_prefix, List.reverse_prefix]
  exact ⟨fun ⟨cs, h⟩ ↦ ⟨cs, h.symm⟩, fun ⟨cs, h⟩ ↦ ⟨cs, h.symm⟩⟩

/-- A path below a directory is spelled with one slash more, if there is none at the end. -/
theorem toList_join (hname : isAbsolute name = false) (hdir : dir ≠ "") :
    ∃ cs, (join dir name).toList = cs ++ '/' :: name.toList ∧
      (dir.toList = cs ∨ dir.toList = cs ++ ['/']) := by
  have hempty : dir.isEmpty = false := by simpa using hdir
  rw [join, hname, hempty]
  by_cases hslash : Text.endsWith "/" dir = true
  · obtain ⟨cs, hcs⟩ := endsWith_slash_iff.1 hslash
    exact ⟨cs, by simp [hslash, hcs], .inr hcs⟩
  · exact ⟨dir.toList, by simp [hslash], .inl rfl⟩

theorem join_empty : join "" name = name := by
  unfold join
  split
  · rfl
  · exact String.empty_append

/-- A relative path stands below its directory with all its names. -/
theorem components_join (hname : isAbsolute name = false) (hdir : dir ≠ "") :
    components (join dir name) =
      ((components dir).1,
        (components dir).2 ++ (name.toList.splitOn '/').filter (!isTrivial ·)) := by
  obtain ⟨cs, hjoin, hcs⟩ := toList_join hname hdir
  have hnil : (([] : List Char).splitOn '/').filter (!isTrivial ·) = [] := rfl
  rw [components_eq, components_eq dir, hjoin, List.splitOn_append_cons_self, List.filter_append]
  rcases hcs with hcs | hcs
  · have hne : cs ≠ [] := fun h ↦ hdir (String.toList_inj.1 (hcs.trans h))
    rw [hcs, leadOf_append_slash hne]
  · rw [hcs, List.splitOn_append_cons_self, List.filter_append, hnil, List.append_nil]
    by_cases hne : cs = []
    · rw [hne]
      rfl
    · rw [leadOf_append_slash hne, leadOf_append_slash hne]

theorem components_join_congr (h : components dir = components otherDir) :
    components (join dir name) = components (join otherDir name) := by
  by_cases hname : isAbsolute name = true
  · rw [join, join, if_pos hname, if_pos hname]
  · rw [Bool.not_eq_true] at hname
    by_cases hdir : dir = ""
    · have hother : otherDir = "" := by
        rw [← components_eq_empty_iff, ← h, hdir]
        rfl
      rw [hdir, hother]
    · have hother : otherDir ≠ "" := by
        rwa [ne_eq, ← components_eq_empty_iff, ← h, components_eq_empty_iff]
      rw [components_join hname hdir, components_join hname hother, h]

/-! ### The directory of a path -/

section Parent

variable {last : List Char} {before : List (List Char)}

theorem leadOf_intercalate {first : List Char} (hfirst : first ≠ []) (rest : List (List Char)) :
    leadOf (['/'].intercalate (first :: rest)) = leadOf first := by
  cases rest with
  | nil => rw [List.intercalate_singleton]
  | cons second rest =>
    rw [List.intercalate_cons_cons, List.append_assoc]
    exact leadOf_append_slash hfirst _

/-- The directory of a path has the lead of the path. -/
theorem leadOf_parent? (hnames : path.toList.splitOn '/' = before ++ [last])
    (hlast : isTrivial last = false) (hdir : parent? path = some dir) :
    leadOf dir.toList = leadOf path.toList := by
  rcases split_cases path with
    ⟨body, hbody, hsplit⟩ | hdot | ⟨body, hbody, hsplit⟩ | ⟨hhead, hsplit⟩
  · rw [hbody, splitOn_slash_cons] at hnames
    obtain ⟨rest, -, hrest⟩ := cons_eq_concat hnames hlast rfl
    rw [hrest] at hsplit
    rw [← Option.some.inj ((parent?_of_split hsplit hlast).symm.trans hdir), String.toList_ofList,
      hbody]
    rfl
  · rw [hdot] at hnames
    obtain ⟨rest, -, hrest⟩ := cons_eq_concat hnames hlast rfl
    simp at hrest
  · rw [hbody, splitOn_dot_slash_cons] at hnames
    obtain ⟨rest, -, hrest⟩ := cons_eq_concat hnames hlast rfl
    rw [hrest, ← List.cons_append] at hsplit
    rw [← Option.some.inj ((parent?_of_split hsplit hlast).symm.trans hdir), String.toList_ofList,
      hbody]
    have hprefix := isPrefix_trimNames ([] :: rest)
    cases htrimmed : trimNames ([] :: rest) with
    | nil => rfl
    | cons first more =>
      rw [htrimmed] at hprefix
      obtain ⟨rfl, -⟩ := List.cons_prefix_cons.1 hprefix
      cases more <;> rfl
  · have hlead : leadOf path.toList = .none := by
      have hcomponents : (split path).1 = leadOf path.toList :=
        congrArg Prod.fst (components_eq path)
      rw [← hcomponents, hsplit]
    rw [hnames] at hsplit
    rw [← Option.some.inj ((parent?_of_split hsplit hlast).symm.trans hdir), String.toList_ofList,
      hlead]
    cases htrimmed : trimNames before with
    | nil => rfl
    | cons first rest =>
      obtain ⟨more, hmore⟩ := isPrefix_trimNames before
      have hpath : path.toList = ['/'].intercalate (first :: (rest ++ (more ++ [last]))) := by
        rw [← List.cons_append, ← htrimmed, ← List.append_assoc, hmore, ← hnames,
          List.intercalate_splitOn]
      -- A path that begins with a slash has a lead.
      have hfirst : first ≠ [] := by
        rintro rfl
        rw [List.intercalate_cons_of_ne_nil (by simp)] at hpath
        simp [hpath] at hhead
      rw [hpath, leadOf_intercalate hfirst] at hlead
      exact (leadOf_intercalate hfirst rest).trans hlead

/-- The directory of a file has the components of its path but the last name. -/
theorem components_parent? (hnames : path.toList.splitOn '/' = before ++ [last])
    (hlast : isTrivial last = false) :
    components ((parent? path).getD "") = ((components path).1, (components path).2.dropLast) := by
  obtain ⟨dir, hdir, -, -, hfilter⟩ := parent?_eq hnames hlast
  have hpath : (path.toList.splitOn '/').filter (!isTrivial ·) =
      before.filter (!isTrivial ·) ++ [last] := by
    rw [hnames, List.filter_append, List.filter_cons_of_pos (by simp [hlast]), List.filter_nil]
  rw [hdir, Option.getD_some, components_eq dir, components_eq path, hfilter, hpath,
    List.dropLast_concat, leadOf_parent? hnames hlast hdir]

end Parent

end Path

namespace Files

variable {fs : Files} {path other text : String}

/-- Names that stay make no difference to where names lead. -/
theorem walk_filter (place : Place) (names : List String) :
    walk place (names.filter (!stays ·)) = walk place names := by
  fun_induction walk place names <;> simp_all [walk]

theorem startPlace_eq (path : String) :
    startPlace path = if (Path.components path).1 = .root then ["/"] else [] := by
  rw [startPlace, Path.components_eq]
  simp only [← Path.isAbsolute_iff]

/-- A path leads to a place by its components. -/
theorem destination_eq_walk (path : String) :
    destination path = walk (if (Path.components path).1 = .root then ["/"] else [])
      ((Path.components path).2.map String.ofList) := by
  rw [destination, ← walk_filter, names, filter_map_ofList, startPlace_eq, Path.components_eq]

/-- Paths that are the same lead to one place. -/
theorem destination_congr (h : Path.components path = Path.components other) :
    destination path = destination other := by
  rw [destination_eq_walk, destination_eq_walk, h]

/-- The last name of a path does not depend on the directory in front. -/
theorem fileName_join (dir name : String) : fileName (Path.join dir name) = fileName name := by
  cases habsolute : Path.isAbsolute name with
  | true => rw [Path.join, if_pos habsolute]
  | false =>
    by_cases hdir : dir = ""
    · rw [hdir, Path.join_empty]
    · obtain ⟨cs, hjoin, -⟩ := Path.toList_join habsolute hdir
      obtain ⟨before, last, hsplit, hnames⟩ := exists_splitOn_concat name
      rw [fileName, fileName, hnames, names, hjoin, List.splitOn_append_cons_self, hsplit,
        ← List.append_assoc]
      simp only [List.map_append, List.map_cons, List.map_nil, List.getLastD_concat]

theorem fileName_append {ending : String} (h : '/' ∉ ending.toList) (name : String) :
    fileName (name ++ ending) = fileName name ++ ending := by
  obtain ⟨before, last, hname, hall⟩ := Path.exists_splitOn_append h name.toList
  rw [fileName, fileName, names, names, String.toList_append, hname, hall, List.map_append,
    List.map_append]
  simp only [List.map_cons, List.map_nil, List.getLastD_concat, String.ofList_append,
    String.ofList_toList]

theorem follow?_append (fs : Files) (place : Place) (names more : List String) :
    fs.follow? place (names ++ more) = (fs.follow? place names).bind (fs.follow? · more) := by
  induction names generalizing place with
  | nil => rfl
  | cons name rest ih =>
    simp only [List.cons_append, follow?, ih]
    repeat' split
    all_goals rfl

theorem follow?_of_isDir_eq_false {place : Place} {names : List String} (hnames : names ≠ [])
    (hplace : fs.isDir place = false) : fs.follow? place names = none := by
  obtain ⟨name, rest, rfl⟩ := List.exists_cons_of_ne_nil hnames
  simp [follow?, hplace]

/-- Names that stay make no difference to where names are followed to, in front of one that does
not stay. -/
theorem follow?_filter_concat (fs : Files) (place : Place) (names : List String) {last : String} :
    fs.follow? place (names.filter (!stays ·) ++ [last]) = fs.follow? place (names ++ [last]) := by
  induction names generalizing place with
  | nil => rfl
  | cons name rest ih =>
    cases hstays : stays name with
    | true =>
      rw [List.filter_cons_of_neg (by simp [hstays]), ih, List.cons_append, follow?, if_pos hstays]
      cases hplace : fs.isDir place with
      | true => rfl
      | false => exact follow?_of_isDir_eq_false (by simp) hplace
    | false =>
      rw [List.filter_cons_of_pos (by simp [hstays]), List.cons_append, List.cons_append, follow?,
        follow?]
      simp only [ih]

/-- A path that does not end in a slash or a dot is followed by its components. -/
theorem follow?_names (fs : Files) (hlast : stays (fileName path) = false) :
    fs.follow? (startPlace path) (names path) =
      fs.follow? (if (Path.components path).1 = .root then ["/"] else [])
        ((Path.components path).2.map String.ofList) := by
  have hnames : (Path.components path).2.map String.ofList =
      (names path).dropLast.filter (!stays ·) ++ [fileName path] := by
    have hfilter := congrArg (List.filter (!stays ·)) (names_eq path)
    rw [List.filter_append, List.filter_cons_of_pos (by simp [hlast]), List.filter_nil] at hfilter
    rw [Path.components_eq, ← filter_map_ofList]
    exact hfilter
  rw [hnames, follow?_filter_concat, ← names_eq, startPlace_eq]

/-- A path that ends in a slash or in a dot leads to no file. -/
theorem stays_fileName_of_read? (h : fs.read? path = some text) :
    stays (fileName path) = false := by
  obtain ⟨place, hlocate, hcontent⟩ := Option.bind_eq_some_iff.1 h
  rw [locate?] at hlocate
  split at hlocate
  · rw [names_eq, follow?_append] at hlocate
    obtain ⟨dir, -, hlast⟩ := Option.bind_eq_some_iff.1 hlocate
    rw [follow?] at hlast
    split at hlast
    · cases hlast
    · rename_i hdir
      rw [Bool.eq_false_iff]
      intro hstays
      -- The name leads back to the directory, where no file can be.
      rw [if_pos hstays, follow?, Option.some.injEq] at hlast
      have hfile : fs.isDir place = false := fs.apart place text hcontent
      simp [hlast, hfile] at hdir
  · cases hlocate

/-- The text of a file that can be read under two spellings is the same under both. -/
theorem read?_congr (h : Path.components path = Path.components other) {content : String}
    (hpath : fs.read? path = some text) (hother : fs.read? other = some content) :
    text = content := by
  have htext := content?_of_read? hpath
  rw [destination_congr h, content?_of_read? hother] at htext
  exact (Option.some.inj htext).symm

/-- The directory of a file that can be read has the components of its path but the last name. -/
theorem components_parent?_of_read? (h : fs.read? path = some text) :
    Path.components ((Path.parent? path).getD "") =
      ((Path.components path).1, (Path.components path).2.dropLast) := by
  obtain ⟨before, last, hsplit, hnames⟩ := exists_splitOn_concat path
  have hlast := stays_fileName_of_read? h
  rw [fileName, hnames, List.getLastD_concat, stays_ofList] at hlast
  exact Path.components_parent? hsplit hlast

/-- So it is the same under all spellings. -/
theorem components_parent?_congr (h : Path.components path = Path.components other)
    {content : String} (hpath : fs.read? path = some text)
    (hother : fs.read? other = some content) :
    Path.components ((Path.parent? path).getD "") =
      Path.components ((Path.parent? other).getD "") := by
  rw [components_parent?_of_read? hpath, components_parent?_of_read? hother, h]

/-- Whether a path can be handed to the file system, by its length and its components. -/
theorem isUsable_iff : isUsable path = true ↔ path ≠ "" ∧ path.utf8ByteSize ≤ maxPathBytes ∧
    ∀ name ∈ (Path.components path).2,
      '\x00' ∉ name ∧ isUsableName (String.ofList name) = true := by
  have hnames : (∀ name ∈ (Path.components path).2,
      '\x00' ∉ name ∧ isUsableName (String.ofList name) = true) ↔
        ∀ name ∈ path.toList.splitOn '/',
          '\x00' ∉ name ∧ isUsableName (String.ofList name) = true := by
    rw [Path.components_eq]
    refine ⟨fun h name hname ↦ ?_, fun h name hname ↦ h name (List.mem_filter.1 hname).1⟩
    cases htrivial : Path.isTrivial name with
    | false => exact h name (List.mem_filter.2 ⟨hname, by simp [htrivial]⟩)
    | true =>
      have hcases : name = [] ∨ name = ['.'] := by simpa [Path.isTrivial] using htrivial
      rcases hcases with rfl | rfl <;> decide
  have hnul := Path.mem_iff_exists_splitOn (by decide : '\x00' ≠ '/') path.toList
  rw [hnames]
  simp [isUsable, isUsableText, names, hnul, imp_and, forall_and, and_assoc]

/-- A file that can be read can be read under all other spellings too, unless they are too long or
end in a slash or a dot. -/
theorem isFile_congr (h : Path.components path = Path.components other)
    (hpath : fs.isFile path = true) (hsize : other.utf8ByteSize ≤ maxPathBytes)
    (hlast : stays (fileName other) = false) : fs.isFile other = true := by
  obtain ⟨text, hread⟩ := Option.isSome_iff_exists.1 hpath
  have hpathLast := stays_fileName_of_read? hread
  obtain ⟨place, hlocate, hcontent⟩ := Option.bind_eq_some_iff.1 hread
  rw [locate?] at hlocate
  split at hlocate
  · rename_i husable
    obtain ⟨hne, -, hnames⟩ := isUsable_iff.1 husable
    have hother : isUsable other = true := by
      refine isUsable_iff.2 ⟨?_, hsize, h ▸ hnames⟩
      rwa [ne_eq, ← Path.components_eq_empty_iff, ← h, Path.components_eq_empty_iff]
    rw [follow?_names fs hpathLast, h, ← follow?_names fs hlast] at hlocate
    rw [isFile, read?, locate?, if_pos hother, hlocate, Option.bind_some, hcontent]
    rfl
  · cases hlocate

end Files

end Bindery
