import Bindery.Proofs.Files.Parents

/-!
How a tree grows under writing. Whether a file can be written depends on the directories that its
path passes and on its destination only (`write_fst_iff`). Writing other files adds directories, and
changes files that stand in nobody's way, as long as no destination is a directory that another path
passes (`Separate`). Such a tree has grown (`Grown`): the same files can be written
(`Grown.write_fst`), and a file that nobody writes is read as before (`Grown.read?`).
-/

set_option autoImplicit false
set_option relaxedAutoImplicit false

namespace Bindery.Files

/-! ### Making directories -/

/-- The directories that names pass below an entry. -/
def passages : Place → List String → List Place
  | _, [] => []
  | place, name :: rest =>
    if stays name then passages place rest
    else if name == ".." then passages (above place) rest
    else (place ++ [name]) :: passages (place ++ [name]) rest

/-- A directory is there, or can be made. -/
def Allows (fs : Files) (place : Place) : Prop :=
  fs.isDir place = true ∨
    fs.content? place = none ∧ isUsableName (place.getLastD "") = true

variable {fs : Files} {place other : Place} {path text : String}

theorem isDir_addDir (hfree : fs.content? place = none) :
    (fs.addDir place hfree).isDir other = true ↔ other = place ∨ fs.isDir other = true := by
  simp [isDir, addDir, or_left_comm]

/-- A directory that can be made changes nothing for any other. -/
theorem allows_addDir (hfree : fs.content? place = none) (hplace : fs.Allows place) :
    (fs.addDir place hfree).Allows other ↔ fs.Allows other := by
  rw [Allows, isDir_addDir]
  constructor
  · rintro ((rfl | hdir) | hother)
    · exact hplace
    · exact .inl hdir
    · exact .inr hother
  · rintro (hdir | hother)
    · exact .inl (.inr hdir)
    · exact .inr hother

theorem allows_concat {name : String} (hfree : fs.content? (place ++ [name]) = none)
    (hname : isUsableName name = true) : fs.Allows (place ++ [name]) :=
  .inr ⟨hfree, by rw [List.getLastD_concat]; exact hname⟩

/-- Directories can be made when each that is passed is there, or can be made. -/
theorem makeDirsFrom_fst_iff (fs : Files) (place : Place) (names : List String) :
    (fs.makeDirsFrom place names).1 = true ↔ ∀ next ∈ passages place names, fs.Allows next := by
  fun_induction makeDirsFrom fs place names with
  | case1 fs place => simp [passages]
  | case2 fs place name rest hstays ih => rw [ih, passages, if_pos hstays]
  | case3 fs place name rest hstays habove ih =>
    rw [ih, passages, if_neg hstays, if_pos habove]
  | case4 fs place name rest hstays habove next hdir ih =>
    rw [ih, passages, if_neg hstays, if_neg habove, List.forall_mem_cons]
    exact (and_iff_right (.inl hdir)).symm
  | case5 fs place name rest hstays habove next hdir hfree ih =>
    have hnext : fs.Allows next := allows_concat hfree.1 hfree.2
    rw [ih, passages, if_neg hstays, if_neg habove, List.forall_mem_cons, and_iff_right hnext]
    exact forall₂_congr fun other _ ↦ allows_addDir hfree.1 hnext
  | case6 fs place name rest hstays habove next hdir hfree =>
    rw [passages, if_neg hstays, if_neg habove, List.forall_mem_cons]
    refine ⟨fun h ↦ (Bool.false_ne_true h).elim, fun h ↦ (hfree ?_).elim⟩
    rcases h.1 with hnext | hnext
    · exact (hdir hnext).elim
    · rwa [List.getLastD_concat] at hnext

/-- The directories that are made are passed, and have usable names. -/
theorem isDir_makeDirsFrom {names : List String}
    (h : (fs.makeDirsFrom place names).2.isDir other = true) :
    fs.isDir other = true ∨
      other ∈ passages place names ∧ isUsableName (other.getLastD "") = true := by
  fun_induction makeDirsFrom fs place names with
  | case1 => exact .inl h
  | case2 fs place name rest hstays ih => rw [passages, if_pos hstays]; exact ih h
  | case3 fs place name rest hstays habove ih =>
    rw [passages, if_neg hstays, if_pos habove]
    exact ih h
  | case4 fs place name rest hstays habove next hdir ih =>
    rw [passages, if_neg hstays, if_neg habove]
    exact (ih h).imp id fun hmade ↦ ⟨List.mem_cons_of_mem _ hmade.1, hmade.2⟩
  | case5 fs place name rest hstays habove next hdir hfree ih =>
    rw [passages, if_neg hstays, if_neg habove]
    rcases ih h with hold | hmade
    · rcases (isDir_addDir hfree.1).1 hold with rfl | hold
      · exact .inr ⟨List.mem_cons_self, by rw [List.getLastD_concat]; exact hfree.2⟩
      · exact .inl hold
    · exact .inr ⟨List.mem_cons_of_mem _ hmade.1, hmade.2⟩
  | case6 => exact .inl h

theorem isDir_makeDirsFrom_of_isDir {names : List String} (h : fs.isDir other = true) :
    (fs.makeDirsFrom place names).2.isDir other = true := by
  fun_induction makeDirsFrom fs place names with
  | case1 => exact h
  | case2 fs place name rest hstays ih => exact ih h
  | case3 fs place name rest hstays habove ih => exact ih h
  | case4 fs place name rest hstays habove next hdir ih => exact ih h
  | case5 fs place name rest hstays habove next hdir hfree ih =>
    exact ih ((isDir_addDir hfree.1).2 (.inr h))
  | case6 => exact h

/-- After directories have been made, all that are passed are there. -/
theorem isDir_of_mem_passages {names : List String}
    (h : (fs.makeDirsFrom place names).1 = true) (hmem : other ∈ passages place names) :
    (fs.makeDirsFrom place names).2.isDir other = true := by
  fun_induction makeDirsFrom fs place names with
  | case1 => exact (List.not_mem_nil hmem).elim
  | case2 fs place name rest hstays ih =>
    rw [passages, if_pos hstays] at hmem
    exact ih h hmem
  | case3 fs place name rest hstays habove ih =>
    rw [passages, if_neg hstays, if_pos habove] at hmem
    exact ih h hmem
  | case4 fs place name rest hstays habove next hdir ih =>
    rw [passages, if_neg hstays, if_neg habove] at hmem
    rcases List.mem_cons.1 hmem with rfl | hmem
    · exact isDir_makeDirsFrom_of_isDir hdir
    · exact ih h hmem
  | case5 fs place name rest hstays habove next hdir hfree ih =>
    rw [passages, if_neg hstays, if_neg habove] at hmem
    rcases List.mem_cons.1 hmem with rfl | hmem
    · exact isDir_makeDirsFrom_of_isDir ((isDir_addDir hfree.1).2 (.inl rfl))
    · exact ih h hmem
  | case6 => cases h

/-! ### Following names -/

/-- The entry and all entries on the way to it are directories. -/
def Rooted (fs : Files) (place : Place) : Prop :=
  ∀ before, before <+: place → fs.isDir before = true

theorem rooted_of_isOutside (fs : Files) (h : Place.isOutside place = true) : fs.Rooted place := by
  intro before hbefore
  have houtside : Place.isOutside before = true := by
    rw [Place.isOutside, Bool.or_eq_true] at h ⊢
    rcases h with hall | hroot
    · rw [List.all_eq_true] at hall ⊢
      exact .inl fun name hname ↦ hall name (hbefore.subset hname)
    · rw [beq_iff_eq] at hroot
      rw [hroot] at hbefore
      rcases List.prefix_cons_iff.1 hbefore with rfl | ⟨rest, rfl, hrest⟩
      · exact .inl rfl
      · rw [List.prefix_nil.1 hrest]
        exact .inr rfl
  rw [isDir, houtside, Bool.true_or]

theorem rooted_startPlace (fs : Files) (path : String) : fs.Rooted (startPlace path) := by
  refine fs.rooted_of_isOutside ?_
  unfold startPlace
  split <;> rfl

theorem Rooted.above (h : fs.Rooted place) : fs.Rooted (above place) := by
  unfold Files.above
  split
  · exact h
  · split
    · rename_i hroot houtside
      refine fs.rooted_of_isOutside ?_
      rw [Place.isOutside, Bool.or_eq_true] at houtside ⊢
      refine .inl ?_
      rcases houtside with hall | hroot'
      · rw [List.all_cons, hall]
        rfl
      · exact (hroot hroot').elim
    · exact fun before hbefore ↦ h before (hbefore.trans (List.dropLast_prefix place))

theorem Rooted.concat (h : fs.Rooted place) {name : String}
    (hdir : fs.isDir (place ++ [name]) = true) : fs.Rooted (place ++ [name]) := by
  intro before hbefore
  rcases List.prefix_concat_iff.1 hbefore with rfl | hbefore
  · exact hdir
  · exact h before hbefore

/-- Names can be followed through directories that are all there. -/
theorem follow?_of_passages {names : List String} (hplace : fs.Rooted place)
    (h : ∀ next ∈ passages place names, fs.isDir next = true) :
    fs.follow? place names = some (walk place names) ∧ fs.Rooted (walk place names) := by
  induction names generalizing place with
  | nil => exact ⟨rfl, hplace⟩
  | cons name rest ih =>
    have hdir : ¬(!fs.isDir place) = true := by simp [hplace place List.prefix_rfl]
    rw [follow?, walk, if_neg hdir]
    rw [passages] at h
    by_cases hstays : stays name = true
    · rw [if_pos hstays] at h
      rw [if_pos hstays, if_pos hstays]
      exact ih hplace h
    · rw [if_neg hstays] at h
      rw [if_neg hstays, if_neg hstays]
      by_cases habove : (name == "..") = true
      · rw [if_pos habove] at h
        rw [if_pos habove, if_pos habove]
        exact ih hplace.above h
      · rw [if_neg habove, List.forall_mem_cons] at h
        rw [if_neg habove, if_neg habove]
        simp only [h.1, Bool.true_or, if_true]
        exact ih (hplace.concat h.1) h.2

/-- All directories that names pass on the way to an entry are there. -/
theorem isDir_of_follow? {names : List String} {last : String}
    (h : fs.follow? place (names ++ [last]) = some other) :
    ∀ next ∈ passages place names, fs.isDir next = true := by
  induction names generalizing place with
  | nil => exact fun next hmem ↦ (List.not_mem_nil hmem).elim
  | cons name rest ih =>
    rw [List.cons_append, follow?] at h
    rw [passages]
    by_cases hdir : (!fs.isDir place) = true
    · rw [if_pos hdir] at h
      cases h
    · rw [if_neg hdir] at h
      by_cases hstays : stays name = true
      · rw [if_pos hstays] at h ⊢
        exact ih h
      · rw [if_neg hstays] at h ⊢
        by_cases habove : (name == "..") = true
        · rw [if_pos habove] at h ⊢
          exact ih h
        · rw [if_neg habove] at h ⊢
          simp only at h
          split at h
          · rw [List.forall_mem_cons]
            refine ⟨?_, ih h⟩
            -- the entry is followed further, at least to the last name
            have hnext : rest ++ [last] ≠ [] := by simp
            obtain ⟨first, more, hmore⟩ := List.exists_cons_of_ne_nil hnext
            rw [hmore, follow?] at h
            by_cases hfollowed : (!fs.isDir (place ++ [name])) = true
            · rw [if_pos hfollowed] at h
              cases h
            · simpa using hfollowed
          · cases h

/-! ### Writing one file -/

/-- The directories that a path passes. -/
def dirsAbove (path : String) : List Place := passages (startPlace path) (names path).dropLast

theorem withParents_fst_iff (fs : Files) (hname : isFileName (fileName path) = true) :
    (fs.withParents path).1 = true ↔
      isParentUsable path = true ∧ ∀ next ∈ dirsAbove path, fs.Allows next := by
  rw [withParents_eq fs hname]
  by_cases husable : isParentUsable path = true
  · rw [if_pos husable, makeDirsFrom_fst_iff, and_iff_right husable]
    rfl
  · rw [if_neg husable]
    exact ⟨fun h ↦ (Bool.false_ne_true h).elim, fun h ↦ (husable h.1).elim⟩

theorem isDir_withParents (hname : isFileName (fileName path) = true)
    (h : (fs.withParents path).2.isDir place = true) :
    fs.isDir place = true ∨
      place ∈ dirsAbove path ∧ isUsableName (place.getLastD "") = true := by
  rw [withParents_eq fs hname] at h
  split at h
  · exact isDir_makeDirsFrom h
  · exact .inl h

theorem isDir_withParents_of_isDir (hname : isFileName (fileName path) = true)
    (h : fs.isDir place = true) : (fs.withParents path).2.isDir place = true := by
  rw [withParents_eq fs hname]
  split
  · exact isDir_makeDirsFrom_of_isDir h
  · exact h

theorem isDir_withParents_of_mem (hname : isFileName (fileName path) = true)
    (hmade : (fs.withParents path).1 = true) (hmem : place ∈ dirsAbove path) :
    (fs.withParents path).2.isDir place = true := by
  have husable := ((withParents_fst_iff fs hname).1 hmade).1
  rw [withParents_eq fs hname, if_pos husable] at hmade ⊢
  exact isDir_of_mem_passages hmade hmem

/-- With the directories above it in place, a file can be written unless its destination is a
directory. -/
theorem isSome_writeFile_iff (text : String) (hname : isFileName (fileName path) = true)
    (hdirs : ∀ next ∈ dirsAbove path, fs.isDir next = true) :
    (fs.writeFile path text).isSome = true ↔
      isUsable path = true ∧ fs.isDir (destination path) = false := by
  obtain ⟨hfollow, hrooted⟩ := follow?_of_passages (fs.rooted_startPlace path) hdirs
  have hdir := hrooted _ List.prefix_rfl
  rw [destination_eq hname]
  by_cases husable : isUsable path = true
  · have hparent : fs.locateParent? path =
        some (walk (startPlace path) (names path).dropLast) := by
      rw [locateParent?, if_pos husable, hfollow]
    rw [and_iff_right husable, writeFile, hparent]
    simp only [hdir, hname, true_and]
    split
    · rename_i hfree
      exact iff_of_true rfl hfree
    · rename_i hfree
      exact iff_of_false Bool.false_ne_true hfree
  · have hparent : fs.locateParent? path = none := by rw [locateParent?, if_neg husable]
    rw [writeFile, hparent]
    exact ⟨fun h ↦ (Bool.false_ne_true h).elim, fun h ↦ (husable h.1).elim⟩

theorem write_fst (fs : Files) (path text : String) :
    (fs.write path text).1 =
      ((fs.withParents path).1 && ((fs.withParents path).2.writeFile path text).isSome) := by
  unfold write
  rcases fs.withParents path with ⟨isMade, made⟩
  cases isMade with
  | false => rfl
  | true =>
    simp only [if_true, Bool.true_and]
    cases made.writeFile path text <;> rfl

/-- A file can be written when its path is usable, every directory that the path passes is there or
can be made, and its destination is none and will not be one. -/
theorem write_fst_iff (fs : Files) (path text : String)
    (hname : isFileName (fileName path) = true) :
    (fs.write path text).1 = true ↔
      isUsable path = true ∧ (∀ next ∈ dirsAbove path, fs.Allows next) ∧
        fs.isDir (destination path) = false ∧ destination path ∉ dirsAbove path := by
  rw [write_fst, Bool.and_eq_true, withParents_fst_iff fs hname]
  constructor
  · rintro ⟨hparents, hfile⟩
    have hmade := (withParents_fst_iff fs hname).2 hparents
    have hdirs : ∀ next ∈ dirsAbove path, (fs.withParents path).2.isDir next = true :=
      fun next hmem ↦ isDir_withParents_of_mem hname hmade hmem
    obtain ⟨husable, hfree⟩ := (isSome_writeFile_iff text hname hdirs).1 hfile
    refine ⟨husable, hparents.2, ?_, fun hmem ↦ ?_⟩
    · rw [← Bool.not_eq_true]
      intro hdir
      rw [isDir_withParents_of_isDir hname hdir] at hfree
      cases hfree
    · rw [hdirs _ hmem] at hfree
      cases hfree
  · rintro ⟨husable, hallows, hfree, hself⟩
    have htext : isUsableText path = true := (Bool.and_eq_true _ _ ▸ husable).1
    have hparents := And.intro (isParentUsable_of_isUsableText hname htext) hallows
    have hmade := (withParents_fst_iff fs hname).2 hparents
    have hdirs : ∀ next ∈ dirsAbove path, (fs.withParents path).2.isDir next = true :=
      fun next hmem ↦ isDir_withParents_of_mem hname hmade hmem
    refine ⟨hparents, (isSome_writeFile_iff text hname hdirs).2 ⟨husable, ?_⟩⟩
    rw [← Bool.not_eq_true]
    intro hdir
    rcases isDir_withParents hname hdir with hold | hmem
    · rw [hold] at hfree
      cases hfree
    · exact hself hmem.1

/-- A file that can be read has a usable path, and stands below directories. -/
theorem isUsable_of_read? {content : String} (h : fs.read? path = some content) :
    isUsable path = true ∧ ∀ next ∈ dirsAbove path, fs.isDir next = true := by
  obtain ⟨place, hlocate, -⟩ := Option.bind_eq_some_iff.1 h
  rw [locate?] at hlocate
  split at hlocate
  · rename_i husable
    rw [names_eq] at hlocate
    exact ⟨husable, isDir_of_follow? hlocate⟩
  · cases hlocate

/-- A file that can be read can be written. -/
theorem write_of_read? {content : String} (hname : isFileName (fileName path) = true)
    (h : fs.read? path = some content) (text : String) : (fs.write path text).1 = true := by
  obtain ⟨husable, habove⟩ := isUsable_of_read? h
  have hdir : fs.isDir (destination path) = false := fs.apart _ content (content?_of_read? h)
  refine (write_fst_iff fs path text hname).2 ⟨husable, fun next hmem ↦ .inl (habove next hmem),
    hdir, fun hmem ↦ ?_⟩
  rw [habove _ hmem] at hdir
  cases hdir

/-! ### Reading in a larger tree -/

section Kept

variable {later : Files}
  (hdirs : ∀ place, fs.isDir place = true → later.isDir place = true)
  (hkept : ∀ place, (fs.content? place).isSome = true → (later.content? place).isSome = true)

include hdirs hkept

/-- Names can be followed where nothing on the way has gone. -/
theorem follow?_of_kept {names : List String} (hfollow : fs.follow? place names = some other) :
    later.follow? place names = some other := by
  fun_induction follow? fs place names with
  | case1 => exact hfollow
  | case2 => cases hfollow
  | case3 place name rest hdir hstays ih =>
    have hlater : ¬(!later.isDir place) = true := by simpa using hdirs place (by simpa using hdir)
    rw [follow?, if_neg hlater, if_pos hstays]
    exact ih hfollow
  | case4 place name rest hdir hstays habove ih =>
    have hlater : ¬(!later.isDir place) = true := by simpa using hdirs place (by simpa using hdir)
    rw [follow?, if_neg hlater, if_neg hstays, if_pos habove]
    exact ih hfollow
  | case5 place name rest hdir hstays habove next hnext ih =>
    have hlater : ¬(!later.isDir place) = true := by simpa using hdirs place (by simpa using hdir)
    have hthere : (later.isDir next || (later.content? next).isSome) = true := by
      rw [Bool.or_eq_true] at hnext ⊢
      exact hnext.imp (hdirs next) (hkept next)
    rw [follow?, if_neg hlater, if_neg hstays, if_neg habove]
    simp only
    rw [if_pos hthere]
    exact ih hfollow
  | case6 => cases hfollow

/-- A file that holds the same text is read as before. -/
theorem read?_of_kept {content : String} (hread : fs.read? path = some content)
    (hcontent : later.content? (destination path) = some content) :
    later.read? path = some content := by
  obtain ⟨place, hlocate, -⟩ := Option.bind_eq_some_iff.1 hread
  rw [locate?] at hlocate
  split at hlocate
  · rename_i husable
    have hplace : place = destination path := follow?_eq_some hlocate
    rw [read?, locate?, if_pos husable, follow?_of_kept hdirs hkept hlocate, Option.bind_some,
      hplace, hcontent]
  · cases hlocate

end Kept

/-! ### Writing several files -/

/-- Files that do not stand in each other's way: no destination is a directory that some path
passes. -/
structure Separate (paths : List String) : Prop where
  names : ∀ path ∈ paths, isFileName (fileName path) = true
  apart : ∀ path ∈ paths, ∀ other ∈ paths, destination path ∉ dirsAbove other

/-- What a tree has in common with one in which some files have not been written yet. -/
structure Grown (paths : List String) (fs later : Files) : Prop where
  content : ∀ place, place ∉ paths.map destination → later.content? place = fs.content? place
  kept : ∀ place, (fs.content? place).isSome = true → (later.content? place).isSome = true
  dirs : ∀ place, fs.isDir place = true → later.isDir place = true
  made : ∀ place, later.isDir place = true → fs.isDir place = true ∨
    (∃ path ∈ paths, place ∈ dirsAbove path) ∧ isUsableName (place.getLastD "") = true

theorem Grown.refl (paths : List String) (fs : Files) : Grown paths fs fs :=
  ⟨fun _ _ ↦ rfl, fun _ h ↦ h, fun _ h ↦ h, fun _ h ↦ .inl h⟩

variable {paths : List String} {later : Files}

/-- Writing one of the files is growth. -/
theorem Grown.write (h : Grown paths fs later) (hname : isFileName (fileName path) = true)
    (hpath : path ∈ paths) (text : String) : Grown paths fs (later.write path text).2 where
  content place hplace := by
    have hne : place ≠ destination path :=
      fun heq ↦ hplace (List.mem_map.2 ⟨path, hpath, heq.symm⟩)
    rw [content?_write_of_ne hne, h.content place hplace]
  kept place hfile := by
    by_cases heq : place = destination path
    · cases hwritten : (later.write path text).1 with
      | true =>
        rw [heq, content?_write_self hwritten]
        rfl
      | false =>
        rw [content?_write_of_failed hwritten]
        exact h.kept place hfile
    · rw [content?_write_of_ne heq]
      exact h.kept place hfile
  dirs place hdir := by
    have hparents := isDir_withParents_of_isDir hname (h.dirs place hdir)
    rcases later.write_cases path text with hwrite | ⟨hfree, -, hwrite⟩ <;> rw [hwrite] <;>
      exact hparents
  made place hdir := by
    have hparents : (later.withParents path).2.isDir place = true := by
      rcases later.write_cases path text with hwrite | ⟨hfree, -, hwrite⟩ <;>
        rw [hwrite] at hdir <;> exact hdir
    rcases isDir_withParents hname hparents with hold | hmade
    · exact h.made place hold
    · exact .inr ⟨⟨path, hpath, hmade.1⟩, hmade.2⟩

theorem Grown.content?_of_mem_dirsAbove (h : Grown paths fs later) (hseparate : Separate paths)
    (hpath : path ∈ paths) (hplace : place ∈ dirsAbove path) :
    later.content? place = fs.content? place := by
  refine h.content place fun hmem ↦ ?_
  obtain ⟨other, hother, rfl⟩ := List.mem_map.1 hmem
  exact hseparate.apart other hother path hpath hplace

/-- The directories that can be made stay the same. -/
theorem Grown.allows_iff (h : Grown paths fs later) (hseparate : Separate paths)
    (hpath : path ∈ paths) (hplace : place ∈ dirsAbove path) :
    later.Allows place ↔ fs.Allows place := by
  have hcontent := h.content?_of_mem_dirsAbove hseparate hpath hplace
  constructor
  · rintro (hdir | hfree)
    · rcases h.made place hdir with hold | ⟨-, hname⟩
      · exact .inl hold
      · refine .inr ⟨?_, hname⟩
        rw [← hcontent]
        cases hfile : later.content? place with
        | none => rfl
        | some text =>
          have hapart : later.isDir place = false := later.apart place text hfile
          rw [hdir] at hapart
          cases hapart
    · exact .inr ⟨hcontent ▸ hfree.1, hfree.2⟩
  · rintro (hdir | hfree)
    · exact .inl (h.dirs place hdir)
    · exact .inr ⟨hcontent.trans hfree.1, hfree.2⟩

theorem Grown.isDir_destination (h : Grown paths fs later) (hseparate : Separate paths)
    (hpath : path ∈ paths) : later.isDir (destination path) = fs.isDir (destination path) := by
  rw [Bool.eq_iff_iff]
  constructor
  · intro hdir
    rcases h.made _ hdir with hold | ⟨⟨other, hother, hmem⟩, -⟩
    · exact hold
    · exact (hseparate.apart path hpath other hother hmem).elim
  · exact h.dirs _

/-- Whether a file can be written does not depend on what has been written before. -/
theorem Grown.write_fst (h : Grown paths fs later) (hseparate : Separate paths)
    (hpath : path ∈ paths) (text other : String) :
    (later.write path text).1 = (fs.write path other).1 := by
  have hname := hseparate.names path hpath
  rw [Bool.eq_iff_iff, write_fst_iff later path text hname, write_fst_iff fs path other hname,
    h.isDir_destination hseparate hpath]
  refine and_congr_right fun _ ↦ and_congr_left fun _ ↦ ?_
  exact forall₂_congr fun place hplace ↦ h.allows_iff hseparate hpath hplace

/-- A file that nobody writes is read as before. -/
theorem Grown.read? (h : Grown paths fs later) (hpath : destination path ∉ paths.map destination)
    {content : String} (hread : fs.read? path = some content) :
    later.read? path = some content :=
  read?_of_kept h.dirs h.kept hread ((h.content _ hpath).trans (content?_of_read? hread))

end Bindery.Files
