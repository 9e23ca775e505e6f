import Bindery.Proofs.Files.Growth

/-!
Parts of a tree. What is left of a tree when files and directories are taken away is part of it: it
has no others, and the same texts (`Part`). Whatever can be read in a part can be read in the whole
(`Part.read?`). Writing goes the other way. What has been taken away stands in nobody's way, so that
a file that can be written in the whole can be written in a part (`Part.write_fst`), and what is
written in both leaves one part of the other (`Part.write`).
-/

set_option autoImplicit false
set_option relaxedAutoImplicit false

namespace Bindery.Files

variable {fs part whole : Files} {place other : Place} {path text : String}

/-- A tree that has only files and directories of another one, with the same texts. -/
structure Part (part whole : Files) : Prop where
  content : ∀ place text, part.content? place = some text → whole.content? place = some text
  dirs : ∀ place, part.isDir place = true → whole.isDir place = true

/-! ### Reading -/

theorem Part.isSome_content? (h : part.Part whole) (place : Place)
    (hfile : (part.content? place).isSome = true) : (whole.content? place).isSome = true := by
  obtain ⟨text, htext⟩ := Option.isSome_iff_exists.1 hfile
  rw [h.content place text htext]
  rfl

theorem Part.read? (h : part.Part whole) (hread : part.read? path = some text) :
    whole.read? path = some text :=
  read?_of_kept h.dirs h.isSome_content? hread (h.content _ _ (content?_of_read? hread))

/-! ### Writing -/

/-- The directories that names pass are named by them. -/
theorem getLastD_mem_of_mem_passages {names : List String} (h : other ∈ passages place names) :
    other.getLastD "" ∈ names := by
  induction names generalizing place with
  | nil => exact (List.not_mem_nil h).elim
  | cons name rest ih =>
    rw [passages] at h
    split at h
    · exact List.mem_cons_of_mem _ (ih h)
    · split at h
      · exact List.mem_cons_of_mem _ (ih h)
      · rcases List.mem_cons.1 h with rfl | hrest
        · rw [List.getLastD_concat]
          exact List.mem_cons_self
        · exact List.mem_cons_of_mem _ (ih hrest)

theorem isUsableName_of_mem_dirsAbove (husable : isUsable path = true)
    (h : place ∈ dirsAbove path) : isUsableName (place.getLastD "") = true := by
  rw [isUsable, Bool.and_eq_true] at husable
  exact List.all_eq_true.1 husable.2 _
    (List.dropLast_subset _ (getLastD_mem_of_mem_passages h))

/-- A directory that can be made in the whole can be made in a part. -/
theorem Part.allows (h : part.Part whole) (hname : isUsableName (place.getLastD "") = true)
    (hallows : whole.Allows place) : part.Allows place := by
  cases hfile : part.content? place with
  | none => exact .inr ⟨hfile, hname⟩
  | some text =>
    have hwhole := h.content place text hfile
    rcases hallows with hdir | hfree
    · have hapart : whole.isDir place = false := whole.apart place text hwhole
      rw [hdir] at hapart
      cases hapart
    · rw [hfree.1] at hwhole
      cases hwhole

theorem Part.write_fst (h : part.Part whole) (hname : isFileName (fileName path) = true)
    (hwrite : (whole.write path text).1 = true) (text' : String) :
    (part.write path text').1 = true := by
  obtain ⟨husable, hallows, hfree, hself⟩ := (write_fst_iff whole path text hname).1 hwrite
  refine (write_fst_iff part path text' hname).2 ⟨husable, fun next hmem ↦ ?_, ?_, hself⟩
  · exact h.allows (isUsableName_of_mem_dirsAbove husable hmem) (hallows next hmem)
  · rw [← Bool.not_eq_true]
    intro hdir
    rw [h.dirs _ hdir] at hfree
    cases hfree

/-- Writing a file makes the directories above it, and no others. -/
theorem isDir_write_iff (hname : isFileName (fileName path) = true)
    (hwrite : (fs.write path text).1 = true) :
    (fs.write path text).2.isDir place = true ↔
      fs.isDir place = true ∨ place ∈ dirsAbove path := by
  rcases fs.write_cases path text with hfailed | ⟨hfree, hmade, hwritten⟩
  · rw [hfailed] at hwrite
    cases hwrite
  · have hdirs : (fs.write path text).2.isDir place = (fs.withParents path).2.isDir place := by
      rw [hwritten]
      rfl
    rw [hdirs]
    refine ⟨fun hdir ↦ (isDir_withParents hname hdir).imp_right And.left, ?_⟩
    rintro (hdir | hmem)
    · exact isDir_withParents_of_isDir hname hdir
    · exact isDir_withParents_of_mem hname hmade hmem

/-- A file that is written in a part comes from the whole, if it holds the text there. -/
theorem Part.write_left (h : part.Part whole) (hname : isFileName (fileName path) = true)
    (hwrite : (part.write path text).1 = true)
    (hcontent : whole.content? (destination path) = some text)
    (hdirs : ∀ next ∈ dirsAbove path, whole.isDir next = true) :
    (part.write path text).2.Part whole where
  content place content hfile := by
    by_cases hplace : place = destination path
    · rw [hplace, content?_write_self hwrite] at hfile
      rw [hplace, hcontent, hfile]
    · rw [content?_write_of_ne hplace] at hfile
      exact h.content place content hfile
  dirs place hdir := by
    rcases (isDir_write_iff hname hwrite).1 hdir with hold | hmem
    · exact h.dirs place hold
    · exact hdirs place hmem

/-- Writing a file in the whole takes nothing away from a part but the text of that file. -/
theorem Part.write (h : part.Part whole) (hname : isFileName (fileName path) = true)
    (hwrite : (whole.write path text).1 = true) :
    (part.write path text).2.Part (whole.write path text).2 where
  content place content hfile := by
    by_cases hplace : place = destination path
    · rw [hplace, content?_write_self (h.write_fst hname hwrite text)] at hfile
      rw [hplace, content?_write_self hwrite, hfile]
    · rw [content?_write_of_ne hplace] at hfile ⊢
      exact h.content place content hfile
  dirs place hdir := by
    rw [isDir_write_iff hname hwrite]
    exact ((isDir_write_iff hname (h.write_fst hname hwrite text)).1 hdir).imp_left (h.dirs place)

/-! ### Emptying directories -/

/-- Whether an entry is in a directory, or in one below it. -/
def isBelow (dir place : Place) : Bool :=
  dir.isPrefixOf place && (place.drop dir.length).head?.any fun name ↦ name != ".." && name != "/"

/-- What is left of a tree when some directories are emptied. -/
def emptied (fs : Files) (dirs : List Place) : Files where
  files := fs.files.filter fun file ↦ !dirs.any (isBelow · file.1)
  dirs := fs.dirs.filter fun place ↦ !dirs.any (isBelow · place)
  apart place text hfile := by
    rw [lookup_filter fs.files fun place ↦ !dirs.any (isBelow · place)] at hfile
    split at hfile
    · have hapart := fs.apart place text hfile
      simp only [Bool.or_eq_false_iff, List.contains_eq_mem, decide_eq_false_iff_not] at hapart ⊢
      exact ⟨hapart.1, fun hmem ↦ hapart.2 (List.mem_filter.1 hmem).1⟩
    · cases hfile

theorem content?_emptied (fs : Files) (dirs : List Place) (place : Place) :
    (fs.emptied dirs).content? place =
      if dirs.any (isBelow · place) then none else fs.content? place := by
  rw [content?, emptied, lookup_filter fs.files fun place ↦ !dirs.any (isBelow · place)]
  cases dirs.any (isBelow · place) <;> rfl

theorem part_emptied (fs : Files) (dirs : List Place) : (fs.emptied dirs).Part fs where
  content place text hfile := by
    rw [content?_emptied] at hfile
    split at hfile
    · cases hfile
    · exact hfile
  dirs place hdir := by
    rw [isDir, Bool.or_eq_true] at hdir ⊢
    refine hdir.imp_right fun hmem ↦ List.contains_iff_mem.2 ?_
    exact (List.mem_filter.1 (List.contains_iff_mem.1 hmem)).1

end Bindery.Files
