import Bindery.Files.Tree

/-!
What writing a file changes. A path leads to one place (`destination`), whatever the tree holds:
where it can be followed at all, it is followed there. Writing a file changes the text at the
destination of its path and no other text (`content?_write_of_ne`), and nothing but directories
when it fails.
-/

set_option autoImplicit false
set_option relaxedAutoImplicit false

namespace Bindery.Files

/-! ### Destinations -/

/-- Where names lead from an entry, if nothing is in the way. -/
def walk : Place → List String → Place
  | place, [] => place
  | place, name :: rest =>
    if stays name then walk place rest
    else if name == ".." then walk (above place) rest
    else walk (place ++ [name]) rest

theorem walk_append (place : Place) (names more : List String) :
    walk place (names ++ more) = walk (walk place names) more := by
  fun_induction walk place names <;> simp_all [walk]

/-- The place that a path leads to. -/
def destination (path : String) : Place := walk (startPlace path) (names path)

theorem follow?_eq_some {fs : Files} {place other : Place} {names : List String}
    (h : fs.follow? place names = some other) : other = walk place names := by
  fun_induction follow? fs place names with
  | case1 => exact (Option.some.inj h).symm
  | case2 => cases h
  | case3 place name rest _ htrivial ih => rw [ih h, walk, if_pos htrivial]
  | case4 place name rest _ htrivial habove ih => rw [ih h, walk, if_neg htrivial, if_pos habove]
  | case5 place name rest _ htrivial habove next _ ih =>
    rw [ih h, walk, if_neg htrivial, if_neg habove]
  | case6 => cases h

/-! ### One file -/

variable {fs : Files} {path text : String}

theorem content?_of_read? (h : fs.read? path = some text) :
    fs.content? (destination path) = some text := by
  obtain ⟨place, hlocate, hcontent⟩ := Option.bind_eq_some_iff.1 h
  rw [locate?] at hlocate
  split at hlocate
  · have hplace : place = destination path := follow?_eq_some hlocate
    rw [← hplace, hcontent]
  · cases hlocate

theorem names_eq (path : String) : names path = (names path).dropLast ++ [fileName path] := by
  have hne : names path ≠ [] := by
    rw [names, ne_eq, List.map_eq_nil_iff]
    exact List.splitOn_ne_nil _ _
  rw [fileName, List.getLastD_eq_getLast?, List.getLast?_eq_some_getLast hne, Option.getD_some,
    List.dropLast_concat_getLast]

/-- The destination of a path is its last name in the place of its directory. -/
theorem destination_eq (hname : isFileName (fileName path) = true) :
    destination path = walk (startPlace path) (names path).dropLast ++ [fileName path] := by
  simp only [isFileName, Bool.and_eq_true, Bool.not_eq_eq_eq_not, Bool.not_true, bne_iff_ne,
    ne_eq] at hname
  rw [destination, names_eq path, walk_append, ← names_eq path]
  simp [walk, hname]

/-- A file that can be written is put at the destination of its path. -/
theorem writeFile_eq_some {later : Files} (h : fs.writeFile path text = some later) :
    ∃ hplace, later = fs.put (destination path) text hplace := by
  simp only [writeFile] at h
  split at h
  · cases h
  · rename_i dir hdir
    split at h
    · rename_i hplace
      unfold locateParent? at hdir
      split at hdir
      · rw [destination_eq hplace.2.1, ← follow?_eq_some hdir]
        exact ⟨hplace.2.2, (Option.some.inj h).symm⟩
      · cases hdir
    · cases h

theorem content?_makeDirs (fs : Files) (dir : String) (place : Place) :
    (fs.makeDirs dir).2.content? place = fs.content? place := by
  unfold makeDirs
  split
  · rfl
  · split
    · rw [content?, files_makeDirsFrom]
      rfl
    · rfl

theorem content?_withParents (fs : Files) (path : String) (place : Place) :
    (fs.withParents path).2.content? place = fs.content? place := by
  unfold withParents
  split
  · exact content?_makeDirs fs _ place
  · rfl

/-- Writing makes the directories first, and then puts the file at the destination of its path, if
it can. -/
theorem write_cases (fs : Files) (path text : String) :
    fs.write path text = (false, (fs.withParents path).2) ∨
      ∃ hplace, (fs.withParents path).1 = true ∧ fs.write path text =
        (true, (fs.withParents path).2.put (destination path) text hplace) := by
  unfold write
  rcases fs.withParents path with ⟨isMade, made⟩
  cases isMade with
  | false => exact .inl rfl
  | true =>
    simp only [if_true]
    cases hfile : made.writeFile path text with
    | none => exact .inl rfl
    | some later =>
      obtain ⟨hplace, rfl⟩ := writeFile_eq_some hfile
      exact .inr ⟨hplace, trivial, rfl⟩

/-- Writing a file leaves the texts of all others as they are. -/
theorem content?_write_of_ne {place : Place} (hne : place ≠ destination path) :
    (fs.write path text).2.content? place = fs.content? place := by
  rcases fs.write_cases path text with h | ⟨hplace, -, h⟩
  · rw [h]
    exact content?_withParents fs path place
  · rw [h]
    exact (content?_put_of_ne _ hne text hplace).trans (content?_withParents fs path place)

/-- A file that was written holds the text. -/
theorem content?_write_self (h : (fs.write path text).1 = true) :
    (fs.write path text).2.content? (destination path) = some text := by
  rcases fs.write_cases path text with hwrite | ⟨hplace, -, hwrite⟩
  · rw [hwrite] at h
    cases h
  · rw [hwrite]
    exact content?_put_self _ _ text hplace

/-- A file that could not be written is as it was. -/
theorem content?_write_of_failed (h : (fs.write path text).1 = false) (place : Place) :
    (fs.write path text).2.content? place = fs.content? place := by
  rcases fs.write_cases path text with hwrite | ⟨hplace, -, hwrite⟩
  · rw [hwrite]
    exact content?_withParents fs path place
  · rw [hwrite] at h
    cases h

end Bindery.Files
