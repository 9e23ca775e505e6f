import Bindery.Emit.Dependencies
import Bindery.Proofs.Files.Spelling
import Mathlib.Data.Nat.Digits.Lemmas

/-!
The inputs of a module. The walk over include lines lists what is needed and nothing else
(`walking_reachable`): at every step all that the listed files name is listed or pending, and there
are fewer paths that can be opened than files that the walk may read. The walk passes over every
name that ends like the standard file. Apart from such names, and from files that are listed under a
spelling that cannot be opened, the inputs are complete (`inputs_complete`).
-/

set_option autoImplicit false
set_option relaxedAutoImplicit false

namespace Bindery.Dependencies

/-! ### How many paths there are -/

/-- The bytes of a text as digits, and a one behind them. -/
def byteDigits (s : String) : List Nat := s.toByteArray.data.toList.map UInt8.toNat ++ [1]

theorem lt_of_mem_byteDigits {s : String} {digit : Nat} (h : digit ∈ byteDigits s) :
    digit < 256 := by
  rcases List.mem_append.1 h with hbyte | hone
  · obtain ⟨byte, -, rfl⟩ := List.mem_map.1 hbyte
    exact byte.toNat_lt
  · rw [List.mem_singleton.1 hone]
    omega

/-- The one behind the bytes keeps zeros at the end apart. -/
theorem eq_of_ofDigits_eq {s t : String}
    (h : Nat.ofDigits 256 (byteDigits s) = Nat.ofDigits 256 (byteDigits t)) : s = t := by
  have digits_ofDigits (s : String) :
      Nat.digits 256 (Nat.ofDigits 256 (byteDigits s)) = byteDigits s :=
    Nat.digits_ofDigits 256 (by omega) _ (fun _ ↦ lt_of_mem_byteDigits) fun _ ↦ by simp [byteDigits]
  have hdigits : byteDigits s = byteDigits t := by rw [← digits_ofDigits s, h, digits_ofDigits t]
  have hbytes : s.toByteArray.data.toList = t.toByteArray.data.toList :=
    List.map_injective_iff.2 (fun _ _ ↦ UInt8.toNat_inj.1) (List.append_cancel_right hdigits)
  exact String.toByteArray_inj.1 (ByteArray.ext (Array.toList_inj.1 hbytes))

theorem length_byteDigits (s : String) : (byteDigits s).length = s.utf8ByteSize + 1 := by
  rw [byteDigits, List.length_append, List.length_map, List.length_singleton, Array.length_toList]
  rfl

/-- There are fewer texts of some size than numbers with one digit more. -/
theorem length_le_of_utf8ByteSize_le {paths : List String} {size : Nat} (hpaths : paths.Nodup)
    (hsize : ∀ path ∈ paths, path.utf8ByteSize ≤ size) : paths.length ≤ Nat.pow 256 (size + 1) := by
  have hnodup : (paths.map fun path ↦ Nat.ofDigits 256 (byteDigits path)).Nodup :=
    hpaths.map fun _ _ ↦ eq_of_ofDigits_eq
  have hrange : paths.map (fun path ↦ Nat.ofDigits 256 (byteDigits path)) ⊆
      List.range (256 ^ (size + 1)) := by
    intro n hn
    obtain ⟨path, hpath, rfl⟩ := List.mem_map.1 hn
    rw [List.mem_range]
    calc Nat.ofDigits 256 (byteDigits path)
      _ < 256 ^ (byteDigits path).length :=
        Nat.ofDigits_lt_base_pow_length (by omega) fun _ ↦ lt_of_mem_byteDigits
      _ ≤ 256 ^ (size + 1) := by
        refine Nat.pow_le_pow_right (by omega) ?_
        rw [length_byteDigits]
        exact Nat.succ_le_succ (hsize path hpath)
  have hle := (hnodup.subperm hrange).length_le
  rwa [List.length_map, List.length_range] at hle

/-- No more different paths can be opened than the walk may read. -/
theorem length_le_readLimit {paths : List String} (hpaths : paths.Nodup)
    (hsize : ∀ path ∈ paths, path.utf8ByteSize ≤ Files.maxPathBytes) :
    paths.length ≤ readLimit := by
  unfold readLimit
  exact @length_le_of_utf8ByteSize_le paths Files.maxPathBytes hpaths hsize

/-! ### The files that are needed -/

/-- The names on the include lines of a text. -/
def namesIn (text : String) : List String := (includeNames text.toList).map String.ofList

/-- The names that a walk over include lines passes over. -/
def endsStandard (name : String) : Bool := Text.endsWith standardFile name

/-- A file names another on an include line, from its own directory. Some names are passed over. -/
def Names (fs : Files) (passes : String → Bool) (path next : String) : Prop :=
  ∃ text name, fs.read? path = some text ∧ name ∈ namesIn text ∧ passes name = false ∧
    next = Path.join ((Path.parent? path).getD "") name

/-- The files that can be reached from some files through include lines, and these themselves. -/
inductive Needed (fs : Files) (passes : String → Bool) (roots : List String) : String → Prop
  | root {path : String} (hroot : path ∈ roots) : Needed fs passes roots path
  | named {path next : String} (hpath : Needed fs passes roots path)
      (hnext : Names fs passes path next) : Needed fs passes roots next

theorem includeNames_of_line {cs name next : List Char} (h : includeLine? cs = some (name, next)) :
    includeNames cs = name :: includeNames next := by
  cases cs with
  | nil => cases h
  | cons c rest =>
    rw [includeNames]
    split
    · rename_i hline
      rw [hline] at h
      cases h
      rfl
    · rename_i hline
      rw [hline] at h
      cases h

section Naming

variable {fs : Files} {passes : String → Bool} {path other next text : String}

theorem isFile_of_includesOfFile? {named : List String}
    (h : includesOfFile? fs path = some named) : fs.isFile path = true := by
  obtain ⟨text, hread, -⟩ := Option.map_eq_some_iff.1 h
  rw [Files.isFile, hread]
  rfl

theorem Names.isFile (h : Names fs passes path next) : fs.isFile path = true := by
  obtain ⟨text, -, hread, -⟩ := h
  rw [Files.isFile, hread]
  rfl

/-- A file names what a walk finds in it. -/
theorem names_iff :
    Names fs endsStandard path next ↔ next ∈ (includesOfFile? fs path).getD [] := by
  rw [includesOfFile?]
  constructor
  · rintro ⟨text, name, hread, hname, hpasses, rfl⟩
    rw [hread]
    exact List.mem_map_of_mem (List.mem_filter.2 ⟨hname, by simpa [endsStandard] using hpasses⟩)
  · intro hnext
    cases hread : fs.read? path with
    | none => simp [hread] at hnext
    | some text =>
      rw [hread] at hnext
      obtain ⟨name, hname, rfl⟩ := List.mem_map.1 hnext
      obtain ⟨hname, hpasses⟩ := List.mem_filter.1 hname
      exact ⟨text, name, hread, hname, by simpa [endsStandard] using hpasses, rfl⟩

/-- Spellings of one file that can be read name the same files. -/
theorem Names.congr (h : Names fs passes path next) (hsame : Path.same path other = true)
    (hother : fs.isFile other = true) :
    ∃ later, Names fs passes other later ∧ Path.same next later = true := by
  obtain ⟨text, name, hread, hname, hpasses, rfl⟩ := h
  obtain ⟨content, hcontent⟩ := Option.isSome_iff_exists.1 hother
  have hcomponents := Path.same_iff.1 hsame
  obtain rfl := Files.read?_congr hcomponents hread hcontent
  exact ⟨_, ⟨text, name, hcontent, hname, hpasses, rfl⟩, Path.same_iff.2
    (Path.components_join_congr (Files.components_parent?_congr hcomponents hread hcontent))⟩

end Naming

/-! ### Listed paths -/

section Listed

variable {paths more : List String} {path other : String}

theorem listed_iff : listed paths path = true ↔ ∃ other ∈ paths, Path.same path other = true :=
  List.any_eq_true

theorem listed_of_mem (h : path ∈ paths) : listed paths path = true :=
  listed_iff.2 ⟨path, h, Path.same_iff.2 rfl⟩

theorem listed_append : listed (paths ++ more) path = (listed paths path || listed more path) :=
  List.any_append

theorem listed_congr (h : Path.same path other = true) :
    listed paths path = listed paths other := by
  have hpath : Path.same path = Path.same other := by
    funext third
    rw [Path.same, Path.same, Path.same_iff.1 h]
  rw [listed, listed, hpath]

theorem listed_addPath : listed (addPath paths other) path = listed (paths ++ [other]) path := by
  unfold addPath
  split
  · rename_i hother
    rw [listed_append]
    by_cases h : Path.same path other = true
    · rw [listed_congr h, hother, Bool.true_or]
    · simp [listed, h]
  · rfl

/-- Adding paths one by one lists them all, and those that were there. -/
theorem listed_foldl_addPath :
    listed (more.foldl addPath paths) path = listed (paths ++ more) path := by
  induction more generalizing paths with
  | nil => simp
  | cons next more ih =>
    rw [List.foldl_cons, ih, listed_append, listed_addPath, ← listed_append]
    simp

theorem mem_foldl_addPath (h : path ∈ more.foldl addPath paths) : path ∈ paths ∨ path ∈ more := by
  induction more generalizing paths with
  | nil => exact .inl h
  | cons next more ih =>
    rcases ih h with hpaths | hmore
    · unfold addPath at hpaths
      split at hpaths
      · exact .inl hpaths
      · rcases List.mem_append.1 hpaths with hpath | hpath
        · exact .inl hpath
        · exact .inr (List.mem_singleton.1 hpath ▸ List.mem_cons_self)
    · exact .inr (List.mem_cons_of_mem _ hmore)

end Listed

/-! ### The walk -/

/-- What holds at every step of a walk. All that is listed or pending is needed, no two listed paths
are the same, and of what the roots and the listed files name nothing is lost. -/
structure Walking (fs : Files) (roots seen pending : List String) : Prop where
  needed : ∀ path ∈ seen ++ pending, Needed fs endsStandard roots path
  distinct : seen.Pairwise fun path other ↦ Path.same path other = false
  roots : ∀ path ∈ roots, listed (seen ++ pending) path = true
  closed : ∀ path ∈ seen, ∀ next, Names fs endsStandard path next →
    listed (seen ++ pending) next = true

namespace Walking

variable {fs : Files} {roots seen pending : List String} {path : String}

theorem start (fs : Files) (roots : List String) : Walking fs roots [] roots where
  needed _ hpath := .root hpath
  distinct := .nil
  roots _ hpath := listed_of_mem hpath
  closed _ hpath := (List.not_mem_nil hpath).elim

/-- A pending path that is listed already is passed over. -/
theorem skip (h : Walking fs roots seen (path :: pending)) (hpath : listed seen path = true) :
    Walking fs roots seen pending := by
  have hlisted {other : String} (hother : listed (seen ++ path :: pending) other = true) :
      listed (seen ++ pending) other = true := by
    obtain ⟨third, hthird, hsame⟩ := listed_iff.1 hother
    rcases List.mem_append.1 hthird with hmem | hmem
    · exact listed_iff.2 ⟨third, List.mem_append_left _ hmem, hsame⟩
    · rcases List.mem_cons.1 hmem with rfl | hmem
      · rw [listed_congr hsame, listed_append, hpath, Bool.true_or]
      · exact listed_iff.2 ⟨third, List.mem_append_right _ hmem, hsame⟩
  exact {
    needed := fun other hother ↦ h.needed other <|
      (List.mem_append.1 hother).elim (List.mem_append_left _)
        fun hmem ↦ List.mem_append_right _ (List.mem_cons_of_mem _ hmem)
    distinct := h.distinct
    roots := fun root hroot ↦ hlisted (h.roots root hroot)
    closed := fun other hother next hnext ↦ hlisted (h.closed other hother next hnext) }

/-- Any other pending path is listed, and what it names is pending in its place. -/
theorem list (h : Walking fs roots seen (path :: pending)) (hpath : listed seen path = false) :
    Walking fs roots (seen ++ [path]) ((includesOfFile? fs path).getD [] ++ pending) := by
  have hlisted {other : String} (hother : listed (seen ++ path :: pending) other = true) :
      listed (seen ++ [path] ++ ((includesOfFile? fs path).getD [] ++ pending)) other = true := by
    obtain ⟨third, hthird, hsame⟩ := listed_iff.1 hother
    refine listed_iff.2 ⟨third, ?_, hsame⟩
    simp only [List.mem_append, List.mem_cons, List.not_mem_nil] at hthird ⊢
    tauto
  have hneeded : Needed fs endsStandard roots path := h.needed path (by simp)
  refine ⟨?_, ?_, fun root hroot ↦ hlisted (h.roots root hroot), ?_⟩
  · intro other hother
    simp only [List.mem_append, List.mem_singleton] at hother
    rcases hother with (hseen | rfl) | hnamed | hpending
    · exact h.needed other (List.mem_append_left _ hseen)
    · exact hneeded
    · exact .named hneeded (names_iff.2 hnamed)
    · exact h.needed other (List.mem_append_right _ (List.mem_cons_of_mem _ hpending))
  · rw [List.pairwise_append]
    refine ⟨h.distinct, List.pairwise_singleton _ _, fun other hother last hlast ↦ ?_⟩
    rw [List.mem_singleton.1 hlast, ← Bool.not_eq_true]
    intro hsame
    have hlistedPath : listed seen path = true :=
      listed_iff.2 ⟨other, hother, Path.same_iff.2 (Path.same_iff.1 hsame).symm⟩
    rw [hpath] at hlistedPath
    cases hlistedPath
  · intro other hother next hnext
    rcases List.mem_append.1 hother with hseen | hlast
    · exact hlisted (h.closed other hseen next hnext)
    · rw [List.mem_singleton.1 hlast] at hnext
      exact listed_of_mem (List.mem_append_right _ (List.mem_append_left _ (names_iff.1 hnext)))

/-- The files that have been read are fewer than the walk may read. -/
theorem countP_le (h : Walking fs roots seen pending) : seen.countP fs.isFile ≤ readLimit := by
  have hnodup : seen.Nodup := by
    refine h.distinct.imp fun {path other} hsame heq ↦ ?_
    rw [heq, Path.same, beq_self_eq_true] at hsame
    cases hsame
  rw [List.countP_eq_length_filter]
  refine length_le_readLimit (hnodup.filter _) fun path hpath ↦ ?_
  obtain ⟨text, hread⟩ := Option.isSome_iff_exists.1 (List.mem_filter.1 hpath).2
  obtain ⟨place, hlocate, -⟩ := Option.bind_eq_some_iff.1 hread
  rw [Files.locate?] at hlocate
  split at hlocate
  · rename_i husable
    simp only [Files.isUsable, Files.isUsableText, Bool.and_eq_true, decide_eq_true_eq] at husable
    exact husable.1.1.2
  · cases hlocate

/-- A file that is not listed yet may still be read. -/
theorem fuel_pos (h : Walking fs roots seen (path :: pending)) (hpath : listed seen path = false)
    (hfile : fs.isFile path = true) {fuel : Nat}
    (hfuel : readLimit ≤ fuel + seen.countP fs.isFile) : 0 < fuel := by
  have hcount := (h.list hpath).countP_le
  rw [List.countP_append, List.countP_singleton, if_pos hfile] at hcount
  omega

/-- A walk that may read enough files ends with nothing pending. -/
theorem walk {fuel : Nat} (h : Walking fs roots seen pending)
    (hfuel : readLimit ≤ fuel + seen.countP fs.isFile) :
    Walking fs roots (walk fs fuel seen pending) [] := by
  fun_induction Dependencies.walk fs fuel seen pending with
  | case1 => exact h
  | case2 fuel seen path pending hpath ih => exact ih (h.skip hpath) hfuel
  | case3 seen path pending hpath fuel named hnamed ih =>
    have hnext := h.list (Bool.not_eq_true _ ▸ hpath)
    rw [hnamed, Option.getD_some] at hnext
    refine ih hnext ?_
    rw [List.countP_append, List.countP_singleton, if_pos (isFile_of_includesOfFile? hnamed)]
    omega
  | case4 seen path pending hpath fuel hnone ih =>
    have hnext := h.list (Bool.not_eq_true _ ▸ hpath)
    cases hnamed : includesOfFile? fs path with
    | none =>
      rw [hnamed, Option.getD_none, List.nil_append] at hnext
      refine ih hnext ?_
      rw [List.countP_append]
      omega
    | some named =>
      have hpos := h.fuel_pos (Bool.not_eq_true _ ▸ hpath) (isFile_of_includesOfFile? hnamed) hfuel
      obtain ⟨fuel, rfl⟩ := Nat.exists_eq_succ_of_ne_zero hpos.ne'
      exact (hnone fuel named rfl hnamed).elim

end Walking

theorem walking_reachable (fs : Files) (roots : List String) :
    Walking fs roots (reachable fs roots) [] :=
  (Walking.start fs roots).walk (Nat.le_add_right _ _)

/-! ### The inputs of a module -/

section Inputs

variable (fs : Files) (config : Config) (manifest : Option String) (policy : Policy)

/-- The files that the interface file of a module includes itself. -/
def includeRoots : List String :=
  config.commonIncludes ++ policy.swigIncludes.map (Path.join config.swigDir)

/-- A needed file can be read, but what is listed for it is a spelling that is too long to be opened,
or ends in a slash or a dot. -/
def Misspells (roots : List String) (path other : String) : Prop :=
  Needed fs endsStandard roots path ∧ fs.isFile path = true ∧
    other ∈ reachable fs roots ∧ Path.same path other = true ∧
    (Files.maxPathBytes < other.utf8ByteSize ∨ Files.stays (Files.fileName other) = true)

/-- Some needed file is listed under such a spelling. -/
def Misspelled (roots : List String) : Prop := ∃ path other, Misspells fs roots path other

/-- A needed file names another file that ends like the standard file. -/
def PassedOver (roots : List String) : Prop :=
  ∃ path text name, Needed fs endsStandard roots path ∧ fs.read? path = some text ∧
    name ∈ namesIn text ∧ endsStandard name = true ∧ name ≠ standardFile

variable {fs} {roots : List String} {path : String}

/-- All that is needed is listed, if this holds of what the files name that are listed under such a
spelling. -/
theorem listed_reachable_of_misspells
    (hnamed : ∀ path other next, Misspells fs roots path other → Names fs endsStandard path next →
      listed (reachable fs roots) next = true)
    (h : Needed fs endsStandard roots path) : listed (reachable fs roots) path = true := by
  have hwalk := walking_reachable fs roots
  induction h with
  | root hroot => simpa using hwalk.roots _ hroot
  | @named path next hpath hnext ih =>
    obtain ⟨other, hother, hsame⟩ := listed_iff.1 ih
    by_cases hfile : fs.isFile other = true
    · obtain ⟨later, hlater, hsame⟩ := hnext.congr hsame hfile
      rw [listed_congr hsame]
      simpa using hwalk.closed other hother later hlater
    · refine hnamed path other next ⟨hpath, hnext.isFile, hother, hsame, ?_⟩ hnext
      by_contra hspelling
      rw [not_or, Nat.not_lt, Bool.not_eq_true] at hspelling
      exact hfile (Files.isFile_congr (Path.same_iff.1 hsame) hnext.isFile hspelling.1
        hspelling.2)

theorem listed_reachable_of_needed (h : Needed fs endsStandard roots path) :
    listed (reachable fs roots) path = true ∨ Misspelled fs roots := by
  by_cases hmisspelled : Misspelled fs roots
  · exact .inr hmisspelled
  · exact .inl (listed_reachable_of_misspells
      (fun path other _ hspelling ↦ (hmisspelled ⟨path, other, hspelling⟩).elim) h)

/-- What is needed when only the standard file itself is passed over is needed by the walk as well,
unless the walk passes over another file. -/
theorem needed_or_passedOver (h : Needed fs (· == standardFile) roots path) :
    Needed fs endsStandard roots path ∨ PassedOver fs roots := by
  induction h with
  | root hroot => exact .inl (.root hroot)
  | named hpath hnext ih =>
    obtain hneeded | hlost := ih
    · obtain ⟨text, name, hread, hname, hpasses, rfl⟩ := hnext
      cases hends : endsStandard name with
      | true => exact .inr ⟨_, text, name, hneeded, hread, hname, hends, by simpa using hpasses⟩
      | false => exact .inl (.named hneeded ⟨text, name, hread, hname, hends, rfl⟩)
    · exact .inr hlost

theorem mem_inputs (h : path ∈ inputs fs config manifest policy) :
    manifest = some path ∨
      (∃ item ∈ policy.items, path = Path.join config.declsDir (item ++ ".json")) ∨
      Needed fs endsStandard (includeRoots config policy) path := by
  rcases mem_foldl_addPath h with hnil | hpath
  · exact (List.not_mem_nil hnil).elim
  · rcases List.mem_append.1 hpath with hpath | hwalk
    · rcases List.mem_append.1 hpath with hmanifest | hdecl
      · exact .inl (Option.mem_toList.1 hmanifest)
      · obtain ⟨item, hitem, rfl⟩ := List.mem_map.1 hdecl
        exact .inr (.inl ⟨item, hitem, rfl⟩)
    · exact .inr (.inr ((walking_reachable fs _).needed path (List.mem_append_left _ hwalk)))

theorem listed_inputs : listed (inputs fs config manifest policy) path =
    listed (manifest.toList ++
      policy.items.map (fun item ↦ Path.join config.declsDir (item ++ ".json")) ++
      reachable fs (includeRoots config policy)) path :=
  listed_foldl_addPath

end Inputs

/-- The manifest, the declaration files and all files that can be reached through include lines are
inputs of a module, unless a file is listed under a spelling that cannot be opened, or a file on the
way has a name that ends like the standard file. Nothing else is an input, in particular no file
that is named on such a line only. -/
theorem inputs_complete (fs : Files) (config : Config) (manifest : Option String)
    (policy : Policy) :
    (∀ path, manifest = some path → listed (inputs fs config manifest policy) path = true) ∧
    (∀ item ∈ policy.items, listed (inputs fs config manifest policy)
      (Path.join config.declsDir (item ++ ".json")) = true) ∧
    (∀ path, Needed fs endsStandard (includeRoots config policy) path →
      listed (inputs fs config manifest policy) path = true ∨
        Misspelled fs (includeRoots config policy)) ∧
    (∀ path, Needed fs (· == standardFile) (includeRoots config policy) path →
      listed (inputs fs config manifest policy) path = true ∨
        Misspelled fs (includeRoots config policy) ∨
        PassedOver fs (includeRoots config policy)) ∧
    ∀ path ∈ inputs fs config manifest policy, manifest = some path ∨
      (∃ item ∈ policy.items, path = Path.join config.declsDir (item ++ ".json")) ∨
      Needed fs endsStandard (includeRoots config policy) path := by
  have hneeded (path : String)
      (hpath : Needed fs endsStandard (includeRoots config policy) path) :
      listed (inputs fs config manifest policy) path = true ∨
        Misspelled fs (includeRoots config policy) := by
    rw [listed_inputs]
    refine (listed_reachable_of_needed hpath).imp_left fun hlisted ↦ ?_
    rw [listed_append, hlisted, Bool.or_true]
  refine ⟨fun path hpath ↦ ?_, fun item hitem ↦ ?_, hneeded, fun path hpath ↦ ?_,
    fun path hpath ↦ mem_inputs config manifest policy hpath⟩
  · rw [listed_inputs]
    exact listed_of_mem (by simp [hpath])
  · rw [listed_inputs]
    exact listed_of_mem (List.mem_append_left _ (List.mem_append_right _
      (List.mem_map_of_mem hitem)))
  · rcases needed_or_passedOver hpath with hwalk | hlost
    · exact (hneeded path hwalk).imp_right .inl
    · exact .inr (.inr hlost)

namespace Typemaps

/-- A tree where the common interface file includes the common typemaps. -/
def files : Files where
  files := [(["swig", "common.i"], "%include \"common_typemaps.i\"\n")]
  dirs := [["swig"]]
  apart := by
    intro place text h
    rw [List.lookup_cons] at h
    split at h
    · rename_i hplace
      rw [eq_of_beq hplace]
      decide
    · cases h

/-- A module without declaration files and files of its own to include. -/
def policy : Policy := { moduleName := "Dials", package := "Wx", items := [] }

theorem namesIn_common : namesIn "%include \"common_typemaps.i\"\n" = ["common_typemaps.i"] := by
  have hline : includeLine? "%include \"common_typemaps.i\"\n".toList =
      some ("common_typemaps.i".toList, []) := by decide
  rw [namesIn, includeNames_of_line hline, includeNames]
  rfl

theorem read?_common : files.read? "swig/common.i" =
    some "%include \"common_typemaps.i\"\n" := by
  decide

theorem eq_of_needed {path : String} (h : Needed files endsStandard ["swig/common.i"] path) :
    path = "swig/common.i" := by
  induction h with
  | root hroot => exact List.mem_singleton.1 hroot
  | named _ hnext ih =>
    obtain ⟨text, name, hread, hname, hpasses, -⟩ := hnext
    rw [ih, read?_common, Option.some.injEq] at hread
    rw [← hread, namesIn_common, List.mem_singleton] at hname
    rw [hname] at hpasses
    exact absurd hpasses (by decide)

end Typemaps

open Typemaps in
/-- The common typemaps of a package are no input, although the common interface file of the usual
configuration includes them. -/
theorem not_inputs_common_typemaps : ¬ ∀ (fs : Files) (config : Config) (manifest : Option String)
    (policy : Policy) (path : String),
    Needed fs (· == standardFile) (includeRoots config policy) path →
      listed (inputs fs config manifest policy) path = true := by
  intro hall
  have hneeded : Needed files (· == standardFile) (includeRoots {} policy)
      (Config.commonTypemapsFile {}) :=
    .named (.root List.mem_cons_self)
      ⟨_, "common_typemaps.i", read?_common, namesIn_common ▸ List.mem_cons_self, by decide,
        by decide⟩
  obtain ⟨other, hother, hsame⟩ := listed_iff.1 (hall files {} none policy _ hneeded)
  rcases mem_inputs {} none policy hother with hmanifest | ⟨item, hitem, -⟩ | hwalk
  · cases hmanifest
  · exact List.not_mem_nil hitem
  · rw [eq_of_needed hwalk] at hsame
    exact absurd hsame (by decide)

end Bindery.Dependencies
