import Bindery.Proofs.Emit.Inputs

/-!
What the walk over include lines reads. The walk ends without a bound on the files that it reads,
and it reads every listed file once (`Walks`, `walks_iff`). No two listed paths are the same. But a
file has several spellings that are not: a path can leave a directory and come back to it, or begin
with a dot. The walk follows such a spelling like another file, so a place is listed twice just when
it is needed under two spellings (`reachable_scanned`).
-/

set_option autoImplicit false
set_option relaxedAutoImplicit false

namespace Bindery.Dependencies

/-! ### The walk without a bound -/

/-- The steps of the walk, with the paths that are listed in the end and the files that are read on
the way. -/
inductive Walks (fs : Files) : List String → List String → List String → List String → Prop
  | done {seen : List String} : Walks fs seen [] seen []
  | skip {seen pending found scanned : List String} {path : String}
      (hpath : listed seen path = true) (h : Walks fs seen pending found scanned) :
      Walks fs seen (path :: pending) found scanned
  | scan {seen pending named found scanned : List String} {path : String}
      (hpath : listed seen path = false) (hnamed : includesOfFile? fs path = some named)
      (h : Walks fs (seen ++ [path]) (named ++ pending) found scanned) :
      Walks fs seen (path :: pending) found (path :: scanned)
  | absent {seen pending found scanned : List String} {path : String}
      (hpath : listed seen path = false) (hnone : includesOfFile? fs path = none)
      (h : Walks fs (seen ++ [path]) pending found scanned) :
      Walks fs seen (path :: pending) found scanned

section Walks

variable {fs : Files} {roots seen pending found scanned found' scanned' : List String}

theorem Walks.unique (h : Walks fs seen pending found scanned)
    (h' : Walks fs seen pending found' scanned') : found = found' ∧ scanned = scanned' := by
  induction h generalizing found' scanned' with
  | done =>
    cases h'
    exact ⟨rfl, rfl⟩
  | skip hpath _ ih =>
    cases h' with
    | skip _ h' => exact ih h'
    | scan hother | absent hother => cases hpath.symm.trans hother
  | scan hpath hnamed _ ih =>
    cases h' with
    | skip hother => cases hpath.symm.trans hother
    | scan _ hother h' =>
      cases hnamed.symm.trans hother
      obtain ⟨hfound, hscanned⟩ := ih h'
      exact ⟨hfound, congrArg _ hscanned⟩
    | absent _ hother => cases hnamed.symm.trans hother
  | absent hpath hnone _ ih =>
    cases h' with
    | skip hother => cases hpath.symm.trans hother
    | scan _ hother => cases hnone.symm.trans hother
    | absent _ _ h' => exact ih h'

theorem isFile_eq_isSome (path : String) :
    fs.isFile path = (includesOfFile? fs path).isSome := by
  rw [Files.isFile, includesOfFile?, Option.isSome_map]

/-- With enough files to read, the walk with a bound is the one without, and reads each file that it
lists. -/
theorem Walking.walks {fuel : Nat} (h : Walking fs roots seen pending)
    (hfuel : readLimit ≤ fuel + seen.countP fs.isFile) : ∃ scanned,
      Walks fs seen pending (Dependencies.walk fs fuel seen pending) scanned ∧
      (Dependencies.walk fs fuel seen pending).filter fs.isFile =
        seen.filter fs.isFile ++ scanned := by
  fun_induction Dependencies.walk fs fuel seen pending with
  | case1 => exact ⟨[], .done, (List.append_nil _).symm⟩
  | case2 fuel seen path pending hpath ih =>
    obtain ⟨scanned, hwalks, hscanned⟩ := ih (h.skip hpath) hfuel
    exact ⟨scanned, .skip hpath hwalks, hscanned⟩
  | case3 seen path pending hpath fuel named hnamed ih =>
    rw [Bool.not_eq_true] at hpath
    have hnext := h.list hpath
    rw [hnamed, Option.getD_some] at hnext
    have hfile := isFile_of_includesOfFile? hnamed
    obtain ⟨scanned, hwalks, hscanned⟩ := ih hnext <| by
      rw [List.countP_append, List.countP_singleton, if_pos hfile]
      omega
    refine ⟨path :: scanned, .scan hpath hnamed hwalks, ?_⟩
    rw [hscanned, List.filter_append, List.filter_cons_of_pos hfile, List.filter_nil,
      List.append_assoc]
    rfl
  | case4 seen path pending hpath fuel hnone ih =>
    rw [Bool.not_eq_true] at hpath
    have hnext := h.list hpath
    cases hnamed : includesOfFile? fs path with
    | none =>
      rw [hnamed, Option.getD_none, List.nil_append] at hnext
      obtain ⟨scanned, hwalks, hscanned⟩ := ih hnext <| by
        rw [List.countP_append]
        omega
      refine ⟨scanned, .absent hpath hnamed hwalks, ?_⟩
      have hfile : ¬fs.isFile path = true := by simp [isFile_eq_isSome, hnamed]
      rw [hscanned, List.filter_append, List.filter_cons_of_neg hfile, List.filter_nil,
        List.append_nil]
    | some named =>
      have hpos := h.fuel_pos hpath (isFile_of_includesOfFile? hnamed) hfuel
      obtain ⟨fuel, rfl⟩ := Nat.exists_eq_succ_of_ne_zero hpos.ne'
      exact (hnone fuel named rfl hnamed).elim

/-- The walk without a bound ends, with the paths that are listed, and has then read those of them
that are files. -/
theorem walks_iff : Walks fs [] roots found scanned ↔
    found = reachable fs roots ∧ scanned = (reachable fs roots).filter fs.isFile := by
  obtain ⟨read, hwalks, hread⟩ := (Walking.start fs roots).walks (Nat.le_add_right readLimit _)
  have hread : (reachable fs roots).filter fs.isFile = read := hread
  constructor
  · intro h
    obtain ⟨hfound, hscanned⟩ := h.unique hwalks
    exact ⟨hfound, hscanned.trans hread.symm⟩
  · rintro ⟨rfl, rfl⟩
    rw [hread]
    exact hwalks

end Walks

/-! ### Spellings of one place -/

section Spellings

variable {fs : Files} {roots : List String}

theorem needed_of_mem_reachable {path : String} (h : path ∈ reachable fs roots) :
    Needed fs endsStandard roots path :=
  (walking_reachable fs roots).needed path (List.mem_append_left _ h)

/-- A place is listed once just when all needed paths that lead to it are the same. -/
theorem pairwise_destination_iff (h : ¬Misspelled fs roots) :
    (reachable fs roots).Pairwise (fun path other ↦
      Files.destination path ≠ Files.destination other) ↔
    ∀ path other, Needed fs endsStandard roots path → Needed fs endsStandard roots other →
      Files.destination path = Files.destination other → Path.same path other = true := by
  constructor
  · intro hpairwise path other hpath hother hplace
    obtain ⟨first, hfirst, hfirstSame⟩ :=
      listed_iff.1 ((listed_reachable_of_needed hpath).resolve_right h)
    obtain ⟨second, hsecond, hsecondSame⟩ :=
      listed_iff.1 ((listed_reachable_of_needed hother).resolve_right h)
    rw [Path.same_iff] at hfirstSame hsecondSame ⊢
    rw [Files.destination_congr hfirstSame, Files.destination_congr hsecondSame] at hplace
    have hsymm : Std.Symm fun path other ↦ Files.destination path ≠ Files.destination other :=
      ⟨fun _ _ ↦ Ne.symm⟩
    by_cases heq : first = second
    · rw [hfirstSame, heq, ← hsecondSame]
    · exact (hpairwise.forall hfirst hsecond heq hplace).elim
  · intro hsame
    refine (walking_reachable fs roots).distinct.imp_of_mem fun hpath hother hdiffers hplace ↦ ?_
    rw [hsame _ _ (needed_of_mem_reachable hpath) (needed_of_mem_reachable hother) hplace]
      at hdiffers
    cases hdiffers

end Spellings

/-! ### Direct paths -/

/-- A path without a step up and without a dot in front of everything else. -/
def IsDirect (path : String) : Prop :=
  (Path.components path).1 ≠ .dot ∧ ['.', '.'] ∉ (Path.components path).2

section Direct

variable {fs : Files} {roots : List String} {path other : String}

theorem walk_eq_append {names : List String} (hstays : ∀ name ∈ names, Files.stays name = false)
    (hup : ".." ∉ names) (place : Place) : Files.walk place names = place ++ names := by
  induction names generalizing place with
  | nil => exact (List.append_nil place).symm
  | cons name names ih =>
    obtain ⟨hname, hrest⟩ := List.forall_mem_cons.1 hstays
    rw [List.mem_cons, not_or] at hup
    have hne : (name == "..") = false := beq_false_of_ne (Ne.symm hup.1)
    simp only [Files.walk, hname, hne, Bool.false_eq_true, if_false]
    rw [ih hrest hup.2, List.append_assoc, List.singleton_append]

/-- A direct path leads down its names. -/
theorem IsDirect.destination_eq (h : IsDirect path) : Files.destination path =
    (if (Path.components path).1 = .root then ["/"] else []) ++
      (Path.components path).2.map String.ofList := by
  rw [Files.destination_eq_walk]
  refine walk_eq_append ?_ ?_ _
  · rw [List.forall_mem_map]
    intro name hname
    rw [Path.components_eq] at hname
    simpa [Files.stays_ofList] using (List.mem_filter.1 hname).2
  · intro hup
    obtain ⟨name, hname, hdots⟩ := List.mem_map.1 hup
    rw [← String.toList_inj, String.toList_ofList] at hdots
    rw [hdots] at hname
    exact h.2 hname

/-- No name of a relative path is the root. -/
theorem lead_eq_root (h : IsDirect path) (h' : IsDirect other)
    (hplace : Files.destination path = Files.destination other)
    (hlead : (Path.components path).1 = .root) : (Path.components other).1 = .root := by
  by_contra hother
  rw [h.destination_eq, h'.destination_eq, if_pos hlead, if_neg hother, List.nil_append] at hplace
  have hslash : "/" ∈ (Path.components other).2.map String.ofList :=
    hplace ▸ List.mem_append_left _ List.mem_cons_self
  obtain ⟨name, hname, hslash⟩ := List.mem_map.1 hslash
  rw [← String.toList_inj, String.toList_ofList] at hslash
  rw [Path.components_eq, hslash] at hname
  exact Path.not_mem_of_mem_splitOn (List.mem_filter.1 hname).1 List.mem_cons_self

/-- Direct paths that lead to one place are the same. -/
theorem IsDirect.same (h : IsDirect path) (h' : IsDirect other)
    (hplace : Files.destination path = Files.destination other) : Path.same path other = true := by
  have hlead : (Path.components path).1 = (Path.components other).1 := by
    have hroot : (Path.components path).1 = .root ↔ (Path.components other).1 = .root :=
      ⟨lead_eq_root h h' hplace, lead_eq_root h' h hplace.symm⟩
    have hdot := h.1
    have hdot' := h'.1
    revert hroot hdot hdot'
    cases (Path.components path).1 <;> cases (Path.components other).1 <;> simp
  rw [h.destination_eq, h'.destination_eq, hlead] at hplace
  have hnames : Function.Injective String.ofList := fun cs cs' heq ↦ by
    rw [← String.toList_ofList (l := cs), heq, String.toList_ofList]
  exact Path.same_iff.2
    (Prod.ext hlead (List.map_injective_iff.2 hnames (List.append_cancel_left hplace)))

/-- A direct name in the directory of a direct path is direct. -/
theorem IsDirect.join {text name : String} (h : IsDirect path) (hread : fs.read? path = some text)
    (hname : IsDirect name) : IsDirect (Path.join ((Path.parent? path).getD "") name) := by
  have hparent := Files.components_parent?_of_read? hread
  by_cases habsolute : Path.isAbsolute name = true
  · rwa [Path.join, if_pos habsolute]
  · rw [Bool.not_eq_true] at habsolute
    by_cases hdir : (Path.parent? path).getD "" = ""
    · rwa [hdir, Path.join_empty]
    · have hnames := hname.2
      rw [Path.components_eq] at hnames
      rw [IsDirect, Path.components_join habsolute hdir, hparent]
      refine ⟨h.1, fun hdots ↦ ?_⟩
      rcases List.mem_append.1 hdots with hmem | hmem
      · exact h.2 (List.dropLast_subset _ hmem)
      · exact hnames hmem

theorem isDirect_of_needed (hroots : ∀ root ∈ roots, IsDirect root)
    (hnames : ∀ path text name, Needed fs endsStandard roots path → fs.read? path = some text →
      name ∈ namesIn text → endsStandard name = false → IsDirect name)
    (h : Needed fs endsStandard roots path) : IsDirect path := by
  induction h with
  | root hroot => exact hroots _ hroot
  | named hpath hnext ih =>
    obtain ⟨text, name, hread, hname, hpasses, rfl⟩ := hnext
    exact ih.join hread (hnames _ text name hpath hread hname hpasses)

end Direct

/-- The walk ends without a bound on the files that it reads. It reads every file that it lists
once, and lists no path twice. Unless a file is listed under a spelling that cannot be opened, no
place is listed twice just when the needed paths that lead to one place are the same, as they are
where all roots and all names on include lines are direct. -/
theorem reachable_scanned (fs : Files) (roots : List String) :
    (∀ found scanned, Walks fs [] roots found scanned ↔
      found = reachable fs roots ∧ scanned = (reachable fs roots).filter fs.isFile) ∧
    (reachable fs roots).Pairwise (fun path other ↦ Path.same path other = false) ∧
    (¬Misspelled fs roots →
      ((reachable fs roots).Pairwise (fun path other ↦
        Files.destination path ≠ Files.destination other) ↔
      ∀ path other, Needed fs endsStandard roots path → Needed fs endsStandard roots other →
        Files.destination path = Files.destination other → Path.same path other = true)) ∧
    ((∀ root ∈ roots, IsDirect root) →
      (∀ path text name, Needed fs endsStandard roots path → fs.read? path = some text →
        name ∈ namesIn text → endsStandard name = false → IsDirect name) →
      (reachable fs roots).Pairwise fun path other ↦
        Files.destination path ≠ Files.destination other) := by
  have hdistinct := (walking_reachable fs roots).distinct
  refine ⟨fun _ _ ↦ walks_iff, hdistinct, pairwise_destination_iff, fun hroots hnames ↦ ?_⟩
  have hdirect {path : String} (hpath : path ∈ reachable fs roots) : IsDirect path :=
    isDirect_of_needed hroots hnames (needed_of_mem_reachable hpath)
  refine hdistinct.imp_of_mem fun hpath hother hdiffers hplace ↦ ?_
  rw [(hdirect hpath).same (hdirect hother) hplace] at hdiffers
  cases hdiffers

namespace Detour

/-- A file that includes its neighbour twice, once on the way over its own directory. -/
def text : String := "%include \"../dir/b.i\"\n%include \"b.i\"\n"

def files : Files where
  files := [(["dir", "a.i"], text), (["dir", "b.i"], "")]
  dirs := [["dir"]]
  apart := by
    intro place content h
    rw [List.lookup_cons] at h
    split at h
    · rename_i hplace
      rw [eq_of_beq hplace]
      decide
    · rw [List.lookup_cons] at h
      split at h
      · rename_i hplace
        rw [eq_of_beq hplace]
        decide
      · cases h

theorem namesIn_text : namesIn text = ["../dir/b.i", "b.i"] := by
  have hfirst : includeLine? text.toList =
      some ("../dir/b.i".toList, "%include \"b.i\"\n".toList) := by decide
  have hsecond : includeLine? "%include \"b.i\"\n".toList = some ("b.i".toList, []) := by decide
  rw [namesIn, includeNames_of_line hfirst, includeNames_of_line hsecond, includeNames]
  rfl

theorem needed_iff {path : String} : Needed files endsStandard ["dir/a.i"] path ↔
    path = "dir/a.i" ∨ path = "dir/../dir/b.i" ∨ path = "dir/b.i" := by
  have hread : files.read? "dir/a.i" = some text := by decide
  have hleaf {path content name : String} (hempty : files.read? path = some "")
      (hcontent : files.read? path = some content) : name ∉ namesIn content := by
    cases hempty.symm.trans hcontent
    rw [namesIn, String.toList_empty, includeNames]
    exact List.not_mem_nil
  constructor
  · intro h
    induction h with
    | root hroot => exact .inl (List.mem_singleton.1 hroot)
    | named _ hnext ih =>
      obtain ⟨content, name, hcontent, hname, -, rfl⟩ := hnext
      rcases ih with rfl | rfl | rfl
      · rw [hread, Option.some.injEq] at hcontent
        rw [← hcontent, namesIn_text] at hname
        simp only [List.mem_cons, List.not_mem_nil, or_false] at hname
        rcases hname with rfl | rfl
        · exact .inr (.inl (by decide))
        · exact .inr (.inr (by decide))
      · exact absurd hname (hleaf (by decide) hcontent)
      · exact absurd hname (hleaf (by decide) hcontent)
  · have hroot : Needed files endsStandard ["dir/a.i"] "dir/a.i" := .root List.mem_cons_self
    rintro (rfl | rfl | rfl)
    · exact hroot
    · exact .named hroot ⟨text, "../dir/b.i", hread, namesIn_text ▸ List.mem_cons_self, by decide,
        by decide⟩
    · exact .named hroot ⟨text, "b.i", hread,
        namesIn_text ▸ List.mem_cons_of_mem _ List.mem_cons_self, by decide, by decide⟩

theorem not_misspelled : ¬Misspelled files ["dir/a.i"] := by
  rintro ⟨_, other, -, -, hother, -, hspelling⟩
  rcases needed_iff.1 (needed_of_mem_reachable hother) with rfl | rfl | rfl <;>
    exact absurd hspelling (by decide)

end Detour

open Detour in
/-- A file is listed twice, and read twice. -/
theorem detour_listed_twice : ¬∀ (fs : Files) (roots : List String),
    (reachable fs roots).Pairwise fun path other ↦
      fs.isFile path = true → fs.isFile other = true →
        Files.destination path ≠ Files.destination other := by
  intro h
  have hpairwise : (reachable files ["dir/a.i"]).Pairwise fun path other ↦
      Files.destination path ≠ Files.destination other := by
    refine (h files ["dir/a.i"]).imp_of_mem fun hpath hother hdiffers ↦ ?_
    rcases needed_iff.1 (needed_of_mem_reachable hpath) with rfl | rfl | rfl <;>
      rcases needed_iff.1 (needed_of_mem_reachable hother) with rfl | rfl | rfl <;>
        exact hdiffers (by decide) (by decide)
  have hsame := (pairwise_destination_iff not_misspelled).1 hpairwise "dir/../dir/b.i" "dir/b.i"
    (needed_iff.2 (.inr (.inl rfl))) (needed_iff.2 (.inr (.inr rfl))) (by decide)
  exact absurd hsame (by decide)

end Bindery.Dependencies
