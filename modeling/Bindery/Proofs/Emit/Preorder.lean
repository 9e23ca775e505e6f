import Bindery.Proofs.Emit.Scans
import Mathlib.Logic.Relation

/-!
The order of the walk over include lines. The needed files are listed as a recursive walk meets
them: each path in front of all that its file names, and the names of a file from first to last
(`Visits`). The same list comes from a loop that keeps the paths still to be visited on a stack
(`nextRound?`). What joins the two is that a visit takes its own paths off the stack and leaves what
lies below them (`Visits.rounds`); that listed paths are not put on the stack makes no difference,
as nothing that is listed is taken back. Both end also where files name each other in a circle.

What is listed is needed. It is all that is needed, unless a file that can be read is listed under a
spelling that cannot (`reachable_in_preorder`).
-/

set_option autoImplicit false
set_option relaxedAutoImplicit false

namespace Bindery.Dependencies

section Order

variable {fs : Files} {seen paths more pending found found' mid scanned : List String}

/-! ### The recursive walk -/

/-- The recursive walk: what is listed once some paths have been visited from first to last. A path
that is listed is passed over. Any other is listed, and then the files that it names are visited;
these are none if it cannot be read. -/
inductive Visits (fs : Files) : List String → List String → List String → Prop
  | done {seen : List String} : Visits fs seen [] seen
  | again {seen paths found : List String} {path : String} (hpath : listed seen path = true)
      (hrest : Visits fs seen paths found) : Visits fs seen (path :: paths) found
  | first {seen paths mid found : List String} {path : String} (hpath : listed seen path = false)
      (hnamed : Visits fs (seen ++ [path]) ((includesOfFile? fs path).getD []) mid)
      (hrest : Visits fs mid paths found) : Visits fs seen (path :: paths) found

/-- Nothing that is listed is taken back. -/
theorem Visits.isPrefix (h : Visits fs seen paths found) : seen <+: found := by
  induction h with
  | done => exact List.prefix_rfl
  | again _ _ ih => exact ih
  | first _ _ _ ihnamed ihrest =>
    exact ((List.prefix_append _ _).trans ihnamed).trans ihrest

theorem Visits.listed (h : Visits fs seen paths found) {path : String}
    (hpath : Dependencies.listed seen path = true) : Dependencies.listed found path = true := by
  obtain ⟨new, rfl⟩ := h.isPrefix
  rw [listed_append, hpath, Bool.true_or]

/-- Visiting two lists of paths is visiting the first, and the second from where this ends. -/
theorem Visits.split (h : Visits fs seen (paths ++ more) found) :
    ∃ mid, Visits fs seen paths mid ∧ Visits fs mid more found := by
  induction paths generalizing seen with
  | nil => exact ⟨seen, .done, h⟩
  | cons path paths ih =>
    cases h with
    | again hpath hrest =>
      obtain ⟨mid, hpaths, hmore⟩ := ih hrest
      exact ⟨mid, .again hpath hpaths, hmore⟩
    | first hpath hnamed hrest =>
      obtain ⟨mid, hpaths, hmore⟩ := ih hrest
      exact ⟨mid, .first hpath hnamed hpaths, hmore⟩

theorem Walks.visits (h : Walks fs seen pending found scanned) : Visits fs seen pending found := by
  induction h with
  | done => exact .done
  | skip hpath _ ih => exact .again hpath ih
  | scan hpath hnamed _ ih =>
    obtain ⟨mid, hfirst, hrest⟩ := ih.split
    exact .first hpath (by rwa [hnamed]) hrest
  | absent hpath hnone _ ih => exact .first hpath (by rw [hnone]; exact .done) ih

/-! ### The loop with a stack -/

/-- One round of the loop, for what is listed and the stack of what is to be visited, the next path
being the last one. The path is taken off. If it is not listed yet it is listed, and what it names
is put on the stack in reverse, apart from listed paths. -/
def nextRound? (fs : Files) : List String × List String → Option (List String × List String)
  | (seen, stack) => stack.getLast?.map fun path ↦
    if listed seen path then (seen, stack.dropLast)
    else
      let seen := seen ++ [path]
      let named := (includesOfFile? fs path).getD []
      (seen, stack.dropLast ++ named.reverse.filter (!listed seen ·))

/-- A run of the loop. -/
def Rounds (fs : Files) : List String × List String → List String × List String → Prop :=
  Relation.ReflTransGen fun state next ↦ nextRound? fs state = some next

theorem nextRound?_of_listed {path : String} {rest : List String} (hpath : listed seen path = true) :
    nextRound? fs (seen, rest ++ [path]) = some (seen, rest) := by
  simp [nextRound?, hpath]

theorem nextRound?_of_not_listed {path : String} {rest : List String}
    (hpath : listed seen path = false) : nextRound? fs (seen, rest ++ [path]) =
      some (seen ++ [path], rest ++ (((includesOfFile? fs path).getD []).filter
        (!listed (seen ++ [path]) ·)).reverse) := by
  simp [nextRound?, hpath]

/-- A visit takes its paths off the stack and leaves what lies below them. On the stack are those of
its paths that were not listed when they were put there, at a time when less was listed. -/
theorem Visits.rounds (h : Visits fs seen paths found) (rest old : List String)
    (hold : ∀ path, Dependencies.listed old path = true → Dependencies.listed seen path = true) :
    Rounds fs (seen, rest ++ (paths.filter (!Dependencies.listed old ·)).reverse) (found, rest) := by
  induction h generalizing rest old with
  | done => rw [List.filter_nil, List.reverse_nil, List.append_nil]; exact .refl
  | @again seen paths found path hpath _ ih =>
    by_cases hpushed : Dependencies.listed old path = true
    · rw [List.filter_cons_of_neg (by simp [hpushed])]
      exact ih rest old hold
    · rw [List.filter_cons_of_pos (by simp [hpushed]), List.reverse_cons, ← List.append_assoc]
      exact .head (nextRound?_of_listed hpath) (ih rest old hold)
  | @first seen paths mid found path hpath hnamed _ ihnamed ihrest =>
    have hpushed : Dependencies.listed old path = false := by
      rw [← Bool.not_eq_true]
      intro hlisted
      rw [hold path hlisted] at hpath
      cases hpath
    rw [List.filter_cons_of_pos (by simp [hpushed]), List.reverse_cons, ← List.append_assoc]
    refine .head (nextRound?_of_not_listed hpath) ?_
    refine .trans (ihnamed _ _ fun _ ↦ id) (ihrest rest old fun other hother ↦ hnamed.listed ?_)
    rw [listed_append, hold other hother, Bool.true_or]

/-- The loop has no choice, so it ends in one way at most. -/
theorem Rounds.unique {start : List String × List String} (h : Rounds fs start (found, []))
    (h' : Rounds fs start (found', [])) : found = found' := by
  have hstops {found found' : List String} (h : Rounds fs (found, []) (found', [])) :
      found = found' := by
    rcases Relation.ReflTransGen.cases_head h with heq | ⟨next, hnext, -⟩
    · exact (Prod.mk.inj heq).1
    · cases hnext
  have hright : Relator.RightUnique fun state next ↦ nextRound? fs state = some next :=
    fun _ _ _ hnext hother ↦ Option.some.inj (hnext.symm.trans hother)
  rcases Relation.ReflTransGen.total_of_right_unique hright h h' with h | h
  · exact hstops h
  · exact (hstops h).symm

end Order

section Reachable

variable {fs : Files} {roots found : List String}

theorem visits_reachable (fs : Files) (roots : List String) :
    Visits fs [] roots (reachable fs roots) :=
  (walks_iff.2 ⟨rfl, rfl⟩).visits

theorem Visits.rounds_of_roots (h : Visits fs [] roots found) :
    Rounds fs ([], roots.reverse) (found, []) := by
  have hrounds := h.rounds [] [] fun _ ↦ id
  have hall : roots.filter (!Dependencies.listed [] ·) = roots :=
    List.filter_eq_self.2 fun _ _ ↦ rfl
  rwa [hall, List.nil_append] at hrounds

theorem rounds_iff : Rounds fs ([], roots.reverse) (found, []) ↔ found = reachable fs roots :=
  ⟨fun h ↦ h.unique (visits_reachable fs roots).rounds_of_roots,
    fun h ↦ h ▸ (visits_reachable fs roots).rounds_of_roots⟩

theorem visits_iff : Visits fs [] roots found ↔ found = reachable fs roots :=
  ⟨fun h ↦ rounds_iff.1 h.rounds_of_roots, fun h ↦ h ▸ visits_reachable fs roots⟩

end Reachable

/-- The needed files are listed in the order of the recursive walk, which is also that of the loop
with a stack, and each once. All roots are listed, and all that is listed is needed. All that is
needed is listed just when this holds of what the files name that can be read, but are listed under
a spelling that cannot. -/
theorem reachable_in_preorder (fs : Files) (roots : List String) :
    (∀ found, Visits fs [] roots found ↔ found = reachable fs roots) ∧
    (∀ found, Rounds fs ([], roots.reverse) (found, []) ↔ found = reachable fs roots) ∧
    (reachable fs roots).Pairwise (fun path other ↦ Path.same path other = false) ∧
    (∀ root ∈ roots, listed (reachable fs roots) root = true) ∧
    (∀ path ∈ reachable fs roots, Needed fs endsStandard roots path) ∧
    ((∀ path, Needed fs endsStandard roots path → listed (reachable fs roots) path = true) ↔
      ∀ path other next, Misspells fs roots path other → Names fs endsStandard path next →
        listed (reachable fs roots) next = true) := by
  have hwalk := walking_reachable fs roots
  refine ⟨fun _ ↦ visits_iff, fun _ ↦ rounds_iff, hwalk.distinct, fun root hroot ↦ ?_,
    fun _ ↦ needed_of_mem_reachable, fun hall path _ next hspelling hnext ↦ ?_,
    fun hnamed _ ↦ listed_reachable_of_misspells hnamed⟩
  · simpa using hwalk.roots root hroot
  · exact hall next (.named hspelling.1 hnext)

namespace Slash

/-- A file that includes another. -/
def text : String := "%include \"b.i\"\n"

def files : Files where
  files := [(["a.i"], text), (["b.i"], "")]
  apart := by
    intro place content h
    rw [List.lookup_cons] at h
    split at h
    · rename_i hplace
      rw [eq_of_beq hplace]
      decide
    · rw [List.lookup_cons] at h
      split at h
      · rename_i hplace
        rw [eq_of_beq hplace]
        decide
      · cases h

theorem namesIn_text : namesIn text = ["b.i"] := by
  have hline : includeLine? text.toList = some ("b.i".toList, []) := by decide
  rw [namesIn, includeNames_of_line hline, includeNames]
  rfl

/-- With a slash behind it the name of a file leads nowhere. -/
theorem reachable_files : reachable files ["a.i/", "a.i"] = ["a.i/"] := by
  have hread : files.read? "a.i/" = none := by decide
  refine (visits_iff.1 (.first rfl ?_ (.again (by decide) .done))).symm
  rw [includesOfFile?, hread]
  exact .done

end Slash

open Slash in
/-- A file that is needed is missing when the file that names it is met first with a slash behind
its name. -/
theorem slash_hides_include : ¬∀ (fs : Files) (roots : List String) (path : String),
    Needed fs endsStandard roots path → listed (reachable fs roots) path = true := by
  intro hall
  have hneeded : Needed files endsStandard ["a.i/", "a.i"] "b.i" :=
    .named (.root (List.mem_cons_of_mem _ List.mem_cons_self))
      ⟨text, "b.i", by decide, namesIn_text ▸ List.mem_cons_self, by decide, by decide⟩
  have hlisted := hall files _ _ hneeded
  rw [reachable_files] at hlisted
  exact absurd hlisted (by decide)

end Bindery.Dependencies
