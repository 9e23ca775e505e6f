import Bindery.Policy.Edit
import Bindery.Proofs.Extract.Processing

/-!
Precedence of edits that ignore and regard names. A policy keeps the last decision on each name as
it is written (`visibility_applyAll`), and applies those that ignore before those that regard. So an
edit that regards a declaration takes precedence over all earlier ones. An edit that ignores it does
so only if no regard of another name for it stands, for such a regard is applied after it, however
early it was made (`decided_after_edits`, `dial_regarded_after_ignore`).
-/

set_option autoImplicit false
set_option relaxedAutoImplicit false

namespace Bindery

/-- The decisions that an edit makes on names. -/
def Edit.decisions : Edit → List (String × Visibility)
  | .ignore names ignoreDoc => names.map (·, ⟨true, ignoreDoc⟩)
  | .regard names regardDoc => names.map (·, ⟨false, !regardDoc⟩)
  | _ => []

/-- Whether a declaration is left out of the interface and of the documentation. -/
def Info.visibility (info : Info) : Visibility := ⟨info.ignored, info.ignoreDoc⟩

namespace Policy

/-! ### The decisions that stand -/

/-- The decisions that are not replaced by a later one on the name as it is written. -/
def standing : List (String × Visibility) → List (String × Visibility)
  | [] => []
  | decision :: later =>
    if later.any (·.1 == decision.1) then standing later else decision :: standing later

theorem standing_concat (decisions : List (String × Visibility)) (decision : String × Visibility) :
    standing (decisions ++ [decision]) =
      Table.setLast (standing decisions) decision.1 decision.2 := by
  induction decisions with
  | nil => rfl
  | cons first later ih =>
    rw [List.cons_append, standing, standing, ih, List.any_append]
    by_cases hlater : later.any (·.1 == first.1)
    · simp only [hlater, Bool.true_or, if_true]
    · have hlast : [decision].any (·.1 == first.1) = (first.1 == decision.1) := by
        rw [List.any_cons, List.any_nil, Bool.or_false, BEq.comm]
      rw [if_neg hlater, hlast, eq_false_of_ne_true hlater, Bool.false_or, Table.setLast,
        Table.setLast, List.filter_cons]
      cases first.1 == decision.1 <;> rfl

/-- Decisions made one after the other leave those that stand. -/
theorem foldl_setLast (decisions earlier : List (String × Visibility)) :
    decisions.foldl (fun table decision ↦ Table.setLast table decision.1 decision.2)
      (standing earlier) = standing (earlier ++ decisions) := by
  induction decisions generalizing earlier with
  | nil => rw [List.append_nil, List.foldl_nil]
  | cons decision decisions ih =>
    rw [List.foldl_cons, ← standing_concat, ih, List.append_assoc, List.singleton_append]

theorem visibility_foldl_setVisibility (decision : Visibility) (names : List String)
    (policy : Policy) :
    (names.foldl (fun policy name ↦ policy.setVisibility decision name) policy).visibility =
      (names.map (·, decision)).foldl
        (fun table decision ↦ Table.setLast table decision.1 decision.2) policy.visibility := by
  induction names generalizing policy with
  | nil => rfl
  | cons name names ih => exact ih (policy.setVisibility decision name)

theorem visibility_apply (policy : Policy) (edit : Edit) : (policy.apply edit).visibility =
    edit.decisions.foldl (fun table decision ↦ Table.setLast table decision.1 decision.2)
      policy.visibility := by
  cases edit with
  | ignore names ignoreDoc => exact visibility_foldl_setVisibility ⟨true, ignoreDoc⟩ names policy
  | regard names regardDoc => exact visibility_foldl_setVisibility ⟨false, !regardDoc⟩ names policy
  | gc kind classes => cases classes <;> rfl
  | swigImport file append => cases append <;> rfl
  | _ => rfl

/-- Edits leave those of their decisions that stand. -/
theorem visibility_applyAll {start : Policy} (hstart : start.visibility = []) (edits : List Edit) :
    (start.applyAll edits).visibility = standing (edits.flatMap Edit.decisions) := by
  rw [← List.nil_append (edits.flatMap Edit.decisions), ← foldl_setLast, List.foldl_flatMap,
    standing, ← hstart]
  clear hstart
  induction edits generalizing start with
  | nil => rfl
  | cons edit edits ih =>
    have hlater := @ih (start.apply edit)
    rw [visibility_apply] at hlater
    exact hlater

/-! ### The decision on a declaration -/

theorem mem_of_mem_standing {decision : String × Visibility}
    {decisions : List (String × Visibility)} (h : decision ∈ standing decisions) :
    decision ∈ decisions := by
  induction decisions with
  | nil => cases h
  | cons first later ih =>
    rw [standing] at h
    split at h
    · exact List.mem_cons_of_mem _ (ih h)
    · exact (List.mem_cons.1 h).elim (fun heq ↦ heq ▸ List.mem_cons_self) fun h ↦
        List.mem_cons_of_mem _ (ih h)

theorem lastWhere_ne_none {α : Type} {p : α → Bool} {as : List α} {a : α} (ha : a ∈ as)
    (hp : p a = true) : lastWhere p as ≠ none := fun hnone ↦
  List.ne_nil_of_mem (List.mem_filter.2 ⟨ha, hp⟩) (List.getLast?_eq_none_iff.1 hnone)

/-- What is replaced was not the last that covers a declaration. -/
theorem lastWhere_standing (covered : String → Bool) (decisions : List (String × Visibility)) :
    lastWhere (fun decision ↦ covered decision.1) (standing decisions) =
      lastWhere (fun decision ↦ covered decision.1) decisions := by
  induction decisions with
  | nil => rfl
  | cons first later ih =>
    rw [standing, lastWhere_cons]
    split
    · rename_i hlater
      obtain ⟨other, hother, hname⟩ := List.any_eq_true.1 hlater
      rw [ih]
      by_cases hfirst : covered first.1
      · have hsome : lastWhere (fun decision ↦ covered decision.1) later ≠ none :=
          lastWhere_ne_none hother (by rw [beq_iff_eq.1 hname]; exact hfirst)
        rw [Option.or_of_isSome (Option.isSome_iff_ne_none.2 hsome)]
      · rw [if_neg hfirst, Option.or_none]
    · rw [lastWhere_cons, ih]

/-- The last element that has a property is also the last among those of a kind, if it is one. -/
theorem lastWhere_filter {α : Type} {p q : α → Bool} {as : List α} {a : α}
    (h : lastWhere p as = some a) (hq : q a = true) : lastWhere p (as.filter q) = some a := by
  obtain ⟨before, hbefore⟩ := List.getLast?_eq_some_iff.1 h
  rw [lastWhere, List.filter_comm, hbefore, List.filter_append, List.filter_cons_of_pos hq]
  exact List.getLast?_concat

/-- The decision that some decisions, made one after the other, come to on a declaration: the last
standing one that regards it or, if there is none, the last of all. -/
def decisionAfter (decisions : List (String × Visibility)) (m : Module) (d : Location) :
    Option Visibility :=
  (lastDecision ((standing decisions).filter (!·.2.ignore)) m d).or (lastDecision decisions m d)

theorem decisionOn_eq {policy : Policy} {decisions : List (String × Visibility)}
    (h : policy.visibility = standing decisions) (m : Module) (d : Location) :
    policy.decisionOn m d = decisionAfter decisions m d := by
  have hstanding : lastDecision (standing decisions) m d = lastDecision decisions m d :=
    congrArg (Option.map Prod.snd) (lastWhere_standing (m.covers · d) decisions)
  rw [decisionOn, decisionAfter, h, ← hstanding]
  cases hregard : lastDecision ((standing decisions).filter (!·.2.ignore)) m d with
  | some regard => rfl
  | none =>
    -- No standing decision that covers the declaration regards it, so all of them ignore it.
    have hignore : ∀ decision ∈ standing decisions, m.covers decision.1 d = true →
        decision.2.ignore = true := by
      intro decision hdecision hcovers
      by_contra hnot
      have hmem : decision ∈ (standing decisions).filter (!·.2.ignore) :=
        List.mem_filter.2 ⟨hdecision, by rw [eq_false_of_ne_true hnot]; rfl⟩
      exact lastWhere_ne_none hmem hcovers (Option.map_eq_none_iff.1 hregard)
    have hfilter : (standing decisions).filter (fun decision ↦ m.covers decision.1 d) =
        ((standing decisions).filter (·.2.ignore)).filter fun decision ↦
          m.covers decision.1 d := by
      rw [List.filter_filter]
      refine List.filter_congr fun decision hdecision ↦ ?_
      cases hcovers : m.covers decision.1 d with
      | false => rfl
      | true => rw [hignore decision hdecision hcovers, Bool.and_self]
    rw [lastDecision, lastDecision, lastWhere, lastWhere, hfilter]

/-- A standing regard of a declaration hides that it was ignored last, and nothing else does. -/
theorem decisionAfter_iff (decisions : List (String × Visibility)) (m : Module) (d : Location)
    (old : Visibility) : (decisionAfter decisions m d).getD old =
        (lastDecision decisions m d).getD old ↔
      ((∃ regard ∈ standing decisions, regard.2.ignore = false ∧ m.covers regard.1 d = true) →
        ∀ last, lastDecision decisions m d = some last → last.ignore = false) := by
  have hstanding := lastWhere_standing (m.covers · d) decisions
  rw [decisionAfter]
  cases hregard : lastWhere (fun decision ↦ m.covers decision.1 d)
      ((standing decisions).filter (!·.2.ignore)) with
  | none =>
    rw [lastDecision, hregard, Option.map_none, Option.none_or]
    refine ⟨fun _ ⟨regard, hmem, hignore, hcovers⟩ ↦ ?_, fun _ ↦ rfl⟩
    have hmem : regard ∈ (standing decisions).filter (!·.2.ignore) :=
      List.mem_filter.2 ⟨hmem, by rw [hignore]; rfl⟩
    exact (lastWhere_ne_none hmem hcovers hregard).elim
  | some regard =>
    obtain ⟨hmem, hcovers⟩ := List.mem_filter.1 (List.mem_of_getLast? hregard)
    obtain ⟨hmem, hignore⟩ := List.mem_filter.1 hmem
    have hignore : regard.2.ignore = false := by simpa using hignore
    have hsome : lastWhere (fun decision ↦ m.covers decision.1 d) decisions ≠ none :=
      lastWhere_ne_none (mem_of_mem_standing hmem) hcovers
    obtain ⟨last, hlast⟩ := Option.ne_none_iff_exists'.1 hsome
    have hdecision : lastDecision decisions m d = some last.2 :=
      congrArg (Option.map Prod.snd) hlast
    rw [hdecision, lastDecision, hregard, Option.map_some, Option.some_or, Option.getD_some,
      Option.getD_some]
    constructor
    · rintro heq - other hother
      cases hother
      rw [← heq]
      exact hignore
    · intro h
      have hkept : last.2.ignore = false := h ⟨regard, hmem, hignore, hcovers⟩ _ rfl
      have hfound := lastWhere_filter (q := (!·.2.ignore)) (hstanding.trans hlast)
        (by rw [hkept]; rfl)
      exact congrArg Prod.snd (Option.some.inj (hregard.symm.trans hfound))

/-- What edits that ignore and regard names come to for a declaration, and when this is what the
last of them says. -/
theorem decided_after_edits {start : Policy} (hstart : start.visibility = []) (edits : List Edit)
    (config : Config) (load : String → Except Error DeclFile) (hplatform : config.platform = none)
    {extraction : Extraction}
    (hextract : (start.applyAll edits).extract config load = .ok extraction) :
    ∃ m, Module.extract load (start.applyAll edits).moduleName (start.applyAll edits).items =
        .ok m ∧
      ∀ d old, m.infoAt? d = some old → ∃ new, extraction.module.infoAt? d = some new ∧
        new.visibility =
          (decisionAfter (edits.flatMap Edit.decisions) m d).getD old.visibility ∧
        (new.visibility =
            (lastDecision (edits.flatMap Edit.decisions) m d).getD old.visibility ↔
          ((∃ regard ∈ standing (edits.flatMap Edit.decisions),
              regard.2.ignore = false ∧ m.covers regard.1 d = true) →
            ∀ last, lastDecision (edits.flatMap Edit.decisions) m d = some last →
              last.ignore = false)) := by
  cases hm : Module.extract load (start.applyAll edits).moduleName (start.applyAll edits).items with
  | error e =>
    rw [extract, hm] at hextract
    cases hextract
  | ok m =>
    obtain ⟨_, other, hother, hmodule⟩ | ⟨_, e, herror⟩ := extract_cases hplatform hm
    case inr => cases hextract.symm.trans herror
    cases hextract.symm.trans hother
    refine ⟨m, rfl, fun d old hold ↦
      ⟨(start.applyAll edits).settledInfo m d old, ?_, ?_⟩⟩
    · rw [hmodule, Module.infoAt?_revise, hold]
      rfl
    · have hnew : ((start.applyAll edits).settledInfo m d old).visibility =
          (decisionAfter (edits.flatMap Edit.decisions) m d).getD old.visibility := by
        rw [← decisionOn_eq (visibility_applyAll hstart edits), settledInfo, Info.visibility]
        cases (start.applyAll edits).decisionOn m d <;> rfl
      rw [hnew]
      exact ⟨rfl, decisionAfter_iff _ m d old.visibility⟩

end Policy

/-! ### A dial that is regarded and ignored -/

namespace Dials

/-- Turning is ignored, and then turning by steps is regarded. -/
def opening : List Edit := [.ignore ["Dial::turn"] true, .regard ["Dial::turn( int )"] true]

/-- Turning is regarded, and then turning by steps is ignored. -/
def closing : List Edit := [.regard ["Dial::turn"] true, .ignore ["Dial::turn(int)"] true]

def blank : Policy := Policy.empty "Dials" "Meters"

end Dials

open Dials in
/-- The later regard of one overload wins against the ignore of all. -/
theorem dial_kept_after_opening : blank.visibility = [] ∧ ({} : Config).platform = none ∧
    ∃ extraction, (blank.applyAll opening).extract {} read = .ok extraction ∧
      ∃ new, extraction.module.infoAt? turnBySteps = some new ∧
        new.visibility = ⟨false, false⟩ := by
  refine ⟨rfl, rfl, ?_⟩
  cases hextract : (blank.applyAll opening).extract {} read with
  | error e =>
    have hok : ((blank.applyAll opening).extract {} read).isOk = true := by decide +kernel
    rw [hextract] at hok
    cases hok
  | ok extraction =>
    obtain ⟨m, hm, hinfo⟩ := Policy.decided_after_edits rfl opening {} read rfl hextract
    have hread : (Module.extract read (blank.applyAll opening).moduleName
        (blank.applyAll opening).items).toOption.map (fun m ↦ (m.infoAt? turnBySteps,
          Policy.decisionAfter (opening.flatMap Edit.decisions) m turnBySteps)) =
        some (some { name := "turn" }, some ⟨false, false⟩) := by decide +kernel
    rw [hm] at hread
    obtain ⟨hold, hdecision⟩ := Prod.mk.inj (Option.some.inj hread)
    obtain ⟨new, hnew, hvisibility, -⟩ := hinfo turnBySteps _ hold
    rw [hdecision] at hvisibility
    exact ⟨extraction, rfl, new, hnew, hvisibility⟩

open Dials in
/-- The later ignore of one overload is passed over, because the regard of all is applied after it.
Without the regard it is not. -/
theorem dial_regarded_after_ignore :
    ((blank.applyAll closing).extract {} read).toOption.map
        (fun extraction ↦ (extraction.module.infoAt? turnBySteps).map Info.visibility) =
      some (some ⟨false, false⟩) ∧
    (Module.extract read blank.moduleName blank.items).toOption.map
        (fun m ↦ Policy.lastDecision (closing.flatMap Edit.decisions) m turnBySteps) =
      some (some ⟨true, true⟩) ∧
    ((blank.applyAll closing.tail).extract {} read).toOption.map
        (fun extraction ↦ (extraction.module.infoAt? turnBySteps).map Info.visibility) =
      some (some ⟨true, true⟩) :=
  ⟨by decide +kernel, by decide +kernel, by decide +kernel⟩

end Bindery
