import Bindery.Proofs.Extract.ClassChains
import Bindery.Proofs.Interface.Folding

/-!
Which ordinary methods of a class and of its folded bases are registered. Both sections are filled
against one list of the methods that have been registered so far, so that the methods of the
protected section stand behind all of the public one, those of folded bases included
(`View.ordinaryMethods_protected`). Each method is judged against the registered ones in front of it
(`ClassTarget.unhidden_split`), and no registered method hides a later one
(`View.pairwise_registeredAfter`). The sections hold the ordinary ones of these methods, as long as
constructors and destructors stand in chains of their own (`View.ordinaryMethods_sublist`).
-/

set_option autoImplicit false
set_option relaxedAutoImplicit false

namespace Bindery

open ClassTarget (unhidden ordinaryMethods)

/-! ### One method hides another -/

/-- A registered method hides a later one: a virtual method of its signature, and any other method
of its name that another class declares. -/
def Method.Hides (registered m : Method) : Prop :=
  if m.isVirtual then registered.signature = m.signature
  else registered.name = m.name ∧ registered.className ≠ m.className

instance (registered m : Method) : Decidable (registered.Hides m) := by
  unfold Method.Hides
  infer_instance

theorem Method.hides_iff_of_className {registered m : Method}
    (h : registered.className = m.className) :
    registered.Hides m ↔ m.isVirtual = true ∧ registered.signature = m.signature := by
  rw [Hides]
  split
  · rename_i hvirtual
    exact (and_iff_right hvirtual).symm
  · rename_i hvirtual
    exact iff_of_false (fun hname ↦ hname.2 h) fun hsignature ↦ hvirtual hsignature.1

namespace ClassTarget

variable {target : ClassTarget} {visibility : Protection} {seen methods : List Method} {m : Method}

theorem isHidden_iff : isHidden seen m = true ↔ ∃ registered ∈ seen, registered.Hides m := by
  unfold isHidden Method.Hides
  split <;> simp

/-- A method is kept unless it is hidden by one of those in front of it that are kept. -/
theorem unhidden_split (seen before : List Method) (m : Method) (after : List Method) :
    ∃ later, unhidden seen (before ++ m :: after) = unhidden seen before ++
      (if isHidden (seen ++ unhidden seen before) m then [] else [m]) ++ later ∧
        later.Sublist after := by
  rw [unhidden_append, unhidden]
  split
  · exact ⟨_, (congrArg (· ++ _) (List.append_nil _)).symm, unhidden_sublist _ _⟩
  · exact ⟨_, (List.append_assoc _ [m] _).symm, unhidden_sublist _ _⟩

/-- No registered method hides a later one. -/
theorem pairwise_unhidden (h : seen.Pairwise fun a b ↦ ¬a.Hides b) :
    (seen ++ unhidden seen methods).Pairwise fun a b ↦ ¬a.Hides b := by
  induction methods generalizing seen with
  | nil => rwa [unhidden, List.append_nil]
  | cons m methods ih =>
    rw [unhidden]
    split
    · exact ih h
    · rename_i hshown
      rw [isHidden_iff] at hshown
      have hnext : (seen ++ [m]).Pairwise fun a b ↦ ¬a.Hides b :=
        List.pairwise_append.2 ⟨h, List.pairwise_singleton _ _, fun a ha b hb hhides ↦
          hshown ⟨a, ha, List.mem_singleton.1 hb ▸ hhides⟩⟩
      rw [← List.singleton_append, ← List.append_assoc]
      exact ih hnext

/-- Of methods of one class, each is kept or stands behind a kept one of its signature. -/
theorem exists_unhidden_of_mem (hmethods : ∀ a ∈ methods, ∀ b ∈ methods, a.className = b.className)
    (hm : m ∈ methods) : ∃ kept ∈ unhidden [] methods, kept.signature = m.signature := by
  obtain ⟨before, after, rfl⟩ := List.append_of_mem hm
  obtain ⟨later, hsplit, -⟩ := unhidden_split [] before m after
  rw [hsplit, List.nil_append]
  by_cases hhidden : isHidden (unhidden [] before) m = true
  · obtain ⟨kept, hkept, hhides⟩ := isHidden_iff.1 hhidden
    have hbefore := List.mem_append_left (m :: after) ((unhidden_sublist _ _).subset hkept)
    have hclass := hmethods kept hbefore m hm
    exact ⟨kept, by simp [hkept], ((Method.hides_iff_of_className hclass).1 hhides).2⟩
  · exact ⟨m, by simp [hhidden], rfl⟩

end ClassTarget

/-! ### Ordinary methods -/

/-- The ordinary methods of a class that are to be shown in a section. -/
def Class.ordinaryMethods (c : Class) (visibility : Protection) : List Method :=
  c.overloads.filter fun m ↦
    m.isOrdinary && (ClassTarget.isShown visibility m.info && !m.isTemplate)

theorem Class.mem_overloads_of_mem_ordinaryMethods {c : Class} {visibility : Protection}
    {m : Method} (h : m ∈ c.ordinaryMethods visibility) : m ∈ c.overloads :=
  List.mem_of_mem_filter h

/-- No chain of a class that begins with a constructor or a destructor holds any other method. -/
def Class.SeparatesKinds (c : Class) : Prop :=
  ∀ chain ∈ c.methods, chain.first.isOrdinary = false → ∀ m ∈ chain.all, m.isOrdinary = false

instance (c : Class) : Decidable c.SeparatesKinds :=
  inferInstanceAs (Decidable (∀ chain ∈ _, _ → ∀ m ∈ _, _))

theorem Class.DeclaresOwn.separatesKinds {c : Class} (h : c.DeclaresOwn) : c.SeparatesKinds :=
  fun chain hchain hfirst m hm ↦ (h.isOrdinary chain hchain m hm).trans hfirst

/-- A public method of the class is in a chain of ordinary methods. -/
theorem Class.SeparatesKinds.mem_publicMethods {c : Class} (h : c.SeparatesKinds) {m : Method}
    (hm : m ∈ c.ordinaryMethods .publicAccess) : m ∈ c.publicMethods := by
  obtain ⟨hoverload, hm⟩ := List.mem_filter.1 hm
  obtain ⟨chain, hchain, hall⟩ := List.mem_flatMap.1 hoverload
  simp only [Bool.and_eq_true, Bool.not_eq_true'] at hm
  refine Class.mem_publicMethods.2 ⟨chain, hchain, ?_, hall, hm.2⟩
  by_contra hfirst
  exact Bool.false_ne_true
    ((h chain hchain (Bool.eq_false_iff.2 hfirst) m hall).symm.trans hm.1)

theorem Class.DeclaresOwn.flatMap_ordinaryMethods {c : Class} (h : c.DeclaresOwn)
    (visibility : Protection) :
    c.members.flatMap (ClassTarget.ordinaryMethods visibility) = c.ordinaryMethods visibility := by
  rw [ordinaryMethods, ← ClassTarget.flatMap_memberOverloads, List.filter_flatMap]
  refine List.flatMap_congr fun member hmember ↦ ?_
  cases member with
  | method chain =>
    have hkind := h.isOrdinary chain (List.mem_filterMap.2 ⟨_, hmember, rfl⟩)
    have hfilter : chain.all.filter (fun m ↦ m.isOrdinary &&
          (ClassTarget.isShown visibility m.info && !m.isTemplate)) =
        chain.all.filter (fun m ↦ chain.first.isOrdinary &&
          (ClassTarget.isShown visibility m.info && !m.isTemplate)) :=
      List.filter_congr fun m hm ↦ by rw [hkind m hm]
    refine Eq.trans ?_ hfilter.symm
    rw [ClassTarget.ordinaryMethods]
    cases chain.first.isOrdinary with
    | true => simp [ClassTarget.shownMethods]
    | false => simp
  | _ => rfl

def InterfaceMember.ordinary? : InterfaceMember → Option Method
  | .method m => if m.isOrdinary then some m else none
  | _ => none

/-- The ordinary methods of a section. -/
def ClassInterface.ordinaryMethods (i : ClassInterface) (visibility : Protection) : List Method :=
  (i.members visibility).filterMap InterfaceMember.ordinary?

namespace ClassTarget

variable {target : ClassTarget} {visibility : Protection}

theorem filterMap_ordinary?_map (methods : List Method) :
    (methods.map InterfaceMember.method).filterMap InterfaceMember.ordinary? =
      methods.filter Method.isOrdinary := by
  rw [List.filterMap_map, ← List.filterMap_eq_filter]
  exact List.filterMap_congr fun m _ ↦ (Option.guard_apply ..).symm

/-- An ordinary chain adds the ordinary ones of the methods that no registered one hides. Any other
chain adds no ordinary method, if it holds none. -/
theorem ordinary_memberEntries (seen : List Method) {chain : Overloads}
    (h : chain.first.isOrdinary = false → ∀ m ∈ chain.all, m.isOrdinary = false) :
    (target.memberEntries visibility seen (.method chain)).filterMap InterfaceMember.ordinary? =
      (unhidden seen (ordinaryMethods visibility (.method chain))).filter Method.isOrdinary := by
  have hall : ((target.memberEntries visibility seen (.method chain)).filterMap _).Sublist _ :=
    methods_memberEntries_sublist seen (.method chain)
  rw [memberEntries, filterMap_method?_map] at hall
  rw [memberEntries, filterMap_ordinary?_map, ordinaryMethods]
  cases hfirst : chain.first.isOrdinary with
  | false =>
    refine List.filter_eq_nil_iff.2 fun m hm ↦ ?_
    rw [h hfirst m (hall.subset hm)]
    exact Bool.false_ne_true
  | true =>
    rw [Method.isOrdinary, Bool.and_eq_true, Bool.not_eq_true', Bool.not_eq_true'] at hfirst
    rw [hfirst.1, hfirst.2]
    rfl

theorem ordinary_entries (seen : List Method) {members : List Member}
    (h : ∀ chain, .method chain ∈ members → chain.first.isOrdinary = false →
      ∀ m ∈ chain.all, m.isOrdinary = false) :
    (target.entries visibility seen members).filterMap InterfaceMember.ordinary? =
      (unhidden seen (members.flatMap (ordinaryMethods visibility))).filter Method.isOrdinary := by
  induction members generalizing seen with
  | nil => rfl
  | cons member members ih =>
    have hrest := ih (seen ++ unhidden seen (ordinaryMethods visibility member))
      fun chain hchain ↦ h chain (List.mem_cons_of_mem _ hchain)
    have hfirst : (target.memberEntries visibility seen member).filterMap
        InterfaceMember.ordinary? =
          (unhidden seen (ordinaryMethods visibility member)).filter Method.isOrdinary := by
      cases member with
      | method chain => exact ordinary_memberEntries seen (h chain List.mem_cons_self)
      | «variable» v =>
        rw [memberEntries]
        split <;> rfl
      | enum e =>
        rw [memberEntries]
        split <;> rfl
      | inner c => rfl
    rw [entries, List.filterMap_append, List.flatMap_cons, unhidden_append, List.filter_append,
      hfirst, hrest]

end ClassTarget

/-! ### The ordinary methods of both sections -/

namespace View

/-- The methods that are registered after both sections are filled with these members. -/
def registeredAfter (members : List Member) : List Method :=
  registeredBefore members .protectedAccess ++
    unhidden (registeredBefore members .protectedAccess)
      (members.flatMap (ordinaryMethods .protectedAccess))

/-- Of all methods that are registered, none hides a later one. -/
theorem pairwise_registeredAfter (members : List Member) :
    (registeredAfter members).Pairwise fun a b ↦ ¬a.Hides b :=
  ClassTarget.pairwise_unhidden (ClassTarget.pairwise_unhidden .nil)

/-- Whatever is registered is declared by one of the classes. -/
theorem exists_declarer_of_mem {classes : List Class} {m : Method}
    (hm : m ∈ registeredAfter (classes.flatMap Class.members)) :
    ∃ b ∈ classes, m ∈ b.overloads := by
  have hdeclared (visibility : Protection) {seen : List Method} (hmem : m ∈ unhidden seen
      ((classes.flatMap Class.members).flatMap (ordinaryMethods visibility))) :
      m ∈ (classes.flatMap Class.members).flatMap ClassTarget.memberOverloads :=
    (ClassTarget.flatMap_ordinaryMethods_sublist _).subset
      ((ClassTarget.unhidden_sublist _ _).subset hmem)
  have hall := (List.mem_append.1 hm).elim (hdeclared .publicAccess) (hdeclared .protectedAccess)
  rw [List.flatMap_assoc] at hall
  obtain ⟨b, hb, hmem⟩ := List.mem_flatMap.1 hall
  exact ⟨b, hb, ClassTarget.flatMap_memberOverloads b ▸ hmem⟩

/-- Each public method of a class is registered, or another one of the class that has its
signature, whatever other classes come behind. -/
theorem exists_own_of_signature {c : Class} (hclass : ∀ m ∈ c.overloads, m.className = some c.name)
    (hkinds : c.SeparatesKinds) {o : Method} (ho : o ∈ c.ordinaryMethods .publicAccess)
    (folded : List Class) :
    ∃ m ∈ registeredAfter ((c :: folded).flatMap Class.members),
      m.className = some c.name ∧ m.signature = o.signature := by
  have hown (m : Method) (hm : m ∈ c.publicMethods) : m.className = some c.name := by
    refine hclass m ?_
    rw [← ClassTarget.flatMap_memberOverloads]
    exact (ClassTarget.flatMap_ordinaryMethods_sublist _).subset hm
  obtain ⟨kept, hkept, hsignature⟩ := ClassTarget.exists_unhidden_of_mem
    (fun a ha b hb ↦ (hown a ha).trans (hown b hb).symm) (hkinds.mem_publicMethods ho)
  have hmem := (ClassTarget.unhidden_sublist _ _).subset hkept
  refine ⟨kept, List.mem_append_left _ ?_, hown kept hmem, hsignature⟩
  rw [registeredBefore, List.flatMap_cons, List.flatMap_append, ClassTarget.unhidden_append]
  exact List.mem_append_left _ hkept

theorem flatMap_ordinaryMethods_members {classes : List Class}
    (howns : ∀ b ∈ classes, b.DeclaresOwn) (visibility : Protection) :
    (classes.flatMap Class.members).flatMap (ordinaryMethods visibility) =
      classes.flatMap fun b ↦ b.ordinaryMethods visibility := by
  rw [List.flatMap_assoc]
  exact List.flatMap_congr fun b hb ↦ (howns b hb).flatMap_ordinaryMethods _

variable {view : View} {c : Class} {interface : ClassInterface} {folded : List Class}

section Separated

variable (h : view.interfaceOf c = .ok interface) (hfolded : view.foldedBases c = .ok folded)
  (hkinds : ∀ b ∈ c :: folded, b.SeparatesKinds)

include h hfolded hkinds

/-- A section holds the ordinary ones of the methods that are registered for it. -/
theorem ordinaryMethods_eq_filter (visibility : Protection) :
    interface.ordinaryMethods visibility =
      if visibility = .publicAccess ∨ view.hasProtectedSection c folded = true then
        (unhidden (registeredBefore ((c :: folded).flatMap Class.members) visibility)
          (((c :: folded).flatMap Class.members).flatMap (ordinaryMethods visibility))).filter
            Method.isOrdinary
      else [] := by
  rw [ClassInterface.ordinaryMethods, filterMap_members h hfolded (fun _ ↦ rfl) (fun _ ↦ rfl),
    ClassTarget.ordinary_entries]
  intro chain hchain
  obtain ⟨b, hb, hchain⟩ := List.mem_flatMap.1 hchain
  exact hkinds b hb chain (List.mem_filterMap.2 ⟨_, hchain, rfl⟩)

/-- Both sections hold registered methods, in their order. -/
theorem ordinaryMethods_sublist :
    (interface.ordinaryMethods .publicAccess ++ interface.ordinaryMethods .protectedAccess).Sublist
      (registeredAfter ((c :: folded).flatMap Class.members)) := by
  rw [ordinaryMethods_eq_filter h hfolded hkinds, ordinaryMethods_eq_filter h hfolded hkinds,
    if_pos (.inl rfl)]
  refine List.Sublist.append List.filter_sublist ?_
  split
  · exact List.filter_sublist
  · exact List.nil_sublist _

end Separated

section Own

variable (h : view.interfaceOf c = .ok interface) (hfolded : view.foldedBases c = .ok folded)
  (howns : ∀ b ∈ c :: folded, b.DeclaresOwn)

include h hfolded howns

theorem ordinaryMethods_eq (visibility : Protection) :
    interface.ordinaryMethods visibility =
      if visibility = .publicAccess ∨ view.hasProtectedSection c folded = true then
        unhidden (registeredBefore ((c :: folded).flatMap Class.members) visibility)
          ((c :: folded).flatMap fun b ↦ b.ordinaryMethods visibility)
      else [] := by
  have hordinary : ∀ m ∈ (c :: folded).flatMap fun b ↦ b.ordinaryMethods visibility,
      m.isOrdinary = true := by
    intro m hm
    obtain ⟨b, -, hm⟩ := List.mem_flatMap.1 hm
    exact ((Bool.and_eq_true _ _).mp (List.mem_filter.1 hm).2).1
  rw [ordinaryMethods_eq_filter h hfolded fun b hb ↦ (howns b hb).separatesKinds,
    flatMap_ordinaryMethods_members howns]
  exact if_congr Iff.rfl (List.filter_eq_self.2 fun m hm ↦
    hordinary m ((ClassTarget.unhidden_sublist _ _).subset hm)) rfl

theorem ordinaryMethods_public :
    interface.ordinaryMethods .publicAccess =
      unhidden [] ((c :: folded).flatMap fun b ↦ b.ordinaryMethods .publicAccess) := by
  rw [ordinaryMethods_eq h hfolded howns, if_pos (.inl rfl), registeredBefore]

/-- The methods of the protected section, if there is one, are judged behind those of the public
one. -/
theorem ordinaryMethods_protected :
    interface.ordinaryMethods .protectedAccess = if view.hasProtectedSection c folded then
        unhidden (interface.ordinaryMethods .publicAccess)
          ((c :: folded).flatMap fun b ↦ b.ordinaryMethods .protectedAccess)
      else [] := by
  rw [ordinaryMethods_eq h hfolded howns, registeredBefore, flatMap_ordinaryMethods_members howns,
    ordinaryMethods_public h hfolded howns]
  simp

end Own

end View

end Bindery
