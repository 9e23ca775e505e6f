import Bindery.Emit.Interface
import Bindery.Proofs.Interface.Consistency
import Bindery.Proofs.Interface.Folding

/-!
Which methods of a class without a proxy can be overridden. Every method that an interface enters is
entered for a member that the interface holds: a method that the class or one of its folded bases
declares, or a declaration of the policy that reads as a method (`View.source_of_method?`). Whether
a class has a proxy is decided by the declared methods alone. So without one no declared method can
be overridden, but a virtual method that the policy declares can
(`View.proxy_iff_of_not_hasProxy`).
-/

set_option autoImplicit false
set_option relaxedAutoImplicit false

namespace Bindery

/-- A declaration of the policy, as it is read. -/
def oneLine (decl : String) : String := String.ofList (decl.toList.filter (· != '\n'))

theorem Prototype.className_toMethod (p : Prototype) (className : String) :
    (p.toMethod className).className = some className := by
  simp only [toMethod]
  split
  · rfl
  · split <;> rfl

namespace ClassTarget

/-- A method that a member enters in the interface of a target. -/
def Enters (target : ClassTarget) : InterfaceMember → RegisteredMethod → Prop
  | .method m, entry => isEntered m = true ∧ m.info.isActive = true ∧ entry = target.entry m false
  | .custom decl, entry => Prototype.isMethodText (oneLine decl) = true ∧
    ∃ prototype, Prototype.parse target.className (oneLine decl) = .ok prototype ∧
      entry = target.entry (prototype.toMethod target.className) true
  | _, _ => False

/-- The methods of an interface are entered for members that it holds. -/
def Sourced (target : ClassTarget) (i : ClassInterface) : Prop :=
  ∀ signature entry, i.method? signature = some entry →
    ∃ visibility, ∃ member ∈ i.members visibility, target.Enters member entry

variable {target : ClassTarget} {i : ClassInterface}

theorem Sourced.addMember (h : target.Sourced i) (visibility : Protection)
    (member : InterfaceMember) : target.Sourced (i.addMember visibility member) := by
  intro signature entry hentry
  rw [ClassInterface.method?, ClassInterface.methods_addMember] at hentry
  obtain ⟨other, held, hheld, henters⟩ := h signature entry hentry
  refine ⟨other, held, ?_, henters⟩
  rw [ClassInterface.members_addMember]
  exact List.mem_append_left _ hheld

/-- A method is entered for the member that was added in front of it. -/
theorem Sourced.enter_of_addMember (h : target.Sourced i) {visibility : Protection}
    {member : InterfaceMember} {entry : RegisteredMethod} (henters : target.Enters member entry) :
    target.Sourced ((i.addMember visibility member).enter entry) := by
  intro signature found hfound
  rcases ClassInterface.method?_enter hfound with ⟨-, rfl⟩ | hold
  · refine ⟨visibility, member, ?_, henters⟩
    change member ∈ (i.addMember visibility member).members visibility
    rw [ClassInterface.members_addMember, if_pos rfl]
    exact List.mem_append_right _ (List.mem_singleton_self _)
  · obtain ⟨other, held, hheld, hother⟩ := h.addMember visibility member signature found hold
    exact ⟨other, held, hheld, hother⟩

theorem carries_sourced (target : ClassTarget) : target.Carries target.Sourced where
  addMember h := h.addMember
  addMethod h m hactive := by
    unfold ClassTarget.addMethod
    split
    · rename_i hentered
      exact h.enter_of_addMember ⟨hentered, hactive hentered, rfl⟩
    · exact h.addMember _ _
  addCustom h visibility decl hj := by
    simp only [ClassTarget.addCustom] at hj
    split at hj
    · rename_i htext
      obtain ⟨prototype, hprototype, hj⟩ := bind_eq_ok.1 hj
      cases hj
      exact h.enter_of_addMember ⟨htext, prototype, hprototype, rfl⟩
    · cases hj
      exact h.addMember _ _

end ClassTarget

namespace View

variable {view : View} {c : Class} {i : ClassInterface} {signature : String}
  {entry : RegisteredMethod}

theorem sourced_interfaceOf (h : view.interfaceOf c = .ok i) : (view.target c).Sourced i := by
  refine holds_of_carries (ClassTarget.carries_sourced _) (fun members ↦ ?_) h
  intro signature entry hentry
  cases hentry

/-- A section holds inner classes, what the class and its folded bases add, and what the policy
adds. -/
theorem mem_members_cases (h : view.interfaceOf c = .ok i) {folded : List Class}
    (hfolded : view.foldedBases c = .ok folded) {visibility : Protection} {member : InterfaceMember}
    (hmember : member ∈ i.members visibility) :
    (∃ inner, member = .inner inner) ∨
      (∃ seen, member ∈ (view.target c).entries visibility seen
        ((c :: folded).flatMap Class.members)) ∨
      ∃ decl ∈ view.policy.extensionsOf c.name visibility, member = .custom decl := by
  cases visibility with
  | publicAccess =>
    obtain ⟨_, hsame, hmembers, -⟩ := publicMembers_eq h
    cases hfolded.symm.trans hsame
    rw [ClassInterface.members, hmembers, List.mem_append, List.mem_append] at hmember
    rcases hmember with (hinner | hentry) | hcustom
    · obtain ⟨inner, -, rfl⟩ := List.mem_map.1 hinner
      exact .inl ⟨inner, rfl⟩
    · exact .inr (.inl ⟨[], hentry⟩)
    · obtain ⟨decl, hdecl, rfl⟩ := List.mem_map.1 hcustom
      exact .inr (.inr ⟨decl, hdecl, rfl⟩)
  | protectedAccess =>
    obtain ⟨_, seen, hsame, hmembers⟩ := protectedMembers_eq h
    cases hfolded.symm.trans hsame
    rw [ClassInterface.members, hmembers] at hmember
    split at hmember
    · rcases List.mem_append.1 hmember with hentry | hcustom
      · exact .inr (.inl ⟨seen, hentry⟩)
      · obtain ⟨decl, hdecl, rfl⟩ := List.mem_map.1 hcustom
        exact .inr (.inr ⟨decl, hdecl, rfl⟩)
    · cases hmember

theorem mem_overloads_of_mem_entries {target : ClassTarget} {visibility : Protection}
    {seen : List Method} {classes : List Class} {m : Method}
    (h : .method m ∈ target.entries visibility seen (classes.flatMap Class.members)) :
    ∃ declaring ∈ classes, m ∈ declaring.overloads := by
  have hmethod := (ClassTarget.methods_entries_sublist seen _).subset
    (List.mem_filterMap.2 ⟨.method m, h, rfl⟩)
  rw [List.flatMap_assoc] at hmethod
  obtain ⟨declaring, hdeclaring, hm⟩ := List.mem_flatMap.1 hmethod
  exact ⟨declaring, hdeclaring, ClassTarget.flatMap_memberOverloads declaring ▸ hm⟩

theorem custom_not_mem_entries {target : ClassTarget} {visibility : Protection} {decl : String}
    {members : List Member} (seen : List Method) :
    .custom decl ∉ target.entries visibility seen members := by
  induction members generalizing seen with
  | nil => exact List.not_mem_nil
  | cons member members ih =>
    rw [ClassTarget.entries, List.mem_append, not_or]
    refine ⟨?_, ih _⟩
    cases member <;> simp [ClassTarget.memberEntries]

/-- Every method of an interface comes from a method that the class or a folded base declares, or
from a declaration of the policy. -/
theorem source_of_method? (h : view.interfaceOf c = .ok i) {folded : List Class}
    (hfolded : view.foldedBases c = .ok folded) (hentry : i.method? signature = some entry) :
    (∃ declaring ∈ c :: folded, ∃ m ∈ declaring.overloads, ClassTarget.isEntered m = true ∧
      m.info.isActive = true ∧ entry = (view.target c).entry m false) ∨
    ∃ visibility, ∃ decl ∈ view.policy.extensionsOf c.name visibility,
      (view.target c).Enters (.custom decl) entry := by
  obtain ⟨visibility, member, hmember, henters⟩ := sourced_interfaceOf h signature entry hentry
  rcases mem_members_cases h hfolded hmember with ⟨inner, rfl⟩ | ⟨seen, hadded⟩ | ⟨decl, hdecl, rfl⟩
  · cases henters
  · cases member with
    | method m =>
      obtain ⟨declaring, hdeclaring, hm⟩ := mem_overloads_of_mem_entries hadded
      exact .inl ⟨declaring, hdeclaring, m, hm, henters⟩
    | custom decl => exact (custom_not_mem_entries seen hadded).elim
    | _ => cases henters
  · exact .inr ⟨visibility, decl, hdecl, henters⟩

/-! ### Classes without a proxy -/

theorem mem_foldedClasses {folded : List Class} (hfolded : view.foldedBases c = .ok folded)
    {base : Class} (hbase : base ∈ folded) : base ∈ view.foldedClasses c := by
  obtain ⟨hnames, hfound⟩ := foldedBases_eq_ok hfolded
  have hname : base.name ∈ addAllNew [] (view.policy.foldedBasesOf c.name) :=
    hnames ▸ List.mem_map_of_mem hbase
  exact List.mem_filterMap.2 ⟨base.name, (mem_addAllNew.1 hname).resolve_left List.not_mem_nil,
    hfound base hbase⟩

/-- Without a proxy, neither the class nor a folded base declares a virtual method that is entered,
unless all proxies are disabled. -/
theorem isVirtual_eq_false_of_not_hasProxy (hproxy : view.hasProxy c = false)
    (henabled : view.policy.disabledProxies = false) {folded : List Class}
    (hfolded : view.foldedBases c = .ok folded) {declaring : Class}
    (hdeclaring : declaring ∈ c :: folded) {m : Method} (hm : m ∈ declaring.overloads)
    (hentered : ClassTarget.isEntered m = true) (hactive : m.info.isActive = true) :
    m.isVirtual = false := by
  simp only [hasProxy, henabled, Bool.not_false, Bool.true_and, Bool.or_eq_false_iff] at hproxy
  have hnone : declaring.hasVirtuals = false := by
    rcases List.mem_cons.1 hdeclaring with rfl | hbase
    · exact hproxy.1.2
    · exact Bool.eq_false_iff.2
        (List.any_eq_false.1 hproxy.2 declaring (mem_foldedClasses hfolded hbase))
  have hm := List.any_eq_false.1 hnone m hm
  rw [ClassTarget.isEntered, Bool.and_eq_true] at hentered
  have hignored : m.info.ignored = false := by
    rw [Info.isActive] at hactive
    cases hi : m.info.ignored <;> simp_all
  simpa [hentered.1, hignored] using hm

/-- A method of an interface is an extension just when a declaration of the policy enters it. Where
a class has no proxy, its methods that can be overridden are the virtual ones among the extensions,
as long as proxies are not disabled and the policy does not deny their names. -/
theorem proxy_iff_of_not_hasProxy (h : view.interfaceOf c = .ok i)
    (hproxy : view.hasProxy c = false) (hentry : i.method? signature = some entry) :
    (entry.extension = true ↔
      ∃ visibility, ∃ decl ∈ view.policy.extensionsOf c.name visibility,
        (view.target c).Enters (.custom decl) entry) ∧
    (entry.proxy = true ↔ entry.extension = true ∧ view.policy.disabledProxies = false ∧
      entry.isVirtual = true ∧
        view.className c ++ "::" ++ entry.method.name ∉ view.policy.noProxies) := by
  obtain ⟨folded, hfolded, -⟩ := publicMembers_eq h
  rcases source_of_method? h hfolded hentry with
    ⟨declaring, hdeclaring, m, hm, hentered, hactive, rfl⟩ | ⟨visibility, decl, hdecl, henters⟩
  · refine ⟨iff_of_false Bool.noConfusion ?_, iff_of_false (fun hopen ↦ ?_) fun h ↦ ?_⟩
    · rintro ⟨_, _, -, -, _, -, heq⟩
      cases congrArg RegisteredMethod.extension heq
    · obtain ⟨henabled, hvirtual, -⟩ := Policy.hasMethodProxy_eq_true_iff.1 hopen
      rw [isVirtual_eq_false_of_not_hasProxy hproxy henabled hfolded hdeclaring hm hentered
        hactive] at hvirtual
      cases hvirtual
    · cases h.1
  · obtain ⟨-, prototype, -, rfl⟩ := id henters
    refine ⟨iff_of_true rfl ⟨visibility, decl, hdecl, henters⟩, ?_⟩
    rw [and_iff_right (show (ClassTarget.entry _ _ true).extension = true from rfl)]
    refine Policy.hasMethodProxy_eq_true_iff.trans
      (and_congr_right fun _ ↦ and_congr_right fun _ ↦ and_iff_left fun owner howner ↦ .inl ?_)
    exact Option.some.inj (howner.symm.trans (Prototype.className_toMethod prototype _))

namespace Signs

def hide : Method := (Method.named "Hide").inClass "Sign"

/-- A sign declares nothing that is virtual. -/
def sign : Class where
  info := { name := "Sign" }
  members := [.method ⟨hide, []⟩]

/-- The policy adds a virtual method to signs. -/
def signs : View where
  policy := { Policy.empty "Signs" "Boards" with
    interfaceExtensions := [("Sign", [(.publicAccess, "virtual void Draw()")])] }
  module := { name := "Signs", items := [.ofClass sign] }

end Signs

open Signs in
/-- How a sign is drawn can be overridden, since the policy declares it. -/
theorem sign_draws : ∃ i entry, signs.interfaceOf sign = .ok i ∧ signs.hasProxy sign = false ∧
    i.method? "Draw()" = some entry ∧ entry.extension = true ∧ entry.proxy = true := by
  have hdraw : ((signs.interfaceOf sign).toOption.any fun i ↦ (i.method? "Draw()").any fun entry ↦
      entry.extension && entry.isVirtual) = true := by decide +kernel
  obtain ⟨i, hi, hdraw⟩ := (Option.any_eq_true _ _).1 hdraw
  obtain ⟨entry, hentry, hdraw⟩ := (Option.any_eq_true _ _).1 hdraw
  rw [Bool.and_eq_true] at hdraw
  have hi := eq_ok_of_toOption hi
  refine ⟨i, entry, hi, rfl, hentry, hdraw.1, ?_⟩
  exact (proxy_iff_of_not_hasProxy hi rfl hentry).2.2 ⟨hdraw.1, rfl, hdraw.2, List.not_mem_nil⟩

open Signs in
/-- A sign has no proxy, and the interface file closes it; but its method that the policy declares
is registered as one that can be overridden. -/
theorem sign_closed_but_open :
    signs.hasProxy sign = false ∧ Emit.closedClasses signs = [sign] ∧
      Emit.noDirectorLine "Sign" ∈ Emit.runtimeLines signs ∧
      ((signs.interfaceOf sign).toOption.any fun i ↦
        (i.method? "Draw()").any (·.proxy)) = true := by
  refine ⟨rfl, rfl, List.mem_cons_of_mem _ List.mem_cons_self, ?_⟩
  decide +kernel

end View

end Bindery
