import Bindery.Proofs.Emit.Guards
import Bindery.Proofs.Emit.Renames

/-!
What the documentation stub lists and what the header declares. Both are made from the public
members of an interface. A method that the stub lists is declared in the body of its class, unless
it is a constructor of an abstract class: the header has no constructor there, and the stub lists it
all the same (`Emit.listed_declared_iff`).
-/

set_option autoImplicit false
set_option relaxedAutoImplicit false

namespace Bindery

namespace Table

variable {κ α : Type} [BEq κ] [LawfulBEq κ] {key : α → κ}

theorem mem_keys_foldl_join {xs : List α} {groups : Table κ (List α)} {k : κ}
    (h : k ∈ keys (xs.foldl (join key) groups)) : k ∈ keys groups ∨ ∃ x ∈ xs, key x = k := by
  induction xs generalizing groups with
  | nil => exact .inl h
  | cons x xs ih =>
    rcases ih h with hgroups | ⟨y, hy, hkey⟩
    · rcases (mem_keys_alter _ _ _ _ _).1 hgroups with rfl | hold
      · exact .inr ⟨x, List.mem_cons_self, rfl⟩
      · exact .inl hold
    · exact .inr ⟨y, List.mem_cons_of_mem _ hy, hkey⟩

/-- No group is empty. -/
theorem ne_nil_of_mem_group {xs : List α} {k : κ} {xs' : List α}
    (h : (k, xs') ∈ group key xs) : xs' ≠ [] := by
  have hkey : k ∈ keys (group key xs) := List.mem_map_of_mem h
  rcases mem_keys_foldl_join hkey with hnil | ⟨x, hx, hk⟩
  · exact (List.not_mem_nil hnil).elim
  · obtain ⟨other, hother, hmem⟩ := exists_mem_group_iff.2 ⟨hx, hk⟩
    have hsame := ((find?_eq_some_iff (nodup_keys_group xs) k xs').2 h).symm.trans
      ((find?_eq_some_iff (nodup_keys_group xs) k other).2 hother)
    rw [Option.some.inj hsame]
    exact List.ne_nil_of_mem hmem

end Table

namespace Emit

variable {view : View} {registry : InterfaceRegistry} {rules : TypemapRules} {c : Class}
  {i : ClassInterface} {m : Method} {text stub : String}

/-- What the members of a generated class are written for. -/
def scopeOf (view : View) (rules : TypemapRules) (c : Class) (i : ClassInterface) : ClassScope where
  rules := rules
  source := c
  className := view.className c
  interface := i
  isAbstract := view.isAbstract c

/-- The line that declares a method in the body of its class. -/
def ClassScope.declaredLine (scope : ClassScope) (m : Method) : String :=
  if m.isCtor then "  " ++ scope.className ++ scope.source.mapParams m ++ ";"
  else if m.isDtor then
    "  " ++ (if m.isVirtual then "virtual " else "") ++ "~" ++ scope.className ++ "();"
  else
    "  " ++ (if m.isStatic then "static " else "") ++ (if m.isVirtual then "virtual " else "") ++
      scope.rules.declaredReturnType m ++ " " ++ m.name ++ scope.source.mapParams m ++
        (if scope.isPure m then " =0" else "") ++ ";"

/-- The body of a class has a declaration of a method, with the line that declares it. -/
def ClassScope.Declares (scope : ClassScope) (m : Method) : Prop :=
  ∃ body, .written .member (.method ⟨m, []⟩) body ∈ scope.bodyParts ∧
    .line (scope.declaredLine m) ∈ body

namespace ClassScope

variable {scope : ClassScope} {member : InterfaceMember} {part : Part}

theorem mem_bodyParts_of_public (hmember : member ∈ scope.interface.publicMembers)
    (hpart : part ∈ scope.memberParts member) : part ∈ scope.bodyParts :=
  List.mem_append_left _ (List.mem_append_right _ (List.mem_flatMap.2 ⟨member, hmember, hpart⟩))

/-- What the body of a class has for a declaration, it has for a member of the interface. -/
theorem exists_member_of_written {place : Place} {declared : Target} {body : List Part}
    (h : .written place declared body ∈ scope.bodyParts) :
    ∃ member, (member ∈ scope.interface.publicMembers ∨
      member ∈ scope.interface.protectedMembers) ∧
        .written place declared body ∈ scope.memberParts member := by
  simp only [bodyParts, List.mem_append] at h
  rcases h with ((hopening | hdtor) | hpublic) | hprotected
  · split at hopening <;> simp at hopening
  · split at hdtor <;> simp at hdtor
  · obtain ⟨member, hmember, hpart⟩ := List.mem_flatMap.1 hpublic
    exact ⟨member, .inl hmember, hpart⟩
  · split at hprotected
    · exact (List.not_mem_nil hprotected).elim
    · rcases List.mem_append.1 hprotected with hlines | hmembers
      · simp at hlines
      · obtain ⟨member, hmember, hpart⟩ := List.mem_flatMap.1 hmembers
        exact ⟨member, .inr hmember, hpart⟩

/-- The body of an abstract class has nothing for a constructor. -/
theorem not_mem_bodyParts_of_isCtor (habstract : scope.isAbstract = true) (hctor : m.isCtor = true)
    (body : List Part) : .written .member (.method ⟨m, []⟩) body ∉ scope.bodyParts := by
  intro hbody
  obtain ⟨member, -, hpart⟩ := exists_member_of_written hbody
  cases member with
  | method other =>
    have hother : other.isCtor = false := by
      rw [Bool.eq_false_iff]
      intro hother
      simp [memberParts, hother, habstract] at hpart
    have hsame : other = m := by
      cases hends : other.isDtor with
      | true => simp [memberParts, hother, hends, habstract] at hpart
      | false =>
        simp only [memberParts, hother, hends, Bool.false_eq_true, if_false] at hpart
        split at hpart
        · exact (List.not_mem_nil hpart).elim
        · cases List.mem_singleton.1 hpart
          rfl
    rw [hsame, hctor] at hother
    cases hother
  | custom decl => simp [memberParts] at hpart
  | _ => simp [memberParts, memberEnumPart] at hpart

/-- A documented method is declared, unless it is a constructor of an abstract class. -/
theorem declares_iff (hm : .method m ∈ scope.interface.publicMembers)
    (hdocumented : isDocumented scope.interface m = true) :
    scope.Declares m ↔ ¬(m.isCtor = true ∧ scope.isAbstract = true) := by
  simp only [isDocumented, Bool.and_eq_true, Bool.not_eq_true'] at hdocumented
  obtain ⟨⟨hdtor, -⟩, hdropped⟩ := hdocumented
  refine ⟨fun ⟨body, hbody, _⟩ hctor ↦ not_mem_bodyParts_of_isCtor hctor.2 hctor.1 body hbody,
    fun hdeclared ↦ ?_⟩
  have hparts : ∃ body, .written .member (.method ⟨m, []⟩) body ∈
      scope.memberParts (.method m) ∧ .line (scope.declaredLine m) ∈ body := by
    cases hctor : m.isCtor with
    | true =>
      have habstract : scope.isAbstract = false := by simpa [hctor] using hdeclared
      refine ⟨_, by simp only [memberParts, hctor, habstract]; exact List.mem_cons_self, ?_⟩
      simp [declaredLine, hctor]
    | false =>
      refine ⟨_, by simp only [memberParts, hctor, hdtor, hdropped]; exact List.mem_cons_self, ?_⟩
      simp [methodLines, declaredLine, specifiers, hctor, hdtor, String.append_assoc]
  obtain ⟨body, hbody, hline⟩ := hparts
  exact ⟨body, mem_bodyParts_of_public hm hbody, hline⟩

/-- What the body of a class declares stands in the text of the declaration of the class. -/
theorem Declares.exists_linesOf (h : scope.Declares m) (base : Option String) :
    ∃ before after, Part.linesOf isGuarded (scope.declarationParts base) =
      before ++ scope.declaredLine m :: after := by
  obtain ⟨body, hbody, hline⟩ := h
  have hmember : .written .member (.method ⟨m, []⟩) body ∈ scope.declarationParts base :=
    List.mem_append_left _ (List.mem_append_right _ hbody)
  obtain ⟨before, after, hlines⟩ :=
    Part.Occurs.exists_linesOf isGuarded (.within hmember (.among hline))
  refine ⟨before, after, ?_⟩
  rw [hlines, Part.lines, List.append_assoc, List.singleton_append]

end ClassScope

/-- The class body that a header has for a generated class. -/
theorem exists_declarationParts (h : header view registry rules = .ok text)
    (hclasses : view.policy.generates .classes = true) (hc : c ∈ view.generatedClasses) :
    ∃ i base parts, registry.expect (view.className c) = .ok i ∧
      outline view registry rules = .ok parts ∧ text = Text.unlines (Part.linesOf isGuarded parts) ∧
      .written .item (.ofClass c) ((scopeOf view rules c i).declarationParts base) ∈ parts := by
  rw [header_eq] at h
  cases hparts : outline view registry rules with
  | error e =>
    rw [hparts] at h
    cases h
  | ok parts =>
    rw [hparts] at h
    obtain rfl := Except.ok.inj h
    have houtline := hparts
    rw [outline, if_pos hclasses] at houtline
    obtain ⟨classes, hmap, heq⟩ := bind_eq_ok.1 houtline
    obtain ⟨group, hgroup, hclass⟩ := exists_mem_of_mapM hmap hc
    obtain ⟨i, hi, hclass⟩ := bind_eq_ok.1 hclass
    obtain ⟨base, -, hclass⟩ := bind_eq_ok.1 hclass
    cases hclass
    cases heq
    refine ⟨i, base, _, hi, rfl, rfl, ?_⟩
    simp only [outlineWith, List.mem_append]
    exact .inl (.inl (.inl (.inl (.inl (.inr (List.mem_flatten.2
      ⟨_, hgroup, List.mem_cons_of_mem _ List.mem_cons_self⟩))))))

/-- Each definition in the stub of a class ends with a `def` line. It lists methods that the class
body of the header declares, each on a line of its own, all but constructors of an abstract class.
So it has a counterpart in the header, unless the class is abstract and all that it lists are
constructors: then the body has nothing for any constructor. -/
theorem listed_declared_iff (hheader : header view registry rules = .ok text)
    (hstub : documentation view registry rules = .ok stub)
    (hclasses : view.policy.generates .classes = true) (hc : c ∈ view.generatedClasses)
    (hshown : c.info.ignoreDoc = false) :
    ∃ i base parts, registry.expect (view.className c) = .ok i ∧
      outline view registry rules = .ok parts ∧ text = Text.unlines (Part.linesOf isGuarded parts) ∧
      .written .item (.ofClass c) ((scopeOf view rules c i).declarationParts base) ∈ parts ∧
      (∀ name overloads, (name, overloads) ∈ stubMethods view.policy c i →
        (∃ above, methodStub rules name overloads = above ++ [defLine name overloads]) ∧
        (∃ front back, stub = Text.unlines (front ++ methodStub rules name overloads ++ back)) ∧
        (∀ m ∈ overloads, (scopeOf view rules c i).Declares m ↔
          ¬(m.isCtor = true ∧ view.isAbstract c = true)) ∧
        ((∃ m ∈ overloads, (scopeOf view rules c i).Declares m) ↔
          view.isAbstract c = false ∨ ∃ m ∈ overloads, m.isCtor = false)) ∧
      (∀ m, (scopeOf view rules c i).Declares m → ∃ front back,
        text = Text.unlines (front ++ (scopeOf view rules c i).declaredLine m :: back)) ∧
      (view.isAbstract c = true → ∀ m : Method, m.isCtor = true → ∀ body,
        .written .member (.method ⟨m, []⟩) body ∉ (scopeOf view rules c i).bodyParts) := by
  obtain ⟨i, base, parts, hi, hparts, htext, hclass⟩ := exists_declarationParts hheader hclasses hc
  refine ⟨i, base, parts, hi, hparts, htext, hclass, fun name overloads hgroup ↦ ?_,
    fun m hdeclares ↦ ?_,
    fun habstract m hctor ↦ ClassScope.not_mem_bodyParts_of_isCtor habstract hctor⟩
  · have hdeclared (m : Method) (hm : m ∈ overloads) : (scopeOf view rules c i).Declares m ↔
        ¬(m.isCtor = true ∧ view.isAbstract c = true) := by
      rw [stubMethods_eq_group] at hgroup
      obtain ⟨hmem, -⟩ := Table.exists_mem_group_iff.1 ⟨overloads, hgroup, hm⟩
      obtain ⟨hmember, hdocumented⟩ := mem_documentedMethods.1 hmem
      exact ClassScope.declares_iff hmember hdocumented
    obtain ⟨above, hdefined, -⟩ := exists_methodStub_eq rules name overloads
    refine ⟨⟨above, hdefined⟩, ?_, hdeclared, ?_⟩
    · obtain ⟨lines, hlines, front, back, rfl⟩ := exists_classStub hstub hc hshown
      obtain ⟨before, after, rfl⟩ := methodStub_infix hlines hi hgroup
      exact ⟨front ++ before, after ++ back, by simp only [List.append_assoc]⟩
    · constructor
      · rintro ⟨m, hm, hdeclares⟩
        cases habstract : view.isAbstract c with
        | false => exact .inl rfl
        | true =>
          refine .inr ⟨m, hm, ?_⟩
          simpa [habstract] using (hdeclared m hm).1 hdeclares
      · rintro (hconcrete | ⟨m, hm, hordinary⟩)
        · rw [stubMethods_eq_group] at hgroup
          obtain ⟨m, hm⟩ := List.exists_mem_of_ne_nil _ (Table.ne_nil_of_mem_group hgroup)
          exact ⟨m, hm, (hdeclared m hm).2 (by simp [hconcrete])⟩
        · exact ⟨m, hm, (hdeclared m hm).2 (by simp [hordinary])⟩
  · obtain ⟨before, after, hlines⟩ := hdeclares.exists_linesOf base
    obtain ⟨opened, closed, hwritten⟩ := exists_lines_written isGuarded .item (.ofClass c)
      ((scopeOf view rules c i).declarationParts base)
    obtain ⟨front, back, hall⟩ := exists_linesOf_of_mem isGuarded hclass
    refine ⟨front ++ opened ++ before, after ++ closed ++ back, ?_⟩
    rw [htext, hall, hwritten, hlines]
    simp only [List.append_assoc, List.cons_append]

namespace Metering

def make : Method := .ctorOf "Gauge"

def read : Method := (Method.named "Read").inClass "Gauge"

def gauge : Class where
  info := { name := "Gauge" }
  members := [.method ⟨make, []⟩, .method ⟨read, []⟩]

/-- The policy makes the class abstract. -/
def gauges : View where
  policy := (Policy.empty "Gauges" "Meters").apply (.makeAbstract "Gauge")
  module := { name := "Gauges", items := [.ofClass gauge] }

end Metering

open Metering in
/-- What the stub lists for reading a gauge is declared in the header. -/
theorem read_declared : ∃ i text stub, gauges.interfaceOf gauge = .ok i ∧
    header gauges [("Gauge", i)] {} = .ok text ∧
    documentation gauges [("Gauge", i)] {} = .ok stub ∧
    ("read", [read]) ∈ stubMethods gauges.policy gauge i ∧
    (∃ above, methodStub {} "read" [read] = above ++ ["    def read() end"]) ∧
    (scopeOf gauges {} gauge i).Declares read ∧
    ∃ front back, text = Text.unlines (front ++ "  void Read();" :: back) := by
  have hbuilt : (gauges.interfaceOf gauge).toOption.isSome = true := by decide
  obtain ⟨i, hi⟩ := Option.isSome_iff_exists.1 hbuilt
  have hok : (gauges.interfaceOf gauge).toOption.any (fun i ↦
      (header gauges [("Gauge", i)] {}).toOption.isSome &&
        (documentation gauges [("Gauge", i)] {}).toOption.isSome &&
        stubMethods gauges.policy gauge i == [("initialize", [make]), ("read", [read])]) =
          true := by
    decide
  rw [hi, Option.any_some, Bool.and_eq_true, Bool.and_eq_true, beq_iff_eq] at hok
  obtain ⟨⟨hheader, hstub⟩, hmethods⟩ := hok
  obtain ⟨text, htext⟩ := Option.isSome_iff_exists.1 hheader
  obtain ⟨stub, hdocumented⟩ := Option.isSome_iff_exists.1 hstub
  have hheader := eq_ok_of_toOption htext
  have hstub := eq_ok_of_toOption hdocumented
  have hgroup : ("read", [read]) ∈ stubMethods gauges.policy gauge i := by simp [hmethods]
  obtain ⟨found, -, -, hfound, -, -, -, hlisted, hwritten, -⟩ :=
    listed_declared_iff hheader hstub (by decide) (List.mem_cons_self : gauge ∈ _) rfl
  obtain rfl : i = found := Except.ok.inj hfound
  obtain ⟨hdefined, -, hdeclared, -⟩ := hlisted "read" [read] hgroup
  have hread := (hdeclared read List.mem_cons_self).2 (by decide)
  exact ⟨i, text, stub, eq_ok_of_toOption hi, hheader, hstub, hgroup, hdefined, hread,
    hwritten read hread⟩

open Metering in
/-- The stub of an abstract gauge lists its constructor, and the header has none. -/
theorem abstract_gauge_initialized : gauges.generatedClasses = [gauge] ∧
    gauges.policy.generates .classes = true ∧ gauge.info.ignoreDoc = false ∧
    (gauges.interfaceOf gauge).toOption.any (fun i ↦
      (header gauges [("Gauge", i)] {}).toOption.isSome &&
        (documentation gauges [("Gauge", i)] {}).toOption.isSome &&
        stubMethods gauges.policy gauge i == [("initialize", [make]), ("read", [read])] &&
        (scopeOf gauges {} gauge i).body ==
          ["public:", "  virtual ~Gauge() =0;", "  // from Gauge::Read", "  void Read();"]) =
            true := by
  refine ⟨rfl, by decide, rfl, ?_⟩
  decide

end Emit

end Bindery
