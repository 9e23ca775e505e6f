import Mathlib.Data.List.Pairwise
import Bindery.Proofs.Decl.Signatures
import Bindery.Proofs.Interface.Hiding

/-!
Methods of a class against those of the bases that it folds. In the public section the methods of
the class come first, so that only they displace each other; in the protected one they stand behind
the public methods of folded bases, any of which can displace them (`View.own_methods_registered`).
Registered methods of one name and one signature are declared by one class, if no method stands in a
chain behind a constructor or a destructor, as none does that was extracted. A signature alone tells
the declaring class too where it gives the name, as it does for all names without a parenthesis
(`View.declarer_of_signature`, `Method.name_eq_of_signature_eq`).
-/

set_option autoImplicit false
set_option relaxedAutoImplicit false

namespace Bindery

open ClassTarget (unhidden isHidden)

/-- A signature gives the name, unless the name holds an opening parenthesis. -/
theorem Method.name_eq_of_signature_eq {m m' : Method} (hm : '(' ∉ m.name.toList)
    (hm' : '(' ∉ m'.name.toList) (h : m.signature = m'.signature) : m.name = m'.name := by
  have hcut (o : Method) (ho : '(' ∉ o.name.toList) :
      (Text.cutAtFirst (· == '(') o.signature.toList).map Prod.fst = some o.name.toList := by
    have hplain : ∀ d ∈ o.name.toList, (d == '(') = false := fun d hd ↦
      beq_false_of_ne fun hparen ↦ ho (hparen ▸ hd)
    rw [signature, String.toList_append, String.toList_append, String.toList_append,
      String.toList_append, List.append_assoc, List.append_assoc, List.append_assoc]
    exact congrArg (Option.map Prod.fst) (Text.cutAtFirst_append hplain rfl _)
  have hsame := hcut m hm
  rw [h, hcut m' hm'] at hsame
  exact String.toList_inj.1 (Option.some.inj hsame).symm

namespace ClassTarget

variable {seen : List Method} {o : Method} {className : String}

/-- A method of a class is hidden by one of that class, if it is virtual and they share their
signature, or by one of another class. -/
theorem isHidden_iff_of_className (ho : o.className = some className) :
    isHidden seen o = true ↔
      (o.isVirtual = true ∧ ∃ m ∈ seen, m.className = some className ∧ m.signature = o.signature) ∨
        ∃ m ∈ seen, m.className ≠ some className ∧ m.Hides o := by
  rw [isHidden_iff]
  constructor
  · rintro ⟨m, hm, hhides⟩
    by_cases hclass : m.className = some className
    · obtain ⟨hvirtual, hsignature⟩ :=
        (Method.hides_iff_of_className (hclass.trans ho.symm)).1 hhides
      exact .inl ⟨hvirtual, m, hm, hclass, hsignature⟩
    · exact .inr ⟨m, hm, hclass, hhides⟩
  · rintro (⟨hvirtual, m, hm, hclass, hsignature⟩ | ⟨m, hm, -, hhides⟩)
    · exact ⟨m, hm,
        (Method.hides_iff_of_className (hclass.trans ho.symm)).2 ⟨hvirtual, hsignature⟩⟩
    · exact ⟨m, hm, hhides⟩

end ClassTarget

/-- A method of a class behind the ones registered in front of the section. As the methods of the
class are the first of the section, only methods in front of it can be of another class. -/
theorem Class.DeclaresOwn.unhidden_split {c : Class} (howns : c.DeclaresOwn)
    {visibility : Protection} {before after : List Method} {o : Method}
    (hsplit : c.ordinaryMethods visibility = before ++ o :: after) (front more : List Method) :
    ∃ later, unhidden front (c.ordinaryMethods visibility ++ more) = unhidden front before ++
        (if (o.isVirtual = true ∧ ∃ m ∈ front ++ unhidden front before,
              m.className = some c.name ∧ m.signature = o.signature) ∨
            ∃ m ∈ front, m.className ≠ some c.name ∧ m.Hides o then []
          else [o]) ++ later ∧
      later.Sublist (after ++ more) := by
  have hown (m : Method) (hm : m ∈ before ++ o :: after) : m.className = some c.name :=
    howns.className m (mem_overloads_of_mem_ordinaryMethods (hsplit ▸ hm))
  have hfront : (∃ m ∈ front ++ unhidden front before, m.className ≠ some c.name ∧ m.Hides o) ↔
      ∃ m ∈ front, m.className ≠ some c.name ∧ m.Hides o := by
    constructor
    · rintro ⟨m, hm, hclass, hhides⟩
      refine ⟨m, (List.mem_append.1 hm).resolve_right fun hbefore ↦ hclass ?_, hclass, hhides⟩
      exact hown m (List.mem_append_left _ ((ClassTarget.unhidden_sublist _ _).subset hbefore))
    · rintro ⟨m, hm, hhides⟩
      exact ⟨m, List.mem_append_left _ hm, hhides⟩
  obtain ⟨later, hlater, hsublist⟩ := ClassTarget.unhidden_split front before o (after ++ more)
  have ho := hown o (List.mem_append_right _ List.mem_cons_self)
  refine ⟨later, ?_, hsublist⟩
  rw [hsplit, List.append_assoc, List.cons_append, hlater]
  simp only [ClassTarget.isHidden_iff_of_className ho, hfront]

namespace View

variable {c : Class} {interface : ClassInterface}

/-- The methods of a class of an extraction, one by one. In the public section a method is
registered unless it is virtual and an earlier registered one of the class has its signature. In the
protected section it is left out, too, when a public method of a folded base hides it. -/
theorem own_methods_registered {policy : Policy} {config : Config}
    {load : String → Except Error DeclFile} {extraction : Extraction}
    (hextract : policy.extract config load = .ok extraction)
    (hc : c ∈ extraction.module.classes)
    (h : (View.mk policy extraction.module).interfaceOf c = .ok interface) :
    ∃ folded, (View.mk policy extraction.module).foldedBases c = .ok folded ∧
      (∀ before o after, c.ordinaryMethods .publicAccess = before ++ o :: after →
        ∃ later, interface.ordinaryMethods .publicAccess = unhidden [] before ++
            (if o.isVirtual = true ∧ ∃ m ∈ unhidden [] before,
                m.className = some c.name ∧ m.signature = o.signature then []
              else [o]) ++ later ∧
          later.Sublist (after ++ folded.flatMap fun b ↦ b.ordinaryMethods .publicAccess)) ∧
      ((View.mk policy extraction.module).hasProtectedSection c folded = true →
        ∀ before o after, c.ordinaryMethods .protectedAccess = before ++ o :: after →
        ∃ later, interface.ordinaryMethods .protectedAccess =
            unhidden (interface.ordinaryMethods .publicAccess) before ++
              (if (o.isVirtual = true ∧ ∃ m ∈ interface.ordinaryMethods .publicAccess ++
                      unhidden (interface.ordinaryMethods .publicAccess) before,
                    m.className = some c.name ∧ m.signature = o.signature) ∨
                  ∃ m ∈ interface.ordinaryMethods .publicAccess,
                    m.className ≠ some c.name ∧ m.Hides o then []
                else [o]) ++ later ∧
          later.Sublist (after ++ folded.flatMap fun b ↦ b.ordinaryMethods .protectedAccess)) := by
  obtain ⟨folded, hfolded, -⟩ := bind_eq_ok.1 h
  obtain ⟨-, hfound⟩ := foldedBases_eq_ok hfolded
  have hown : c.DeclaresOwn := Policy.declaresOwn_of_extract hextract hc
  have howns : ∀ b ∈ c :: folded, b.DeclaresOwn := List.forall_mem_cons.2 ⟨hown, fun b hb ↦
    Policy.declaresOwn_of_extract hextract (List.mem_of_find?_eq_some (hfound b hb))⟩
  refine ⟨folded, hfolded, fun before o after hsplit ↦ ?_,
    fun hsection before o after hsplit ↦ ?_⟩
  · rw [ordinaryMethods_public h hfolded howns, List.flatMap_cons]
    simpa using hown.unhidden_split hsplit [] _
  · rw [ordinaryMethods_protected h hfolded howns, if_pos hsection, List.flatMap_cons]
    exact hown.unhidden_split hsplit _ _

end View

/-! A hatch that folds a pane. Both draw themselves, the hatch for its own use only. -/

namespace Hatches

def drawEntry (protection : Option String) : MethodEntry where
  common := { name := "Draw", protection }
  isVirtual := true

def read (_ : String) : Except Error DeclFile :=
  .ok ⟨[
    .ofClass { common := { name := "Pane" }, members := [.method (drawEntry none)] },
    .ofClass {
      common := { name := "Hatch" }
      members := [.method (drawEntry "protected"), .method { common := { name := "Open" } }] }]⟩

def policy : Policy :=
  { Policy.empty "Hatches" "Ships" with
    visibility := [("Hatch::Draw", ⟨false, false⟩)]
    foldedBases := [("Hatch", ["Pane"])] }

def drawing (className : String) : Method :=
  { (Method.named "Draw").inClass className with isVirtual := true }

def ownDrawing : Method :=
  { drawing "Hatch" with info := { name := "Draw", protection := .protectedAccess } }

def opening : Method := (Method.named "Open").inClass "Hatch"

end Hatches

open Hatches in
/-- What opens a hatch is registered, and how it draws itself is not. -/
theorem hatch_methods : ∃ extraction c interface, policy.extract {} read = .ok extraction ∧
    c ∈ extraction.module.classes ∧
    (View.mk policy extraction.module).interfaceOf c = .ok interface ∧
    c.ordinaryMethods .publicAccess = [opening] ∧
    c.ordinaryMethods .protectedAccess = [ownDrawing] ∧
    (∃ later, interface.ordinaryMethods .publicAccess = opening :: later) ∧
    interface.ordinaryMethods .protectedAccess = [] := by
  have hok : ((policy.extract {} read).toOption.any fun extraction ↦
      extraction.module.classes.any fun c ↦ decide (c.name = "Hatch") &&
        decide (c.ordinaryMethods .publicAccess = [opening]) &&
          decide (c.ordinaryMethods .protectedAccess = [ownDrawing]) &&
            ((View.mk policy extraction.module).foldedBases c).toOption.any (fun folded ↦
              (View.mk policy extraction.module).hasProtectedSection c folded &&
                (folded.flatMap fun b ↦ b.ordinaryMethods .protectedAccess).isEmpty) &&
              ((View.mk policy extraction.module).interfaceOf c).toOption.any fun interface ↦
                (interface.ordinaryMethods .publicAccess).contains (drawing "Pane")) = true := by
    decide +kernel
  obtain ⟨extraction, hextract, hany⟩ := (Option.any_eq_true _ _).1 hok
  obtain ⟨c, hc, hfacts⟩ := List.any_eq_true.1 hany
  simp only [Bool.and_eq_true, decide_eq_true_eq] at hfacts
  obtain ⟨⟨⟨⟨hname, hpublic⟩, hprotected⟩, hfolds⟩, hany⟩ := hfacts
  obtain ⟨interface, hinterface, hpane⟩ := (Option.any_eq_true _ _).1 hany
  obtain ⟨folded, hfolded, hsection⟩ := (Option.any_eq_true _ _).1 hfolds
  rw [Bool.and_eq_true, List.isEmpty_iff] at hsection
  obtain ⟨folded', hfolded', hopening, hdrawing⟩ := View.own_methods_registered
    (eq_ok_of_toOption hextract) hc (eq_ok_of_toOption hinterface)
  cases (eq_ok_of_toOption hfolded).symm.trans hfolded'
  refine ⟨extraction, c, interface, eq_ok_of_toOption hextract, hc, eq_ok_of_toOption hinterface,
    hpublic, hprotected, ?_, ?_⟩
  · obtain ⟨later, hlater, -⟩ := hopening [] opening [] hpublic
    exact ⟨later, hlater⟩
  · obtain ⟨later, hlater, hsublist⟩ := hdrawing hsection.1 [] ownDrawing [] hprotected
    rw [hsection.2] at hsublist
    rw [hlater, List.eq_nil_of_sublist_nil hsublist, if_pos]
    · rfl
    · refine .inr ⟨drawing "Pane", List.contains_iff_mem.1 hpane, ?_, rfl⟩
      rw [hname]
      decide

open Hatches in
/-- How a hatch draws itself is active and in a protected section, and no method of the hatch with
its signature is registered. -/
theorem hatch_drawing_displaced : ((policy.extract {} read).toOption.any fun extraction ↦
      extraction.module.classes.any fun c ↦
        (c.ordinaryMethods .protectedAccess).contains ownDrawing &&
          ((View.mk policy extraction.module).foldedBases c).toOption.any (fun folded ↦
            (View.mk policy extraction.module).hasProtectedSection c folded) &&
          ((View.mk policy extraction.module).interfaceOf c).toOption.any fun interface ↦
            [Protection.publicAccess, .protectedAccess].all fun visibility ↦
              (interface.ordinaryMethods visibility).all fun m ↦
                decide (m.className = some c.name → m.signature ≠ ownDrawing.signature)) =
    true := by
  decide +kernel

/-! ### Declaring classes -/

namespace View

variable {view : View} {c : Class} {interface : ClassInterface} {folded : List Class}

/-- A registered method of the signature of an earlier one is not virtual, and if it has the name of
the earlier one, too, it is declared by the same class. -/
theorem pairwise_declarers (members : List Member) :
    (registeredAfter members).Pairwise fun m m' ↦ m.signature = m'.signature →
      m'.isVirtual = false ∧ (m.name = m'.name → m.className = m'.className) := by
  refine (pairwise_registeredAfter members).imp fun {m m'} hhides hsignature ↦ ?_
  rw [Method.Hides] at hhides
  split at hhides
  · exact (hhides hsignature).elim
  · rename_i hvirtual
    rw [Bool.not_eq_true] at hvirtual
    exact ⟨hvirtual, fun hname ↦ not_not.1 fun hclass ↦ hhides ⟨hname, hclass⟩⟩

/-- Where signatures give the names, registered methods of one signature are declared by one
class. -/
theorem className_eq_of_registered {classes : List Class}
    (hnames : ∀ b ∈ classes, ∀ m ∈ b.overloads, ∀ b' ∈ classes, ∀ m' ∈ b'.overloads,
      m.signature = m'.signature → m.name = m'.name) :
    ∀ m ∈ registeredAfter (classes.flatMap Class.members),
      ∀ m' ∈ registeredAfter (classes.flatMap Class.members),
        m.signature = m'.signature → m.className = m'.className := by
  have hsymm : Std.Symm fun m m' : Method ↦
      m.signature = m'.signature → m.className = m'.className :=
    ⟨fun _ _ hclass hsignature ↦ (hclass hsignature.symm).symm⟩
  refine List.Pairwise.forall_of_forall (fun _ _ _ ↦ rfl) ?_
  refine (pairwise_declarers _).imp_of_mem fun {m m'} hm hm' hpair hsignature ↦ ?_
  obtain ⟨b, hb, hmem⟩ := exists_declarer_of_mem hm
  obtain ⟨b', hb', hmem'⟩ := exists_declarer_of_mem hm'
  exact (hpair hsignature).2 (hnames b hb m hmem b' hb' m' hmem' hsignature)

/-- Of the ordinary methods that are registered in both sections, none stands behind one of its name
and signature that another class declares, and a virtual one behind none of its signature. Where the
signature gives the name, it gives the declaring class too, which is the class itself for the
signatures of its public methods. Constructors and destructors must stand in chains of their own. -/
theorem declarer_of_signature (h : view.interfaceOf c = .ok interface)
    (hfolded : view.foldedBases c = .ok folded)
    (hclass : ∀ b ∈ c :: folded, ∀ m ∈ b.overloads, m.className = some b.name)
    (hkinds : ∀ b ∈ c :: folded, b.SeparatesKinds) :
    let registered := interface.ordinaryMethods .publicAccess ++
      interface.ordinaryMethods .protectedAccess
    (registered.Pairwise fun m m' ↦ m.signature = m'.signature →
      m'.isVirtual = false ∧ (m.name = m'.name → m.className = m'.className)) ∧
    ((∀ b ∈ c :: folded, ∀ m ∈ b.overloads, ∀ b' ∈ c :: folded, ∀ m' ∈ b'.overloads,
        m.signature = m'.signature → m.name = m'.name) →
      (∀ m ∈ registered, ∀ m' ∈ registered,
        m.signature = m'.signature → m.className = m'.className) ∧
      ∀ o ∈ c.ordinaryMethods .publicAccess, ∀ m ∈ registered,
        m.signature = o.signature → m.className = some c.name) := by
  intro registered
  have hsublist := ordinaryMethods_sublist h hfolded hkinds
  refine ⟨(pairwise_declarers _).sublist hsublist, fun hnames ↦ ?_⟩
  have hclasses := className_eq_of_registered hnames
  refine ⟨fun m hm m' hm' ↦ hclasses m (hsublist.subset hm) m' (hsublist.subset hm'),
    fun o ho m hm hsignature ↦ ?_⟩
  -- In front of `o`, a constructor of its signature can be registered that no section holds.
  obtain ⟨own, hown, hdeclared, hsame⟩ := exists_own_of_signature
    (hclass c List.mem_cons_self) (hkinds c List.mem_cons_self) ho folded
  exact (hclasses m (hsublist.subset hm) own hown (hsignature.trans hsame.symm)).trans hdeclared

end View

open Folds in
/-- Whatever is registered for drawing a combo box is declared by the combo box, though the entry
that it folds draws itself, too. -/
theorem combo_drawing_declarer : ∃ interface, combos.interfaceOf combo = .ok interface ∧
    (∀ b ∈ [combo, pane, entry], b.SeparatesKinds ∧ ∀ m ∈ b.overloads, m.className = some b.name) ∧
    ∀ m ∈ interface.ordinaryMethods .publicAccess ++ interface.ordinaryMethods .protectedAccess,
      m.signature = "Draw()" → m.className = some "Combo" := by
  have hok : (combos.interfaceOf combo).toOption.isSome = true := by decide +kernel
  obtain ⟨interface, hinterface⟩ := Option.isSome_iff_exists.1 hok
  have hfolded : combos.foldedBases combo = .ok [pane, entry] := rfl
  have howns : ∀ b ∈ [combo, pane, entry],
      b.SeparatesKinds ∧ ∀ m ∈ b.overloads, m.className = some b.name := by
    decide +kernel
  have hplain : ∀ b ∈ [combo, pane, entry], ∀ m ∈ b.overloads, '(' ∉ m.name.toList := by
    decide +kernel
  obtain ⟨-, hdeclarers⟩ := View.declarer_of_signature (eq_ok_of_toOption hinterface) hfolded
    (fun b hb ↦ (howns b hb).2) (fun b hb ↦ (howns b hb).1)
  obtain ⟨-, hown⟩ := hdeclarers fun b hb m hm b' hb' m' hm' ↦
    Method.name_eq_of_signature_eq (hplain b hb m hm) (hplain b' hb' m' hm')
  refine ⟨interface, eq_ok_of_toOption hinterface, howns, fun m hm hsignature ↦ ?_⟩
  have hdrawing : { (Method.named "Draw").inClass "Combo" with isVirtual := true } ∈
      combo.ordinaryMethods .publicAccess := by decide +kernel
  exact hown _ hdrawing m hm hsignature

/-! Two pairs of methods of one signature, each of two classes. The names of the first pair differ,
as one of them ends in a parenthesis. In the second pair a method stands in a chain behind a
constructor, so that nothing is registered for it. -/

namespace Hatches

def blind : Class where
  info := { name := "Blind" }
  members := [.method ⟨{ (Method.named "Draw(").inClass "Blind" with
    params := [{ type := "int" }] }, []⟩]

def rooflight : Class where
  info := { name := "Rooflight" }
  members := [.method ⟨{ (Method.named "Draw").inClass "Rooflight" with
    params := [{ type := "(int" }] }, []⟩]

def rooflights : View where
  policy := { Policy.empty "Rooflights" "Ships" with foldedBases := [("Rooflight", ["Blind"])] }
  module := { name := "Rooflights", items := [.ofClass blind, .ofClass rooflight] }

def latching (className : String) : Method :=
  { (Method.named "Latch").inClass className with isVirtual := true }

def bolt : Class where
  info := { name := "Bolt" }
  members := [.method ⟨latching "Bolt", []⟩]

def latch : Class where
  info := { name := "Latch" }
  members := [.method ⟨{ (Method.named "Latch").inClass "Latch" with isCtor := true },
    [latching "Latch"]⟩]

def latches : View where
  policy := { Policy.empty "Latches" "Ships" with foldedBases := [("Latch", ["Bolt"])] }
  module := { name := "Latches", items := [.ofClass bolt, .ofClass latch] }

end Hatches

open Hatches in
/-- A registered method of a rooflight has the signature of a registered one of its blind, and so
has the method behind the constructor of a latch that of a registered one of its bolt. -/
theorem registered_signature_shared :
    ((∀ b ∈ [rooflight, blind], ∀ m ∈ b.overloads, m.className = some b.name) ∧
      rooflights.foldedBases rooflight = .ok [blind] ∧
      ((rooflights.interfaceOf rooflight).toOption.any fun interface ↦
        (rooflight.ordinaryMethods .publicAccess).any fun o ↦
          (interface.ordinaryMethods .publicAccess).contains o &&
            (interface.ordinaryMethods .publicAccess).any fun m ↦
              decide (m.signature = o.signature ∧ m.className = some "Blind")) = true) ∧
    (∀ b ∈ [latch, bolt], ∀ m ∈ b.overloads, m.className = some b.name) ∧
    latches.foldedBases latch = .ok [bolt] ∧
    latching "Latch" ∈ latch.ordinaryMethods .publicAccess ∧
    (latching "Latch").signature = (latching "Bolt").signature ∧
    ((latches.interfaceOf latch).toOption.any fun interface ↦ decide
      (interface.ordinaryMethods .publicAccess = [latching "Latch", latching "Bolt"])) = true :=
  ⟨⟨by decide +kernel, rfl, by decide +kernel⟩, by decide +kernel, rfl, by decide +kernel, rfl,
    by decide +kernel⟩

end Bindery
