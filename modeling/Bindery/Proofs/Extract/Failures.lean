import Bindery.Extract.Extraction
import Bindery.Interface.Members
import Bindery.Proofs.Run

/-!
What extractions and interfaces fail with. Only the check of a module ends with a verdict, an error
that lists what it has found. Nothing that a check relies on does: not reading declarations
(`Source.noVerdict_load`), not turning them into items (`ItemEntry.noVerdict_toItem`), not applying
a policy (`Policy.noVerdict_extract`), and not building an interface (`View.noVerdict_interfaceOf`).
So whoever meets a verdict knows where it comes from.
-/

set_option autoImplicit false
set_option relaxedAutoImplicit false

namespace Bindery

/-- Whether the error lists the findings of a check. -/
def Error.isVerdict : Error → Bool
  | .inconsistent .. => true
  | _ => false

/-- An error that this ends with is not a verdict. -/
def NoVerdict {α : Type} (x : Except Error α) : Prop := ∀ e, x = .error e → e.isVerdict = false

section Outcomes

variable {α β : Type}

theorem noVerdict_ok (a : α) : NoVerdict (.ok a : Except Error α) := fun _ h ↦ by cases h

theorem noVerdict_error {e : Error} (he : e.isVerdict = false) :
    NoVerdict (.error e : Except Error α) := fun _ h ↦ by
  cases h
  exact he

theorem NoVerdict.bind {x : Except Error α} {f : α → Except Error β} (hx : NoVerdict x)
    (hf : ∀ a, NoVerdict (f a)) : NoVerdict (x >>= f) := by
  intro e h
  cases x with
  | ok a => exact hf a e h
  | error e' =>
    cases h
    exact hx e rfl

theorem composes_noVerdict : Composes fun α (x : Except Error α) ↦ NoVerdict x :=
  ⟨noVerdict_ok, NoVerdict.bind⟩

theorem noVerdict_mapM {l : List α} {f : α → Except Error β} (hf : ∀ a ∈ l, NoVerdict (f a)) :
    NoVerdict (l.mapM f) := composes_noVerdict.mapM hf

theorem noVerdict_foldlM {l : List α} {f : β → α → Except Error β}
    (hf : ∀ b, ∀ a ∈ l, NoVerdict (f b a)) (b : β) : NoVerdict (l.foldlM f b) :=
  composes_noVerdict.foldlM (fun a ha b ↦ hf b a ha) b

end Outcomes

/-! ### Reading declarations -/

theorem noVerdict_checkName (item className name : String) :
    NoVerdict (MemberEntry.validate.checkName item className name) := by
  unfold MemberEntry.validate.checkName
  split
  · exact noVerdict_error rfl
  · exact noVerdict_ok ()

mutual

theorem MemberEntry.noVerdict_validateAll (item className : String) :
    (entries : List MemberEntry) → NoVerdict (MemberEntry.validateAll item className entries)
  | [] => noVerdict_ok ()
  | entry :: entries => (MemberEntry.noVerdict_validate item className entry).bind fun _ ↦
      MemberEntry.noVerdict_validateAll item className entries

theorem MemberEntry.noVerdict_validate (item className : String) :
    (entry : MemberEntry) → NoVerdict (entry.validate item className)
  | .method m => noVerdict_checkName item className m.common.name
  | .variable v => noVerdict_checkName item className v.common.name
  | .enum _ => noVerdict_ok ()
  | .inner ⟨common, _, _, _, _, _, members⟩ =>
    (MemberEntry.noVerdict_validateAll item common.name members).bind fun _ ↦
      noVerdict_checkName item className common.name

end

theorem ItemEntry.noVerdict_validate (item : String) (seen : List (String × String))
    (entry : ItemEntry) : NoVerdict (entry.validate item seen) := by
  have hunless {b : Bool} {e : Error} (he : e.isVerdict = false) :
      NoVerdict (if b then throw e else pure () : Except Error Unit) := by
    cases b
    · exact noVerdict_ok ()
    · exact noVerdict_error he
  have hname : NoVerdict (do
      if Text.isBlankText entry.name && entry.kind != "enum" then
        throw (.extract item (.unnamed entry.kind))
      if entry.ownsName && seen.contains (entry.kind, entry.name) then
        throw (.extract item (.duplicate entry.kind entry.name)) : Except Error Unit) := by
    dsimp only
    split
    · exact noVerdict_error rfl
    · exact hunless rfl
  cases entry with
  | ofClass c => exact (MemberEntry.noVerdict_validateAll item _ c.members).bind fun _ ↦ hname
  | _ => exact hname

theorem ItemEntry.noVerdict_validateAll (item : String) (seen : List (String × String))
    (entries : List ItemEntry) : NoVerdict (ItemEntry.validateAll item seen entries) := by
  induction entries generalizing seen with
  | nil => exact noVerdict_ok ()
  | cons entry entries ih =>
    exact (ItemEntry.noVerdict_validate item seen entry).bind fun _ ↦ ih _

theorem Source.noVerdict_load (fs : Files) (item : String) :
    (source : Source) → NoVerdict (source.load fs item)
  | .memory files => by
    unfold Source.load
    split
    · exact noVerdict_ok _
    · exact noVerdict_error rfl
  | .directory dir => by
    unfold Source.load Source.loadFile
    split
    · exact noVerdict_error rfl
    · split
      · exact noVerdict_ok _
      · exact noVerdict_error rfl
  | .validating inner => (Source.noVerdict_load fs item inner).bind fun file ↦
      (ItemEntry.noVerdict_validateAll item [] file.items).bind fun _ ↦ noVerdict_ok file

/-! ### Turning entries into declarations -/

theorem CommonEntry.noVerdict_toInfo (entry : CommonEntry) (scope : Option String) :
    NoVerdict (entry.toInfo scope) := by
  unfold CommonEntry.toInfo
  split
  · refine NoVerdict.bind ?_ fun _ ↦ noVerdict_ok _
    unfold Protection.parse
    split
    · exact noVerdict_ok _
    · exact noVerdict_error rfl
  · exact noVerdict_ok _

theorem MethodEntry.noVerdict_toMethod (entry : MethodEntry) (scope : Option String) :
    NoVerdict (entry.toMethod scope) :=
  (entry.common.noVerdict_toInfo scope).bind fun _ ↦ noVerdict_ok _

theorem EnumEntry.noVerdict_toEnum (entry : EnumEntry) (scope : Option String) :
    NoVerdict (entry.toEnum scope) :=
  (entry.common.noVerdict_toInfo scope).bind fun _ ↦
    (noVerdict_mapM fun value _ ↦ (value.common.noVerdict_toInfo scope).bind fun _ ↦
      noVerdict_ok _).bind fun _ ↦ noVerdict_ok _

mutual

theorem ClassEntry.noVerdict_toClass (scope : Option String) :
    (entry : ClassEntry) → NoVerdict (entry.toClass scope)
  | ⟨common, _, _, _, _, _, members⟩ => (common.noVerdict_toInfo scope).bind fun info ↦
      (MemberEntry.noVerdict_toMembers info.name members).bind fun _ ↦ noVerdict_ok _

theorem MemberEntry.noVerdict_toMembers (className : String) :
    (entries : List MemberEntry) → NoVerdict (MemberEntry.toMembers className entries)
  | [] => noVerdict_ok []
  | entry :: entries => (MemberEntry.noVerdict_toMember className entry).bind fun _ ↦
      (MemberEntry.noVerdict_toMembers className entries).bind fun _ ↦ noVerdict_ok _

theorem MemberEntry.noVerdict_toMember (className : String) :
    (entry : MemberEntry) → NoVerdict (entry.toMember className)
  | .method m => (m.noVerdict_toMethod _).bind fun _ ↦ noVerdict_ok _
  | .variable v =>
    ((v.common.noVerdict_toInfo _).bind fun _ ↦ noVerdict_ok _).bind fun _ ↦ noVerdict_ok _
  | .enum e => (e.noVerdict_toEnum _).bind fun _ ↦ noVerdict_ok _
  | .inner c => (ClassEntry.noVerdict_toClass _ c).bind fun _ ↦ noVerdict_ok _

end

theorem ItemEntry.noVerdict_toItem (entry : ItemEntry) : NoVerdict entry.toItem := by
  cases entry with
  | ofClass c => exact (c.noVerdict_toClass none).bind fun _ ↦ noVerdict_ok _
  | function m => exact (m.noVerdict_toMethod none).bind fun _ ↦ noVerdict_ok _
  | enum e => exact (e.noVerdict_toEnum none).bind fun _ ↦ noVerdict_ok _
  | «variable» v =>
    exact ((v.common.noVerdict_toInfo none).bind fun _ ↦ noVerdict_ok _).bind fun _ ↦
      noVerdict_ok _
  | typedef t => exact (t.common.noVerdict_toInfo none).bind fun _ ↦ noVerdict_ok _
  | define d => exact (d.common.noVerdict_toInfo none).bind fun _ ↦ noVerdict_ok _

/-! ### Applying a policy -/

/-- An extraction fails with a verdict only if reading its declarations does. -/
theorem Policy.noVerdict_extract (policy : Policy) (config : Config)
    {load : String → Except Error DeclFile} (hload : ∀ item, NoVerdict (load item)) :
    NoVerdict (policy.extract config load) := by
  have hmodule : NoVerdict (Module.extract load policy.moduleName policy.items) :=
    noVerdict_foldlM (fun m item _ ↦ (hload item).bind fun file ↦
      (noVerdict_mapM fun entry _ ↦ entry.noVerdict_toItem).bind fun _ ↦ noVerdict_ok _) _
  have hchains (m : Module) : NoVerdict (policy.overrideChains m) := by
    refine noVerdict_foldlM (fun m step _ ↦ ?_) m
    obtain ⟨className, chain⟩ := step
    dsimp only
    split
    · exact noVerdict_ok _
    · exact noVerdict_error rfl
  have hrestrict (m : Module) : NoVerdict (policy.applyRestrictions m) := by
    refine noVerdict_foldlM (fun m step _ ↦ noVerdict_foldlM (fun m name _ ↦ ?_) m) m
    unfold Policy.restrict
    split
    · exact noVerdict_ok _
    · exact noVerdict_error rfl
  have hmappings (m : Module) : NoVerdict (policy.applyMappings m) := by
    refine noVerdict_foldlM (fun m step _ ↦ ?_) m
    obtain ⟨className, mappings⟩ := step
    dsimp only
    split
    · exact noVerdict_ok _
    · exact noVerdict_error rfl
  exact hmodule.bind fun m ↦ (hchains m).bind fun m ↦ (hrestrict _).bind fun m ↦
    (hmappings _).bind fun m ↦ noVerdict_ok _

/-! ### Building interfaces -/

theorem Prototype.noVerdict_parse (className text : String) :
    NoVerdict (Prototype.parse className text) := by
  unfold Prototype.parse
  dsimp only
  split
  · exact noVerdict_ok _
  · exact noVerdict_error rfl

theorem ClassTarget.noVerdict_addSection (target : ClassTarget) (visibility : Protection)
    (builder : ClassBuilder) (classes : List Class) (decls : List String) :
    NoVerdict (target.addSection visibility builder classes decls) := by
  refine NoVerdict.bind (noVerdict_foldlM (fun i decl _ ↦ ?_) _) fun _ ↦ noVerdict_ok _
  simp only [ClassTarget.addCustom]
  split
  · exact (Prototype.noVerdict_parse _ _).bind fun _ ↦ noVerdict_ok _
  · exact noVerdict_ok _

theorem View.noVerdict_interfaceOf (view : View) (c : Class) : NoVerdict (view.interfaceOf c) := by
  have hfolded : NoVerdict (view.foldedBases c) := by
    refine noVerdict_mapM fun name _ ↦ ?_
    split
    · exact noVerdict_ok _
    · exact noVerdict_error rfl
  refine hfolded.bind fun folded ↦ NoVerdict.bind ?_ fun builder ↦ ?_
  · exact ClassTarget.noVerdict_addSection _ _ _ _ _
  · split
    · exact (ClassTarget.noVerdict_addSection _ _ _ _ _).bind fun _ ↦ noVerdict_ok _
    · exact noVerdict_ok _

end Bindery
