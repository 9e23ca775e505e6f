import Bindery.Package.Session
import Mathlib.Order.Defs.Unbundled

/-!
Runs on a session. A run ends with an outcome and a session, also when it fails. The first part
takes a run apart at the sessions between its steps (`run_bind_of_ok`, `run_bind_eq_ok`). The second
part follows a run whatever its outcome is: a run moves along a relation when it leads from each
session only to related ones (`Moves`), and along a preorder it does so as soon as each of its steps
does. An invariant is the preorder of the implications that it makes. The third part bounds the
errors that a run can end with in the same way (`FailsBy`).
-/

set_option autoImplicit false
set_option relaxedAutoImplicit false

namespace Bindery

section Congruence

variable {m : Type → Type} [Monad m] {α β : Type} {l : List α}

theorem forM_congr_left {f g : α → m PUnit} (h : ∀ a ∈ l, f a = g a) : l.forM f = l.forM g := by
  induction l with
  | nil => rfl
  | cons a l ih =>
    obtain ⟨hfirst, hrest⟩ := List.forall_mem_cons.1 h
    rw [List.forM, List.forM, hfirst, ih hrest]

theorem mapM_congr_left [LawfulMonad m] {f g : α → m β} (h : ∀ a ∈ l, f a = g a) :
    l.mapM f = l.mapM g := by
  induction l with
  | nil => rfl
  | cons a l ih =>
    obtain ⟨hfirst, hrest⟩ := List.forall_mem_cons.1 h
    rw [List.mapM_cons, List.mapM_cons, hfirst, ih hrest]

theorem foldlM_congr_left {f g : β → α → m β} (h : ∀ a ∈ l, ∀ b, f b a = g b a) (b : β) :
    l.foldlM f b = l.foldlM g b := by
  induction l generalizing b with
  | nil => rfl
  | cons a l ih =>
    obtain ⟨hfirst, hrest⟩ := List.forall_mem_cons.1 h
    rw [List.foldlM_cons, List.foldlM_cons, hfirst b]
    congr 1
    exact funext fun c ↦ ih hrest c

end Congruence

/-- A property that a program of several steps has when each of its steps has it. -/
structure Composes {m : Type → Type} [Monad m] (P : ∀ α : Type, m α → Prop) : Prop where
  pure : ∀ {α : Type} (a : α), P α (Pure.pure a)
  bind : ∀ {α β : Type} {x : m α} {f : α → m β}, P α x → (∀ a, P β (f a)) → P β (x >>= f)

namespace Composes

variable {m : Type → Type} [Monad m] {P : ∀ α : Type, m α → Prop} (h : Composes P)
  {α β : Type} {l : List α}

include h

theorem forM {f : α → m PUnit} (hf : ∀ a ∈ l, P PUnit (f a)) : P PUnit (l.forM f) := by
  induction l with
  | nil => exact h.pure PUnit.unit
  | cons a l ih =>
    obtain ⟨hfirst, hrest⟩ := List.forall_mem_cons.1 hf
    rw [List.forM]
    exact h.bind hfirst fun _ ↦ ih hrest

theorem mapM [LawfulMonad m] {f : α → m β} (hf : ∀ a ∈ l, P β (f a)) :
    P (List β) (l.mapM f) := by
  induction l with
  | nil => exact h.pure []
  | cons a l ih =>
    obtain ⟨hfirst, hrest⟩ := List.forall_mem_cons.1 hf
    rw [List.mapM_cons]
    exact h.bind hfirst fun _ ↦ h.bind (ih hrest) fun _ ↦ h.pure _

theorem foldlM {f : β → α → m β} (hf : ∀ a ∈ l, ∀ b, P β (f b a)) (b : β) :
    P β (l.foldlM f b) := by
  induction l generalizing b with
  | nil => exact h.pure b
  | cons a l ih =>
    obtain ⟨hfirst, hrest⟩ := List.forall_mem_cons.1 hf
    rw [List.foldlM_cons]
    exact h.bind (hfirst b) fun c ↦ ih hrest c

end Composes

/-- The sessions agree on a part. -/
def Session.Agrees {α : Type} (part : Session → α) (s t : Session) : Prop := part t = part s

instance {α : Type} (part : Session → α) : IsPreorder Session (Session.Agrees part) where
  refl _ := rfl
  trans _ _ _ hst htu := htu.trans hst

/-- What holds of the first session holds of the second. -/
def Session.Keeps (P : Session → Prop) (s t : Session) : Prop := P s → P t

instance (P : Session → Prop) : IsPreorder Session (Session.Keeps P) where
  refl _ h := h
  trans _ _ _ hst htu h := htu (hst h)

namespace Run

variable {α β : Type} {s t : Session}

/-! ### Taking runs apart -/

@[simp] theorem run_pure (a : α) (s : Session) : (pure a : Run α).run s = (.ok a, s) := rfl

@[simp] theorem run_get (s : Session) : (get : Run Session).run s = (.ok s, s) := rfl

@[simp] theorem run_modify (f : Session → Session) (s : Session) :
    (modify f : Run Unit).run s = (.ok (), f s) := rfl

@[simp] theorem run_throw (e : Error) (s : Session) :
    (throw e : Run α).run s = (.error e, s) := rfl

@[simp] theorem run_ofExcept (outcome : Except Error α) (s : Session) :
    (ofExcept outcome : Run α).run s = (outcome, s) := by
  cases outcome <;> rfl

/-- A run that gives a value, with the session that it leads to. -/
theorem run_eq_of_toOption {x : Run α} {a : α} (h : (x.run s).1.toOption = some a) :
    x.run s = (.ok a, (x.run s).2) := by
  rcases hrun : x.run s with ⟨outcome, t⟩
  rw [hrun] at h
  cases outcome with
  | ok b => rw [Option.some.inj h]
  | error e => cases h

/-- A second step starts with the result and the session of the first. -/
theorem run_bind_of_ok {x : Run α} {a : α} (hx : x.run s = (.ok a, t)) (f : α → Run β) :
    (x >>= f).run s = (f a).run t := by
  change (match x.run s with
    | (r, t) => ExceptT.bindCont f r t) = _
  rw [hx]
  rfl

/-- A step that fails ends the run. -/
theorem run_bind_of_error {x : Run α} {e : Error} (hx : x.run s = (.error e, t))
    (f : α → Run β) : (x >>= f).run s = (.error e, t) := by
  change (match x.run s with
    | (r, t) => ExceptT.bindCont f r t) = _
  rw [hx]
  rfl

/-- A last step that cannot fail maps the outcome. -/
theorem run_bind_pure {x : Run α} {outcome : Except Error α} (hx : x.run s = (outcome, t))
    (f : α → β) : (x >>= fun a ↦ pure (f a)).run s = (outcome.map f, t) := by
  cases outcome with
  | ok a => exact run_bind_of_ok hx _
  | error e => exact run_bind_of_error hx _

/-- A run of two steps succeeds when both do. -/
theorem run_bind_eq_ok {x : Run α} {f : α → Run β} {b : β} :
    (x >>= f).run s = (.ok b, t) ↔ ∃ a u, x.run s = (.ok a, u) ∧ (f a).run u = (.ok b, t) := by
  constructor
  · intro h
    rcases hx : x.run s with ⟨outcome, u⟩
    cases outcome with
    | ok a =>
      rw [run_bind_of_ok hx] at h
      exact ⟨a, u, rfl, h⟩
    | error e =>
      rw [run_bind_of_error hx] at h
      cases h
  · rintro ⟨a, u, hx, hf⟩
    rw [run_bind_of_ok hx, hf]

@[simp] theorem run_get_bind (f : Session → Run β) (s : Session) :
    (get >>= f).run s = (f s).run s := run_bind_of_ok (run_get s) f

@[simp] theorem run_ofExcept_bind_ok (a : α) (f : α → Run β) (s : Session) :
    ((ofExcept (.ok a) : Run α) >>= f).run s = (f a).run s :=
  run_bind_of_ok (run_ofExcept _ s) f

theorem run_ofExcept_bind_eq_ok {outcome : Except Error α} {f : α → Run β} {b : β} :
    (ofExcept outcome >>= f).run s = (.ok b, t) ↔
      ∃ a, outcome = .ok a ∧ (f a).run s = (.ok b, t) := by
  cases outcome with
  | ok a => simp
  | error e =>
    rw [run_bind_of_error (run_ofExcept (.error e) s)]
    exact iff_of_false (fun h ↦ by cases h) fun ⟨_, h, _⟩ ↦ by cases h

theorem run_expectInterface (className : String) (s : Session) :
    (expectInterface className).run s = (s.registry.expect className, s) := by
  rw [expectInterface, run_get_bind, run_ofExcept]

theorem run_expectInterface_of_eq {className : String} {outcome : Except Error ClassInterface}
    (h : s.registry.expect className = outcome) :
    (expectInterface className).run s = (outcome, s) := by rw [run_expectInterface, h]

/-! ### Passing through lists -/

/-- Behind a part of a list that has been passed through, the pass goes on with the rest. -/
theorem run_forM_append {before : List α} {f : α → Run Unit}
    (h : (before.forM f).run s = (.ok (), t)) (after : List α) :
    ((before ++ after).forM f).run s = (after.forM f).run t := by
  induction before generalizing s with
  | nil =>
    cases h
    rfl
  | cons a before ih =>
    rw [List.forM] at h
    obtain ⟨_, u, hfirst, hrest⟩ := run_bind_eq_ok.1 h
    rw [List.cons_append, List.forM, run_bind_of_ok hfirst, ih hrest]

/-- A pass through a list that fails has failed at one element, and has succeeded at those in front
of it. -/
theorem exists_of_forM_eq_error {l : List α} {f : α → Run Unit} {e : Error}
    (h : (l.forM f).run s = (.error e, t)) :
    ∃ before a after u, l = before ++ a :: after ∧ (before.forM f).run s = (.ok (), u) ∧
      (f a).run u = (.error e, t) := by
  induction l generalizing s with
  | nil => cases h
  | cons a l ih =>
    rw [List.forM] at h
    rcases hfirst : (f a).run s with ⟨outcome, u⟩
    cases outcome with
    | error e' =>
      rw [run_bind_of_error hfirst] at h
      cases h
      exact ⟨[], a, l, s, rfl, rfl, hfirst⟩
    | ok _ =>
      rw [run_bind_of_ok hfirst] at h
      obtain ⟨before, b, after, v, rfl, hbefore, hb⟩ := ih h
      refine ⟨a :: before, b, after, v, rfl, ?_, hb⟩
      rw [List.forM, run_bind_of_ok hfirst, hbefore]

/-! ### Moving along a relation -/

/-- Whatever its outcome is, the run leads from each session to a related one. -/
def Moves (R : Session → Session → Prop) (x : Run α) : Prop := ∀ s, R s (x.run s).2

theorem Moves.of_eq {R : Session → Session → Prop} {x : Run α} (hx : x.Moves R)
    {outcome : Except Error α} (h : x.run s = (outcome, t)) : R s t := by
  have hmove := hx s
  rwa [h] at hmove

section Preorder

variable {R : Session → Session → Prop} [IsPreorder Session R]

theorem moves_pure (a : α) : (pure a : Run α).Moves R := fun s ↦ Std.Refl.refl s

theorem moves_get : (get : Run Session).Moves R := fun s ↦ Std.Refl.refl s

theorem moves_throw (e : Error) : (throw e : Run α).Moves R := fun s ↦ Std.Refl.refl s

theorem moves_ofExcept (outcome : Except Error α) : (ofExcept outcome : Run α).Moves R := by
  intro s
  rw [run_ofExcept]
  exact Std.Refl.refl s

theorem moves_expectInterface (className : String) : (expectInterface className).Moves R := by
  intro s
  rw [run_expectInterface]
  exact Std.Refl.refl s

omit [IsPreorder Session R] in
theorem moves_modify {f : Session → Session} (hf : ∀ s, R s (f s)) :
    (modify f : Run Unit).Moves R := hf

/-- A second step counts only where the first has succeeded. -/
theorem Moves.bind_of_ok {x : Run α} {f : α → Run β} (hx : x.Moves R)
    (hf : ∀ s a t, x.run s = (.ok a, t) → R t ((f a).run t).2) : (x >>= f).Moves R := by
  intro s
  rcases h : x.run s with ⟨outcome, t⟩
  have hfirst : R s t := hx.of_eq h
  cases outcome with
  | ok a =>
    rw [run_bind_of_ok h]
    exact IsTrans.trans _ _ _ hfirst (hf s a t h)
  | error e =>
    rw [run_bind_of_error h]
    exact hfirst

theorem Moves.bind {x : Run α} {f : α → Run β} (hx : x.Moves R) (hf : ∀ a, (f a).Moves R) :
    (x >>= f).Moves R := hx.bind_of_ok fun _ a t _ ↦ hf a t

/-- A run goes on only with the value that an outcome has. -/
theorem moves_ofExcept_bind {outcome : Except Error α} {f : α → Run β}
    (hf : ∀ a, outcome = .ok a → (f a).Moves R) : (ofExcept outcome >>= f : Run β).Moves R := by
  intro s
  cases outcome with
  | ok a =>
    rw [run_ofExcept_bind_ok]
    exact hf a rfl s
  | error e =>
    rw [run_bind_of_error (run_ofExcept _ s)]
    exact Std.Refl.refl s

/-! ### Moving through lists -/

theorem composes_moves (R : Session → Session → Prop) [IsPreorder Session R] :
    Composes fun α (x : Run α) ↦ x.Moves R := ⟨moves_pure, Moves.bind⟩

theorem moves_forM {l : List α} {f : α → Run Unit} (hf : ∀ a ∈ l, (f a).Moves R) :
    (l.forM f).Moves R := (composes_moves R).forM hf

theorem moves_mapM {l : List α} {f : α → Run β} (hf : ∀ a ∈ l, (f a).Moves R) :
    (l.mapM f).Moves R := (composes_moves R).mapM hf

theorem moves_foldlM {l : List α} {f : β → α → Run β} (hf : ∀ a ∈ l, ∀ b, (f b a).Moves R)
    (b : β) : (l.foldlM f b).Moves R := (composes_moves R).foldlM hf b

/-- A pass through a list that succeeds has succeeded at each element, between two of the sessions
that it went through. -/
theorem exists_of_forM_eq_ok {l : List α} {f : α → Run Unit} (hf : ∀ a ∈ l, (f a).Moves R)
    (h : (l.forM f).run s = (.ok (), t)) {a : α} (ha : a ∈ l) :
    ∃ u v, R s u ∧ (f a).run u = (.ok (), v) ∧ R v t := by
  induction l generalizing s with
  | nil => exact (List.not_mem_nil ha).elim
  | cons b l ih =>
    rw [List.forM] at h
    obtain ⟨_, w, hfirst, hrest⟩ := run_bind_eq_ok.1 h
    have htail : ∀ c ∈ l, (f c).Moves R := fun c hc ↦ hf c (List.mem_cons_of_mem _ hc)
    rcases List.mem_cons.1 ha with rfl | hmem
    · exact ⟨s, w, Std.Refl.refl s, hfirst, (moves_forM htail).of_eq hrest⟩
    · obtain ⟨u, v, hu, hrun, hv⟩ := ih htail hrest hmem
      have hmove : R s w := (hf b List.mem_cons_self).of_eq hfirst
      exact ⟨u, v, IsTrans.trans _ _ _ hmove hu, hrun, hv⟩

end Preorder

/-! ### Errors -/

/-- Whatever session the run starts in, an error that it ends with is one of these. -/
def FailsBy (P : Error → Prop) (x : Run α) : Prop := ∀ s e t, x.run s = (.error e, t) → P e

section Errors

variable {P : Error → Prop}

theorem failsBy_pure (a : α) : (pure a : Run α).FailsBy P := fun _ _ _ h ↦ by cases h

theorem failsBy_modify (f : Session → Session) : (modify f : Run Unit).FailsBy P :=
  fun _ _ _ h ↦ by cases h

theorem failsBy_get : (get : Run Session).FailsBy P := fun _ _ _ h ↦ by cases h

theorem failsBy_throw {e : Error} (he : P e) : (throw e : Run α).FailsBy P := fun _ _ _ h ↦ by
  cases h
  exact he

theorem failsBy_ofExcept {outcome : Except Error α} (h : ∀ e, outcome = .error e → P e) :
    (ofExcept outcome : Run α).FailsBy P := by
  intro s e t hrun
  rw [run_ofExcept] at hrun
  exact h e (Prod.mk.inj hrun).1

theorem FailsBy.bind {x : Run α} {f : α → Run β} (hx : x.FailsBy P) (hf : ∀ a, (f a).FailsBy P) :
    (x >>= f).FailsBy P := by
  intro s e t h
  rcases hrun : x.run s with ⟨outcome, u⟩
  cases outcome with
  | ok a =>
    rw [run_bind_of_ok hrun] at h
    exact hf a u e t h
  | error e' =>
    rw [run_bind_of_error hrun] at h
    cases h
    exact hx s e t hrun

theorem composes_failsBy (P : Error → Prop) : Composes fun α (x : Run α) ↦ x.FailsBy P :=
  ⟨failsBy_pure, FailsBy.bind⟩

theorem failsBy_forM {l : List α} {f : α → Run Unit} (hf : ∀ a ∈ l, (f a).FailsBy P) :
    (l.forM f).FailsBy P := (composes_failsBy P).forM hf

theorem failsBy_mapM {l : List α} {f : α → Run β} (hf : ∀ a ∈ l, (f a).FailsBy P) :
    (l.mapM f).FailsBy P := (composes_failsBy P).mapM hf

theorem failsBy_foldlM {l : List α} {f : β → α → Run β} (hf : ∀ a ∈ l, ∀ b, (f b a).FailsBy P)
    (b : β) : (l.foldlM f b).FailsBy P := (composes_failsBy P).foldlM hf b

end Errors

end Run

end Bindery
