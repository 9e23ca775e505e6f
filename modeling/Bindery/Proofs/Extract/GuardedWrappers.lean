import Bindery.Proofs.Decl.Chains
import Bindery.Proofs.Emit.Wrappers

/-!
The guards of forwarding wrappers. In the code that a class is extended with, the wrappers of its
overloads stand in the order of declaration, each between the lines of the guard of its overload,
and those of overloads that exist everywhere between none. The wrappers of free functions stand one
behind the other, and no guard is written: so the wrapper of a function is placed as its guard says
just when the function exists everywhere (`Deprecations.surrounds_except_functions`).
-/

set_option autoImplicit false
set_option relaxedAutoImplicit false

namespace Bindery

namespace Guard

/-- The line before what a guard encloses. -/
def opening (guard : Option Guard) : List String := (guard.map openLine).toList

/-- The line behind what a guard encloses. -/
def closing (guard : Option Guard) : List String := (guard.map fun _ ↦ closeLine).toList

theorem enclose_eq (guard : Option Guard) (lines : List String) :
    enclose guard lines = opening guard ++ lines ++ closing guard := by
  cases guard with
  | none => exact (List.append_nil _).symm
  | some guard => rfl

/-- Between two lists of texts is a place directly between the lines of a guard, and between those
of no other; without a guard it is a place between the lines of none. -/
def Surrounds (guard : Option Guard) (front back : List String) : Prop :=
  ∀ g : Guard, front.getLast? = some g.openLine ∧ back.head? = some closeLine ↔
    guard.map openLine = some g.openLine

theorem surrounds_some (guard : Guard) (front back : List String) :
    Surrounds (some guard) (front ++ [guard.openLine]) (closeLine :: back) := by
  intro g
  rw [List.getLast?_concat, List.head?_cons, and_iff_left rfl, Option.map_some]

theorem surrounds_none {back : List String} (front : List String)
    (hback : back.head? ≠ some closeLine) : Surrounds none front back :=
  fun _ ↦ iff_of_false (fun h ↦ hback h.2) (Option.some_ne_none _).symm

theorem openLine_ne_closeLine (guard : Guard) : guard.openLine ≠ closeLine := by
  intro h
  have hlines := congrArg String.toList h
  cases guard <;> simp [openLine, closeLine] at hlines

end Guard

namespace Deprecations

open Guard

/-! ### The declarations that have a wrapper -/

/-- The overloads that have a wrapper in the section of a class, in the order of declaration. -/
def wrappedMethods (policy : Policy) (m : Module) (className : String) : List Method :=
  (wrappedClasses policy m className).flatMap fun c ↦ c.overloads.filter isWrapped

/-- The overloads of free functions that have a wrapper, in the order of declaration. -/
def wrappedFunctions (m : Module) : List Method :=
  (m.functions.filter (!·.info.ignored)).flatMap fun chain ↦ chain.all.filter isWrapped

/-- Texts written for some methods, each in the guard of its method. -/
def guarded (write : Method → String) (methods : List Method) : List String :=
  methods.flatMap fun m ↦ Guard.enclose m.info.onlyFor [write m]

variable {policy : Policy} {shims : Deprecations} {write : Method → String}

theorem guarded_flatMap {α : Type} (list : List α) (methods : α → List Method) :
    guarded write (list.flatMap methods) = list.flatMap fun a ↦ guarded write (methods a) :=
  List.flatMap_assoc

/-- A text stands behind all that is written for earlier methods, and before all that is written for
later ones. -/
theorem guarded_append_cons (before after : List Method) (d : Method) :
    guarded write (before ++ d :: after) =
      guarded write before ++ opening d.info.onlyFor ++
        write d :: (closing d.info.onlyFor ++ guarded write after) := by
  rw [guarded, List.flatMap_append, List.flatMap_cons, enclose_eq]
  simp only [guarded, List.append_assoc, List.cons_append, List.nil_append]

/-! ### Texts that are no line of a guard -/

/-- The line that closes a guard does not end with a line break. -/
theorem ne_closeLine_of_getLast? {text : String} (h : text.toList.getLast? = some '\n') :
    text ≠ closeLine := by
  rintro rfl
  exact absurd h (by decide)

theorem getLast?_toList_wrapper (head shown call : String) :
    (wrapper head shown call).toList.getLast? = some '\n' := by
  rw [wrapper, String.toList_append, List.getLast?_append]
  rfl

theorem methodWrapper_ne_closeLine (className : String) (d : Method) :
    methodWrapper className d ≠ closeLine := by
  refine ne_closeLine_of_getLast? ?_
  rw [methodWrapper, getLast?_toList_wrapper]

theorem getLast?_toList_functionWrapper (d : Method) :
    (functionWrapper d).toList.getLast? = some '\n' := by
  unfold functionWrapper
  rw [String.toList_append, List.getLast?_append, getLast?_toList_wrapper, Option.some_or]

theorem functionWrapper_ne_closeLine (d : Method) : functionWrapper d ≠ closeLine :=
  ne_closeLine_of_getLast? (getLast?_toList_functionWrapper d)

/-- What is written for some methods does not begin with the end of a guard. -/
theorem head?_guarded_ne_closeLine (hwrite : ∀ d, write d ≠ closeLine) (methods : List Method) :
    (guarded write methods).head? ≠ some closeLine := by
  cases methods with
  | nil => exact (Option.some_ne_none _).symm
  | cons d methods =>
    rw [guarded, List.flatMap_cons]
    cases d.info.onlyFor with
    | none => simpa [Guard.enclose] using hwrite d
    | some guard => simpa [Guard.enclose] using guard.openLine_ne_closeLine

/-- Each text that is written in the guard of its method is placed as the guard says. -/
theorem surrounds_guarded (hwrite : ∀ d, write d ≠ closeLine) (before after : List Method)
    (d : Method) : Surrounds d.info.onlyFor (guarded write before ++ opening d.info.onlyFor)
      (closing d.info.onlyFor ++ guarded write after) := by
  cases d.info.onlyFor with
  | none => exact surrounds_none _ (head?_guarded_ne_closeLine hwrite after)
  | some guard => exact surrounds_some guard _ _

/-- Of texts that stand one behind the other, one is placed as a guard says just when there is no
guard. -/
theorem surrounds_map_iff (hwrite : ∀ d, write d ≠ closeLine) (guard : Option Guard)
    (before after : List Method) :
    Surrounds guard (before.map write) (after.map write) ↔ guard = none := by
  have hback : (after.map write).head? ≠ some closeLine := by
    cases after with
    | nil => exact (Option.some_ne_none _).symm
    | cons d after => simpa using hwrite d
  refine ⟨fun h ↦ ?_, fun h ↦ h ▸ surrounds_none _ hback⟩
  cases guard with
  | none => rfl
  | some guard => exact (hback ((h guard).2 rfl).2).elim

/-! ### Collecting -/

theorem swigCode_foldl_addMethod (name : String) (methods : List Method) :
    (methods.foldl (addMethod name) shims).swigCode = shims.swigCode := by
  induction methods generalizing shims with
  | nil => rfl
  | cons d methods ih => exact ih

theorem nodup_keys_foldl_addMethod (name : String) (methods : List Method)
    (hkeys : shims.extendCode.keys.Nodup) :
    (methods.foldl (addMethod name) shims).extendCode.keys.Nodup := by
  induction methods generalizing shims with
  | nil => exact hkeys
  | cons d methods ih => exact ih (Table.nodup_keys_alter hkeys _ _ _)

/-- Only a function that is not left out adds wrappers of functions. -/
theorem swigCode_addItem (item : Item) :
    (addItem policy shims item).swigCode = shims.swigCode ++
      ((item.function?.toList.filter (!·.info.ignored)).flatMap fun chain ↦
        chain.all.filter isWrapped).map functionWrapper := by
  unfold addItem
  cases item with
  | function chain =>
    cases hignored : chain.info.ignored <;> simp [Item.function?, Item.info, hignored]
  | ofClass c => split <;> simp [Item.function?, swigCode_foldl_addMethod]
  | _ => split <;> simp [Item.function?]

theorem nodup_keys_addItem (item : Item) (hkeys : shims.extendCode.keys.Nodup) :
    (addItem policy shims item).extendCode.keys.Nodup := by
  unfold addItem
  split
  · exact hkeys
  · cases item with
    | ofClass c => exact nodup_keys_foldl_addMethod _ _ hkeys
    | _ => exact hkeys

theorem swigCode_foldl_addItem (items : List Item) :
    (items.foldl (addItem policy) shims).swigCode = shims.swigCode ++
      (((items.filterMap Item.function?).filter (!·.info.ignored)).flatMap fun chain ↦
        chain.all.filter isWrapped).map functionWrapper := by
  induction items generalizing shims with
  | nil => simp
  | cons item items ih =>
    have hfunctions : (item :: items).filterMap Item.function? =
        item.function?.toList ++ items.filterMap Item.function? := by
      rw [List.filterMap_cons]
      cases item.function? <;> rfl
    rw [List.foldl_cons, ih, swigCode_addItem, hfunctions, List.filter_append,
      List.flatMap_append, List.map_append, List.append_assoc]

/-- The wrappers of the functions of a module stand one behind the other. -/
theorem swigCode_collect (policy : Policy) (m : Module) :
    (collect policy m).swigCode = (wrappedFunctions m).map functionWrapper := by
  rw [collect, swigCode_foldl_addItem]
  rfl

/-- The wrappers of a class are collected at one place. -/
theorem nodup_keys_collect (policy : Policy) (m : Module) :
    (collect policy m).extendCode.keys.Nodup := by
  have hfold : ∀ (items : List Item) (shims : Deprecations), shims.extendCode.keys.Nodup →
      (items.foldl (addItem policy) shims).extendCode.keys.Nodup := by
    intro items
    induction items with
    | nil => exact fun _ h ↦ h
    | cons item items ih => exact fun _ h ↦ ih _ (nodup_keys_addItem item h)
  exact hfold m.items {} List.nodup_nil

theorem ofClass_collect_eq_guarded (policy : Policy) (m : Module) (className : String) :
    (collect policy m).ofClass className =
      guarded (methodWrapper className) (wrappedMethods policy m className) := by
  rw [ofClass_collect, wrappedMethods, guarded_flatMap]
  rfl

/-- For the wrappers of a module, and for the code that they are joined to behind that of the
policy: each class has one place, where the wrappers of its overloads stand in the order of
declaration, each placed as the guard of its overload says. The wrappers of functions stand in the
order of declaration too, and one of them is placed as its guard says just when there is none. -/
theorem surrounds_except_functions (policy : Policy) (m : Module) (includes : List String) :
    let shims := collect policy m
    let extraction : Extraction := { module := m, includes, deprecations := shims }
    shims.extendCode.keys.Nodup ∧
    (∀ name code, (name, code) ∈ shims.extendCode → code = shims.ofClass name) ∧
    (∀ name, extraction.extendCode policy name =
      "\n".intercalate (policy.extendCodeOf name ++ shims.ofClass name)) ∧
    (∀ name before d after, wrappedMethods policy m name = before ++ d :: after →
      ∃ front back, shims.ofClass name = front ++ methodWrapper name d :: back ∧
        front = guarded (methodWrapper name) before ++ opening d.info.onlyFor ∧
        back = closing d.info.onlyFor ++ guarded (methodWrapper name) after ∧
        Surrounds d.info.onlyFor front back) ∧
    extraction.swigCode policy = "\n".intercalate (policy.codeIn .swig ++ shims.swigCode) ∧
    ∀ before f after, wrappedFunctions m = before ++ f :: after →
      ∃ front back, shims.swigCode = front ++ functionWrapper f :: back ∧
        front = before.map functionWrapper ∧ back = after.map functionWrapper ∧
        (Surrounds f.info.onlyFor front back ↔ f.info.onlyFor = none) := by
  intro shims extraction
  have hkeys := nodup_keys_collect policy m
  refine ⟨hkeys, fun name code hmem ↦ ?_, fun name ↦ rfl, fun name before d after hsplit ↦ ?_, rfl,
    fun before f after hsplit ↦ ?_⟩
  · have hfound := (Table.find?_eq_some_iff hkeys name code).2 hmem
    rw [ofClass, hfound, Option.getD_some]
  · refine ⟨_, _, ?_, rfl, rfl, surrounds_guarded (methodWrapper_ne_closeLine name) before after d⟩
    rw [ofClass_collect_eq_guarded, hsplit, guarded_append_cons]
  · refine ⟨_, _, ?_, rfl, rfl, surrounds_map_iff functionWrapper_ne_closeLine _ before after⟩
    rw [swigCode_collect, hsplit, List.map_append, List.map_cons]

namespace Beeps

def deprecatedOn (name : String) (onlyFor : Option Guard) : Method :=
  { Method.named name with info := { name, deprecated := true, onlyFor } }

/-- Opening a player, which one platform alone has. -/
def opens : Method := deprecatedOn "Open" (some (.single "msw"))

/-- Closing a player, as every platform has it. -/
def closes : Method := deprecatedOn "Close" none

/-- A beep of one platform alone. -/
def beep : Method := deprecatedOn "OldBeep" (some (.single "msw"))

/-- A player, and a function that beeps. -/
def tools : Module :=
  { name := "Tools"
    items := [
      .ofClass {
        info := { name := "Player" }
        members := [.method ⟨opens, []⟩, .method ⟨closes, []⟩] },
      .function ⟨beep, []⟩] }

end Beeps

open Beeps in
/-- Opening a player is wrapped between the lines of its guard, and closing it between none. -/
theorem player_wrappers_surrounded :
    wrappedMethods (Policy.empty "Tools" "wx") tools "Player" = [] ++ opens :: [closes] ∧
    wrappedFunctions tools = [] ++ beep :: [] ∧
    (collect (Policy.empty "Tools" "wx") tools).ofClass "Player" =
      ["#ifdef __MSW__", methodWrapper "Player" opens, "#endif", methodWrapper "Player" closes] ∧
    Surrounds (some (.single "msw")) ["#ifdef __MSW__"]
      ["#endif", methodWrapper "Player" closes] ∧
    (collect (Policy.empty "Tools" "wx") tools).swigCode = [functionWrapper beep] ∧
    ¬ Surrounds beep.info.onlyFor [] [] := by
  have hmethods : wrappedMethods (Policy.empty "Tools" "wx") tools "Player" =
      [] ++ opens :: [closes] := by decide
  have hfunctions : wrappedFunctions tools = [] ++ beep :: [] := by decide
  obtain ⟨-, -, -, hplaced, -, hfree⟩ :=
    surrounds_except_functions (Policy.empty "Tools" "wx") tools []
  obtain ⟨front, back, hcode, rfl, rfl, hsurrounds⟩ := hplaced _ _ _ _ hmethods
  obtain ⟨before, after, hshims, rfl, rfl, hiff⟩ := hfree _ _ _ hfunctions
  exact ⟨hmethods, hfunctions, hcode, hsurrounds, hshims, fun h ↦ Option.some_ne_none _ (hiff.1 h)⟩

open Beeps in
/-- The wrapper of a beep that one platform alone has stands alone, without the lines of a guard. -/
theorem beep_wrapper_unguarded : beep ∈ wrappedFunctions tools ∧
    beep.info.onlyFor = some (.single "msw") ∧
    (collect (Policy.empty "Tools" "wx") tools).swigCode = [functionWrapper beep] ∧
    (Guard.single "msw").openLine ∉ (collect (Policy.empty "Tools" "wx") tools).swigCode := by
  have hcode : (collect (Policy.empty "Tools" "wx") tools).swigCode = [functionWrapper beep] := rfl
  refine ⟨by decide, rfl, hcode, ?_⟩
  rw [hcode, List.mem_singleton]
  decide

end Deprecations

end Bindery
