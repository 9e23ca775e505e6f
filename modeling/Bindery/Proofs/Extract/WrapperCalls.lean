import Bindery.Proofs.Decl.Parameters
import Bindery.Proofs.Decl.Prototypes
import Bindery.Proofs.Emit.Wrappers
import Bindery.Proofs.Files.Parents
import Bindery.Proofs.Source.Conversion
import Mathlib.Data.List.DropRight

/-!
What a forwarding wrapper passes on. A wrapper declares the parameters of its overload and ends with
a call, whose arguments stand behind the last opening parenthesis of the wrapper and are read back
at the commas (`Deprecations.passedArgs`). A call passes each parameter on under the name that the
wrapper declares it by, one argument for each, just when every parameter has a name that is one
argument: a parameter without a name is declared by its type alone, and nothing stands for it in the
call (`Deprecations.forwards_iff_named`).
-/

set_option autoImplicit false
set_option relaxedAutoImplicit false

namespace Bindery

/-! ### Names in declarations -/

/-- A parameter is declared by a name: its type and the name stand in front of its array brackets
and its default value. -/
def Param.IsDeclaredAs (p : Param) (arg : List Char) : Prop :=
  p.declaration.toList = p.type.toList ++ ' ' :: (arg ++ p.closing)

theorem Param.isDeclaredAs_iff {p : Param} {arg : List Char} :
    p.IsDeclaredAs arg ↔ p.name ≠ "" ∧ arg = p.name.toList := by
  rw [IsDeclaredAs, toList_declaration, List.append_cancel_left_eq]
  by_cases hname : p.name = ""
  · have hlength : p.closing ≠ ' ' :: (arg ++ p.closing) := by
      intro h
      have := congrArg List.length h
      simp only [List.length_cons, List.length_append] at this
      omega
    simp [hname, hlength]
  · rw [if_neg (by simpa using hname), List.cons_append, List.cons_inj_right,
      List.append_cancel_right_eq]
    simp [hname, eq_comm]

namespace Deprecations

/-! ### Reading a call -/

/-- What ends a wrapper, behind the arguments of its call. -/
def callEnd : String := ");\n\x7d\n"

/-- The text of the arguments of the call that a wrapper ends with. -/
def argsText (text : String) : List Char :=
  (text.toList.rdrop callEnd.length).rtakeWhile (· != '(')

/-- The arguments of the call that a wrapper ends with. Between parentheses without any text there
is no argument. -/
def passedArgs (text : String) : List (List Char) :=
  if argsText text = [] then [] else (argsText text).splitOn ','

/-- The call of a wrapper passes one argument for each parameter, in their order: it is not blank,
and the parameter is declared by it. -/
def Forwards (text : String) (m : Method) : Prop :=
  List.Forall₂ (fun p arg ↦ (∃ c ∈ arg, Text.isBlank c = false) ∧ p.IsDeclaredAs arg)
    m.params (passedArgs text)

/-- A name that is one argument of a call. -/
def IsArgument (name : String) : Prop :=
  (∃ c ∈ name.toList, Text.isBlank c = false) ∧ ',' ∉ name.toList ∧ '(' ∉ name.toList

theorem argsText_eq (front args : String) : argsText (front ++ "(" ++ args ++ callEnd) =
    args.toList.rtakeWhile (· != '(') := by
  have hdrop : (front ++ "(" ++ args ++ callEnd).toList.rdrop callEnd.length =
      front.toList ++ '(' :: args.toList := by
    rw [String.toList_append, List.rdrop, List.length_append, ← String.length_toList,
      Nat.add_sub_cancel, List.take_left]
    simp
  rw [argsText, hdrop, List.rtakeWhile, List.rtakeWhile, List.reverse_append, List.reverse_cons,
    List.append_assoc, List.takeWhile_append]
  split
  · -- No parenthesis stands in the arguments, and the text ends at the one in front of them.
    rename_i hall
    simp [(List.takeWhile_prefix (· != '(')).eq_of_length hall]
  · rfl

section Calls

variable {text : String} {m : Method}

/-- Names are read back from a call when each is one argument. -/
theorem passedArgs_of_isArgument (htext : argsText text = (callArgs m).toList.rtakeWhile (· != '('))
    (h : ∀ p ∈ m.params, IsArgument p.name) : passedArgs text = m.params.map (·.name.toList) := by
  have hnames : (callArgs m).toList = [','].intercalate (m.params.map (·.name.toList)) := by
    rw [callArgs, String.toList_intercalate, List.map_map]
    rfl
  have hargs : argsText text = [','].intercalate (m.params.map (·.name.toList)) := by
    rw [htext, hnames, List.rtakeWhile_eq_self_iff]
    intro c hc
    rw [bne_iff_ne]
    rintro rfl
    refine not_mem_intercalate (by decide) ?_ hc
    simpa using fun p hp ↦ (h p hp).2.2
  rw [passedArgs, hargs]
  cases hparams : m.params with
  | nil => rfl
  | cons p params =>
    rw [hparams] at h
    obtain ⟨c, hc, -⟩ := (h p List.mem_cons_self).1
    rw [if_neg, List.splitOn_intercalate]
    · simpa using fun q hq ↦ (h q hq).2.1
    · exact List.cons_ne_nil _ _
    · intro hempty
      have hmem : c ∈ [','].intercalate ((p :: params).map (·.name.toList)) :=
        (infix_intercalate List.mem_cons_self).subset hc
      rw [hempty] at hmem
      exact List.not_mem_nil hmem

/-- An argument that is read from a call holds no comma and no opening parenthesis. -/
theorem not_mem_of_mem_passedArgs {arg : List Char} (h : arg ∈ passedArgs text) :
    ',' ∉ arg ∧ '(' ∉ arg := by
  rw [passedArgs] at h
  split at h
  · exact (List.not_mem_nil h).elim
  · have hjoined : [','].intercalate ((argsText text).splitOn ',') = argsText text :=
      List.intercalate_splitOn ','
    refine ⟨Path.not_mem_of_mem_splitOn h, fun hparen ↦ ?_⟩
    have hmem : '(' ∈ argsText text := hjoined ▸ (infix_intercalate h).subset hparen
    exact absurd (List.mem_rtakeWhile_imp hmem) (by decide)

theorem forwards_iff (htext : argsText text = (callArgs m).toList.rtakeWhile (· != '(')) :
    Forwards text m ↔ ∀ p ∈ m.params, IsArgument p.name := by
  constructor
  · intro h p hp
    obtain ⟨arg, harg, hpassed, hdeclared⟩ := exists_of_forall₂ h.flip hp
    obtain ⟨-, rfl⟩ := Param.isDeclaredAs_iff.1 hdeclared
    exact ⟨hpassed, not_mem_of_mem_passedArgs harg⟩
  · intro h
    rw [Forwards, passedArgs_of_isArgument htext h, List.forall₂_map_right_iff, List.forall₂_same]
    intro p hp
    obtain ⟨c, hc, hblank⟩ := (h p hp).1
    refine ⟨⟨c, hc, hblank⟩, Param.isDeclaredAs_iff.2 ⟨fun hempty ↦ ?_, rfl⟩⟩
    rw [hempty] at hc
    exact List.not_mem_nil hc

end Calls

/-! ### Wrappers -/

theorem wrapper_eq (head shown call : String) : ∃ text,
    wrapper head shown (call ++ ")") = head ++ text ++ call ++ callEnd := by
  have hend : callEnd = ")" ++ ";\n\x7d\n" := rfl
  refine ⟨" \x7b\n  std::wcerr << \"DEPRECATION WARNING: " ++ shown ++ "\" << std::endl;\n  ", ?_⟩
  rw [wrapper, hend]
  simp only [String.append_assoc]

/-- The wrapper of a method begins with its declaration and ends with a call of it. -/
theorem exists_methodWrapper_eq (className : String) (m : Method) : ∃ front text,
    methodWrapper className m = front ++ (m.typeText ++ " " ++ m.name ++ m.argsString) ++ text ++
      "$self->" ++ (m.name ++ "(" ++ callArgs m ++ callEnd) := by
  obtain ⟨text, htext⟩ := wrapper_eq
    ((if m.isStatic then "static " else "") ++ m.typeText ++ " " ++ m.name ++ m.argsString)
    ((if m.isStatic then "static " else "") ++ m.typeText ++ " " ++ className ++ "::" ++ m.name ++
      m.argsString) (returnMark m ++ "$self->" ++ m.name ++ "(" ++ callArgs m)
  refine ⟨if m.isStatic then "static " else "", text ++ returnMark m, ?_⟩
  rw [methodWrapper, htext]
  simp only [String.append_assoc]

theorem exists_functionWrapper_eq (m : Method) : ∃ front text,
    functionWrapper m = front ++ (m.typeText ++ " " ++ m.name ++ m.argsString) ++ text ++
      (m.name ++ "(" ++ callArgs m ++ callEnd) := by
  obtain ⟨text, htext⟩ := wrapper_eq (m.typeText ++ " " ++ m.name ++ m.argsString)
    (m.typeText ++ " " ++ m.name ++ m.argsString) (returnMark m ++ m.name ++ "(" ++ callArgs m)
  refine ⟨"// auto-generated deprecation function wrapper\n", text ++ returnMark m, ?_⟩
  unfold functionWrapper
  dsimp only
  rw [htext]
  simp only [String.append_assoc]

theorem argsText_methodWrapper (className : String) (m : Method) :
    argsText (methodWrapper className m) = (callArgs m).toList.rtakeWhile (· != '(') := by
  obtain ⟨front, text, hwrapper⟩ := exists_methodWrapper_eq className m
  rw [hwrapper, ← argsText_eq (front ++ (m.typeText ++ " " ++ m.name ++ m.argsString) ++ text ++
    "$self->" ++ m.name)]
  simp only [String.append_assoc]

theorem argsText_functionWrapper (m : Method) :
    argsText (functionWrapper m) = (callArgs m).toList.rtakeWhile (· != '(') := by
  obtain ⟨front, text, hwrapper⟩ := exists_functionWrapper_eq m
  rw [hwrapper, ← argsText_eq (front ++ (m.typeText ++ " " ++ m.name ++ m.argsString) ++ text ++
    m.name)]
  simp only [String.append_assoc]

/-- A wrapper declares its overload and ends with a call of it. The call passes one argument for
each parameter, in their order and under the name that the wrapper declares it by, just when each
parameter has a name that is one argument. So it is for the wrappers of methods and for those of
functions. -/
theorem forwards_iff_named (className : String) (m : Method) :
    let declared := m.typeText ++ " " ++ m.name ++
      ("(" ++ ", ".intercalate (m.params.map Param.declaration) ++ ")" ++ m.constSuffix)
    let call := m.name ++ "(" ++ ",".intercalate (m.params.map Param.name) ++ ");\n\x7d\n"
    let named := ∀ p ∈ m.params, IsArgument p.name
    (∃ front text, methodWrapper className m = front ++ declared ++ text ++ "$self->" ++ call) ∧
      (Forwards (methodWrapper className m) m ↔ named) ∧
      (∃ front text, functionWrapper m = front ++ declared ++ text ++ call) ∧
      (Forwards (functionWrapper m) m ↔ named) :=
  ⟨exists_methodWrapper_eq className m, forwards_iff (argsText_methodWrapper className m),
    exists_functionWrapper_eq m, forwards_iff (argsText_functionWrapper m)⟩

/-- A chime takes a tone, which has no name, and a length. -/
def chime : Method :=
  { Method.named "OldChime" with
    info := { name := "OldChime", deprecated := true }
    params := [{ type := "int" }, { name := "b", type := "int" }] }

/-- The call in the wrapper of a chime has nothing in front of its comma, where the tone would have
to stand. -/
theorem chime_call_lacks_argument : isWrapped chime = true ∧
    passedArgs (methodWrapper "Clock" chime) = [[], ['b']] ∧
    ¬ Forwards (methodWrapper "Clock" chime) chime ∧
    passedArgs (functionWrapper chime) = [[], ['b']] ∧
    ¬ Forwards (functionWrapper chime) chime := by
  have hunnamed : ¬ ∀ p ∈ chime.params, IsArgument p.name := by
    intro h
    obtain ⟨⟨c, hc, -⟩, -⟩ := h { type := "int" } List.mem_cons_self
    exact List.not_mem_nil hc
  have hmethod := argsText_methodWrapper "Clock" chime
  have hfunction := argsText_functionWrapper chime
  refine ⟨rfl, ?_, fun h ↦ hunnamed ((forwards_iff hmethod).1 h), ?_,
    fun h ↦ hunnamed ((forwards_iff hfunction).1 h)⟩
  · rw [passedArgs, hmethod]
    decide
  · rw [passedArgs, hfunction]
    decide

end Deprecations

end Bindery
