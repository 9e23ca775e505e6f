import Bindery.Proofs.Decl.Signatures
import Bindery.Proofs.Typemap.Writing

/-!
Comparing types by their normal texts. An overload is selected, and a pattern matched, by comparing
a type that is normal already, since it stands in a signature or in a pattern that was read before,
with one whose normal text is made on the spot. Both are fixed points of normalization: the type of
a signature also when it has array brackets, and the type of a pattern also when it has lost its
leading `const` (`normalizeType_comparableType`), because the words of a normal text behind the
first one are joined as they would be without it (`normalizeTypeChars_append_of_ne_nil`). So the two
are compared as two normal texts (`types_compared_as_normal`).
-/

set_option autoImplicit false
set_option relaxedAutoImplicit false

namespace Bindery

section Words

variable {front out word rest : List Char} {words : List (List Char)}

/-! ### Joining words behind a text -/

/-- What a word is joined to shows in the end of the text alone, unless the text is empty. -/
theorem appendWord_append (hout : out ≠ []) (front word : List Char) :
    appendWord (front ++ out) word = front ++ appendWord out word := by
  have hglued : isGlued (front ++ out) word = isGlued out word := by
    have hfilled : (front ++ out).isEmpty = out.isEmpty := by
      rw [List.isEmpty_eq_false_iff.2 hout,
        List.isEmpty_eq_false_iff.2 (List.append_ne_nil_of_right_ne_nil _ hout)]
    have hlast : (front ++ out).getLast? = out.getLast? := by
      rw [List.getLast?_append, List.getLast?_eq_some_getLast hout, Option.some_or]
    rw [isGlued, isGlued, hfilled, hlast]
  rw [appendWord, appendWord, hglued, List.append_assoc, List.append_assoc]
  split <;> rfl

theorem prefix_appendWord (out word : List Char) : out <+: appendWord out word := by
  rw [appendWord]
  split <;> exact List.prefix_append _ _

theorem prefix_foldl_appendWord (out : List Char) (words : List (List Char)) :
    out <+: words.foldl appendWord out := by
  induction words generalizing out with
  | nil => exact List.prefix_rfl
  | cons word words ih => exact (prefix_appendWord out word).trans (ih _)

theorem foldl_appendWord_append (hout : out ≠ []) (front : List Char) (words : List (List Char)) :
    words.foldl appendWord (front ++ out) = front ++ words.foldl appendWord out := by
  induction words generalizing out with
  | nil => rfl
  | cons word words ih =>
    have hne : appendWord out word ≠ [] := fun hnil ↦
      hout (List.prefix_nil.1 (hnil ▸ prefix_appendWord out word))
    rw [List.foldl_cons, List.foldl_cons, appendWord_append hout, ih hne]

theorem normalizeTypeChars_word_append (hfront : Text.IsWord front) (rest : List Char) :
    normalizeTypeChars (front ++ ' ' :: rest) = (Text.words rest).foldl appendWord front := by
  rw [normalizeTypeChars, Text.words_append_cons rfl, Text.words_eq_singleton hfront]
  rfl

/-- What stands behind the first word of a normal text is normal itself. -/
theorem normalizeTypeChars_of_append (hfront : Text.IsWord front)
    (h : normalizeTypeChars (front ++ ' ' :: rest) = front ++ ' ' :: rest) :
    normalizeTypeChars rest = rest := by
  rw [normalizeTypeChars_word_append hfront] at h
  cases hrest : Text.words rest with
  | nil =>
    rw [hrest, List.foldl_nil] at h
    exact absurd (List.self_eq_append_right.1 h) (List.cons_ne_nil _ _)
  | cons word words =>
    have hword : Text.IsWord word := Text.isWord_of_mem_words (hrest ▸ List.mem_cons_self)
    have hself : normalizeTypeChars rest = words.foldl appendWord word := by
      rw [normalizeTypeChars, hrest]
      rfl
    rw [hrest, List.foldl_cons, appendWord] at h
    split at h
    · -- A joined word would begin where the space stands.
      rw [foldl_appendWord_append hword.ne_nil, List.append_cancel_left_eq] at h
      obtain ⟨c, word, rfl⟩ := List.exists_cons_of_ne_nil hword.ne_nil
      have hstarts := prefix_foldl_appendWord (c :: word) words
      rw [h, List.cons_prefix_cons] at hstarts
      exact absurd (hword.isBlank_eq_false c List.mem_cons_self) (by rw [hstarts.1]; decide)
    · rw [List.append_cons, foldl_appendWord_append hword.ne_nil, List.append_assoc,
        List.append_cancel_left_eq] at h
      rw [hself]
      exact (List.cons.inj h).2

/-- The brackets of an array are written behind the normal text, wherever they stand. -/
theorem normalizeTypeChars_append_brackets (cs : List Char) :
    normalizeTypeChars (cs ++ ['[', ']']) = normalizeTypeChars cs ++ ['[', ']'] := by
  have hbrackets : Text.IsWord ['[', ']'] :=
    ⟨List.cons_ne_nil _ _, List.forall_mem_cons.2 ⟨rfl, List.forall_mem_singleton.2 rfl⟩⟩
  obtain rfl | ⟨front, c, rfl⟩ := List.eq_nil_or_concat cs
  · rfl
  rw [List.concat_eq_append]
  by_cases hc : Text.isBlank c = true
  · have hblank : ∀ d ∈ [c], Text.isBlank d = true := List.forall_mem_singleton.2 hc
    have hfront : normalizeTypeChars (front ++ [c]) = normalizeTypeChars front := by
      rw [normalizeTypeChars, Text.words_append_blanks hblank]
      rfl
    rw [hfront, List.append_assoc,
      normalizeTypeChars_append_word (List.cons_ne_nil _ _) hblank hbrackets]
    simp [appendWord, isGlued, joinsLeft]
  · refine normalizeTypeChars_append (by simp) (fun d hd ↦ ?_) hbrackets.isBlank_eq_false
    rw [List.getLast?_concat] at hd
    cases hd
    exact eq_false_of_ne_true hc

end Words

/-! ### Types without a leading `const` -/

/-- What is left of a normal type when a leading `const` does not count. -/
def withoutConst (normal : String) : String :=
  ((Text.afterStart? "const ".toList normal.toList).map String.ofList).getD normal

theorem comparableType_eq_withoutConst (type : String) :
    comparableType type = withoutConst (normalizeType type) := by
  rw [comparableType, withoutConst]
  cases Text.afterStart? "const ".toList (normalizeType type).toList <;> rfl

theorem normalizeType_withoutConst {normal : String} (h : normalizeType normal = normal) :
    normalizeType (withoutConst normal) = withoutConst normal := by
  rw [withoutConst]
  cases hrest : Text.afterStart? "const ".toList normal.toList with
  | none => exact h
  | some rest =>
    have htext : normal.toList = "const ".toList ++ rest := Text.eq_append_of_afterStart? hrest
    have hmem : "const".toList ∈ Text.words "const".toList := by decide
    have hconst : Text.IsWord "const".toList := Text.isWord_of_mem_words hmem
    have hnormal := congrArg String.toList h
    rw [normalizeType, String.toList_ofList, htext] at hnormal
    replace hnormal : normalizeTypeChars ("const".toList ++ ' ' :: rest) =
      "const".toList ++ ' ' :: rest := hnormal
    rw [Option.map_some, Option.getD_some, normalizeType, String.toList_ofList,
      normalizeTypeChars_of_append hconst hnormal]

/-- The type of a pattern is normal, with or without the `const` that it has lost. -/
theorem normalizeType_comparableType (type : String) :
    normalizeType (comparableType type) = comparableType type := by
  rw [comparableType_eq_withoutConst]
  exact normalizeType_withoutConst (normalizeType_normalizeType type)

theorem Param.signatureType_eq (p : Param) :
    p.signatureType = normalizeType (p.type ++ (if p.array then "[]" else "")) := by
  have htext : (p.type ++ (if p.array then "[]" else "")).toList =
      p.type.toList ++ (if p.array then ['[', ']'] else []) := by
    rw [String.toList_append]
    split <;> rfl
  refine String.toList_injective ?_
  rw [toList_signatureType, normalizeType, String.toList_ofList, htext]
  cases p.array with
  | true => rw [if_pos rfl, normalizeTypeChars_append_brackets]
  | false => rw [if_neg Bool.false_ne_true, List.append_nil, List.append_nil]

/-! ### Comparing -/

namespace ParamPattern

/-- The text of a parameter pattern without array brackets at its end. -/
def body (pattern : List Char) : List Char :=
  (beforeBrackets? (Text.trimChars pattern)).getD (Text.trimChars pattern)

/-- The array brackets of a parameter pattern. -/
def brackets (pattern : List Char) : String :=
  if (beforeBrackets? (Text.trimChars pattern)).isSome then "[]" else ""

theorem parse_eq (pattern : List Char) : parse pattern =
    ⟨comparableType ((ParamText.split (String.ofList (body pattern))).1 ++ brackets pattern),
      (ParamText.split (String.ofList (body pattern))).2⟩ := by
  rw [parse, body, brackets]
  cases beforeBrackets? (Text.trimChars pattern) with
  | none => rw [Option.isSome_none, if_neg Bool.false_ne_true, String.append_empty]; rfl
  | some rest => rfl

theorem normalizeType_type_parse (pattern : List Char) :
    normalizeType (parse pattern).type = (parse pattern).type := by
  rw [parse_eq, normalizeType_comparableType]

end ParamPattern

theorem Method.takesTypes_eq (m : Method) (types : List String) :
    m.takesTypes types =
      ((m.params.map fun p ↦ normalizeType p.signatureType) == types.map normalizeType) := by
  simp only [takesTypes, Param.normalizeType_signatureType]

theorem Typemap.matchesType_normalizeType (map : Typemap) (type : String) :
    map.matchesType (normalizeType type) = map.matchesType type := by
  have hsame : comparableType (normalizeType type) = comparableType type := by
    rw [comparableType_eq_withoutConst, comparableType_eq_withoutConst, normalizeType_normalizeType]
  rw [matchesType, matchesType, hsame]

/-- Normal texts and the types of signatures, with array brackets or without, are fixed points of
normalization. Overloads are selected, by a list of types or by an address, by comparing the normal
texts of the types in their signatures with those of the types that are asked for. A parameter
pattern is compared with a parameter by the normal text of its type and by the normal text of the
other type without a leading `const`, and it makes no difference to a rule whether a type that it
is asked about is normal already. -/
theorem types_compared_as_normal :
    (∀ type, normalizeType (normalizeType type) = normalizeType type) ∧
    (∀ p : Param, normalizeType p.signatureType = p.signatureType ∧
      p.signatureType = normalizeType (p.type ++ (if p.array then "[]" else ""))) ∧
    (∀ (chain : Overloads) (types : List String), chain.findOverload? types =
      chain.all.find? fun m ↦
        (m.params.map fun p ↦ normalizeType p.signatureType) == types.map normalizeType) ∧
    (∀ (path args : List String) (isConst : Bool) (m : Method),
      Query.selects ⟨path, some args, isConst⟩ m = (m.isConst == isConst &&
        (m.params.map fun p ↦ normalizeType p.signatureType) == args.map normalizeType)) ∧
    (∀ (pattern : List Char) (p : Param), (ParamPattern.parse pattern).isMatch p =
      (normalizeType (ParamPattern.parse pattern).type ==
          normalizeType (withoutConst (normalizeType p.signatureType)) &&
        (ParamPattern.parse pattern).name.all (· == p.name))) ∧
    ∀ (map : Typemap) (type : String),
      map.matchesType (normalizeType type) = map.matchesType type := by
  refine ⟨normalizeType_normalizeType,
    fun p ↦ ⟨p.normalizeType_signatureType, p.signatureType_eq⟩, fun chain types ↦ ?_,
    fun path args isConst m ↦ ?_, fun pattern p ↦ ?_, Typemap.matchesType_normalizeType⟩
  · simp only [Overloads.findOverload?, Method.takesTypes_eq]
  · simp only [Query.selects, Method.takesTypes_eq]
  · rw [ParamPattern.isMatch, ParamPattern.normalizeType_type_parse,
      comparableType_eq_withoutConst, normalizeType_withoutConst]
    exact normalizeType_normalizeType _

end Bindery
