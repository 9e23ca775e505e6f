import Bindery.Decl.Method
import Bindery.Decl.Query
import Bindery.Proofs.Decl.TypeTexts
import Mathlib.Data.List.Infix

/-!
Signatures as addresses. A signature behind the names of the scopes that it stands in is an address
(`Method.parse_signature`): the names come back as the path, and the types of the parameters as the
argument types. What is split in reading an address is what was joined in writing it. This takes
names that are trimmed and hold neither `(` nor `::`, and argument types with balanced brackets
around their commas. A scope must not end in a colon either, since the mark that follows it would be
found one character too early.

A signature alone needs less: a name without `(` ends at the first one, and types that are not empty
and hold their commas in brackets are found again between the commas that join them
(`Query.intercalate_injective`), so it is the signature of one name, one list of types and one
constness (`Method.signatures_equal_iff`).
-/

set_option autoImplicit false
set_option relaxedAutoImplicit false

namespace Bindery

/-! ### Cutting what was put together -/

namespace Text

variable {cs ds : List Char}

theorem trimChars_append (hcs : trimChars cs = cs) (hds : trimChars ds = ds) :
    trimChars (cs ++ ds) = cs ++ ds := by
  rw [trimChars_eq_self_iff] at hcs hds ⊢
  refine ⟨fun c hc ↦ ?_, fun c hc ↦ ?_⟩
  · rw [List.head?_append, Option.mem_def, Option.or_eq_some_iff] at hc
    exact hc.elim (hcs.1 c) fun hc ↦ hds.1 c hc.2
  · rw [List.getLast?_append, Option.mem_def, Option.or_eq_some_iff] at hc
    exact hc.elim (hds.2 c) fun hc ↦ hcs.2 c hc.2

theorem splitScope_cons {c : Char} (h : c = ':' → cs.head? ≠ some ':') :
    splitScope (c :: cs) = consFirst c (splitScope cs) := by
  rw [splitScope.eq_def]
  split
  · rename_i heq
    cases heq
    exact (h rfl rfl).elim
  · rename_i heq
    cases heq
    rfl
  · rename_i heq
    cases heq

/-- A colon in a text without a scope mark is not followed by another one. -/
theorem head?_ne_of_unscoped {c : Char} (h : ¬[':', ':'] <:+: c :: cs) (hc : c = ':') :
    cs.head? ≠ some ':' := by
  rintro hhead
  obtain ⟨rest, rfl⟩ := List.head?_eq_some_iff.1 hhead
  exact h (hc ▸ (List.prefix_append [':', ':'] rest).isInfix)

theorem splitScope_eq_singleton (h : ¬[':', ':'] <:+: cs) : splitScope cs = [cs] := by
  induction cs with
  | nil => rfl
  | cons c cs ih =>
    rw [splitScope_cons (head?_ne_of_unscoped h), ih fun hinfix ↦ h (List.infix_cons hinfix)]
    rfl

theorem splitScope_append (h : ¬[':', ':'] <:+: cs) (hlast : cs.getLast? ≠ some ':')
    (rest : List Char) : splitScope (cs ++ ':' :: ':' :: rest) = cs :: splitScope rest := by
  induction cs with
  | nil => rfl
  | cons c cs ih =>
    have hunscoped : ¬[':', ':'] <:+: cs := fun hinfix ↦ h (List.infix_cons hinfix)
    rw [List.cons_append, splitScope_cons]
    · cases cs with
      | nil => rfl
      | cons d cs =>
        rw [ih hunscoped (by rwa [List.getLast?_cons_cons] at hlast)]
        rfl
    · intro hc
      cases cs with
      | nil => exact (hlast (congrArg some hc)).elim
      | cons d cs =>
        have hhead : (d :: cs).head? ≠ some ':' := head?_ne_of_unscoped h hc
        exact hhead

variable {p : Char → Bool} {c : Char}

theorem cutAtFirst_eq_none (h : ∀ d ∈ cs, p d = false) : cutAtFirst p cs = none := by
  induction cs with
  | nil => rfl
  | cons d cs ih =>
    obtain ⟨hd, hcs⟩ := List.forall_mem_cons.1 h
    rw [cutAtFirst, hd, ih hcs]
    rfl

theorem cutAtFirst_append (h : ∀ d ∈ cs, p d = false) (hc : p c = true) (rest : List Char) :
    cutAtFirst p (cs ++ c :: rest) = some (cs, rest) := by
  induction cs with
  | nil => rw [List.nil_append, cutAtFirst, if_pos hc]
  | cons d cs ih =>
    obtain ⟨hd, hcs⟩ := List.forall_mem_cons.1 h
    rw [List.cons_append, cutAtFirst, hd, ih hcs]
    rfl

end Text

/-! ### Paths -/

/-- The text of the scopes that a declaration stands in, in front of its name. -/
def scopePrefix (path : List String) : String := String.join (path.map (· ++ "::"))

/-- Whether a name can be one piece of an address. -/
structure IsSegment (name : String) : Prop where
  trimmed : Text.trimChars name.toList = name.toList
  unparenthesized : '(' ∉ name.toList
  unscoped : ¬[':', ':'] <:+: name.toList

instance (name : String) : Decidable (IsSegment name) :=
  decidable_of_iff (Text.trimChars name.toList = name.toList ∧ '(' ∉ name.toList ∧
    ¬[':', ':'] <:+: name.toList) ⟨fun ⟨h, h', h''⟩ ↦ ⟨h, h', h''⟩, fun ⟨h, h', h''⟩ ↦ ⟨h, h', h''⟩⟩

/-- Whether a name can be the name of a scope in an address. -/
structure IsScope (name : String) : Prop extends IsSegment name where
  uncolored : name.toList.getLast? ≠ some ':'

instance (name : String) : Decidable (IsScope name) :=
  decidable_of_iff (IsSegment name ∧ name.toList.getLast? ≠ some ':')
    ⟨fun ⟨h, h'⟩ ↦ ⟨h, h'⟩, fun ⟨h, h'⟩ ↦ ⟨h, h'⟩⟩

section Paths

variable {path : List String} {name : String}

theorem toList_scopePrefix_cons (scope : String) (path : List String) :
    (scopePrefix (scope :: path)).toList =
      scope.toList ++ ':' :: ':' :: (scopePrefix path).toList := by
  simp [scopePrefix, String.toList_join]

theorem trimChars_address (hpath : ∀ scope ∈ path, IsScope scope) (hname : IsSegment name) :
    Text.trimChars (scopePrefix path ++ name).toList = (scopePrefix path ++ name).toList := by
  rw [String.toList_append]
  induction path with
  | nil => exact hname.trimmed
  | cons scope path ih =>
    obtain ⟨hscope, hpath⟩ := List.forall_mem_cons.1 hpath
    rw [toList_scopePrefix_cons, List.append_assoc]
    have hrest : Text.trimChars ([':', ':'] ++ ((scopePrefix path).toList ++ name.toList)) =
        [':', ':'] ++ ((scopePrefix path).toList ++ name.toList) :=
      Text.trimChars_append (by decide) (ih hpath)
    exact Text.trimChars_append hscope.trimmed hrest

/-- The names of an address hold no opening parenthesis. -/
theorem ne_paren_of_mem_address (hpath : ∀ scope ∈ path, IsScope scope) (hname : IsSegment name) :
    ∀ c ∈ (scopePrefix path ++ name).toList, (c == '(') = false := by
  rw [String.toList_append]
  induction path with
  | nil =>
    intro c hc
    rw [beq_eq_false_iff_ne]
    exact fun heq ↦ hname.unparenthesized (heq ▸ hc)
  | cons scope path ih =>
    obtain ⟨hscope, hpath⟩ := List.forall_mem_cons.1 hpath
    rw [toList_scopePrefix_cons, List.append_assoc]
    refine List.forall_mem_append.2 ⟨fun c hc ↦ ?_, ?_⟩
    · rw [beq_eq_false_iff_ne]
      exact fun heq ↦ hscope.unparenthesized (heq ▸ hc)
    · exact List.forall_mem_cons.2 ⟨rfl, List.forall_mem_cons.2 ⟨rfl, ih hpath⟩⟩

theorem splitScope_address (hpath : ∀ scope ∈ path, IsScope scope) (hname : IsSegment name) :
    Text.splitScope (scopePrefix path ++ name).toList = (path ++ [name]).map String.toList := by
  rw [String.toList_append]
  induction path with
  | nil => exact Text.splitScope_eq_singleton hname.unscoped
  | cons scope path ih =>
    obtain ⟨hscope, hpath⟩ := List.forall_mem_cons.1 hpath
    rw [toList_scopePrefix_cons, List.append_assoc]
    exact (Text.splitScope_append hscope.unscoped hscope.uncolored _).trans
      (congrArg _ (ih hpath))

theorem Query.splitPath_address (hpath : ∀ scope ∈ path, IsScope scope) (hname : IsSegment name) :
    splitPath (scopePrefix path ++ name).toList = path ++ [name] := by
  rw [splitPath, trimChars_address hpath hname, splitScope_address hpath hname, List.map_map]
  have htrimmed : ∀ piece ∈ path ++ [name], Text.trimChars piece.toList = piece.toList :=
    List.forall_mem_append.2 ⟨fun scope hscope ↦ (hpath scope hscope).trimmed,
      List.forall_mem_singleton.2 hname.trimmed⟩
  refine (List.map_congr_left fun piece hpiece ↦ ?_).trans (List.map_id _)
  rw [Function.comp_apply, htrimmed piece hpiece, String.ofList_toList, id]

/-- The address of a declaration leads along the names of its scopes to its own name. -/
theorem Query.parse_address (hpath : ∀ scope ∈ path, IsScope scope) (hname : IsSegment name) :
    parse (scopePrefix path ++ name) = { path := path ++ [name] } := by
  rw [parse, trimChars_address hpath hname,
    Text.cutAtFirst_eq_none (ne_paren_of_mem_address hpath hname)]
  simp only [splitPath_address hpath hname]

end Paths

/-! ### Argument types -/

namespace Query

/-- Whether the brackets of a text are balanced and every comma stands inside some, with `depth`
brackets open in front of the text. An angle bracket and a parenthesis count alike. -/
def isBalanced (depth : Nat) : List Char → Bool
  | [] => depth == 0
  | c :: cs =>
    if c == ',' then depth != 0 && isBalanced depth cs
    else if c == '<' || c == '(' then isBalanced (depth + 1) cs
    else if c == '>' || c == ')' then depth != 0 && isBalanced (depth - 1) cs
    else isBalanced depth cs

/-- No comma of a balanced text splits it. -/
theorem splitTopLevel_append {depth : Nat} {cs : List Char} (h : isBalanced depth cs = true)
    (rest : List Char) :
    splitTopLevel depth (cs ++ rest) = cs.foldr Text.consFirst (splitTopLevel 0 rest) := by
  induction cs generalizing depth with
  | nil =>
    have hdepth : depth = 0 := beq_iff_eq.1 h
    rw [hdepth]
    rfl
  | cons c cs ih =>
    rw [isBalanced] at h
    rw [List.cons_append, splitTopLevel, List.foldr_cons]
    by_cases hcomma : c = ','
    · subst hcomma
      obtain ⟨hdepth, h⟩ : depth ≠ 0 ∧ isBalanced depth cs = true := by simpa using h
      rw [if_neg (by simpa using hdepth), if_neg (by decide), if_neg (by decide), ih h]
    · rw [if_neg (by simpa using hcomma)] at h
      rw [if_neg (by simp [hcomma])]
      split at h
      · rename_i hopens
        rw [if_pos hopens, ih h]
      · rename_i hopens
        rw [if_neg hopens]
        split at h
        · rename_i hcloses
          rw [if_pos hcloses, ih (Bool.and_eq_true_iff.1 h).2]
        · rename_i hcloses
          rw [if_neg hcloses, ih h]

theorem foldr_consFirst (cs piece : List Char) (pieces : List (List Char)) :
    cs.foldr Text.consFirst (piece :: pieces) = (cs ++ piece) :: pieces := by
  induction cs with
  | nil => rfl
  | cons c cs ih => rw [List.foldr_cons, ih, Text.consFirst, List.cons_append]

/-- Splitting at the commas outside brackets undoes joining balanced pieces with commas. -/
theorem splitTopLevel_intercalate {pieces : List (List Char)} (hne : pieces ≠ [])
    (h : ∀ piece ∈ pieces, isBalanced 0 piece = true) :
    splitTopLevel 0 ([','].intercalate pieces) = pieces := by
  induction pieces with
  | nil => exact (hne rfl).elim
  | cons piece pieces ih =>
    obtain ⟨hpiece, h⟩ := List.forall_mem_cons.1 h
    cases pieces with
    | nil =>
      rw [List.intercalate_singleton]
      have hsplit := splitTopLevel_append hpiece []
      rwa [splitTopLevel, foldr_consFirst, List.append_nil] at hsplit
    | cons next pieces =>
      rw [List.intercalate_cons_cons, List.append_assoc, splitTopLevel_append hpiece,
        List.singleton_append, splitTopLevel, if_pos (by decide), ih (List.cons_ne_nil _ _) h,
        foldr_consFirst, List.append_nil]

/-- Balanced pieces that are not empty can be told from the text that joins them. An empty piece
could not: it is joined to the same text as no piece. -/
theorem intercalate_injective {pieces others : List (List Char)}
    (h : ∀ piece ∈ pieces, piece ≠ [] ∧ isBalanced 0 piece = true)
    (hothers : ∀ piece ∈ others, piece ≠ [] ∧ isBalanced 0 piece = true)
    (heq : [','].intercalate pieces = [','].intercalate others) : pieces = others := by
  have hsplit {pieces : List (List Char)} (hne : pieces ≠ [])
      (h : ∀ piece ∈ pieces, piece ≠ [] ∧ isBalanced 0 piece = true) :=
    splitTopLevel_intercalate hne fun piece hpiece ↦ (h piece hpiece).2
  have hnil {pieces : List (List Char)} (h : ∀ piece ∈ pieces, piece ≠ [] ∧
      isBalanced 0 piece = true) (hjoined : [','].intercalate pieces = []) : pieces = [] := by
    by_contra hne
    have hpieces := hsplit hne h
    rw [hjoined, splitTopLevel] at hpieces
    exact (h [] (hpieces ▸ List.mem_singleton_self [])).1 rfl
  by_cases hne : pieces = []
  · rw [hne] at heq ⊢
    exact (hnil hothers heq.symm).symm
  · by_cases hother : others = []
    · rw [hother] at heq
      exact (hne (hnil h heq)).elim
    · rw [← hsplit hne h, heq, hsplit hother hothers]

end Query

theorem Query.isBalanced_append {depth : Nat} {cs ds : List Char}
    (hcs : isBalanced depth cs = true) (hds : isBalanced 0 ds = true) :
    isBalanced depth (cs ++ ds) = true := by
  induction cs generalizing depth with
  | nil =>
    have hdepth : depth = 0 := beq_iff_eq.1 hcs
    exact hdepth ▸ hds
  | cons c cs ih =>
    rw [isBalanced] at hcs
    rw [List.cons_append, isBalanced]
    split_ifs at hcs ⊢
    · exact Bool.and_eq_true_iff.2 ((Bool.and_eq_true_iff.1 hcs).imp_right ih)
    · exact ih hcs
    · exact Bool.and_eq_true_iff.2 ((Bool.and_eq_true_iff.1 hcs).imp_right ih)
    · exact ih hcs

/-- Whether a type can be one of the argument types of an address. -/
structure IsArgument (arg : String) : Prop where
  ne_empty : arg ≠ ""
  ne_void : arg ≠ "void"
  balanced : Query.isBalanced 0 arg.toList = true

instance (arg : String) : Decidable (IsArgument arg) :=
  decidable_of_iff (arg ≠ "" ∧ arg ≠ "void" ∧ Query.isBalanced 0 arg.toList = true)
    ⟨fun ⟨h, h', h''⟩ ↦ ⟨h, h', h''⟩, fun ⟨h, h', h''⟩ ↦ ⟨h, h', h''⟩⟩

theorem Query.splitArgs_intercalate {args : List String}
    (htrimmed : ∀ arg ∈ args, Text.trimChars arg.toList = arg.toList)
    (h : ∀ arg ∈ args, IsArgument arg) : splitArgs (",".intercalate args).toList = args := by
  rw [splitArgs, String.toList_intercalate]
  by_cases hne : args = []
  · rw [hne]
    decide
  · have hpieces : ∀ piece ∈ args.map String.toList, isBalanced 0 piece = true :=
      List.forall_mem_map.2 fun arg harg ↦ (h arg harg).balanced
    have hsplit : splitTopLevel 0 (",".toList.intercalate (args.map String.toList)) =
        args.map String.toList := splitTopLevel_intercalate (mt List.map_eq_nil_iff.1 hne) hpieces
    have htrim : args.map ((fun piece ↦ String.ofList (Text.trimChars piece)) ∘ String.toList) =
        args.map id := List.map_congr_left fun arg harg ↦ by
      rw [Function.comp_apply, htrimmed arg harg, String.ofList_toList, id]
    rw [hsplit, List.map_map, htrim, List.map_id, List.filter_eq_self]
    intro arg harg
    simp [(h arg harg).ne_empty, (h arg harg).ne_void]

namespace Param

variable {p : Param}

theorem toList_signatureType (p : Param) : p.signatureType.toList =
    normalizeTypeChars p.type.toList ++ (if p.array then ['[', ']'] else []) := by
  rw [signatureType, normalizeType, String.toList_append, String.toList_ofList]
  split <;> rfl

theorem isNormal_signatureType (p : Param) : IsNormal p.signatureType.toList := by
  rw [toList_signatureType]
  split
  · exact isNormal_brackets _
  · rw [List.append_nil]
    exact isNormal_normalizeTypeChars _

/-- Reading the type of a signature as a type gives the same text again. -/
theorem normalizeType_signatureType (p : Param) :
    normalizeType p.signatureType = p.signatureType := by
  rw [normalizeType, (isNormal_signatureType p).normalizeTypeChars_eq, String.ofList_toList]

theorem isArgument_signatureType (h : IsArgument (normalizeType p.type)) :
    IsArgument p.signatureType := by
  rw [signatureType]
  split
  · refine ⟨fun heq ↦ ?_, fun heq ↦ ?_, ?_⟩
    · exact absurd (congrArg String.toList heq) (by simp)
    · have hlast := congrArg (·.toList.getLast?) heq
      exact absurd hlast (by simp)
    · rw [String.toList_append]
      exact Query.isBalanced_append h.balanced (by decide)
  · rwa [String.append_empty]

end Param

/-! ### Signatures -/

theorem Query.splitAtLastClose_append (path cs : List Char) {tail : List Char}
    (h : ')' ∉ tail) :
    splitAtLastClose path (cs ++ ')' :: tail) = (cs, tail) := by
  have hcut : Text.cutAtFirst (· == ')') (tail.reverse ++ ')' :: cs.reverse) =
      some (tail.reverse, cs.reverse) := by
    refine Text.cutAtFirst_append (fun c hc ↦ ?_) rfl _
    exact beq_eq_false_iff_ne.2 (ne_of_mem_of_not_mem (List.mem_reverse.1 hc) h)
  rw [splitAtLastClose, List.reverse_append, List.reverse_cons, List.append_assoc,
    List.singleton_append, hcut]
  simp only [List.reverse_reverse]

/-- Whether the name and the parameter types of a method can be written in an address. -/
structure Method.IsAddressable (m : Method) : Prop where
  name : IsSegment m.name
  params : ∀ p ∈ m.params, IsArgument (normalizeType p.type)

namespace Method

variable {path : List String} {m other : Method}

/-- Reading a signature behind the names of its scopes gives the path of the method and the normal
types of its parameters. -/
theorem parse_signature (hpath : ∀ scope ∈ path, IsScope scope) (h : m.IsAddressable) :
    Query.parse (scopePrefix path ++ m.signature) =
      { path := path ++ [m.name], args := some (m.params.map Param.signatureType),
        isConst := m.isConst } := by
  have htext : (scopePrefix path ++ m.signature).toList = (scopePrefix path ++ m.name).toList ++
      '(' :: ((",".intercalate (m.params.map Param.signatureType)).toList ++
        ')' :: m.constSuffix.toList) := by
    simp [signature]
  have hend : ∀ cs, Text.trimChars ('(' :: (cs ++ ')' :: m.constSuffix.toList)) =
      '(' :: (cs ++ ')' :: m.constSuffix.toList) := by
    intro cs
    rw [Text.trimChars_eq_self_iff, ← List.cons_append, List.getLast?_append, constSuffix]
    refine ⟨fun c hc ↦ ?_, by split <;> simp [Text.isBlank]⟩
    cases hc
    rfl
  have hclosed : ')' ∉ m.constSuffix.toList := by
    rw [constSuffix]
    split <;> decide
  have htail : (Text.trimChars m.constSuffix.toList == "const".toList) = m.isConst := by
    rw [constSuffix]
    cases m.isConst <;> decide
  have hargs : Query.splitArgs (",".intercalate (m.params.map Param.signatureType)).toList =
      m.params.map Param.signatureType :=
    Query.splitArgs_intercalate
      (List.forall_mem_map.2 fun p _ ↦ (Param.isNormal_signatureType p).trimChars_eq)
      (List.forall_mem_map.2 fun p hp ↦ Param.isArgument_signatureType (h.params p hp))
  rw [Query.parse, htext, Text.trimChars_append (trimChars_address hpath h.name) (hend _),
    Text.cutAtFirst_append (ne_paren_of_mem_address hpath h.name) rfl]
  simp only [Query.splitAtLastClose_append _ _ hclosed, Query.splitPath_address hpath h.name, hargs,
    htail]

/-- A signature tells a method from the others of its name by the parameter types and by whether it
is constant. -/
theorem signature_eq_iff (h : m.IsAddressable) (hother : other.IsAddressable)
    (hname : m.name = other.name) : m.signature = other.signature ↔
      m.isConst = other.isConst ∧
        m.params.map Param.signatureType = other.params.map Param.signatureType := by
  constructor
  · intro heq
    have hread : Query.parse (scopePrefix [] ++ m.signature) =
        Query.parse (scopePrefix [] ++ other.signature) := by rw [heq]
    rw [parse_signature (by simp) h, parse_signature (by simp) hother] at hread
    injection hread with _ hargs hconst
    exact ⟨hconst, Option.some.inj hargs⟩
  · rintro ⟨hconst, hargs⟩
    rw [signature, signature, constSuffix, constSuffix, hname, hargs, hconst]

/-- The address of a signature selects the methods that have this signature. -/
theorem selects_signature (hpath : ∀ scope ∈ path, IsScope scope) (h : m.IsAddressable)
    (hother : other.IsAddressable) (hname : m.name = other.name) :
    (Query.parse (scopePrefix path ++ other.signature)).selects m =
      (m.signature == other.signature) := by
  have hnormal : (other.params.map Param.signatureType).map normalizeType =
      other.params.map Param.signatureType := by
    rw [List.map_map]
    exact List.map_congr_left fun p _ ↦ Param.normalizeType_signatureType p
  rw [parse_signature hpath hother, Bool.eq_iff_iff, beq_iff_eq, signature_eq_iff h hother hname]
  simp only [Query.selects, takesTypes, hnormal, Bool.and_eq_true, beq_iff_eq]

/-- A method whose name and parameter types can be told from its signature. An angle bracket and a
parenthesis count alike in the balance, so types in which each kind is balanced by itself are among
these. -/
structure IsSeparable (m : Method) : Prop where
  name : '(' ∉ m.name.toList
  ne_empty : ∀ p ∈ m.params, normalizeType p.type ≠ ""
  balanced : ∀ p ∈ m.params, Query.isBalanced 0 (normalizeType p.type).toList = true

theorem IsSeparable.signatureTypes (h : m.IsSeparable) :
    ∀ piece ∈ (m.params.map Param.signatureType).map String.toList,
      piece ≠ [] ∧ Query.isBalanced 0 piece = true := by
  refine List.forall_mem_map.2 (List.forall_mem_map.2 fun p hp ↦ ?_)
  rw [Param.signatureType, String.toList_append]
  refine ⟨fun hnil ↦ h.ne_empty p hp ?_, Query.isBalanced_append (h.balanced p hp) ?_⟩
  · exact String.toList_eq_nil_iff.1 (List.append_eq_nil_iff.1 hnil).1
  · split <;> decide

theorem toList_signature (m : Method) : m.signature.toList = m.name.toList ++
    '(' :: ([','].intercalate ((m.params.map Param.signatureType).map String.toList) ++
      ')' :: m.constSuffix.toList) := by
  simp [signature, String.toList_intercalate]

/-- Two signatures are the same text when the names, the types of the parameters with their array
brackets, and the constness are the same, and only then. -/
theorem signatures_equal_iff (h : m.IsSeparable) (hother : other.IsSeparable) :
    m.signature = other.signature ↔ m.name = other.name ∧
      m.params.map Param.signatureType = other.params.map Param.signatureType ∧
      m.isConst = other.isConst := by
  constructor
  · intro heq
    -- The first parenthesis ends the name, and the last closing one ends the types.
    have hcut {m : Method} (h : m.IsSeparable) :
        Text.cutAtFirst (· == '(') m.signature.toList = some (m.name.toList,
          [','].intercalate ((m.params.map Param.signatureType).map String.toList) ++
            ')' :: m.constSuffix.toList) := by
      rw [toList_signature]
      refine Text.cutAtFirst_append (fun c hc ↦ ?_) rfl _
      exact beq_eq_false_iff_ne.2 (ne_of_mem_of_not_mem hc h.name)
    have hclose (m : Method) (cs : List Char) :
        Query.splitAtLastClose [] (cs ++ ')' :: m.constSuffix.toList) =
          (cs, m.constSuffix.toList) := by
      refine Query.splitAtLastClose_append _ _ ?_
      rw [constSuffix]
      split <;> decide
    have hparts := hcut h
    rw [heq, hcut hother] at hparts
    obtain ⟨hname, hrest⟩ := Prod.mk.inj (Option.some.inj hparts)
    have hsplit := hclose m
      ([','].intercalate ((m.params.map Param.signatureType).map String.toList))
    rw [← hrest, hclose] at hsplit
    obtain ⟨htypes, hsuffix⟩ := Prod.mk.inj hsplit
    refine ⟨String.toList_injective hname.symm, ?_, ?_⟩
    · have hpieces := Query.intercalate_injective h.signatureTypes hother.signatureTypes
        htypes.symm
      exact List.map_injective_iff.2 (fun _ _ ↦ String.toList_injective) hpieces
    · rw [constSuffix, constSuffix] at hsuffix
      cases hm : m.isConst <;> cases ho : other.isConst <;> simp [hm, ho] at hsuffix ⊢
  · rintro ⟨hname, htypes, hconst⟩
    rw [signature, signature, constSuffix, constSuffix, hname, htypes, hconst]

end Method

/-- A method that takes a function and some maps, so that commas and parentheses stand in its
types. -/
def Gauges.watch : Method :=
  { Method.named "watch" with
    params := [{ name := "changed", type := "std::function<void( int, bool)>" },
      { name := "limits", type := "std::map< int, char * >", array := true }]
    isConst := true }

/-- The same method with other spaces in its types, and with the brackets of the array in one. -/
def Gauges.watchAgain : Method :=
  { Method.named "watch" with
    returnType := some "bool"
    params := [{ type := " std::function<void( int,  bool)>" },
      { type := "std::map<int,char* > []", default := some "none" }]
    isConst := true }

open Gauges in
theorem watch_signatures_equal : watch.IsSeparable ∧ watchAgain.IsSeparable ∧
    watch.signature = "watch(std::function<void( int,bool)>,std::map<int,char*>[]) const" ∧
    watch.signature = watchAgain.signature := by
  have hwatch : watch.IsSeparable := by
    constructor <;> decide +kernel
  have hagain : watchAgain.IsSeparable := by
    constructor <;> decide +kernel
  have htypes : watch.params.map Param.signatureType =
      watchAgain.params.map Param.signatureType := by decide +kernel
  exact ⟨hwatch, hagain, by decide +kernel,
    (Method.signatures_equal_iff hwatch hagain).2 ⟨rfl, htypes, rfl⟩⟩

end Bindery
