import Bindery.Proofs.Files.Parents
import Bindery.Proofs.Typemap.Reading
import Bindery.Typemap.Rules
import Mathlib.Data.List.Basic
import Mathlib.Data.List.Nodup

/-!
What is written for type maps. Rules are asked from first to last, and the tool that reads the
written rules lets a later directive replace an earlier one. Both give the same answer
(`last_written_eq_first_asked`): of the directives for one direction that list a pattern, the last
one comes from the first rule that lists this pattern and has a fragment for the direction. Each
fragment is written once. The directives are read back from the text as they were written
(`readAll_render`), unless a parenthesis or a line break stands inside what they name.
-/

set_option autoImplicit false
set_option relaxedAutoImplicit false

namespace Bindery

/-- The options of a directive for a direction. -/
def Fragment.options (f : Fragment) (d : Direction) : List String :=
  (if d = .input ∧ f.ignoreInput = true then ["numinputs=0"] else []) ++
    (f.precedence.map fun rank ↦ " precedence=SWIG_TYPECHECK_" ++ Text.upper rank).toList

/-- The lines of the code, up to the last one that is not blank. What is blank counts as empty. -/
def Fragment.codeLines (f : Fragment) : List String :=
  (Text.lines (String.ofList (Text.trimEndChars f.code.toList))).map fun line ↦
    if Text.isBlankText line then "" else line

/-- The directive of a rule for a direction, if it has a fragment for it. Only inputs declare
temporary variables. -/
def Typemap.directive? (map : Typemap) (d : Direction) : Option Directive :=
  (map.fragment? d).map fun f ↦ {
    direction := d.name
    options := f.options d
    targets := map.patterns.map fun pattern ↦ (pattern, if d = .input then f.temp else none)
    code := f.codeLines }

/-- The directives of a rule, in the order in which they are written. -/
def Typemap.written (map : Typemap) : List Directive := Direction.all.filterMap map.directive?

namespace TypemapRules

/-- The rules of an origin, in the order in which they are asked. -/
def asked (rules : TypemapRules) (origin : Origin) : List Typemap :=
  (rules.maps.filter (·.1 == origin)).map Prod.snd

/-- The directives for the rules of an origin, in the order in which they are written. -/
def written (rules : TypemapRules) (origin : Origin) : List Directive :=
  (rules.asked origin).reverse.flatMap Typemap.written

end TypemapRules

/-! ### The order of directives -/

theorem Direction.name_inj {d other : Direction} : d.name = other.name ↔ d = other := by
  have hnames : (all.map name).Nodup := by decide
  exact ⟨fun h ↦ List.inj_on_of_nodup_map hnames (mem_all d) (mem_all other) h, congrArg name⟩

section Order

variable {map : Typemap} {d : Direction} {pattern : String}

theorem Typemap.direction_of_directive? {w : Directive} (h : map.directive? d = some w) :
    w.direction = d.name ∧ w.targets.map Prod.fst = map.patterns := by
  obtain ⟨f, -, rfl⟩ := Option.map_eq_some_iff.1 h
  refine ⟨rfl, ?_⟩
  rw [List.map_map]
  exact List.map_id _

theorem Typemap.isSome_directive? : (map.directive? d).isSome = (map.fragment? d).isSome :=
  Option.isSome_map

/-- A rule has one directive at most for each direction. -/
theorem Typemap.filter_direction_written :
    map.written.filter (·.direction == d.name) = (map.directive? d).toList := by
  have hothers {directions : List Direction} (h : d ∉ directions) :
      directions.filterMap (fun other ↦
        (map.directive? other).filter (·.direction == d.name)) = [] := by
    refine List.filterMap_eq_nil_iff.2 fun other hother ↦ ?_
    refine Option.filter_eq_none_iff.2 fun w hw hd ↦ h ?_
    rw [beq_iff_eq, (direction_of_directive? hw).1, Direction.name_inj] at hd
    exact hd ▸ hother
  have hown : (map.directive? d).filter (·.direction == d.name) = map.directive? d := by
    cases hdirective : map.directive? d with
    | none => rfl
    | some w =>
      exact Option.filter_some_pos (beq_iff_eq.2 (direction_of_directive? hdirective).1)
  obtain ⟨before, after, hall⟩ := List.append_of_mem (Direction.mem_all d)
  have hnodup : (before ++ d :: after).Nodup := hall ▸ by decide
  rw [List.nodup_middle, List.nodup_cons, List.mem_append, not_or] at hnodup
  rw [written, List.filter_filterMap, hall, List.filterMap_append, List.filterMap_cons,
    hothers hnodup.1.1, hothers hnodup.1.2, hown]
  cases map.directive? d <;> rfl

namespace TypemapRules

variable {rules : TypemapRules} {origin : Origin}

/-- For one direction, the directives are those of the rules that have a fragment for it, the rule
that is asked first being written last. -/
theorem filter_direction_written : (rules.written origin).filter (·.direction == d.name) =
    (rules.asked origin).reverse.filterMap (·.directive? d) := by
  rw [written, List.filter_flatMap, List.filterMap_eq_flatMap_toList]
  simp only [Typemap.filter_direction_written]

/-- The rule that is asked first of those that list a pattern and have a fragment for a
direction. -/
def firstAsked? (rules : TypemapRules) (origin : Origin) (d : Direction) (pattern : String) :
    Option Typemap :=
  (rules.asked origin).find? fun map ↦
    map.patterns.contains pattern && (map.fragment? d).isSome

/-- The directive that is written last of those that list a pattern and are for a direction. -/
def lastWritten? (rules : TypemapRules) (origin : Origin) (d : Direction) (pattern : String) :
    Option Directive :=
  ((rules.written origin).filter (Directive.defines d.name pattern)).getLast?

theorem findSome?_directive? (maps : List Typemap) :
    maps.findSome? (fun map ↦ (map.directive? d).filter fun w ↦
        (w.targets.map Prod.fst).contains pattern) =
      (maps.find? fun map ↦ map.patterns.contains pattern && (map.fragment? d).isSome).bind
        (·.directive? d) := by
  induction maps with
  | nil => rfl
  | cons map maps ih =>
    rw [List.findSome?_cons, List.find?_cons, ih, ← Typemap.isSome_directive?]
    cases hdirective : map.directive? d with
    | none => simp
    | some w =>
      have hpatterns := (Typemap.direction_of_directive? hdirective).2
      by_cases hlists : pattern ∈ map.patterns <;>
        simp only [Option.filter, hpatterns, hlists, hdirective, List.contains_eq_mem,
          decide_true, decide_false, Option.isSome_some, Bool.true_and, Bool.false_and, if_true,
          Bool.false_eq_true, if_false, Option.bind_some]

theorem lastWritten?_eq : rules.lastWritten? origin d pattern =
    (rules.firstAsked? origin d pattern).bind (·.directive? d) := by
  have hdefines : Directive.defines d.name pattern = fun w ↦
      (w.targets.map Prod.fst).contains pattern && w.direction == d.name := by
    funext w
    exact Bool.and_comm _ _
  rw [lastWritten?, hdefines, ← List.filter_filter, filter_direction_written,
    List.filter_filterMap, List.getLast?_filterMap, List.reverse_reverse]
  exact findSome?_directive? _

end TypemapRules

end Order

/-! ### Lines -/

theorem Text.eq_append_of_afterStart? {start cs rest : List Char}
    (h : afterStart? start cs = some rest) : cs = start ++ rest := by
  induction start generalizing cs with
  | nil =>
    cases h
    rfl
  | cons p ps ih =>
    cases cs with
    | nil => cases h
    | cons c cs =>
      rw [afterStart?] at h
      split at h
      · rename_i hc
        rw [eq_of_beq hc, ih h, List.cons_append]
      · cases h

theorem Text.dropReturn_subset (line : List Char) : dropReturn line ⊆ line := by
  unfold dropReturn
  cases hreturn : beforeEnd? ['\r'] line with
  | none => exact List.Subset.refl line
  | some rest =>
    obtain ⟨reversed, hreversed, rfl⟩ := Option.map_eq_some_iff.1 hreturn
    intro c hc
    rw [← List.mem_reverse, eq_append_of_afterStart? hreversed]
    exact List.mem_append_right _ (List.mem_reverse.1 hc)

/-- No line holds a line feed. -/
theorem Text.not_mem_of_mem_lines {s line : String} (h : line ∈ lines s) : '\n' ∉ line.toList := by
  obtain ⟨cs, hcs, rfl⟩ := List.mem_map.1 h
  rw [String.toList_ofList]
  have hpiece {piece : List Char} (h : piece ∈ s.toList.splitOn '\n') : '\n' ∉ piece :=
    Path.not_mem_of_mem_splitOn h
  rcases List.mem_append.1 hcs with hmem | hmem
  · obtain ⟨piece, hpieces, rfl⟩ := List.mem_map.1 hmem
    exact fun hbreak ↦ hpiece (List.dropLast_subset _ hpieces) (dropReturn_subset piece hbreak)
  · split at hmem
    · exact (List.not_mem_nil hmem).elim
    · rw [List.mem_singleton.1 hmem, List.getLastD_eq_getLast?]
      cases hlast : (s.toList.splitOn '\n').getLast? with
      | none => exact List.not_mem_nil
      | some last => exact hpiece (List.mem_of_getLast? hlast)

/-- The characters of a text that are no blanks. -/
def Text.marks (cs : List Char) : List Char := cs.filter (!isBlank ·)

theorem Text.marks_append (cs ds : List Char) : marks (cs ++ ds) = marks cs ++ marks ds :=
  List.filter_append ..

theorem Text.marks_of_isBlank {cs : List Char} (h : ∀ c ∈ cs, isBlank c = true) : marks cs = [] :=
  List.filter_eq_nil_iff.2 fun c hc ↦ by simp [h c hc]

theorem Text.marks_trimEndChars (cs : List Char) : marks (trimEndChars cs) = marks cs := by
  have hdropped : marks (cs.reverse.takeWhile isBlank) = [] :=
    marks_of_isBlank fun _ hc ↦ List.mem_takeWhile_imp hc
  have hall := marks_append (cs.reverse.takeWhile isBlank) (cs.reverse.dropWhile isBlank)
  rw [List.takeWhile_append_dropWhile, hdropped, List.nil_append, marks, marks,
    List.filter_reverse] at hall
  rw [trimEndChars, marks, List.filter_reverse, ← hall, List.reverse_reverse, marks]

theorem Text.marks_dropReturn (line : List Char) : marks (dropReturn line) = marks line := by
  unfold dropReturn
  cases hreturn : beforeEnd? ['\r'] line with
  | none => rfl
  | some rest =>
    obtain ⟨reversed, hreversed, rfl⟩ := Option.map_eq_some_iff.1 hreturn
    have hline : line = reversed.reverse ++ ['\r'] := by
      rw [← List.reverse_inj, eq_append_of_afterStart? hreversed]
      simp
    have hreturn : marks ['\r'] = [] := by decide
    rw [hline, marks_append, hreturn, List.append_nil, Option.getD_some]

/-- Nothing but blanks is lost when a text is split into lines. -/
theorem Text.flatMap_marks_lineList (cs : List Char) :
    (lineList cs).flatMap marks = marks cs := by
  have hjoin (pieces : List (List Char)) :
      marks (['\n'].intercalate pieces) = pieces.flatMap marks := by
    induction pieces with
    | nil => rfl
    | cons piece pieces ih =>
      cases pieces with
      | nil => simp
      | cons next pieces =>
        have hbreak : marks ['\n'] = [] := by decide
        rw [List.intercalate_cons_cons, marks_append, marks_append, ih, hbreak, List.append_nil]
        rfl
  have hlast : (if ((cs.splitOn '\n').getLastD []).isEmpty then []
      else [(cs.splitOn '\n').getLastD []]).flatMap marks =
        marks ((cs.splitOn '\n').getLastD []) := by
    split
    · rename_i hempty
      rw [List.isEmpty_iff.1 hempty]
      rfl
    · exact List.flatMap_singleton ..
  have hpieces : (cs.splitOn '\n').dropLast ++ [(cs.splitOn '\n').getLastD []] =
      cs.splitOn '\n' := by
    rw [List.getLastD_eq_getLast?, List.getLast?_eq_some_getLast (List.splitOn_ne_nil _ _)]
    exact List.dropLast_concat_getLast _
  rw [lineList, List.flatMap_append, hlast, List.flatMap_map]
  simp only [marks_dropReturn]
  calc (cs.splitOn '\n').dropLast.flatMap marks ++ marks ((cs.splitOn '\n').getLastD [])
      = ((cs.splitOn '\n').dropLast ++ [(cs.splitOn '\n').getLastD []]).flatMap marks := by
        rw [List.flatMap_append, List.flatMap_singleton]
    _ = marks cs := by rw [hpieces, ← hjoin, List.intercalate_splitOn]

namespace Fragment

theorem not_mem_of_mem_codeLines (f : Fragment) {line : String} (h : line ∈ f.codeLines) :
    '\n' ∉ line.toList := by
  obtain ⟨own, hown, rfl⟩ := List.mem_map.1 h
  split
  · exact List.not_mem_nil
  · exact Text.not_mem_of_mem_lines hown

/-- The lines hold all of the code but blanks. -/
theorem marks_codeLines (f : Fragment) :
    f.codeLines.flatMap (Text.marks ·.toList) = Text.marks f.code.toList := by
  have hline (line : String) :
      Text.marks (if Text.isBlankText line then "" else line).toList = Text.marks line.toList := by
    split
    · rename_i hblank
      exact (Text.marks_of_isBlank (List.all_eq_true.1 hblank)).symm
    · rfl
  rw [codeLines, List.flatMap_map]
  simp only [hline]
  rw [Text.lines, List.flatMap_map]
  simp only [String.toList_ofList]
  rw [Text.flatMap_marks_lineList, Text.marks_trimEndChars]

end Fragment

/-! ### The text -/

namespace Typemap

variable {map : Typemap} {d : Direction} {f : Fragment}

theorem target_eq (temp : Option String) (pattern : String) :
    target temp pattern = Directive.targetText (pattern, temp) := by
  cases temp <;> simp [target, Directive.targetText, String.append_assoc]

theorem method_eq (d : Direction) (f : Fragment) :
    method d f = ",".intercalate (d.name :: f.options d) := by
  rw [← String.toList_inj, String.toList_intercalate]
  by_cases hinput : d = .input ∧ f.ignoreInput = true <;> cases hrank : f.precedence <;>
    simp [method, Fragment.options, hinput, hrank, List.intercalate]

theorem codeBody_eq (f : Fragment) :
    codeBody f.code = String.join (f.codeLines.map Directive.codeText) := by
  rw [codeBody, Fragment.codeLines, List.map_map]
  refine congrArg String.join (List.map_congr_left fun line _ ↦ ?_)
  rw [Function.comp_apply, codeLine, Directive.codeText]
  by_cases hblank : Text.isBlankText line = true
  · simp [hblank]
  · have hne : line ≠ "" := by
      rintro rfl
      exact hblank rfl
    simp [hblank, hne]

theorem directives_eq (map : Typemap) : map.directives = map.written.map Directive.text := by
  have htargets (temp : Option String) : map.patterns.map (target temp) =
      (map.patterns.map fun pattern ↦ (pattern, temp)).map Directive.targetText := by
    rw [List.map_map]
    exact List.map_congr_left fun pattern _ ↦ target_eq temp pattern
  have hopen : (" \x7b\n" : String) = " \x7b" ++ "\n" := rfl
  rw [directives, written, List.map_filterMap]
  refine congrArg (List.filterMap · _) (funext fun d ↦ ?_)
  rw [directive?, Option.map_map]
  refine congrArg (Option.map · _) (funext fun f ↦ ?_)
  rw [Function.comp_apply, directive, method_eq, codeBody_eq, htargets, Directive.text,
    Directive.head, hopen]
  simp only [beq_iff_eq, String.append_assoc]

/-- Whether the directives of a rule can be read back. -/
structure IsReadable (map : Typemap) : Prop where
  patterns_ne_nil : map.patterns ≠ []
  patterns : ∀ pattern ∈ map.patterns, Directive.IsPlain pattern
  temps : ∀ f ∈ map.fragment? .input, ∀ temp ∈ f.temp, Directive.IsPlain temp
  ranks : ∀ d, ∀ f ∈ map.fragment? d, ∀ rank ∈ f.precedence, Directive.IsOption (Text.upper rank)

theorem isOption_name (d : Direction) : Directive.IsOption d.name := by cases d <;> decide

theorem IsReadable.isOption (h : map.IsReadable) (hf : map.fragment? d = some f) :
    ∀ s ∈ d.name :: f.options d, Directive.IsOption s := by
  refine List.forall_mem_cons.2 ⟨isOption_name d, List.forall_mem_append.2 ⟨?_, ?_⟩⟩
  · split
    · decide
    · exact fun s hs ↦ (List.not_mem_nil hs).elim
  · intro s hs
    rw [Option.mem_toList] at hs
    obtain ⟨rank, hrank, rfl⟩ := Option.map_eq_some_iff.1 hs
    have hfront : Directive.IsOption " precedence=SWIG_TYPECHECK_" := by decide
    rw [Directive.IsOption, String.toList_append]
    exact List.forall_mem_append.2 ⟨hfront, h.ranks d f hf rank hrank⟩

theorem IsReadable.directive (h : map.IsReadable) {w : Directive}
    (hw : map.directive? d = some w) : w.IsReadable := by
  obtain ⟨f, hf, rfl⟩ := Option.map_eq_some_iff.1 hw
  refine ⟨h.isOption hf, mt List.map_eq_nil_iff.1 h.patterns_ne_nil, fun target htarget ↦ ?_,
    fun target htarget temp htemp ↦ ?_, fun line hline ↦ ?_⟩
  · obtain ⟨pattern, hpattern, rfl⟩ := List.mem_map.1 htarget
    exact h.patterns pattern hpattern
  · obtain ⟨pattern, -, rfl⟩ := List.mem_map.1 htarget
    by_cases hinput : d = .input
    · subst hinput
      exact h.temps f hf temp (by simpa using htemp)
    · simp [hinput] at htemp
  · simp only at hline
    exact f.not_mem_of_mem_codeLines hline

theorem reads_render (h : map.IsReadable) :
    Directive.Reads (map.render ++ "\n").toList map.written := by
  have hdirectives : Directive.Reads map.render.toList (map.written.flatMap fun w ↦ [w]) := by
    rw [render, directives_eq]
    refine .join fun w hw ↦ Directive.reads_text ?_
    obtain ⟨d, -, hw⟩ := List.mem_filterMap.1 hw
    exact h.directive hw
  have hblank : Directive.Reads ([] ++ ['\n']) [] := Directive.reads_line List.not_mem_nil rfl
  have hall := hdirectives.append hblank
  rw [List.append_nil, List.nil_append, List.flatMap_singleton'] at hall
  rwa [String.toList_append]

end Typemap

/-- Whether the uses of rules can be told from directives. -/
def MapApply.IsReadable (apply : MapApply) : Prop :=
  '\n' ∉ apply.source.toList ∧ ∀ target ∈ apply.targets, '\n' ∉ target.toList

instance (apply : MapApply) : Decidable apply.IsReadable :=
  inferInstanceAs (Decidable (_ ∧ ∀ target ∈ _, _))

theorem MapApply.reads_render {apply : MapApply} (h : apply.IsReadable) :
    Directive.Reads (apply.render ++ "\n").toList [] := by
  have htargets : '\n' ∉ (", ".intercalate apply.targets).toList := by
    rw [String.toList_intercalate]
    exact not_mem_intercalate (by decide) (List.forall_mem_map.2 h.2)
  rw [String.toList_append]
  refine Directive.reads_line ?_ ?_
  · simp only [render, String.toList_append, List.mem_append, not_or]
    exact ⟨⟨⟨⟨by decide, h.1⟩, by decide⟩, htargets⟩, by decide⟩
  · rw [render, String.toList_append, String.toList_append, String.toList_append,
      String.toList_append, List.append_assoc, List.append_assoc, List.append_assoc]
    rfl

namespace TypemapRules

variable {rules : TypemapRules} {origin : Origin}

theorem render_eq (rules : TypemapRules) (origin : Origin) : rules.render origin =
    Text.unlines ((rules.asked origin).reverse.map fun map ↦
      String.join (map.written.map Directive.text)) ++
    Text.unlines ((rules.applies.filter (·.1 == origin)).map (·.2.render)) := by
  have hmaps : (rules.maps.reverse.filter (·.1 == origin)).map (·.2.render) =
      (rules.asked origin).reverse.map fun map ↦ String.join (map.written.map Directive.text) := by
    rw [asked, List.filter_reverse, ← List.map_reverse, List.map_map]
    refine List.map_congr_left fun entry _ ↦ ?_
    rw [Function.comp_apply, ← Typemap.directives_eq, Typemap.render]
  rw [render, blocks, hmaps, Text.unlines, Text.unlines, Text.unlines, List.map_append,
    String.join_append]

/-- Whether the text for the rules of an origin can be read back: no parenthesis and no line break
stands inside a pattern or what is declared for it, and none ends the options of a directive. -/
structure IsReadable (rules : TypemapRules) (origin : Origin) : Prop where
  maps : ∀ map ∈ rules.asked origin, map.IsReadable
  applies : ∀ apply, (origin, apply) ∈ rules.applies → apply.IsReadable

/-- The text for the rules of an origin is read as the directives that were written. -/
theorem readAll_render (h : rules.IsReadable origin) :
    Directive.readAll (rules.render origin) = rules.written origin := by
  have hmaps : Directive.Reads (Text.unlines ((rules.asked origin).reverse.map fun map ↦
      String.join (map.written.map Directive.text))).toList (rules.written origin) := by
    rw [Text.unlines, List.map_map]
    refine .join fun map hmap ↦ ?_
    rw [Function.comp_apply, ← Typemap.directives_eq]
    exact Typemap.reads_render (h.maps map (List.mem_reverse.1 hmap))
  have happlied : Directive.Reads (Text.unlines ((rules.applies.filter (·.1 == origin)).map
      (·.2.render))).toList ((rules.applies.filter (·.1 == origin)).flatMap fun _ ↦ []) := by
    rw [Text.unlines, List.map_map]
    refine .join fun entry hentry ↦ ?_
    obtain ⟨hmem, horigin⟩ := List.mem_filter.1 hentry
    exact MapApply.reads_render (h.applies entry.2 (eq_of_beq horigin ▸ hmem))
  rw [List.flatMap_eq_nil_iff.2 fun _ _ ↦ rfl] at happlied
  have hall := hmaps.append happlied
  rw [List.append_nil, ← String.toList_append, ← render_eq] at hall
  exact hall.readAll_eq

/-- The text for the rules of an origin is made of directives, each with a line that names its
direction and its patterns and with the lines of its code, which hold all of the code but blanks.
For each direction these are the directives of all rules with a fragment for it, one for each, in
the reverse of the order in which the rules are asked. Of those that list a pattern, the one that is
written last is that of the first rule that is asked, of those that list the pattern and have a
fragment for the direction. The same directives are read back from the text, where it can be read.
-/
theorem last_written_eq_first_asked (rules : TypemapRules) (origin : Origin) :
    rules.render origin =
      Text.unlines ((rules.asked origin).reverse.map fun map ↦
        String.join (map.written.map Directive.text)) ++
      Text.unlines ((rules.applies.filter (·.1 == origin)).map (·.2.render)) ∧
    (∀ f : Fragment, f.codeLines.flatMap (Text.marks ·.toList) = Text.marks f.code.toList) ∧
    (∀ d, (rules.written origin).filter (·.direction == d.name) =
      (rules.asked origin).reverse.filterMap (·.directive? d)) ∧
    (∀ d pattern, rules.lastWritten? origin d pattern =
      (rules.firstAsked? origin d pattern).bind (·.directive? d)) ∧
    (rules.IsReadable origin → Directive.readAll (rules.render origin) = rules.written origin) :=
  ⟨render_eq rules origin, Fragment.marks_codeLines, fun _ ↦ filter_direction_written,
    fun _ _ ↦ lastWritten?_eq, readAll_render⟩

end TypemapRules

/-! Two rules of a module that both list strings, and a shared one. -/

namespace StringRules

def lists : Typemap where
  patterns := ["int n, wxString* choices", "wxString&"]
  fragments := [
    (.typecheck, { code := "$1 = 1;", precedence := some "string" }),
    (.input, { code := "$1 = n;\n \n$2 = all;\n", ignoreInput := true })]

def strings : Typemap where
  patterns := ["wxString&"]
  fragments := [(.input, { code := "$1 = &tmp;", temp := some "wxString tmp" })]

def rules : TypemapRules where
  maps := [(.own, strings), (.own, lists),
    (.shared, { patterns := ["wxString&"], fragments := [(.input, .ofCode "$1 = 0;")] })]
  applies := [(.own, ⟨"wxString&", ["wxString* OUTPUT", "wxString* INOUT"]⟩)]

def readStrings : Directive where
  direction := "in"
  targets := [("wxString&", some "wxString tmp")]
  code := ["$1 = &tmp;"]

end StringRules

open StringRules in
/-- The directive of the rule that is asked first is read last. -/
theorem string_directives_read : rules.IsReadable .own ∧
    Directive.readAll (rules.render .own) = [
      { direction := "in"
        options := ["numinputs=0"]
        targets := [("int n, wxString* choices", none), ("wxString&", none)]
        code := ["$1 = n;", "", "$2 = all;"] },
      { direction := "typecheck"
        options := [" precedence=SWIG_TYPECHECK_STRING"]
        targets := [("int n, wxString* choices", none), ("wxString&", none)]
        code := ["$1 = 1;"] },
      readStrings] ∧
    ((Directive.readAll (rules.render .own)).filter
      (Directive.defines "in" "wxString&")).getLast? = some readStrings := by
  obtain ⟨-, -, -, hlast, hread⟩ := TypemapRules.last_written_eq_first_asked rules .own
  have hstrings : strings.IsReadable :=
    ⟨by decide, by decide, by decide, fun d ↦ by cases d <;> decide⟩
  have hlists : lists.IsReadable :=
    ⟨by decide, by decide, by decide, fun d ↦ by cases d <;> decide⟩
  have hmaps : ∀ map ∈ [strings, lists], map.IsReadable :=
    List.forall_mem_cons.2 ⟨hstrings, List.forall_mem_singleton.2 hlists⟩
  have happlies : ∀ apply, (Origin.own, apply) ∈ rules.applies → apply.IsReadable := by
    intro apply h
    obtain rfl := (Prod.mk.inj (List.mem_singleton.1 h)).2
    decide
  have hreadable : rules.IsReadable .own := ⟨hmaps, happlies⟩
  refine ⟨hreadable, (hread hreadable).trans (by decide +kernel), ?_⟩
  rw [hread hreadable]
  exact (hlast .input "wxString&").trans (by decide +kernel)

end Bindery
