import Bindery.Proofs.Package.Emission
import Bindery.Proofs.Package.Verdict

/-!
Calls do not depend on their history. In an orderly package each call has one effect
(`exists_hasEffect`): in every settled session it ends with the same reply, and leaves the same
texts behind. Sessions stay settled, so that a call returns the same after any two sequences of
calls, and the outputs of a module hold the same texts when both sequences have generated them
(`perform_after_any_calls`).

A reply is compared up to the flag that tells whether a stub had to be written, which is a matter of
history (`perform_depends_on_history`).
-/

set_option autoImplicit false
set_option relaxedAutoImplicit false

namespace Bindery

/-- A reply that does not tell whether a stub had to be written. -/
def Reply.unflagged : Reply → Reply
  | .doc _ => .doc false
  | reply => reply

/-- The flag of a reply about a stub. -/
def Reply.flag? : Reply → Option Bool
  | .doc written => some written
  | _ => none

namespace Package

variable {package : Package} {files : Files} {s t u : Session} {policy : Policy}
  {extraction : Extraction} {module : String}

/-! ### The effect of a call -/

/-- In every settled session the run ends in the same way, up to flags, and leaves the same texts
behind. -/
def Effects (package : Package) (files : Files) (starts : Session → Prop) (x : Run Reply)
    (reply : Except Error Reply) (texts : List (String × String)) : Prop :=
  ∀ s, package.Settled files s → starts s → ∃ outcome t, x.run s = (outcome, t) ∧
    outcome.map Reply.unflagged = reply ∧ package.Settled files t ∧
    ∀ place, t.files.content? place = (Files.lastText? texts place).or (s.files.content? place)

/-- The effect of a call. -/
structure HasEffect (package : Package) (files : Files) (call : Call) (reply : Except Error Reply)
    (texts : List (String × String)) : Prop where
  /-- Only outputs of a module of the package are written. -/
  outputs : ∀ entry ∈ texts, call.module ∈ package.moduleNames ∧
    entry.1 ∈ package.outputs call.kind call.module
  effects : package.Effects files (fun _ ↦ True) (package.perform call) reply texts

/-- A run that leaves all settled sessions as they are, and ends in one way. -/
theorem effects_of_still {starts : Session → Prop} {x : Run Reply} (outcome : Except Error Reply)
    (h : ∀ s, package.Settled files s → starts s → x.run s = (outcome, s)) :
    package.Effects files starts x (outcome.map Reply.unflagged) [] :=
  fun s hs hstart ↦ ⟨outcome, s, h s hs hstart, rfl, hs, fun _ ↦ rfl⟩

/-- Writing outputs keeps a session settled. -/
theorem Settled.withFiles (hs : package.Settled files s) {later : Files}
    (hlater : Files.Grown package.allOutputs files later) :
    package.Settled files { s with files := later } where
  coherent := ⟨hlater, hs.coherent.kept, hs.coherent.indexed, hs.coherent.registered⟩
  passed := hs.passed
  exact := hs.exact

section Orderly

variable (horderly : package.Orderly files)

include horderly

/-- Modules that have passed have the same interfaces in all settled sessions. -/
theorem Settled.agreeOn (hs : package.Settled files s) (ht : package.Settled files t)
    (h : package.Extracts files policy extraction) (hchecked : policy.moduleName ∈ s.checked)
    (hlater : policy.moduleName ∈ t.checked) :
    View.AgreeOn ⟨policy, extraction.module⟩ s.registry t.registry := by
  intro c hc
  have hname := h.mem_generatedNames hc
  rw [horderly.className_eq h.mem, hs.interface?_eq horderly h hchecked hname,
    ht.interface?_eq horderly h hlater hname]

/-- The code of a module that has passed. -/
theorem exists_effects_emitCode (h : package.Extracts files policy extraction)
    (hs : package.Settled files s) (hchecked : policy.moduleName ∈ s.checked) :
    ∃ reply texts, (∀ entry ∈ texts, entry.1 ∈ package.outputs .code policy.moduleName) ∧
      package.Effects files (policy.moduleName ∈ ·.checked)
        (package.emit ⟨.code, policy.moduleName⟩ extraction) reply texts := by
  have hsame {t : Session} (ht : package.Settled files t)
      (hlater : policy.moduleName ∈ t.checked) :
      package.codeTexts policy.moduleName extraction t.registry =
        package.codeTexts policy.moduleName extraction s.registry :=
    codeTexts_congr (policy_of_mem h.mem) (ht.agreeOn horderly hs h hlater hchecked)
  cases htexts : package.codeTexts policy.moduleName extraction s.registry with
  | error e =>
    rw [htexts] at hsame
    refine ⟨_, [], List.forall_mem_nil _, effects_of_still (.error e) fun t ht hlater ↦ ?_⟩
    rw [emit, emitCode]
    refine Run.run_bind_of_error ?_ _
    rw [Run.run_get_bind, hsame ht hlater]
    exact Run.run_bind_of_error (Run.run_ofExcept _ t) _
  | ok texts =>
    have hpaths := mem_outputs_of_codeTexts htexts
    let outcome : Except Error Unit :=
      if texts.all fun entry ↦ (files.write entry.1 entry.2).1 then .ok () else .error .io
    refine ⟨(outcome.map fun _ ↦ Reply.code).map Reply.unflagged, files.writable texts,
      fun entry hentry ↦ ?_, fun t ht hlater ↦ ?_⟩
    · exact hpaths entry ((List.takeWhile_sublist _).subset hentry)
    · rw [htexts] at hsame
      obtain ⟨later, hrun, hgrown, hcontent⟩ := Run.run_writeTexts horderly.separateOutputs
        ht.coherent.grown fun entry hentry ↦ mem_allOutputs h.mem (hpaths entry hentry)
      have hemit : (package.emitCode policy.moduleName extraction).run t =
          (outcome, { t with files := later }) := by
        rw [emitCode, Run.run_get_bind, hsame ht hlater, Run.run_ofExcept_bind_ok, hrun]
      exact ⟨_, _, Run.run_bind_pure hemit fun _ ↦ Reply.code, rfl, ht.withFiles hgrown, hcontent⟩

/-- The documentation of a module that has passed. -/
theorem exists_effects_emitDoc (h : package.Extracts files policy extraction)
    (hs : package.Settled files s) (hchecked : policy.moduleName ∈ s.checked) :
    ∃ reply texts, (∀ entry ∈ texts, entry.1 ∈ package.outputs .doc policy.moduleName) ∧
      package.Effects files (policy.moduleName ∈ ·.checked)
        (package.emit ⟨.doc, policy.moduleName⟩ extraction) reply texts := by
  have hsame {t : Session} (ht : package.Settled files t)
      (hlater : policy.moduleName ∈ t.checked) :
      package.docText policy.moduleName extraction t.registry =
        package.docText policy.moduleName extraction s.registry :=
    docText_congr (policy_of_mem h.mem) (ht.agreeOn horderly hs h hlater hchecked)
  cases htext : package.docText policy.moduleName extraction s.registry with
  | error e =>
    rw [htext] at hsame
    refine ⟨_, [], List.forall_mem_nil _, effects_of_still (.error e) fun t ht hlater ↦ ?_⟩
    refine Run.run_bind_of_error ?_ _
    rw [emitDoc, Run.run_get_bind, hsame ht hlater]
    exact Run.run_bind_of_error (Run.run_ofExcept _ t) _
  | ok text =>
    rw [htext] at hsame
    let path := package.config.docFile policy.moduleName
    have hpath : path ∈ package.outputs .doc policy.moduleName := List.mem_singleton_self _
    have hemit {t : Session} (ht : package.Settled files t)
        (hlater : policy.moduleName ∈ t.checked) :
        (package.emitDoc policy.moduleName extraction).run t =
          (Run.writeIfChanged path text).run t := by
      rw [emitDoc, Run.run_get_bind, hsame ht hlater, Run.run_ofExcept_bind_ok]
    cases hwritable : (files.write path text).1 with
    | true =>
      refine ⟨.ok (.doc false), [(path, text)], fun entry hentry ↦ ?_, fun t ht hlater ↦ ?_⟩
      · rw [List.mem_singleton] at hentry
        subst hentry
        dsimp only
        exact hpath
      · obtain ⟨written, later, hrun, hgrown, hcontent⟩ :=
          Run.run_writeIfChanged_of_writable horderly.separateOutputs ht.coherent.grown
            (mem_allOutputs h.mem hpath) hwritable
        rw [← hemit ht hlater] at hrun
        refine ⟨_, _, Run.run_bind_pure hrun Reply.doc, rfl, ht.withFiles hgrown, fun place ↦ ?_⟩
        rw [hcontent, Files.lastText?, Files.lastText?, Option.none_or]
    | false =>
      refine ⟨.error .io, [], List.forall_mem_nil _, fun t ht hlater ↦ ?_⟩
      obtain ⟨later, hrun, hgrown, hcontent⟩ :=
        Run.run_writeIfChanged_of_not_writable horderly.separateOutputs ht.coherent.grown
          (mem_allOutputs h.mem hpath) hwritable
      rw [← hemit ht hlater] at hrun
      exact ⟨_, _, Run.run_bind_pure hrun Reply.doc, rfl, ht.withFiles hgrown, hcontent⟩

/-- What a call does after its module has passed. -/
theorem exists_effects_emit (kind : CallKind) (h : package.Extracts files policy extraction)
    (hs : package.Settled files s) (hchecked : policy.moduleName ∈ s.checked) :
    ∃ reply texts, (∀ entry ∈ texts, entry.1 ∈ package.outputs kind policy.moduleName) ∧
      package.Effects files (policy.moduleName ∈ ·.checked)
        (package.emit ⟨kind, policy.moduleName⟩ extraction) reply texts := by
  cases kind with
  | analyze =>
    exact ⟨_, [], List.forall_mem_nil _,
      effects_of_still (.ok (.extraction extraction)) fun t _ _ ↦ rfl⟩
  | code => exact exists_effects_emitCode horderly h hs hchecked
  | doc => exact exists_effects_emitDoc horderly h hs hchecked

/-- Each call has one effect. -/
theorem exists_hasEffect (call : Call) :
    ∃ reply texts, package.HasEffect files call reply texts := by
  obtain ⟨kind, module⟩ := call
  cases hpolicy : package.policy module with
  | error e =>
    refine ⟨_, [], List.forall_mem_nil _, effects_of_still (.error e) fun s _ _ ↦ ?_⟩
    have hprepare : (package.prepare module).run s = (.error e, s) := by
      rw [prepare, hpolicy]
      exact Run.run_bind_of_error (Run.run_ofExcept _ s) _
    rw [perform_eq]
    exact Run.run_bind_of_error (Run.run_bind_of_error hprepare _) _
  | ok policy =>
    obtain ⟨hmem, rfl⟩ := mem_of_policy hpolicy
    obtain ⟨extraction, h⟩ := horderly.exists_extracts hmem
    cases hverdict : package.verdict files ⟨policy, extraction.module⟩ with
    | error e =>
      refine ⟨.error e, [], List.forall_mem_nil _, fun s hs _ ↦ ?_⟩
      obtain ⟨t, hrun, ht, hfiles, -⟩ := run_analyze horderly hs h
      rw [hverdict] at hrun
      rw [perform_eq]
      refine ⟨.error e, t, Run.run_bind_of_error hrun _, rfl, ht, fun place ↦ ?_⟩
      rw [hfiles]
      rfl
    | ok report =>
      have hok : (package.verdict files ⟨policy, extraction.module⟩).isOk = true := by
        rw [hverdict]
        rfl
      obtain ⟨start, -, hstart, -, hchecked⟩ :=
        run_analyze horderly (settled_start package files) h
      obtain ⟨reply, texts, hpaths, heffects⟩ :=
        exists_effects_emit horderly kind h hstart (hchecked hok)
      refine ⟨reply, texts, fun entry hentry ↦ ⟨List.mem_map_of_mem hmem, hpaths entry hentry⟩,
        fun s hs _ ↦ ?_⟩
      obtain ⟨t, hrun, ht, hfiles, hlater⟩ := run_analyze horderly hs h
      rw [hverdict] at hrun
      obtain ⟨outcome, u, hemit, hreply, hu, hcontent⟩ := heffects t ht (hlater hok)
      rw [perform_eq]
      refine ⟨outcome, u, ?_, hreply, hu, fun place ↦ ?_⟩
      · rw [Run.run_bind_of_ok hrun]
        exact hemit
      · rw [hcontent, hfiles]

omit horderly in
/-- An analysis writes nothing. -/
theorem files_analyze (package : Package) (module : String) (s : Session) :
    ((package.analyze module).run s).2.files = s.files := by
  rcases package.analyze_cases module s with
    ⟨e, t, hrun, hst, -⟩ | ⟨policy, extraction, t, hrun, hst, -⟩ |
      ⟨policy, extraction, t, hrun, hst, -⟩ <;> rw [hrun] <;> exact hst.files

omit horderly in
/-- The flag of a stub tells whether its file could not be read with the text that it holds
afterwards. -/
theorem written_iff {written : Bool}
    (h : (package.perform ⟨.doc, module⟩).run s = (.ok (.doc written), t)) :
    written = true ↔ s.files.read? (package.config.docFile module) ≠
      t.files.content? (Files.destination (package.config.docFile module)) := by
  rw [perform_eq] at h
  obtain ⟨extraction, u, hanalyze, h⟩ := Run.run_bind_eq_ok.1 h
  have hfiles : u.files = s.files := by
    rw [← files_analyze package module s, hanalyze]
  obtain ⟨flag, v, hemit, h⟩ := Run.run_bind_eq_ok.1 h
  cases h
  rw [emitDoc, Run.run_get_bind] at hemit
  obtain ⟨text, w, htext, hwrite⟩ := Run.run_bind_eq_ok.1 hemit
  rw [Run.run_ofExcept] at htext
  have hsame : w = u := (congrArg Prod.snd htext).symm
  obtain ⟨hcontent, hflag⟩ := Run.writeIfChanged_eq_ok hwrite
  rw [hcontent, ← hfiles, ← hsame]
  exact hflag

/-! ### Sequences of calls -/

/-- No file is an output of two modules. -/
theorem Orderly.module_eq_of_destination_eq {kind otherKind : CallKind} {other : Policy}
    (hpolicy : policy ∈ package.policies) (hother : other ∈ package.policies)
    {path next : String} (hpath : path ∈ package.outputs kind policy.moduleName)
    (hnext : next ∈ package.outputs otherKind other.moduleName)
    (heq : Files.destination path = Files.destination next) : policy = other := by
  by_contra hne
  have houtputs := horderly.outputs
  rw [allOutputs, List.map_flatMap, List.nodup_flatMap] at houtputs
  have hsymm : Std.Symm (Function.onFun List.Disjoint fun policy : Policy ↦
      (package.moduleOutputs policy.moduleName).map Files.destination) :=
    ⟨fun _ _ hdisjoint _ hfirst hsecond ↦ hdisjoint hsecond hfirst⟩
  refine houtputs.2.forall hpolicy hother hne (List.mem_map_of_mem (mem_moduleOutputs hpath)) ?_
  rw [heq]
  exact List.mem_map_of_mem (mem_moduleOutputs hnext)

/-- No file is an output of two kinds of calls for one module. -/
theorem Orderly.kind_eq_of_destination_eq {kind other : CallKind}
    (hpolicy : policy ∈ package.policies) {path next : String}
    (hpath : path ∈ package.outputs kind policy.moduleName)
    (hnext : next ∈ package.outputs other policy.moduleName)
    (heq : Files.destination path = Files.destination next) : kind = other := by
  have houtputs := horderly.outputs
  rw [allOutputs, List.map_flatMap, List.nodup_flatMap] at houtputs
  have hnodup := houtputs.1 policy hpolicy
  rw [moduleOutputs, List.map_append, List.nodup_append] at hnodup
  have hapart {code doc : String} (hcode : code ∈ package.outputs .code policy.moduleName)
      (hdoc : doc ∈ package.outputs .doc policy.moduleName) :
      Files.destination code ≠ Files.destination doc :=
    hnodup.2.2 _ (List.mem_map_of_mem hcode) _ (List.mem_map_of_mem hdoc)
  cases kind with
  | analyze => exact (List.not_mem_nil hpath).elim
  | code =>
    cases other with
    | analyze => exact (List.not_mem_nil hnext).elim
    | code => rfl
    | doc => exact (hapart hpath hnext heq).elim
  | doc =>
    cases other with
    | analyze => exact (List.not_mem_nil hnext).elim
    | code => exact (hapart hnext hpath heq.symm).elim
    | doc => rfl

/-- No file is an output of two calls. -/
theorem Orderly.call_eq_of_destination_eq {call other : Call}
    (hmodule : call.module ∈ package.moduleNames) (hother : other.module ∈ package.moduleNames)
    {path next : String} (hpath : path ∈ package.outputs call.kind call.module)
    (hnext : next ∈ package.outputs other.kind other.module)
    (heq : Files.destination path = Files.destination next) : call = other := by
  obtain ⟨kind, module⟩ := call
  obtain ⟨otherKind, otherModule⟩ := other
  obtain ⟨policy, hpolicy, rfl⟩ := List.mem_map.1 hmodule
  obtain ⟨second, hsecond, rfl⟩ := List.mem_map.1 hother
  obtain rfl := horderly.module_eq_of_destination_eq hpolicy hsecond hpath hnext heq
  obtain rfl := horderly.kind_eq_of_destination_eq hpolicy hpath hnext heq
  rfl

/-- Every sequence of calls ends in a settled session. -/
theorem settled_after (calls : List Call) :
    package.Settled files (package.after { files } calls) := by
  induction calls using List.reverseRecOn with
  | nil => exact settled_start package files
  | append_singleton calls call ih =>
    obtain ⟨reply, texts, heffect⟩ := exists_hasEffect horderly call
    obtain ⟨outcome, t, hrun, -, ht, -⟩ := heffect.effects _ ih trivial
    rw [after_concat, hrun]
    exact ht

/-- An output holds what the calls for it write, if there has been one, and is as it was at the
start otherwise. -/
theorem content?_after {call : Call} {reply : Except Error Reply} {texts : List (String × String)}
    (heffect : package.HasEffect files call reply texts)
    (hmodule : call.module ∈ package.moduleNames) {path : String}
    (hpath : path ∈ package.outputs call.kind call.module) (calls : List Call) :
    (package.after { files } calls).files.content? (Files.destination path) =
      if call ∈ calls then (Files.lastText? texts (Files.destination path)).or
        (files.content? (Files.destination path))
      else files.content? (Files.destination path) := by
  induction calls using List.reverseRecOn with
  | nil => rfl
  | append_singleton calls next ih =>
    have hsettled := settled_after horderly calls
    rw [after_concat]
    by_cases hnext : next = call
    · subst hnext
      obtain ⟨outcome, t, hrun, -, -, hcontent⟩ := heffect.effects _ hsettled trivial
      rw [hrun, hcontent, ih, if_pos (List.mem_append_right _ (List.mem_singleton_self _))]
      split
      · rw [← Option.or_assoc, Option.or_self]
      · rfl
    · obtain ⟨nextReply, nextTexts, hnextEffect⟩ := exists_hasEffect horderly next
      obtain ⟨outcome, t, hrun, -, -, hcontent⟩ := hnextEffect.effects _ hsettled trivial
      have hnone : Files.lastText? nextTexts (Files.destination path) = none := by
        rw [← Option.not_isSome_iff_eq_none, Option.isSome_iff_exists]
        rintro ⟨text, htext⟩
        obtain ⟨entry, hentry, heq⟩ := Files.exists_of_lastText?_eq_some htext
        obtain ⟨hnextModule, houtput⟩ := hnextEffect.outputs entry hentry
        exact hnext (horderly.call_eq_of_destination_eq hnextModule hmodule houtput hpath heq)
      rw [hrun, hcontent, hnone, Option.none_or, ih]
      simp only [List.mem_append, List.mem_singleton, Ne.symm hnext, or_false]

/-- In an orderly package a call returns the same after any two sequences of calls, up to the flag
that tells whether a stub had to be written, which compares the file before and after the call.
After the call, the outputs of its module hold the same texts, for each kind of call that both
sequences hold, or neither of them. -/
theorem perform_after_any_calls (calls others : List Call) (call : Call) :
    ((package.perform call).run (package.after { files } calls)).1.map Reply.unflagged =
        ((package.perform call).run (package.after { files } others)).1.map Reply.unflagged ∧
      (∀ written t, (package.perform ⟨.doc, call.module⟩).run (package.after { files } calls) =
          (.ok (.doc written), t) →
        (written = true ↔ (package.after { files } calls).files.read?
          (package.config.docFile call.module) ≠
            t.files.content? (Files.destination (package.config.docFile call.module)))) ∧
      (call.module ∈ package.moduleNames → ∀ kind,
        (⟨kind, call.module⟩ ∈ calls ++ [call] ↔ ⟨kind, call.module⟩ ∈ others ++ [call]) →
          ∀ path ∈ package.outputs kind call.module,
            (package.after { files } (calls ++ [call])).files.content? (Files.destination path) =
              (package.after { files } (others ++ [call])).files.content?
                (Files.destination path)) := by
  refine ⟨?_, fun written t h ↦ written_iff h, fun hmodule kind hcalls path hpath ↦ ?_⟩
  · obtain ⟨reply, texts, heffect⟩ := exists_hasEffect horderly call
    obtain ⟨outcome, t, hrun, hreply, -⟩ :=
      heffect.effects _ (settled_after horderly calls) trivial
    obtain ⟨other, u, hother, hsame, -⟩ :=
      heffect.effects _ (settled_after horderly others) trivial
    rw [hrun, hother, hreply, hsame]
  · obtain ⟨reply, texts, heffect⟩ := exists_hasEffect horderly ⟨kind, call.module⟩
    rw [content?_after horderly heffect hmodule hpath,
      content?_after horderly heffect hmodule hpath]
    simp only [hcalls]

end Orderly

/-! ### Two orders -/

namespace Drawing

theorem orderly_drawing : drawing.Orderly .empty where
  prepares := by decide +kernel
  generates := by decide +kernel
  plain := by decide +kernel
  outputs := by decide +kernel
  separate := by decide +kernel

/-- The drawing with headers that go below the interface file of the shapes. -/
def blocking : Package :=
  { drawing with config := { swigDir := "out", includeDir := "out/Shapes.i" } }

theorem regular_blocking : blocking.Regular .empty where
  prepares := by decide +kernel
  generates := by decide +kernel
  plain := by decide +kernel
  outputs := by decide +kernel

end Drawing

open Drawing in
/-- Circles are documented alike, whether shapes have been generated before or not. -/
theorem perform_circles_after_shapes :
    ((drawing.perform ⟨.doc, "Circles"⟩).run (drawing.after {} [])).1.map Reply.unflagged =
        ((drawing.perform ⟨.doc, "Circles"⟩).run
          (drawing.after {} [⟨.code, "Shapes"⟩, ⟨.doc, "Circles"⟩])).1.map Reply.unflagged ∧
      ∀ path ∈ drawing.outputs .doc "Circles",
        (drawing.after {} ([] ++ [⟨.doc, "Circles"⟩])).files.content? (Files.destination path) =
          (drawing.after {} ([⟨.code, "Shapes"⟩, ⟨.doc, "Circles"⟩] ++
            [⟨.doc, "Circles"⟩])).files.content? (Files.destination path) := by
  obtain ⟨hreply, -, hcontent⟩ := perform_after_any_calls orderly_drawing []
    [⟨.code, "Shapes"⟩, ⟨.doc, "Circles"⟩] ⟨.doc, "Circles"⟩
  have hmodule : "Circles" ∈ drawing.moduleNames := by decide +kernel
  exact ⟨hreply, hcontent hmodule .doc (by decide)⟩

open Drawing in
/-- What depends on history. A stub is written once, and not again. An analysis leaves the stub as
it finds it. An interface file can stand where another module has to make a directory. -/
theorem perform_depends_on_history :
    (drawing.Regular .empty ∧
      ((drawing.perform ⟨.doc, "Circles"⟩).run (drawing.after {} [])).1.toOption.bind
          Reply.flag? = some true ∧
      ((drawing.perform ⟨.doc, "Circles"⟩).run
          (drawing.after {} [⟨.doc, "Circles"⟩])).1.toOption.bind Reply.flag? = some false ∧
      ∃ path ∈ drawing.outputs .doc "Circles",
        (drawing.after {} ([] ++ [⟨.analyze, "Circles"⟩])).files.content?
            (Files.destination path) ≠
          (drawing.after {} ([⟨.doc, "Circles"⟩] ++ [⟨.analyze, "Circles"⟩])).files.content?
            (Files.destination path)) ∧
    blocking.Regular .empty ∧
      ((blocking.perform ⟨.code, "Circles"⟩).run (blocking.after {} [])).1.isOk = true ∧
      ((blocking.perform ⟨.code, "Circles"⟩).run
        (blocking.after {} [⟨.code, "Shapes"⟩])).1.isOk = false := by
  refine ⟨⟨orderly_drawing.toRegular, ?_⟩, regular_blocking, ?_⟩
  · decide +kernel
  · decide +kernel

end Package

end Bindery
