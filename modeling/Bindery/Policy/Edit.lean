import Bindery.Policy.Basic

/-!
Edits of a policy. A policy is made by applying edits in order; where two of them set the same thing
the later one counts, and what they add is kept in the order of the edits.
-/

set_option autoImplicit false
set_option relaxedAutoImplicit false

namespace Bindery

inductive Edit
  | ignore (names : List String) (ignoreDoc : Bool)
  | regard (names : List String) (regardDoc : Bool)
  | onlyFor (platform : Guard) (names : List String)
  | rename (target : String) (sources : List String)
  | renameForRuby (target : String) (sources : List String)
  | foldBases (className : String) (bases : List String)
  | ignoreBases (className : String) (bases : List String)
  | overrideBase (className base : String)
  | overrideInheritanceChain (className : String) (chain : List String)
  | disown (decl : String) (disown : Bool)
  | newObject (decl : String)
  | extendCode (className code : String)
  | extendInterface (className : String) (visibility : Protection) (decls : List String)
  | makeAbstract (className : String)
  | makeMixin (className : String)
  /-- For some classes, or for all others of the module when none is named. -/
  | gc (kind : GcType) (classes : List String)
  | noProxy (names : List String)
  | forceProxy (className : String)
  | disableProxies
  | map (typemap : Typemap)
  | mapApply (apply : MapApply)
  | paramMapping (className : String) (mapping : ParamMapping)
  | includeHeader (header : String)
  | swigInclude (file : String)
  | swigImport (file : String) (append : Bool)
  | code (part : CodeSection) (code : String)
  | warnFilter (warning : Nat) (decls : List String)
  | doNotGenerate (kinds : List GenKind)
  | templateAsClass (template className : String)
  | setItems (items : List String)
  | addItems (items : List String)

namespace Policy

/-- Decides on a name. The decision takes the place behind all earlier ones, so that decisions on
overlapping names are replayed in the order in which they were made. -/
def setVisibility (policy : Policy) (decision : Visibility) (name : String) : Policy :=
  { policy with visibility := policy.visibility.setLast name decision }

def apply (policy : Policy) : Edit → Policy
  | .ignore names ignoreDoc =>
    names.foldl (fun policy name ↦ policy.setVisibility ⟨true, ignoreDoc⟩ name) policy
  | .regard names regardDoc =>
    names.foldl (fun policy name ↦ policy.setVisibility ⟨false, !regardDoc⟩ name) policy
  | .onlyFor platform names =>
    { policy with onlyFor := policy.onlyFor ++ [(platform, names)] }
  | .rename target sources =>
    { policy with renames := policy.renames.alter target [] (· ++ sources) }
  | .renameForRuby target sources =>
    { policy with rubyRenames := policy.rubyRenames.alter target [] (· ++ sources) }
  | .foldBases className bases =>
    { policy with
      foldedBases := policy.foldedBases.alter className [] fun known ↦ addAllNew known bases }
  | .ignoreBases className bases =>
    { policy with
      ignoredBases := policy.ignoredBases.alter className [] fun known ↦ addAllNew known bases }
  | .overrideBase className base =>
    { policy with overrideBases := policy.overrideBases.set className base }
  | .overrideInheritanceChain className chain =>
    { policy with inheritanceChains := policy.inheritanceChains.set className chain }
  | .disown decl disown => { policy with disowns := policy.disowns ++ [(decl, disown)] }
  | .newObject decl => { policy with newObjects := policy.newObjects ++ [decl] }
  | .extendCode className code =>
    { policy with extendCode := policy.extendCode.alter className [] (· ++ [code]) }
  | .extendInterface className visibility decls =>
    { policy with
      interfaceExtensions := policy.interfaceExtensions.alter className []
        (· ++ decls.map fun decl ↦ (visibility, decl)) }
  | .makeAbstract className => { policy with abstracts := addSorted className policy.abstracts }
  | .makeMixin className => { policy with mixins := addNew policy.mixins className }
  | .gc kind [] => { policy with gcDefault := some kind }
  | .gc kind classes =>
    { policy with
      gcTypes := classes.foldl (fun types className ↦ types.set className kind) policy.gcTypes }
  | .noProxy names => { policy with noProxies := addAllNew policy.noProxies names }
  | .forceProxy className =>
    { policy with forcedProxies := addSorted className policy.forcedProxies }
  | .disableProxies => { policy with disabledProxies := true }
  | .map typemap => { policy with typemaps := policy.typemaps ++ [typemap] }
  | .mapApply apply => { policy with mapApplies := policy.mapApplies ++ [apply] }
  | .paramMapping className mapping =>
    { policy with paramMappings := policy.paramMappings.alter className [] (· ++ [mapping]) }
  | .includeHeader header => { policy with includes := addNew policy.includes header }
  | .swigInclude file => { policy with swigIncludes := addNew policy.swigIncludes file }
  | .swigImport file append =>
    if append then { policy with swigImportsAppend := addNew policy.swigImportsAppend file }
    else { policy with swigImportsPrepend := addNew policy.swigImportsPrepend file }
  | .code part code => { policy with code := policy.code ++ [(part, code)] }
  | .warnFilter warning decls =>
    { policy with warnFilters := policy.warnFilters.alter warning [] (· ++ decls) }
  | .doNotGenerate kinds => { policy with skipped := addAllNew policy.skipped kinds }
  | .templateAsClass template className =>
    { policy with templatesAsClass := policy.templatesAsClass.set template className }
  | .setItems items => { policy with items }
  | .addItems items => { policy with items := policy.items ++ items }

def applyAll (policy : Policy) (edits : List Edit) : Policy := edits.foldl apply policy

end Policy

end Bindery
