/-!
The choices that a policy can make by name.
-/

set_option autoImplicit false
set_option relaxedAutoImplicit false

namespace Bindery

/-- How the garbage collector treats the objects of a class. -/
inductive GcType
  | never
  | object
  | window
  | frame
  | dialog
  | event
  | sizer
  | temp
  deriving Repr, DecidableEq

namespace GcType

def all : List GcType := [.never, .object, .window, .frame, .dialog, .event, .sizer, .temp]

def name : GcType → String
  | .never => "never"
  | .object => "object"
  | .window => "window"
  | .frame => "frame"
  | .dialog => "dialog"
  | .event => "event"
  | .sizer => "sizer"
  | .temp => "temp"

/-- The directive that the interface file gives a class. -/
def directive : GcType → String
  | .never => "GC_NEVER"
  | .object => "GC_MANAGE_AS_OBJECT"
  | .window => "GC_MANAGE_AS_WINDOW"
  | .frame => "GC_MANAGE_AS_FRAME"
  | .dialog => "GC_MANAGE_AS_DIALOG"
  | .event => "GC_MANAGE_AS_EVENT"
  | .sizer => "GC_MANAGE_AS_SIZER"
  | .temp => "GC_MANAGE_AS_TEMP"

end GcType

/-- Kinds of declarations that a module can leave out. -/
inductive GenKind
  | typedefs
  | classes
  | variables
  | enums
  | defines
  | functions
  deriving Repr, DecidableEq

namespace GenKind

def all : List GenKind := [.typedefs, .classes, .variables, .enums, .defines, .functions]

def name : GenKind → String
  | .typedefs => "typedefs"
  | .classes => "classes"
  | .variables => "variables"
  | .enums => "enums"
  | .defines => "defines"
  | .functions => "functions"

end GenKind

/-- Sections of the interface file that a policy can write code into. -/
inductive CodeSection
  | header
  | begin
  | swigBegin
  | runtime
  | swig
  | wrapper
  | init
  /-- Stands in place of the include of the interface header. -/
  | interface
  deriving Repr, DecidableEq

namespace CodeSection

def all : List CodeSection :=
  [.header, .begin, .swigBegin, .runtime, .swig, .wrapper, .init, .interface]

def name : CodeSection → String
  | .header => "header"
  | .begin => "begin"
  | .swigBegin => "swig_begin"
  | .runtime => "runtime"
  | .swig => "swig"
  | .wrapper => "wrapper"
  | .init => "init"
  | .interface => "interface"

end CodeSection

end Bindery
