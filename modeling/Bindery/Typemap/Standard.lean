import Bindery.Typemap.Basic

/-!
The rules that every module shares: strings, sizes and points, arrays, windows and events, and
output integers.
-/

set_option autoImplicit false
set_option relaxedAutoImplicit false

namespace Bindery.Typemap.Standard

def codeLines (lines : List String) : String := "\n".intercalate lines

/-- Stores the integer that the caller gave back. -/
def outputIntCode : String := codeLines [
  "if(output != Qnil)",
  "\x7b",
  "  *$1 = (int)NUM2INT(output);",
  "\x7d",
  "else",
  "\x7b",
  "  *$1 = 0;",
  "\x7d"]

/-- Takes an object or a pair of integers. -/
def pairInCode : String := codeLines [
  "if ( TYPE($input) == T_DATA )",
  "\x7b",
  "  void* argp$argnum;",
  "  SWIG_ConvertPtr($input, &argp$argnum, $1_descriptor, 1 );",
  "  $1 = reinterpret_cast< $1_basetype * >(argp$argnum);",
  "\x7d",
  "else if ( TYPE($input) == T_ARRAY )",
  "\x7b",
  "  $1 = new $1_basetype( NUM2INT( rb_ary_entry($input, 0) ),",
  "                       NUM2INT( rb_ary_entry($input, 1) ) );",
  "  SWIG_NewPointerObj($1, $1_descriptor, 1);",
  "\x7d",
  "else",
  "\x7b",
  "  rb_raise(rb_eTypeError, \"Wrong type for $1_basetype parameter\");",
  "\x7d"]

def pairCheckCode : String := codeLines [
  "void *vptr = 0;",
  "$1 = 0;",
  "if (TYPE($input) == T_ARRAY && RARRAY_LEN($input) == 2)",
  "  $1 = 1;",
  "else if (TYPE($input) == T_DATA && SWIG_CheckState (SWIG_ConvertPtr ($input, &vptr, $1_descriptor, 0)))",
  "  $1 = 1;"]

/-- Takes an array of strings as a count and a buffer. -/
def stringRunInCode : String := codeLines [
  "if (($input == Qnil) || (TYPE($input) != T_ARRAY))",
  "\x7b",
  "  $1 = 0;",
  "  $2 = NULL;",
  "\x7d",
  "else",
  "\x7b",
  "  arr = new wxString[ RARRAY_LEN($input) ];",
  "  for (int i = 0; i < RARRAY_LEN($input); i++)",
  "  \x7b",
  "    VALUE str = rb_ary_entry($input,i);",
  "    arr[i] = wxString(StringValuePtr(str), wxConvUTF8);",
  "  \x7d",
  "  $1 = RARRAY_LEN($input);",
  "  $2 = arr;",
  "\x7d"]

def stringArrayInCode : String := codeLines [
  "if (($input != Qnil) && (TYPE($input) == T_ARRAY))",
  "\x7b",
  "  for (int i = 0; i < RARRAY_LEN($input); i++)",
  "  \x7b",
  "    VALUE str = rb_ary_entry($input, i);",
  "    tmp.Add(wxString(StringValuePtr(str), wxConvUTF8));",
  "  \x7d",
  "\x7d",
  "$1 = &tmp;"]

def stringArrayOutCode : String := codeLines [
  "$result = rb_ary_new();",
  "for (size_t i = 0; i < $1.GetCount(); i++)",
  "\x7b",
  "  rb_ary_push($result, WXSTR_TO_RSTR($1.Item(i)));",
  "\x7d"]

def intArrayInCode : String := codeLines [
  "if (($input != Qnil) && (TYPE($input) == T_ARRAY))",
  "\x7b",
  "  for (int i = 0; i < RARRAY_LEN($input); i++)",
  "  \x7b",
  "    tmp.Add(NUM2INT(rb_ary_entry($input, i)));",
  "  \x7d",
  "\x7d",
  "$1 = &tmp;"]

def intArrayOutCode : String := codeLines [
  "$result = rb_ary_new();",
  "for (size_t i = 0; i < $1.GetCount(); i++)",
  "\x7b",
  "  rb_ary_push($result, INT2NUM($1.Item(i)));",
  "\x7d"]

/-- Refuses a window before there is an application. -/
def parentCheckCode : String := codeLines [
  "if (!rb_const_defined(wxRuby_Core(), rb_intern(\"THE_APP\")))",
  "\x7b",
  "  rb_raise(rb_eRuntimeError,",
  "           \"Cannot create a Window before the App has started\");",
  "\x7d"]

def eventInCode : String := codeLines [
  "#ifdef __WXRB_DEBUG__",
  "$input = wxRuby_WrapWxEventInRuby(this, static_cast<wxEvent*> (&$1));",
  "#else",
  "$input = wxRuby_WrapWxEventInRuby(static_cast<wxEvent*> (&$1));",
  "#endif"]

def rule (patterns : List String) (rubyType : String) : Typemap :=
  (ofPatterns patterns).withRubyType rubyType

def outputInt (pattern : String) : Typemap :=
  (rule [pattern] "Integer").withCode .directorArgOut outputIntCode

/-- Marks a rule as one for strings in the choice of overloads. -/
def checkingString (map : Typemap) : Typemap :=
  map.withTypecheck "STRING" "$1 = (TYPE($input) == T_STRING);"

def checkingArray (precedence : String) (map : Typemap) : Typemap :=
  map.withTypecheck precedence "$1 = (TYPE($input) == T_ARRAY);"

/-- A string that is passed by address, from a temporary. -/
def stringByAddress (pattern : String) : Typemap :=
  ((rule [pattern] "String").withFragment .input
    { code := "tmp = RSTR_TO_WXSTR($input); $1 = &tmp;", temp := some "wxString tmp" }).withCode
      .output "$result = WXSTR_PTR_TO_RSTR($1);"

def stringReference : Typemap :=
  checkingString (((stringByAddress "wxString&").withCode
    .directorOut "$result = RSTR_TO_WXSTR($input);").withCode
    .directorIn "$input = WXSTR_TO_RSTR($1);")

def stringPointer : Typemap :=
  checkingString ((stringByAddress "wxString*").withCode
    .directorIn "$input = WXSTR_PTR_TO_RSTR($1);")

def stringValue : Typemap :=
  checkingString ((((rule ["wxString"] "String").withCode
    .output "$result = WXSTR_TO_RSTR($1);").withCode
    .directorOut "$result = RSTR_TO_WXSTR($input);").withCode
    .varOut "$result = WXSTR_TO_RSTR($1);")

def anyPointer : Typemap :=
  (((rule ["void*"] "Object").withCode .input "$1 = (void*)($input);").withCode
    .output "$result = (VALUE)($1);").withTypecheck "POINTER" "$1 = TRUE;"

/-- A size or a point, which an array of two integers can stand for. -/
def pair (pattern rubyType : String) : Typemap :=
  ((rule [pattern] rubyType).withCode .input pairInCode).withTypecheck "POINTER" pairCheckCode

def itemKind : Typemap :=
  (((rule ["wxItemKind"] "Integer").withCode .input "$1 = (wxItemKind)NUM2INT($input);").withCode
    .output "$result = INT2NUM((int)$1);").withTypecheck "INTEGER"
    "$1 = (TYPE($input) == T_FIXNUM && TYPE($input) != T_TRUE && TYPE($input) != T_FALSE);"

/-- A count and the strings that it counts. -/
def stringRun : Typemap :=
  checkingArray "STRING_ARRAY" ((((rule
    ["int n, const wxString choices []", "int n, const wxString* choices",
      "int nItems, const wxString *items"] "Array<String>").withFragment
    .input { code := stringRunInCode, temp := some "wxString *arr" }).withCode
    .default "$1 = 0;\n$2 = NULL;").withCode
    .freeArg "if ($2 != NULL) delete [] $2;")

def stringArrayReference : Typemap :=
  checkingArray "STRING_ARRAY" ((rule ["wxArrayString &"] "Array<String>").withFragment
    .input { code := stringArrayInCode, temp := some "wxArrayString tmp" })

def stringArrayValue : Typemap :=
  (rule ["wxArrayString"] "Array<String>").withCode .output stringArrayOutCode

def intArrayReference : Typemap :=
  checkingArray "INT32_ARRAY" ((rule ["wxArrayInt&"] "Array<Integer>").withFragment
    .input { code := intArrayInCode, temp := some "wxArrayInt tmp" })

def intArrayValue : Typemap :=
  (rule ["wxArrayInt"] "Array<Integer>").withCode .output intArrayOutCode

def enumAsInteger (pattern : String) : Typemap :=
  (((rule [pattern] "Integer").withCode .input "$1 = ($1_type)NUM2INT($input);").withCode
    .output "$result = INT2NUM((int)$1);").withTypecheck "INT32" "$1 = TYPE($input) == T_FIXNUM;"

def wrappedObject (pattern rubyType : String) : Typemap :=
  (rule [pattern] rubyType).withCode .output "$result = wxRuby_WrapWxObjectInRuby($1);"

def parentWindow : Typemap :=
  (rule ["wxWindow* parent"] "Wx::Window").withCode .check parentCheckCode

def event : Typemap :=
  ((rule ["wxEvent &event"] "Wx::Event").withCode .directorIn eventInCode).withCode
    .input "$1 = (wxEvent*)DATA_PTR($input);"

/-- The shared rules, the first that matches being the one that counts. -/
def rules : List Typemap :=
  [outputInt "int * OUTPUT", outputInt "long * OUTPUT", stringReference, stringPointer,
    stringValue, anyPointer, pair "wxSize&" "Array<Integer>, Wx::Size",
    pair "wxPoint&" "Array<Integer>, Wx::Point", itemKind, stringRun, stringArrayReference,
    stringArrayValue, intArrayReference, intArrayValue, enumAsInteger "wxEdge",
    enumAsInteger "wxRelationship", enumAsInteger "wxKeyCode", parentWindow,
    wrappedObject "wxWindow*" "Wx::Window", wrappedObject "wxSizer*" "Wx::Sizer", event]

def applies : List MapApply :=
  [{ source := "int *OUTPUT"
     targets := ["int * x", "int * y", "int * w", "int * h", "int * descent",
       "int * externalLeading"] },
    { source := "int *OUTPUT"
      targets := ["wxCoord * width", "wxCoord * height", "wxCoord * heightLine"] }]

end Bindery.Typemap.Standard
