import Bindery.Error
import Bindery.Policy.Edit
import Bindery.Text.Quoted

/-!
Built-in setups. A setup is a list of edits that a module's policy starts from; the edits of the
manifest follow it and can refine it.
-/

set_option autoImplicit false
set_option relaxedAutoImplicit false

namespace Bindery

/-- A named list of edits, which may depend on the name of the module. -/
structure Preset where
  name : String
  edits : String → List Edit

namespace Preset

def block (lines : List String) : String := "\n".intercalate lines

/-! ### Code of the setups -/

def defsCode : String := block [
  "%constant const int wxWXWIDGETS_MAJOR_VERSION = wxMAJOR_VERSION;",
  "%constant const int wxWXWIDGETS_MINOR_VERSION = wxMINOR_VERSION;",
  "%constant const int wxWXWIDGETS_RELEASE_NUMBER = wxRELEASE_NUMBER;",
  "%constant const int wxWXWIDGETS_SUBRELEASE_NUMBER = wxSUBRELEASE_NUMBER;",
  "",
  "#ifdef __WXDEBUG__",
  "%constant const bool wxDEBUG = true;",
  "#else",
  "%constant const bool wxDEBUG = false;",
  "#endif"]

def imageCode : String := block [
  "%typemap(in) unsigned char* data, unsigned char* alpha \x7b",
  "  if ( TYPE($input) == T_STRING )",
  "    \x7b",
  "      int data_len = RSTRING_LEN($input);",
  "      $1 = (unsigned char*)malloc(data_len);",
  "      memcpy($1, StringValuePtr($input), data_len);",
  "    \x7d",
  "  else if ( $input == Qnil )",
  "    $1 = NULL;",
  "  else",
  "    SWIG_exception_fail(SWIG_ERROR,",
  "                        \"String required as raw Image data argument\");",
  "\x7d",
  "",
  "%typemap(in, numinputs=0) bool static_data \"$1 = false;\"",
  "",
  "%apply unsigned char *OUTPUT \x7b unsigned char* r,",
  "                               unsigned char* g,",
  "                               unsigned char* b \x7d"]

def imageExtension : String := block [
  "VALUE get_alpha_data() \x7b",
  "  unsigned char* alpha_data = $self->GetAlpha();",
  "  int length = $self->GetWidth() * $self->GetHeight();",
  "  return rb_str_new( (const char*)alpha_data, length);",
  "\x7d",
  "",
  "VALUE get_rgb_data() \x7b",
  "  unsigned char* rgb_data = $self->GetData();",
  "  int length = $self->GetWidth() * $self->GetHeight() * 3;",
  "  return rb_str_new( (const char*)rgb_data, length);",
  "\x7d",
  ""]

/-- Keeps the popup menu that was returned marked. -/
def popupMenuCode : String := block [
  "%typemap(directorout) wxMenu * \x7b",
  "  rb_iv_set(swig_get_self(), \"@__popmenu__\", $1);",
  "  if (NIL_P($1))",
  "  \x7b",
  "    $result = NULL;",
  "  \x7d",
  "  else",
  "  \x7b",
  "    void * ptr;",
  "    bool swig_res = SWIG_ConvertPtr($1, &ptr, $1_descriptor, 0 | SWIG_POINTER_DISOWN);",
  "    if (!SWIG_IsOK(swig_res))",
  "    \x7b",
  "      rb_raise(rb_eTypeError,",
  "               \"create_popup_menu must return a Wx::Menu, or nil\");",
  "    \x7d",
  "    $result = reinterpret_cast < wxMenu * > (ptr);",
  "  \x7d",
  "\x7d"]

def globalClipboard : String := block [
  "static VALUE get_global_clipboard()",
  "\x7b",
  "  return SWIG_NewPointerObj(wxTheClipboard, SWIGTYPE_p_wxClipboard, 0);",
  "\x7d",
  ""]

def destroyIcon : String := block [
  "VALUE destroy()",
  "\x7b",
  "  delete $self;",
  "  return Qnil;",
  "\x7d",
  ""]

def topLevelWindowClass : String := block [
  "extern VALUE wxRuby_GetTopLevelWindowClass() \x7b",
  "  return SwigClassWxTopLevelWindow.klass;",
  "\x7d"]

/-! ### Edits as setups make them -/

def ignoring (names : List String) : Edit := .ignore names true

def withoutGlobals : Edit := .doNotGenerate [.variables, .enums, .defines, .functions]

/-! ### The setups -/

/-- There is a single global clipboard, which is never derived from and owns the data handed to
it. -/
def clipboard : Preset where
  name := "clipboard"
  edits _ :=
    [.gc .never [], .disableProxies, .swigInclude "../shared/data_format.i",
      .swigInclude "../shared/data_object_common.i", .makeAbstract "wxClipboard",
      .disown "wxDataObject* data" true, .extendCode "wxClipboard" globalClipboard]

def combobox : Preset where
  name := "combobox"
  edits _ :=
    [.addItems ["wxTextEntry"], .foldBases "wxComboBox" ["wxTextEntry"],
      .overrideInheritanceChain "wxComboBox"
        ["wxControlWithItems", "wxControl", "wxWindow", "wxEvtHandler", "wxObject"],
      ignoring ["wxTextEntry::Clear", "wxTextEntry::IsEmpty", "wxComboBox::IsEmpty"],
      .renameForRuby "SetTextSelectionRange" ["wxComboBox::SetSelection(long, long)"],
      .renameForRuby "GetTextSelectionRange" ["wxComboBox::GetSelection(long *, long *) const"],
      .mapApply { source := "long * OUTPUT", targets := ["long *from", "long *to"] }]

def dataFormatIds : List String :=
  ["INVALID", "TEXT", "BITMAP", "METAFILE", "SYLK", "DIF", "TIFF", "OEMTEXT", "DIB",
    "PALETTE", "PENDATA", "RIFF", "WAVE", "UNICODETEXT", "ENHMETAFILE", "FILENAME",
    "LOCALE", "PRIVATE", "HTML", "MAX"]

/-- The standard formats are objects, and their numbers plain integers. -/
def dataFormatTypemap : Typemap :=
  ((((Typemap.ofPatterns ["wxDataFormatId"]).withRubyType "Wx::DataFormat").withCode
    .input "$1 = static_cast<wxDataFormatId>(NUM2INT($input));").withTypecheck
    "INT32" "$1 = ( TYPE($input) == T_FIXNUM );").withCode
    .output "$result = INT2NUM($1);"

def dataFormat : Preset where
  name := "data_format"
  edits _ :=
    [.gc .object [], ignoring ["wxDataFormat::operator ==(wxDataFormatId)"],
      .map dataFormatTypemap,
      .code .swig (block (dataFormatIds.map fun id ↦
        "%constant const int DATA_FORMAT_ID_" ++ id ++ " = wxDF_" ++ id ++ ";")),
      .doNotGenerate [.variables]]

def defs : Preset where
  name := "defs"
  edits _ :=
    [.setItems ["defs"],
      ignoring ["wxINT8_MIN", "wxINT8_MAX", "wxUINT8_MAX", "wxINT16_MIN", "wxINT16_MAX",
        "wxUINT16_MAX", "wxINT32_MIN", "wxINT32_MAX", "wxUINT32_MAX", "wxINT64_MIN", "wxINT64_MAX",
        "wxUINT64_MAX", "wxVaCopy", "wxDataFormatId"],
      .code .swig defsCode]

/-- The base is ignored so that it is not imported, and then set again. -/
def gridSizeEvent : Preset where
  name := "grid_size_event"
  edits _ :=
    [.ignoreBases "wxGridSizeEvent" ["wxNotifyEvent"],
      .swigImport "swig/classes/include/wxObject.h" false,
      .swigImport "swig/classes/include/wxEvent.h" false,
      .overrideBase "wxGridSizeEvent" "wxNotifyEvent"]

def image : Preset where
  name := "image"
  edits _ :=
    [.swigInclude "swig/shared/streams.i",
      ignoring ["wxImage::wxImage(wxInputStream &,wxBitmapType,int)",
        "wxImage::wxImage(wxInputStream &,const wxString &,int)",
        "wxImage::GetImageCount(wxInputStream &,wxBitmapType)"],
      .rename "LoadStream" ["wxImage::LoadFile(wxInputStream &,long,int)",
        "wxImage::LoadFile(wxInputStream &,const wxString &,int)"],
      .rename "Write" ["wxImage::SaveFile(wxOutputStream &,int) const",
        "wxImage::SaveFile(wxOutputStream &,const wxString &) const"],
      .rename "SetAlphaData" ["wxImage::SetAlpha(unsigned char *,bool)"],
      .rename "SetRgbData" ["wxImage::SetData(unsigned char *)"],
      ignoring ["wxImage::AddHandler", "wxImage::CleanUpHandlers", "wxImage::FindHandler",
        "wxImage::FindHandlerMime", "wxImage::GetHandlers", "wxImage::InitStandardHandlers",
        "wxImage::InsertHandler", "wxImage::RemoveHandler"],
      ignoring ["wxImage::GetData", "wxImage::GetAlpha"],
      .code .swig imageCode, .extendCode "wxImage" imageExtension, .doNotGenerate [.functions]]

def sashLayoutEvent : Preset where
  name := "sash_layout_event"
  edits _ := [withoutGlobals]

def taskBarIcon : Preset where
  name := "task_bar_icon"
  edits _ :=
    [.gc .never [], .code .swig popupMenuCode, .extendCode "wxTaskBarIcon" destroyIcon,
      withoutGlobals]

/-- What only the module of the top-level window itself sets up. -/
def topLevelWindowOnly : List Edit :=
  [.code .wrapper topLevelWindowClass,
    ignoring ["wxTopLevelWindow::SaveGeometry", "wxTopLevelWindow::RestoreToGeometry"],
    .onlyFor (.single "wxuniversal") ["wxTopLevelWindow::IsUsingNativeDecorations",
      "wxTopLevelWindow::UseNativeDecorations",
      "wxTopLevelWindow::UseNativeDecorationsByDefault"],
    .onlyFor (.single "wxmsw") ["wxTopLevelWindow::MSWGetSystemMenu"],
    .swigImport "include/defs.h" false]

def topLevelWindow : Preset where
  name := "top_level_window"
  edits moduleName :=
    [.code .swigBegin ("SWIG_WXTOPLEVELWINDOW_NO_USELESS_VIRTUALS(" ++ moduleName ++ ");"),
      .noProxy ["wxTopLevelWindow::IsFullScreen", "wxWindow::GetDropTarget",
        "wxWindow::GetValidator"]] ++
    (if moduleName == "wxTopLevelWindow" then topLevelWindowOnly else [])

/-- All setups, by name. -/
def all : List Preset :=
  [clipboard, combobox, dataFormat, defs, gridSizeEvent, image, sashLayoutEvent, taskBarIcon,
    topLevelWindow]

def names : List String := all.map Preset.name

/-- A setup as a single line shows it. -/
def summary (preset : Preset) : String :=
  "BuiltinDirector \x7b name: " ++ Text.quoted preset.name ++ " \x7d"

def find? (name : String) : Option Preset := all.find? (·.name == name)

end Preset

/-- Applies a built-in setup and records its name. -/
def Policy.applyPreset (policy : Policy) (name : String) : Except Error Policy :=
  match Preset.find? name with
  | none => .error (.config (.unknownPreset name))
  | some preset =>
    .ok ({ policy with preset := some name }.applyAll (preset.edits policy.moduleName))

end Bindery
