/-!
The notice at the head of every generated interface file and header.
-/

set_option autoImplicit false
set_option relaxedAutoImplicit false

namespace Bindery.Emit

def notice : List String :=
  ["/**",
    " * This file is automatically generated by the WXRuby3 interface generator.",
    " * Do not alter this file.",
    " */"]

end Bindery.Emit
