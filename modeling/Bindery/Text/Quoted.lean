import Bindery.Text.Case
import Bindery.Text.PrintTable

/-!
Quoted text for summaries of values. Quotes and backslashes are escaped, the common controls have
short escapes, and every other character without a printed form is spelled by its code point.
-/

set_option autoImplicit false
set_option relaxedAutoImplicit false

namespace Bindery.Text

/-- Lower-case hexadecimal digits of a number, with no leading zero. -/
def hexDigits (n : Nat) : List Char := Nat.toDigits 16 n

def quoteChar (c : Char) : List Char :=
  match c with
  | '"' => ['\\', '"']
  | '\\' => ['\\', '\\']
  | '\n' => ['\\', 'n']
  | '\r' => ['\\', 'r']
  | '\t' => ['\\', 't']
  | '\x00' => ['\\', '0']
  | c =>
    if inRanges unprintableRanges c then ['\\', 'u', '\x7b'] ++ hexDigits c.toNat ++ ['\x7d']
    else [c]

def quoted (s : String) : String :=
  String.ofList ('"' :: s.toList.flatMap quoteChar ++ ['"'])

end Bindery.Text
