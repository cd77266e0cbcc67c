import Wiretap.Text.Hex
import Wiretap.Text.Hidden

/-!
# Quoted text

Text between double quotes, as it stands in the structure of a failure. Quotes,
backslashes and the common controls have short escapes, and other characters
that are not visible are spelled out by their code point.
-/

set_option autoImplicit false

namespace Wiretap.Text.Quoted

def codePoint (c : Char) : List Char :=
  ['\\', 'u', '\x7b'] ++ Hex.lowerNat c.toNat ++ ['\x7d']

def escape (c : Char) : List Char :=
  if c = '"' then ['\\', '"']
  else if c = '\\' then ['\\', '\\']
  else if c = '\n' then ['\\', 'n']
  else if c = '\r' then ['\\', 'r']
  else if c = '\t' then ['\\', 't']
  else if c.toNat = 0 then ['\\', '0']
  else if 0x20 ≤ c.toNat ∧ c.toNat ≤ 0x7E then [c]
  else if isHidden c then codePoint c
  else [c]

def text (s : String) : String :=
  String.ofList ('"' :: s.toList.flatMap escape ++ ['"'])

end Wiretap.Text.Quoted
