import Wiretap.Json.Reader

/-!
# Writing JSON text

Values are written without blanks, object members in the order given. A string
escapes quotes, backslashes and characters below the blank, and nothing else.
-/

set_option autoImplicit false

namespace Wiretap.Json

def lowerDigit (n : Nat) : Char :=
  if n < 10 then Char.ofNat (48 + n) else Char.ofNat (87 + n)

def escapeChar (c : Char) : Text :=
  if c = '"' then ['\\', '"']
  else if c = '\\' then ['\\', '\\']
  else if c = '\n' then ['\\', 'n']
  else if c = '\r' then ['\\', 'r']
  else if c = '\t' then ['\\', 't']
  else if c = '\x08' then ['\\', 'b']
  else if c = '\x0c' then ['\\', 'f']
  else if c.toNat < 0x20 then
    ['\\', 'u', '0', '0', lowerDigit (c.toNat / 16), lowerDigit (c.toNat % 16)]
  else [c]

def quoted (cs : List Char) : Text := '"' :: cs.flatMap escapeChar ++ ['"']

def nat (n : Nat) : Text := Nat.toDigits 10 n

def ofBool (b : Bool) : Text :=
  if b then ['t', 'r', 'u', 'e'] else ['f', 'a', 'l', 's', 'e']

def null : Text := ['n', 'u', 'l', 'l']

def commaed : List Text → Text
  | [] => []
  | [t] => t
  | t :: u :: rest => t ++ ',' :: commaed (u :: rest)

def list (items : List Text) : Text := '[' :: commaed items ++ [']']

def member (name : String) (value : Text) : Text := quoted name.toList ++ ':' :: value

def object (members : List (String × Text)) : Text :=
  '\x7b' :: commaed (members.map (fun m => member m.1 m.2)) ++ ['\x7d']

end Wiretap.Json
