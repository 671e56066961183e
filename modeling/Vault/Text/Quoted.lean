import Vault.Bytes
import Vault.Text.Hidden

/-!
# Quoted texts

A text inside a diagnostic stands between double quotes, with a short escape for
the characters that have one and the code in braces for every other one that
would not show (`Vault.Text.isHidden`). An apostrophe needs no escape.
-/

namespace Vault.Text

/-- A number in lowercase hexadecimal, without leading zeros. -/
def hexNat (n : Nat) : String :=
  String.ofList (Nat.toDigits 16 n)

/-- One scalar value as it stands between quotes. -/
def quotedChar (c : Char) : String :=
  if c = '"' then "\\\""
  else if c = '\\' then "\\\\"
  else if c = '\n' then "\\n"
  else if c = '\r' then "\\r"
  else if c = '\t' then "\\t"
  else if c.toNat = 0 then "\\0"
  else if isHidden c then "\\u\x7b" ++ hexNat c.toNat ++ "\x7d"
  else c.toString

/-- A text between double quotes. -/
def quoted (s : String) : String :=
  "\"" ++ String.join (s.toList.map quotedChar) ++ "\""

end Vault.Text
