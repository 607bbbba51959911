import ZoneDemand.Text.Escaped

/-!
# Quoted values

A message shows an offending value between double quotes, on one line and with
every invisible character written out.
-/

namespace ZoneDemand
namespace Quoted

def hexDigits (n : Nat) : List Char := Nat.toDigits 16 n

def encodeChar (c : Char) : List Char :=
  if c = '"' then ['\\', '"']
  else if c = '\\' then ['\\', '\\']
  else if c = '\t' then ['\\', 't']
  else if c = '\n' then ['\\', 'n']
  else if c = '\r' then ['\\', 'r']
  else if c = '\x00' then ['\\', '0']
  else if isEscaped c then
    ['\\', 'u', '\x7b'] ++ hexDigits c.toNat ++ ['\x7d']
  else [c]

end Quoted

def quoted (value : String) : String :=
  String.ofList ('"' :: value.toList.flatMap Quoted.encodeChar ++ ['"'])

end ZoneDemand
