import FlowHost.Text.Visible

/-!
# Quoted text

Text between double quotes, as diagnostics show it: quotes and backslashes are
escaped, control characters are named or given by number, and so is whatever has
no visible shape of its own.
-/

namespace FlowHost.Quoted

/-- Lower-case hexadecimal digits of a number, without leading zeros. -/
def hexDigits (n : Nat) : String := String.ofList (Nat.toDigits 16 n)

/-- One character between double quotes. -/
def escape (c : Char) : List Char :=
  if c = '"' then ['\\', '"']
  else if c = '\\' then ['\\', '\\']
  else if c = '\n' then ['\\', 'n']
  else if c = '\r' then ['\\', 'r']
  else if c = '\t' then ['\\', 't']
  else if c.toNat = 0 then ['\\', '0']
  else if !Text.isVisible c then
    '\\' :: 'u' :: '\x7b' :: (hexDigits c.toNat).toList ++ ['\x7d']
  else [c]

/-- A text in double quotes. -/
def quote (text : String) : String :=
  String.ofList ('"' :: text.toList.flatMap escape ++ ['"'])

end FlowHost.Quoted
