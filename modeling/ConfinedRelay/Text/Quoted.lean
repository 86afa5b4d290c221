import ConfinedRelay.Text.Invisible

/-!
Text in double quotes, made visible: quotes, backslashes and the common controls
have short escapes, and every other character that cannot be seen on its own is
shown by the hexadecimal number of its code point.
-/
namespace ConfinedRelay.Text

def showChar (c : Char) : List Char :=
  if c = '"' then ['\\', '"']
  else if c = '\\' then ['\\', '\\']
  else if c = '\n' then ['\\', 'n']
  else if c = '\r' then ['\\', 'r']
  else if c = '\t' then ['\\', 't']
  else if c = '\x00' then ['\\', '0']
  else if isInvisible c then ['\\', 'u', '\x7b'] ++ Nat.toDigits 16 c.toNat ++ ['\x7d']
  else [c]

def quoted (s : List Char) : List Char := '"' :: s.flatMap showChar ++ ['"']

end ConfinedRelay.Text
