import BackupProfiles.Text.Hidden
import BackupProfiles.Text.Digits

/-!
# Quoted texts

Messages show texts in double quotes. The usual escapes stand for a tab, the line ends, the null
character, the backslash and the quotes; any other hidden character is written by its code point.
A path also has its single quotes escaped.
-/

namespace BackupProfiles.Text

/-- A character inside quotes; `quotes` are the quotes that need a backslash. -/
def shown (quotes : List Char) (c : Char) : List Char :=
  if c == '\t' then ['\\', 't']
  else if c == '\r' then ['\\', 'r']
  else if c == '\n' then ['\\', 'n']
  else if c == '\x00' then ['\\', '0']
  else if c == '\\' || quotes.contains c then ['\\', c]
  else if isHidden c then '\\' :: 'u' :: '\x7b' :: Nat.toDigits 16 c.toNat ++ ['\x7d']
  else [c]

def quotedWith (quotes : List Char) (s : String) : String :=
  String.ofList ('"' :: s.toList.flatMap (shown quotes) ++ ['"'])

def quoted (s : String) : String := quotedWith ['"'] s

def quotedPath (s : String) : String := quotedWith ['"', '\x27'] s

/-- A list of quoted texts in brackets. -/
def quotedList (texts : List String) : String :=
  "[" ++ ", ".intercalate (texts.map quoted) ++ "]"

end BackupProfiles.Text
