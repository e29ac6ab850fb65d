import PreviewInstaller.Text.Unprintable

set_option autoImplicit false

/-! # Quoted text

A text between double quotes on one line: quotes and backslashes are escaped, line ends, tabs and
NUL have escapes of their own, and other unprintable characters are shown by number. -/

namespace PreviewInstaller.Text

/-- A code point by number, in hexadecimal between braces. -/
def numbered (c : Char) : List Char :=
  '\\' :: 'u' :: '\x7b' :: Nat.toDigits 16 c.toNat ++ ['\x7d']

/-- A character as it stands between the quotes. -/
def escaped (c : Char) : List Char :=
  if c = '\x00' then ['\\', '0']
  else if c = '\t' then ['\\', 't']
  else if c = '\n' then ['\\', 'n']
  else if c = '\r' then ['\\', 'r']
  else if c = '"' then ['\\', '"']
  else if c = '\\' then ['\\', '\\']
  else if isUnprintable c then numbered c
  else [c]

/-- A text in quotes. -/
def quoted (text : String) : String :=
  String.ofList ('"' :: text.toList.flatMap escaped ++ ['"'])

end PreviewInstaller.Text
