import TypedVars.Number.Hexadecimal

/-!
# JSON text

Strings and objects are written as JSON. In a string a quotation mark, a backslash and the control
characters below the space are escaped, and nothing else. An object is written on one line without
spaces, or with one member a line and an indent of two spaces.
-/

set_option autoImplicit false

namespace TypedVars.Json

/-- The written form of a character inside a string. -/
def escape (c : Char) : Text :=
  match c with
  | '"' => ['\\', '"']
  | '\\' => ['\\', '\\']
  | '\x08' => ['\\', 'b']
  | '\x0c' => ['\\', 'f']
  | '\n' => ['\\', 'n']
  | '\r' => ['\\', 'r']
  | '\t' => ['\\', 't']
  | other =>
    if other.toNat < 0x20 then
      ['\\', 'u', '0', '0', Hexadecimal.ofDigit (other.toNat / 16),
        Hexadecimal.ofDigit (other.toNat % 16)]
    else [other]

/-- A string between quotation marks. -/
def string (text : Text) : Text := '"' :: text.flatMap escape ++ ['"']

/-- An object of written members on one line. -/
def compactObject (members : List (Text × Text)) : Text :=
  '\x7b' :: Text.joinWith [','] (members.map fun member => string member.1 ++ ':' :: member.2) ++
    ['\x7d']

/-- An object of written members, one a line; an object without members stays on one line. -/
def indentedObject (members : List (Text × Text)) : Text :=
  if members.isEmpty then ['\x7b', '\x7d']
  else
    ['\x7b', '\n'] ++
      Text.joinWith [',', '\n']
        (members.map fun member => [' ', ' '] ++ string member.1 ++ [':', ' '] ++ member.2) ++
      ['\n', '\x7d']

end TypedVars.Json
