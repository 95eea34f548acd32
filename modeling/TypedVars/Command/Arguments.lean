import TypedVars.Text.Basic

/-!
# Arguments of a command

A command takes options with values and perhaps one free text. An option is written long, with the
value behind an equals sign or in the next argument, or short, with the value attached or in the
next argument. Two hyphens end the options. Where the text is still missing, an argument that starts
with a hyphen but is no option of the command is that text.
-/

set_option autoImplicit false

namespace TypedVars.Command

/-- An option of a command. -/
structure Flag where
  /-- Its letter behind one hyphen. -/
  short : Char
  /-- Its name behind two hyphens. -/
  long : Text
  /-- The next argument is its value even where that starts with a hyphen. -/
  takesHyphens : Bool
deriving DecidableEq, Repr

/-- What a command takes. -/
structure Signature where
  /-- Its options. -/
  flags : List Flag
  /-- It takes a free text. -/
  takesText : Bool
deriving DecidableEq, Repr

/-- What has been given to a command. -/
structure Given where
  /-- The values of options by their letters. -/
  values : List (Char × Text)
  /-- The free text. -/
  text : Option Text
deriving DecidableEq, Repr

namespace Given

/-- Nothing. -/
def nothing : Given := ⟨[], none⟩

/-- The value of an option. -/
def value? (given : Given) (short : Char) : Option Text := given.values.lookup short

/-- Adds the value of an option, which must not have one yet. -/
def addValue (given : Given) (flag : Flag) (value : Text) : Option Given :=
  if (given.value? flag.short).isSome then none
  else some { given with values := (flag.short, value) :: given.values }

/-- Adds the free text, which must still be missing. -/
def addText (signature : Signature) (given : Given) (text : Text) : Option Given :=
  if signature.takesText && given.text.isNone then some { given with text := some text } else none

end Given

/-- What an argument is. -/
inductive Shape where
  /-- Two hyphens. -/
  | terminator
  /-- An option with a value attached to it or without one. -/
  | flag (which : Flag) (attached : Option Text)
  /-- An argument that looks like an option but is none. -/
  | unknown
  /-- Any other text. -/
  | plain
deriving DecidableEq, Repr

/-- Tells what an argument is. Where the free text may still come, a cluster of letters counts as an
option only if each of them, the letter of the help included, is one. -/
def Shape.of (signature : Signature) (textFree : Bool) : Text → Shape
  | '-' :: '-' :: [] => .terminator
  | '-' :: '-' :: name =>
    let bare := name.takeWhile (· != '=')
    let attached :=
      match name.drop bare.length with
      | '=' :: value => some value
      | _ => none
    match signature.flags.find? fun flag => flag.long == bare with
    | some found => .flag found attached
    | none => if textFree then .plain else .unknown
  | '-' :: letter :: rest =>
    let known (c : Char) : Bool := c == 'h' || signature.flags.any fun flag => flag.short == c
    if textFree && !(letter :: rest).all known then .plain
    else
      match signature.flags.find? fun flag => flag.short == letter with
      | some found =>
        .flag found
          (match rest with
          | [] => none
          | '=' :: value => some value
          | value => some value)
      | none => .unknown
  | _ => .plain

/-- Reads arguments, after an option that still waits for its value. There is no answer to arguments
that the command does not take. -/
def readArguments (signature : Signature) : Option Flag → Given → List Text → Option Given
  | none, given, [] => some given
  | some _, _, [] => none
  | waiting, given, argument :: rest =>
    let textFree := signature.takesText && given.text.isNone
    match waiting with
    | some flag =>
      if flag.takesHyphens then
        (given.addValue flag argument).bind fun more => readArguments signature none more rest
      else
        match Shape.of signature textFree argument with
        | .plain =>
          (given.addValue flag argument).bind fun more => readArguments signature none more rest
        | _ => none
    | none =>
      match Shape.of signature textFree argument with
      | .terminator => rest.foldlM (Given.addText signature) given
      | .flag found (some value) =>
        (given.addValue found value).bind fun more => readArguments signature none more rest
      | .flag found none => readArguments signature (some found) given rest
      | .unknown => none
      | .plain =>
        (given.addText signature argument).bind fun more =>
          readArguments signature none more rest

end TypedVars.Command
