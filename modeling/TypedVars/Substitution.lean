import TypedVars.Text.Basic

/-!
# Substitution of placeholders

A placeholder is a name between braces. Bindings are substituted one after the other, each in the
whole text, so a value that holds a placeholder is expanded by later bindings only.
-/

set_option autoImplicit false

namespace TypedVars

/-- The placeholder for a name. -/
def placeholder (name : Text) : Text := '\x7b' :: name ++ ['\x7d']

/-- Puts a value in the place of every placeholder for a name. -/
def substitute (text name value : Text) : Text := Text.replaceAll (placeholder name) value text

/-- Substitutes each binding in turn. -/
def substituteAll (text : Text) (bindings : List (Text × Text)) : Text :=
  bindings.foldl (fun filled binding => substitute filled binding.1 binding.2) text

end TypedVars
