import TypedVars.Schema.Loading
import TypedVars.Store

/-!
# Runs of a store

A store is changed step by step, and the steps are given as text. A step that fails alters nothing,
and a run goes on behind it.
-/

set_option autoImplicit false

namespace TypedVars.Store

/-- A step that may change a store. -/
inductive Step where
  /-- Drops every variable. -/
  | clear
  /-- Puts the variables of a schema, given in YAML, in the place of all others. -/
  | load (yaml : Text)
  /-- Declares a variable of the type with a given tag. -/
  | declare (name tag value : Text)
  /-- Stores a value as it is. -/
  | set (name value : Text)
  /-- Gives a variable a new raw value. -/
  | change (name raw : Text)
deriving DecidableEq, Repr

/-- Why a step fails. -/
inductive StepFault where
  /-- A text is no schema. -/
  | load (fault : LoadFault)
  /-- A tag names no type. -/
  | unknownTag (unknown : TargetType.UnknownTag)
  /-- A variable is not declared. -/
  | unknownVariable (unknown : UnknownVariable)
deriving DecidableEq, Repr

/-- Takes a step. The answer is the new store, and with a change the value that is now stored. -/
def take (store : Store) : Step → Except StepFault (Store × Option Text)
  | .clear => .ok (empty, none)
  | .load yaml =>
    match Schema.ofYaml yaml with
    | .ok schema => .ok (ofSchema schema, none)
    | .error fault => .error (.load fault)
  | .declare name tag value =>
    match TargetType.ofTag tag with
    | .ok type => .ok (store.declare name type value, none)
    | .error unknown => .error (.unknownTag unknown)
  | .set name value =>
    match store.set name value with
    | .ok changed => .ok (changed, none)
    | .error unknown => .error (.unknownVariable unknown)
  | .change name raw =>
    match store.change name raw with
    | .ok (changed, value) => .ok (changed, some value)
    | .error unknown => .error (.unknownVariable unknown)

/-- The store after a step, whether or not it fails. -/
def after (store : Store) (step : Step) : Store :=
  match store.take step with
  | .ok (changed, _) => changed
  | .error _ => store

/-- The store after a run of steps that starts without variables. -/
def run (steps : List Step) : Store := steps.foldl after empty

end TypedVars.Store
