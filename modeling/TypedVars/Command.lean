import TypedVars.Command.Arguments
import TypedVars.Store.Step

/-!
# Commands

The program evaluates a single text, or changes a variable of a schema that it reads from a file. A
command is a function of its arguments and of the files; it answers with an exit code and text for
the two output streams.
-/

set_option autoImplicit false

namespace TypedVars

/-- Why a file has no text. -/
inductive FileFault where
  /-- There is no such file. -/
  | missing
  /-- The path leads through something that is no directory. -/
  | throughFile
  /-- The path leads to a directory. -/
  | directory
  /-- The file must not be read. -/
  | forbidden
  /-- The file holds no text. -/
  | noText
deriving DecidableEq, Repr

/-- A command with its arguments. -/
inductive Command where
  /-- Writes the version. -/
  | version
  /-- Resolves a text for a type. -/
  | resolve (type : TargetType) (text : Text)
  /-- Evaluates a condition. -/
  | condition (text : Text)
  /-- Evaluates arithmetic. -/
  | arithmetic (text : Text)
  /-- Changes a variable of the schema in a file. -/
  | change (file name raw : Text)
deriving DecidableEq, Repr

namespace Command

/-- Why a command fails. -/
inductive Failure where
  /-- The text is no arithmetic. -/
  | notArithmetic (text : Text)
  /-- The condition has no truth value. -/
  | condition (fault : Condition.Fault)
  /-- The variable is not declared. -/
  | unknownVariable (name : Text)
  /-- The file cannot be read. -/
  | file (fault : FileFault)
  /-- The file holds no schema. -/
  | schema (fault : LoadFault)
deriving DecidableEq, Repr

/-- The record of a literal in a failure. -/
def literalRecord : Condition.Literal → Text
  | .boolean value => "Boolean(".toList ++ Condition.booleanText value ++ ")".toList
  | .integer value => "Integer(".toList ++ Digits.ofInt value.toInt ++ ")".toList
  | .string value => "String(".toList ++ Text.quoted value ++ ")".toList

/-- The record of a fault of a condition in a failure. -/
def conditionRecord : Condition.Fault → Text
  | .nonBoolean found => "NonBooleanCondition(".toList ++ literalRecord found ++ ")".toList
  | .compoundOperand operand => "NotALiteral(".toList ++ Text.quoted operand.text ++ ")".toList
  | .mismatch left right =>
    "MismatchedComparison \x7b left: ".toList ++ literalRecord left ++ ", right: ".toList ++
      literalRecord right ++ " \x7d".toList
  | .unknownOperator symbol => "UnknownOperator(".toList ++ Text.quoted symbol ++ ")".toList

/-- The record of a file's fault in a failure. -/
def fileRecord : FileFault → Text
  | .missing =>
    "Os \x7b code: 2, kind: NotFound, message: \"No such file or directory\" \x7d".toList
  | .throughFile =>
    "Os \x7b code: 20, kind: NotADirectory, message: \"Not a directory\" \x7d".toList
  | .directory => "Os \x7b code: 21, kind: IsADirectory, message: \"Is a directory\" \x7d".toList
  | .forbidden =>
    "Os \x7b code: 13, kind: PermissionDenied, message: \"Permission denied\" \x7d".toList
  | .noText =>
    ("Error \x7b kind: InvalidData, message: \"stream did not contain valid UTF-8\" \x7d").toList

/-- The record of a failure. What is wrong with a schema is not told. -/
def Failure.record : Failure → Text
  | .notArithmetic text => "NotArithmetic(".toList ++ Text.quoted text ++ ")".toList
  | .condition fault => "Condition(".toList ++ conditionRecord fault ++ ")".toList
  | .unknownVariable name =>
    "Variable(UnknownVariable \x7b name: ".toList ++ Text.quoted name ++ " \x7d)".toList
  | .file fault => "Variable(Io(".toList ++ fileRecord fault ++ "))".toList
  | .schema _ => "Variable(Yaml(..))".toList

/-- How a command ends. -/
structure Outcome where
  /-- The exit code. -/
  exit : Nat
  /-- What is written to the standard output. -/
  output : Text
  /-- What is written to the standard error stream. -/
  complaint : Text
deriving DecidableEq, Repr

/-- The outcome of arguments that are no command. -/
def usage : Outcome := ⟨2, [], "usage error\n".toList⟩

/-- What the commands on a single text take. -/
def textOnly : Signature := ⟨[], true⟩

/-- What the command that resolves a text takes. -/
def resolveSignature : Signature := ⟨[⟨'t', "type".toList, false⟩], true⟩

/-- What the command that changes a variable takes. -/
def changeSignature : Signature :=
  ⟨[⟨'f', "file".toList, false⟩, ⟨'k', "key".toList, false⟩, ⟨'v', "value".toList, true⟩], false⟩

/-- The command that arguments give, if they give one. -/
def ofArguments? : List Text → Option Command
  | [] => none
  | name :: arguments =>
    if name = "resolve".toList then do
      let given ← readArguments resolveSignature none .nothing arguments
      let type ← TargetType.ofTag? (← given.value? 't')
      return .resolve type (← given.text)
    else if name = "condition".toList then do
      let given ← readArguments textOnly none .nothing arguments
      return .condition (← given.text)
    else if name = "arithmetic".toList then do
      let given ← readArguments textOnly none .nothing arguments
      return .arithmetic (← given.text)
    else if name = "change".toList then do
      let given ← readArguments changeSignature none .nothing arguments
      return .change (← given.value? 'f') (← given.value? 'k') (← given.value? 'v')
    else if name = "--version".toList ∨ ['-', 'V'].isPrefixOf name then some .version
    else none

/-- The line that a command writes, or why it fails. -/
def perform (files : Text → Except FileFault Text) : Command → Except Failure Text
  | .version => return "bindexpr 0.1.0".toList
  | .resolve type text => return type.resolve text
  | .condition text => do
    let value ← (Condition.evaluate text).mapError Failure.condition
    return Condition.booleanText value
  | .arithmetic text =>
    match Arithmetic.evaluate? text with
    | some value => return Layout.printed.text value
    | none => throw (.notArithmetic text)
  | .change file name raw => do
    let content ← (files file).mapError Failure.file
    let schema ← (Schema.ofYaml content).mapError Failure.schema
    let (store, value) ←
      ((Store.ofSchema schema).change name raw).mapError fun unknown =>
        Failure.unknownVariable unknown.name
    return name ++ " = ".toList ++ value ++ '\n' :: store.json

/-- The outcome of the program. -/
def run (files : Text → Except FileFault Text) (arguments : List Text) : Outcome :=
  match ofArguments? arguments with
  | none => usage
  | some command =>
    match command.perform files with
    | .ok line => ⟨0, line ++ ['\n'], []⟩
    | .error failure => ⟨1, [], "Error: ".toList ++ failure.record ++ ['\n']⟩

end Command

end TypedVars
