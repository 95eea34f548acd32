import TypedVars.Yaml.Token

/-!
# A growing list of tokens

Tokens are written at the end of a list, and marks are put in a few places before its end. The list
is therefore held from its end, together with its length, and everything here is stated about the
list in the order of the text, `TokenLog.toList`.
-/

set_option autoImplicit false

namespace TypedVars.Yaml

/-- A list of tokens that grows at its end. -/
structure TokenLog where
  /-- The tokens, last first. -/
  newestFirst : List Placed
  /-- The number of tokens. -/
  size : Nat
  /-- It is the length of the list. -/
  size_eq : size = newestFirst.length
deriving DecidableEq, Repr

namespace TokenLog

/-- The tokens in the order of the text. -/
def toList (log : TokenLog) : List Placed := log.newestFirst.reverse

/-- The list without tokens. -/
def empty : TokenLog := ⟨[], 0, rfl⟩

/-- Writes a token at the end. -/
def push (log : TokenLog) (token : Placed) : TokenLog :=
  ⟨token :: log.newestFirst, log.size + 1, by simp [log.size_eq]⟩

/-- Writes a token a number of times at the end. -/
def pushMany (log : TokenLog) (count : Nat) (token : Placed) : TokenLog :=
  ⟨List.replicate count token ++ log.newestFirst, count + log.size, by simp [log.size_eq]⟩

/-- Puts a token in behind a number of others. -/
def insert (log : TokenLog) (place : Nat) (token : Placed) : TokenLog :=
  let later := log.size - place
  ⟨log.newestFirst.take later ++ token :: log.newestFirst.drop later, log.size + 1, by
    simp only [List.length_append, List.length_cons, List.length_take, List.length_drop,
      log.size_eq]
    omega⟩

/-- The last token. -/
def last? (log : TokenLog) : Option Token := log.newestFirst.head?.map Placed.token

/-- The size is the number of tokens. -/
@[simp]
theorem length_toList (log : TokenLog) : log.toList.length = log.size := by
  simp [toList, log.size_eq]

/-- A token is written behind the others. -/
@[simp]
theorem toList_push (log : TokenLog) (token : Placed) :
    (log.push token).toList = log.toList ++ [token] := by
  simp [toList, push]

/-- Tokens are written behind the others. -/
@[simp]
theorem toList_pushMany (log : TokenLog) (count : Nat) (token : Placed) :
    (log.pushMany count token).toList = log.toList ++ List.replicate count token := by
  simp [toList, pushMany]

/-- A token is put in between the first ones and the rest. -/
@[simp]
theorem toList_insert (log : TokenLog) (place : Nat) (token : Placed) :
    (log.insert place token).toList =
      log.toList.take place ++ token :: log.toList.drop place := by
  simp only [toList, insert, List.reverse_append, List.reverse_cons, List.append_assoc,
    List.singleton_append, List.take_reverse, List.drop_reverse, log.size_eq]

/-- The last token is that of the list. -/
theorem last?_eq (log : TokenLog) : log.last? = log.toList.getLast?.map Placed.token := by
  simp [last?, toList]

end TokenLog

end TypedVars.Yaml
