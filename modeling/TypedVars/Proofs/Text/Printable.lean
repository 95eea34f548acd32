import TypedVars.Json
import TypedVars.Yaml.Cursor

/-!
# Printable text

Text of printable characters of ASCII is written as JSON in such characters again, and every one of
them takes a single byte and belongs to a line. Escapes at most double it.
-/

set_option autoImplicit false

namespace TypedVars

/-- Text of printable characters of ASCII. -/
def Text.Printable (text : Text) : Prop := ∀ c ∈ text, 0x20 ≤ c.toNat ∧ c.toNat ≤ 0x7E

instance (text : Text) : Decidable text.Printable := List.decidableBAll _ text

namespace Text

/-- A text is printable when its first character and the rest are. -/
theorem printable_cons {c : Char} {text : Text} :
    Printable (c :: text) ↔ (0x20 ≤ c.toNat ∧ c.toNat ≤ 0x7E) ∧ Printable text :=
  List.forall_mem_cons

/-- A text is printable when both its parts are. -/
theorem printable_append {left right : Text} :
    Printable (left ++ right) ↔ Printable left ∧ Printable right :=
  List.forall_mem_append

/-- Joined texts are the first one and the others with the separator in front. -/
theorem joinWith_cons (separator first : Text) (rest : List Text) :
    joinWith separator (first :: rest) = first ++ rest.flatMap fun text => separator ++ text := by
  induction rest generalizing first with
  | nil => rw [joinWith, List.flatMap_nil, List.append_nil]
  | cons second rest ih =>
    rw [joinWith, ih, List.flatMap_cons, List.append_assoc, List.append_assoc]
    simp

/-- The encoded length of two texts is the sum of theirs. -/
theorem encodedLength_append (left right : Text) :
    encodedLength (left ++ right) = encodedLength left + encodedLength right := by
  induction left with
  | nil => simp [encodedLength]
  | cons c left ih => rw [List.cons_append, encodedLength, encodedLength, ih, Nat.add_assoc]

/-- Printable texts joined by a printable separator are printable. -/
theorem Printable.joinWith {separator : Text} (hseparator : separator.Printable)
    {texts : List Text} (h : ∀ text ∈ texts, Printable text) :
    Printable (joinWith separator texts) := by
  cases texts with
  | nil => simp [Text.joinWith, Printable]
  | cons first rest =>
    obtain ⟨hfirst, hrest⟩ := List.forall_mem_cons.1 h
    rw [joinWith_cons, printable_append]
    refine ⟨hfirst, ?_⟩
    intro c hc
    obtain ⟨text, htext, hmem⟩ := List.mem_flatMap.1 hc
    exact printable_append.2 ⟨hseparator, hrest text htext⟩ c hmem

/-- A printable text takes one byte for each character. -/
theorem Printable.encodedLength_eq {text : Text} (h : Printable text) :
    encodedLength text = text.length := by
  induction text with
  | nil => rfl
  | cons c text ih =>
    obtain ⟨⟨-, hc⟩, htext⟩ := printable_cons.1 h
    have hsize : c.utf8Size = 1 := by
      rw [Char.utf8Size_eq_one_iff, UInt32.le_iff_toNat_le]
      show c.toNat ≤ 0x7F
      omega
    rw [encodedLength, ih htext, hsize, List.length_cons, Nat.add_comm]

/-- All characters of a printable text are admitted in documents. -/
theorem Printable.all_isAdmitted {text : Text} (h : Printable text) :
    text.all Yaml.isAdmitted = true := by
  rw [List.all_eq_true]
  intro c hc
  obtain ⟨hlow, hhigh⟩ := h c hc
  simp [Yaml.isAdmitted, hlow, hhigh]

end Text

namespace Json

/-- A plain character is not escaped. -/
theorem escape_of_plain {c : Char} (hlow : 0x20 ≤ c.toNat) (hquote : c ≠ '"')
    (hslash : c ≠ '\\') : escape c = [c] := by
  unfold escape
  split
  · exact absurd rfl hquote
  · exact absurd rfl hslash
  · exact absurd hlow (by decide)
  · exact absurd hlow (by decide)
  · exact absurd hlow (by decide)
  · exact absurd hlow (by decide)
  · exact absurd hlow (by decide)
  · exact if_neg (by omega)

/-- A printable character is printable when it is escaped too. -/
theorem printable_escape {c : Char} (h : 0x20 ≤ c.toNat ∧ c.toNat ≤ 0x7E) :
    Text.Printable (escape c) := by
  by_cases hquote : c = '"'
  · subst hquote
    decide
  by_cases hslash : c = '\\'
  · subst hslash
    decide
  · rw [escape_of_plain h.1 hquote hslash]
    simpa [Text.Printable] using h

/-- A printable text is printable when it is escaped too. -/
theorem printable_flatMap_escape {text : Text} (h : text.Printable) :
    Text.Printable (text.flatMap escape) := by
  intro c hc
  obtain ⟨d, hd, hescape⟩ := List.mem_flatMap.1 hc
  exact printable_escape (h d hd) c hescape

/-- The string of a printable text is printable. -/
theorem printable_string {text : Text} (h : text.Printable) : Text.Printable (string text) := by
  have hquote : Text.Printable ['"'] := by decide
  have hopened : Text.Printable ('"' :: text.flatMap escape) :=
    Text.printable_cons.2 ⟨by decide, printable_flatMap_escape h⟩
  exact Text.printable_append.2 ⟨hopened, hquote⟩

/-- A character that is no control is escaped with two characters at most. -/
theorem length_escape_le {c : Char} (h : 0x20 ≤ c.toNat) : (escape c).length ≤ 2 := by
  by_cases hquote : c = '"'
  · subst hquote
    decide
  by_cases hslash : c = '\\'
  · subst hslash
    decide
  · rw [escape_of_plain h hquote hslash]
    exact Nat.le_succ 1

/-- A printable text is at most doubled by escapes. -/
theorem length_string_le {text : Text} (h : text.Printable) :
    (string text).length ≤ 2 * text.length + 2 := by
  have hescapes : (text.flatMap escape).length ≤ 2 * text.length := by
    induction text with
    | nil => simp
    | cons c text ih =>
      obtain ⟨⟨hc, -⟩, htext⟩ := Text.printable_cons.1 h
      have hhead := length_escape_le hc
      have htail := ih htext
      rw [List.flatMap_cons, List.length_append, List.length_cons]
      omega
  simp only [string, List.length_append, List.length_cons, List.length_nil]
  omega

/-- An object of printable members is printable. -/
theorem printable_compactObject {members : List (Text × Text)}
    (h : ∀ member ∈ members, member.1.Printable ∧ member.2.Printable) :
    Text.Printable (compactObject members) := by
  have hmembers : ∀ text ∈ members.map fun member => string member.1 ++ ':' :: member.2,
      Text.Printable text := by
    intro text htext
    obtain ⟨member, hmember, rfl⟩ := List.mem_map.1 htext
    obtain ⟨hname, hvalue⟩ := h member hmember
    have hcolon : Text.Printable (':' :: member.2) := Text.printable_cons.2 ⟨by decide, hvalue⟩
    exact Text.printable_append.2 ⟨printable_string hname, hcolon⟩
  have hcomma : Text.Printable [','] := by decide
  have hbrace : Text.Printable ['\x7d'] := by decide
  refine Text.printable_append.2 ⟨Text.printable_cons.2 ⟨by decide, ?_⟩, hbrace⟩
  exact hcomma.joinWith hmembers

end Json

namespace Yaml

/-- No printable character is a line break. -/
theorem isBreak_of_printable {c : Char} (hlow : 0x20 ≤ c.toNat) (hhigh : c.toNat ≤ 0x7E) :
    isBreak c = false := by
  rw [Bool.eq_false_iff]
  intro hbreak
  simp only [isBreak, Bool.or_eq_true, beq_iff_eq] at hbreak
  obtain (((rfl | rfl) | rfl) | rfl) | rfl := hbreak
  · exact absurd hlow (by decide)
  · exact absurd hlow (by decide)
  · exact absurd hhigh (by decide)
  · exact absurd hhigh (by decide)
  · exact absurd hhigh (by decide)

end Yaml

end TypedVars
