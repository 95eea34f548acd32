import Mathlib.Data.List.Forall2
import TypedVars.Proofs.Yaml.Scalar
import TypedVars.Yaml.TokenReader

/-!
# The tokens of compact objects

Inside braces neither indentation nor line breaks count, so what a text is read as there does not
depend on what stands around it. A string is read as a scalar, and as a key together with the colon
behind it, if that is still in reach of its start. From this an object is read as a mapping in
braces, a member at a time.
-/

set_option autoImplicit false

namespace TypedVars.Yaml

/-- The tokens of a pair: a name and the tokens of its value. -/
def pairTokens (part : Text × List Token) : List Token :=
  .key :: .scalar part.1 false :: .value :: part.2

/-- The tokens of further pairs, each behind a comma. -/
def furtherTokens (parts : List (Text × List Token)) : List Token :=
  parts.flatMap fun part => .flowEntry :: pairTokens part

/-- The tokens of pairs with commas between them. -/
def membersTokens : List (Text × List Token) → List Token
  | [] => []
  | first :: rest => pairTokens first ++ furtherTokens rest

/-- The tokens of a mapping in braces. -/
def objectTokens (parts : List (Text × List Token)) : List Token :=
  .flowMappingStart :: membersTokens parts ++ [.flowMappingEnd]

/-- The last token is the one written last. -/
theorem TokenLog.last?_push (log : TokenLog) (placed : Placed) :
    (log.push placed).last? = some placed.token := rfl

namespace TokenReader

/-! ## Reading on -/

/-- The reading goes on from one reader to another, and takes no more tokens than characters. -/
def Leads (reader later : TokenReader) : Prop :=
  ∃ count, count + later.cursor.rest.length ≤ reader.cursor.rest.length ∧
    ∀ fuel, reader.readAll (count + fuel) = later.readAll fuel

/-- A reader that is led to leads further. -/
theorem Leads.trans {first second third : TokenReader} (h : Leads first second)
    (hnext : Leads second third) : Leads first third := by
  obtain ⟨m, hm, hfirst⟩ := h
  obtain ⟨n, hn, hsecond⟩ := hnext
  refine ⟨m + n, by omega, fun fuel => ?_⟩
  rw [Nat.add_assoc, hfirst, hsecond]

/-- A reader leads to itself. -/
theorem Leads.refl (reader : TokenReader) : Leads reader reader :=
  ⟨0, by omega, fun fuel => by rw [Nat.zero_add]⟩

/-- Reading all tokens goes on from the next state while the stream has not ended. -/
theorem readAll_of_next {reader later : TokenReader} (h : reader.next = some later)
    (hlast : later.tokens.last? ≠ some .streamEnd) (fuel : Nat) :
    reader.readAll (fuel + 1) = later.readAll fuel := by
  rw [readAll, h]
  exact if_neg hlast

/-- Reading all tokens stops at the end of the stream. -/
theorem readAll_of_next_end {reader later : TokenReader} (h : reader.next = some later)
    (hlast : later.tokens.last? = some .streamEnd) (fuel : Nat) :
    reader.readAll (fuel + 1) = some later.tokens.toList := by
  rw [readAll, h]
  exact if_pos hlast

/-- A reader leads to its next state if that has consumed text and not ended the stream. -/
theorem leads_of_next {reader later : TokenReader} {log : TokenLog} {placed : Placed}
    (h : reader.next = some later) (hpushed : later.tokens = log.push placed)
    (htoken : placed.token ≠ .streamEnd)
    (hrest : later.cursor.rest.length < reader.cursor.rest.length) : Leads reader later := by
  have hlast : later.tokens.last? ≠ some .streamEnd := by
    rw [hpushed, TokenLog.last?_push]
    exact mt Option.some.inj htoken
  refine ⟨1, by omega, fun fuel => ?_⟩
  rw [Nat.add_comm, readAll_of_next h hlast]

/-! ## Flow collections -/

/-- A candidate that need not be a key. -/
def Optional (candidate : Option Candidate) : Prop :=
  ∀ noted, candidate = some noted → noted.required = false

/-- A reader inside a flow collection at the root and some more inside that. -/
def flow (cursor : Cursor) (log : TokenLog) (keyAllowed : Bool) (candidate : Option Candidate)
    (depth : Nat) (first : Option Candidate) : TokenReader :=
  ⟨cursor, log, [], keyAllowed, candidate, List.replicate depth none ++ [first]⟩

section

variable {cursor : Cursor} {log : TokenLog} {keyAllowed : Bool} {candidate first : Option Candidate}
  {depth : Nat} {c : Char} {rest : Text}

/-- A reader inside braces is in flow context. -/
theorem inFlow_flow : (flow cursor log keyAllowed candidate depth first).inFlow = true := by
  simp [flow, inFlow]

/-- Without a candidate for a key there is none to refresh. -/
theorem refresh_none (cursor : Cursor) : refresh cursor none = some none := rfl

/-- An optional candidate for a key is refreshed to an optional one. -/
theorem exists_refresh (h : Optional first) (cursor : Cursor) :
    ∃ kept, Optional kept ∧ refresh cursor first = some kept := by
  cases first with
  | none => exact ⟨none, h, rfl⟩
  | some noted =>
    have hrequired := h noted rfl
    by_cases hstale : isStale cursor noted = true
    · exact ⟨none, by simp [Optional], by simp [refresh, hstale, hrequired]⟩
    · exact ⟨some noted, h, by simp [refresh, hstale]⟩

/-- The characters that stand between the strings of a compact object, and the quotation mark. -/
def isMark (c : Char) : Bool := c == '\x7b' || c == '\x7d' || c == '"' || c == ':' || c == ','

/-- There is nothing to skip in front of a mark. -/
theorem skipToToken_mark (hrest : cursor.rest = c :: rest) (hmark : isMark c = true)
    (inFlow keyAllowed : Bool) :
    skipToToken inFlow keyAllowed cursor = (keyAllowed, cursor) := by
  obtain ⟨text, index, line, column⟩ := cursor
  obtain rfl : text = c :: rest := hrest
  rw [skipToToken]
  simp only [isMark, Bool.or_eq_true, beq_iff_eq] at hmark
  obtain (((rfl | rfl) | rfl) | rfl) | rfl := hmark <;> simp [isBreak]

/-- In front of a mark inside braces the next state is that after reading the token. -/
theorem exists_next_flow (hrest : cursor.rest = c :: rest) (hmark : isMark c = true)
    (hcandidate : refresh cursor candidate = some candidate) (hfirst : Optional first)
    (log : TokenLog) (keyAllowed : Bool) (depth : Nat) :
    ∃ kept, Optional kept ∧ (flow cursor log keyAllowed candidate depth first).next =
      (flow cursor log keyAllowed candidate depth kept).readToken := by
  obtain ⟨kept, hkept, hrefresh⟩ := exists_refresh hfirst cursor
  refine ⟨kept, hkept, ?_⟩
  have houter : (List.replicate depth none ++ [first]).mapM (refresh cursor) =
      some (List.replicate depth none ++ [kept]) := by
    induction depth with
    | zero => simp [hrefresh]
    | succ depth ih =>
      rw [List.replicate_succ, List.cons_append, List.mapM_cons, ih]
      rfl
  rw [next, inFlow_flow]
  simp only [flow, skipToToken_mark hrest hmark, dropStale, hcandidate, houter]
  simp [closeBlocks, inFlow]

/-- Document marks stand in the first column only. -/
theorem atDocumentMark_of_column (hcolumn : 0 < cursor.column) : cursor.atDocumentMark = false := by
  have hne : cursor.column ≠ 0 := Nat.ne_of_gt hcolumn
  simp [Cursor.atDocumentMark, hne]

/-- An opening brace inside braces opens a further mapping, where a key may follow. -/
theorem readToken_open (hrest : cursor.rest = '\x7b' :: rest) (hcolumn : 0 < cursor.column) :
    (flow cursor log false none depth first).readToken =
      some (flow (cursor.move 1) (log.push ⟨.flowMappingStart, cursor.position⟩) true none
        (depth + 1) first) := by
  have hmark := atDocumentMark_of_column hcolumn
  simp only [readToken, flow, hrest]
  simp [hmark, readFlowStart, noteCandidate, emit, List.replicate_succ]

/-- A closing brace inside other braces goes back to the outer mapping. -/
theorem readToken_close (hrest : cursor.rest = '\x7d' :: rest) (hcolumn : 0 < cursor.column) :
    (flow cursor log keyAllowed none (depth + 1) first).readToken =
      some (flow (cursor.move 1) (log.push ⟨.flowMappingEnd, cursor.position⟩) false none depth
        first) := by
  have hmark := atDocumentMark_of_column hcolumn
  simp only [readToken, flow, hrest]
  simp [hmark, readFlowEnd, dropCandidate, emit, List.replicate_succ]

/-- The closing brace of the root leaves the flow context. -/
theorem readToken_closeRoot (hrest : cursor.rest = '\x7d' :: rest) (hcolumn : 0 < cursor.column) :
    (flow cursor log keyAllowed none 0 first).readToken =
      some ⟨cursor.move 1, log.push ⟨.flowMappingEnd, cursor.position⟩, [], false, first, []⟩ := by
  have hmark := atDocumentMark_of_column hcolumn
  simp only [readToken, flow, hrest]
  simp [hmark, readFlowEnd, dropCandidate, emit]

/-- A comma separates pairs, and a key may follow it. -/
theorem readToken_comma (hrest : cursor.rest = ',' :: rest) (hcolumn : 0 < cursor.column) :
    (flow cursor log keyAllowed none depth first).readToken =
      some (flow (cursor.move 1) (log.push ⟨.flowEntry, cursor.position⟩) true none depth
        first) := by
  have hmark := atDocumentMark_of_column hcolumn
  simp only [readToken, flow, hrest]
  simp [hmark, readFlowEntry, dropCandidate, emit]

/-- What may be a key is noted as a candidate where a key is allowed. -/
def notedAt (cursor : Cursor) (log : TokenLog) (keyAllowed : Bool) : Option Candidate :=
  if keyAllowed then some ⟨false, log.size, cursor.index, cursor.position⟩ else none

/-- A string in quotes is read as a scalar, which is noted as a candidate for a key. -/
theorem readToken_string {text : Text} {ended : Cursor} (hrest : cursor.rest = '"' :: rest)
    (hcolumn : 0 < cursor.column)
    (hread : doubleQuotedFrom [] Gap.none (cursor.move 1) = some (text, ended)) :
    (flow cursor log keyAllowed none depth first).readToken =
      some (flow ended (log.push ⟨.scalar text false, cursor.position⟩) false
        (notedAt cursor log keyAllowed) depth first) := by
  have hmark := atDocumentMark_of_column hcolumn
  simp only [readToken, flow, hrest]
  simp [hmark, readNode, noteCandidate, dropCandidate, emit, notedAt]
  cases keyAllowed <;> simp [hread]

/-- A colon makes the candidate a key, by a token put in front of it. -/
theorem readToken_colon {candidate : Candidate} (hrest : cursor.rest = ':' :: rest)
    (hcolumn : 0 < cursor.column) :
    (flow cursor log keyAllowed (some candidate) depth first).readToken =
      some (flow (cursor.move 1) ((log.insert candidate.token ⟨.key, candidate.position⟩).push
        ⟨.value, cursor.position⟩) false none depth
        first) := by
  have hmark := atDocumentMark_of_column hcolumn
  simp only [readToken, flow, hrest]
  simp [hmark, readValue, openBlock, insert, inFlow, emit]

end

/-- A reader stands inside flow collections, with the tokens so far and the text from here on. -/
def InFlow (reader : TokenReader) (depth : Nat) (tokens : List Token) (keyAllowed : Bool)
    (rest : Text) : Prop :=
  ∃ cursor log first, reader = flow cursor log keyAllowed none depth first ∧ cursor.rest = rest ∧
    0 < cursor.column ∧ log.toList.map Placed.token = tokens ∧ Optional first

/-- Inside flow collections a text is read as some tokens, whatever stands in front of it and
behind it. -/
def Takes (depth : Nat) (keyAllowed : Bool) (text : Text) (tokens : List Token) (laterDepth : Nat)
    (laterAllowed : Bool) : Prop :=
  ∀ reader before rest, InFlow reader depth before keyAllowed (text ++ rest) →
    ∃ later, Leads reader later ∧ InFlow later laterDepth (before ++ tokens) laterAllowed rest

section

variable {depth middleDepth laterDepth : Nat} {keyAllowed middleAllowed laterAllowed : Bool}

/-- What takes two texts in turn takes them together. -/
theorem Takes.append {left right : Text} {leftTokens rightTokens : List Token}
    (h : Takes depth keyAllowed left leftTokens middleDepth middleAllowed)
    (hnext : Takes middleDepth middleAllowed right rightTokens laterDepth laterAllowed) :
    Takes depth keyAllowed (left ++ right) (leftTokens ++ rightTokens) laterDepth laterAllowed := by
  intro reader before rest hreader
  rw [List.append_assoc] at hreader
  obtain ⟨middle, hleads, hmiddle⟩ := h reader before _ hreader
  obtain ⟨later, hleadsNext, hlater⟩ := hnext middle _ rest hmiddle
  rw [List.append_assoc] at hlater
  exact ⟨later, hleads.trans hleadsNext, hlater⟩

/-- Nothing is taken from the empty text. -/
theorem Takes.nil (depth : Nat) (keyAllowed : Bool) :
    Takes depth keyAllowed [] [] depth keyAllowed := by
  intro reader before rest hreader
  rw [List.append_nil]
  exact ⟨reader, Leads.refl reader, hreader⟩

/-- A mark is read as a token of its own. -/
theorem takes_mark {c : Char} {token : Token} (hmark : isMark c = true)
    (htoken : token ≠ .streamEnd)
    (hread : ∀ cursor log first rest, cursor.rest = c :: rest → 0 < cursor.column →
      (flow cursor log keyAllowed none depth first).readToken =
        some (flow (cursor.move 1) (log.push ⟨token, cursor.position⟩) laterAllowed none
          laterDepth first)) :
    Takes depth keyAllowed [c] [token] laterDepth laterAllowed := by
  rintro _ before rest ⟨cursor, log, first, rfl, hrest, hcolumn, rfl, hfirst⟩
  obtain ⟨kept, hkept, hnext⟩ :=
    exists_next_flow hrest hmark (refresh_none cursor) hfirst log keyAllowed depth
  rw [hread cursor log kept rest hrest hcolumn] at hnext
  have hmoved : (cursor.move 1).rest = rest := Cursor.rest_move hrest
  have hshorter : (cursor.move 1).rest.length < cursor.rest.length := by
    rw [hmoved, hrest]
    exact Nat.lt_succ_self _
  exact ⟨_, leads_of_next hnext rfl htoken hshorter, _, _, kept, rfl, hmoved, Nat.succ_pos _,
    by rw [TokenLog.toList_push, List.map_append, List.map_singleton], hkept⟩

/-- An opening brace is taken as the start of a mapping. -/
theorem takes_open (depth : Nat) :
    Takes depth false ['\x7b'] [.flowMappingStart] (depth + 1) true :=
  takes_mark (by decide) (by decide) fun _ _ _ _ => readToken_open

/-- A closing brace is taken as the end of a mapping. -/
theorem takes_close (depth : Nat) (keyAllowed : Bool) :
    Takes (depth + 1) keyAllowed ['\x7d'] [.flowMappingEnd] depth false :=
  takes_mark (by decide) (by decide) fun _ _ _ _ => readToken_close

/-- A comma is taken as a separator. -/
theorem takes_comma (depth : Nat) : Takes depth false [','] [.flowEntry] depth true :=
  takes_mark (by decide) (by decide) fun _ _ _ _ => readToken_comma

/-- A reader leads over a string, which it writes as a scalar and notes as a candidate for a key. -/
theorem exists_leads_string {text rest : Text} (h : text.Printable) {cursor : Cursor}
    (hrest : cursor.rest = Json.string text ++ rest) (hcolumn : 0 < cursor.column)
    {first : Option Candidate} (hfirst : Optional first) (log : TokenLog) (keyAllowed : Bool)
    (depth : Nat) :
    ∃ kept, Optional kept ∧ Leads (flow cursor log keyAllowed none depth first)
      (flow (cursor.move (Json.string text).length)
        (log.push ⟨.scalar text false, cursor.position⟩) false (notedAt cursor log keyAllowed)
        depth kept) := by
  have hquote : cursor.rest = '"' :: (text.flatMap Json.escape ++ '"' :: rest) := by
    simp [hrest, Json.string]
  have hnext := exists_next_flow hquote (by decide) (refresh_none cursor) hfirst
  obtain ⟨kept, hkept, hread⟩ := hnext log keyAllowed depth
  rw [readToken_string hquote hcolumn (doubleQuotedFrom_string h hrest)] at hread
  have hshorter : (cursor.move (Json.string text).length).rest.length < cursor.rest.length := by
    rw [Cursor.rest_move hrest, hquote, List.length_cons, List.length_append, List.length_cons]
    omega
  exact ⟨kept, hkept, leads_of_next hread rfl (by simp) hshorter⟩

/-- A string is taken as a scalar. -/
theorem takes_string (depth : Nat) {text : Text} (h : text.Printable) :
    Takes depth false (Json.string text) [.scalar text false] depth false := by
  rintro _ before rest ⟨cursor, log, first, rfl, hrest, hcolumn, rfl, hfirst⟩
  obtain ⟨kept, hkept, hleads⟩ := exists_leads_string h hrest hcolumn hfirst log false depth
  exact ⟨_, hleads, _, _, kept, rfl, Cursor.rest_move hrest, Nat.add_pos_left hcolumn _,
    by rw [TokenLog.toList_push, List.map_append, List.map_singleton], hkept⟩

/-- A name of at most five hundred characters is still in reach at its colon. -/
theorem refresh_name {name rest : Text} (h : name.Printable) (hlength : name.length ≤ 500)
    {cursor : Cursor} (hrest : cursor.rest = Json.string name ++ rest) (log : TokenLog) :
    refresh (cursor.move (Json.string name).length) (notedAt cursor log true) =
      some (notedAt cursor log true) := by
  have hsize := (Json.printable_string h).encodedLength_eq
  have hle := Json.length_string_le h
  have hindex : (cursor.move (Json.string name).length).index =
      cursor.index + (Json.string name).length := by
    rw [Cursor.move, hrest, List.take_left, hsize]
  have hfresh : isStale (cursor.move (Json.string name).length)
      ⟨false, log.size, cursor.index, cursor.position⟩ = false := by
    have hline : (cursor.move (Json.string name).length).line = cursor.position.line := rfl
    simp only [isStale, hline, hindex, Bool.or_eq_false_iff, decide_eq_false_iff_not]
    omega
  simp [notedAt, refresh, hfresh]

/-- A name and its colon are read together: only the colon makes the name a key. -/
theorem takes_name (depth : Nat) {name : Text} (h : name.Printable) (hlength : name.length ≤ 500) :
    Takes depth true (Json.string name ++ [':']) [.key, .scalar name false, .value] depth
      false := by
  rintro _ before rest ⟨cursor, log, first, rfl, hrest, hcolumn, rfl, hfirst⟩
  rw [List.append_assoc] at hrest
  obtain ⟨kept, hkept, hname⟩ := exists_leads_string h hrest hcolumn hfirst log true depth
  have hcolon : (cursor.move (Json.string name).length).rest = [':'] ++ rest :=
    Cursor.rest_move hrest
  have hmoved : ((cursor.move (Json.string name).length).move 1).rest = rest :=
    Cursor.rest_move hcolon
  obtain ⟨last, hlast, hnext⟩ := exists_next_flow hcolon (by decide)
    (refresh_name h hlength hrest log) hkept (log.push ⟨.scalar name false, cursor.position⟩)
    false depth
  rw [notedAt, if_pos rfl, readToken_colon hcolon (Nat.add_pos_left hcolumn _)] at hnext
  have hshorter : ((cursor.move (Json.string name).length).move 1).rest.length <
      (cursor.move (Json.string name).length).rest.length := by
    rw [hmoved, hcolon]
    exact Nat.lt_succ_self _
  have hvalue := leads_of_next hnext rfl (by simp) hshorter
  refine ⟨_, hname.trans hvalue, _, _, last, rfl, hmoved, Nat.succ_pos _, ?_, hlast⟩
  have htokens (scalar : Placed) : (log.toList ++ [scalar]).take log.size = log.toList := by
    rw [← TokenLog.length_toList, List.take_left]
  have hlater (scalar : Placed) : (log.toList ++ [scalar]).drop log.size = [scalar] := by
    rw [← TokenLog.length_toList, List.drop_left]
  rw [TokenLog.toList_push, TokenLog.toList_insert, TokenLog.toList_push, htokens, hlater,
    List.append_assoc, List.map_append]
  rfl

end

/-! ## Objects -/

/-- A member of an object is read as a pair. -/
structure TakesMember (depth : Nat) (member : Text × Text) (part : Text × List Token) : Prop where
  name : member.1 = part.1
  printable : part.1.Printable
  length : part.1.length ≤ 500
  value : Takes depth false member.2 part.2 depth false

/-- A member of an object is taken as a key and a value. -/
theorem TakesMember.takes {depth : Nat} {member : Text × Text} {part : Text × List Token}
    (h : TakesMember depth member part) :
    Takes depth true (Json.string member.1 ++ ':' :: member.2) (pairTokens part) depth false := by
  have hall := (takes_name depth h.printable h.length).append h.value
  rw [← h.name, List.append_assoc] at hall
  rw [pairTokens, ← h.name]
  exact hall

/-- The members of an object are taken in turn, with separators in between. -/
theorem takes_members {depth : Nat} {members : List (Text × Text)}
    {parts : List (Text × List Token)} (h : List.Forall₂ (TakesMember depth) members parts) :
    ∃ keyAllowed, Takes depth true
      (Text.joinWith [','] (members.map fun member => Json.string member.1 ++ ':' :: member.2))
      (membersTokens parts) depth keyAllowed := by
  cases h with
  | nil => exact ⟨true, Takes.nil depth true⟩
  | @cons member part members parts hfirst hrest =>
    have hlater : Takes depth false
        ((members.map fun member => Json.string member.1 ++ ':' :: member.2).flatMap
          fun text => [','] ++ text)
        (furtherTokens parts) depth false := by
      induction hrest with
      | nil => exact Takes.nil depth false
      | cons hnext _ ih => exact ((takes_comma depth).append hnext.takes).append ih
    refine ⟨false, ?_⟩
    rw [List.map_cons, Text.joinWith_cons, membersTokens]
    exact hfirst.takes.append hlater

/-- An object is taken as a mapping of its members. -/
theorem takes_object {depth : Nat} {members : List (Text × Text)}
    {parts : List (Text × List Token)} (h : List.Forall₂ (TakesMember (depth + 1)) members parts) :
    Takes depth false (Json.compactObject members) (objectTokens parts) depth false := by
  obtain ⟨keyAllowed, hmembers⟩ := takes_members h
  exact (takes_open depth).append (hmembers.append (takes_close depth keyAllowed))

/-! ## Whole texts -/

/-- The opening brace of a document is the first token, at the start of the text. -/
theorem next_start (rest : Text) :
    (start ('\x7b' :: rest)).next =
      some (flow ((Cursor.start ('\x7b' :: rest)).move 1)
        (TokenLog.empty.push ⟨.flowMappingStart, .start⟩) true none 0
        (some ⟨false, 0, 0, .start⟩)) := by
  have hskip : skipToToken false true (Cursor.start ('\x7b' :: rest)) =
      (true, Cursor.start ('\x7b' :: rest)) := skipToToken_mark rfl (by decide) false true
  have hinFlow : (start ('\x7b' :: rest)).inFlow = false := rfl
  rw [next, hinFlow]
  simp only [start, hskip]
  simp [dropStale, refresh, closeBlocks, inFlow, readToken, Cursor.start, Cursor.atDocumentMark,
    readFlowStart, noteCandidate, dropCandidate, emit, flow, TokenLog.pushMany, TokenLog.empty,
    Cursor.position, Position.start]

/-- The brace at the start of a text may itself be a key, but need not be one. -/
theorem leads_start (rest : Text) :
    ∃ reader, Leads (start ('\x7b' :: rest)) reader ∧
      InFlow reader 0 [.flowMappingStart] true rest := by
  have hshorter : rest.length < ('\x7b' :: rest).length := Nat.lt_succ_self _
  have hleads := leads_of_next (next_start rest) rfl (by simp) hshorter
  exact ⟨_, hleads, _, _, _, rfl, rfl, Nat.succ_pos _, rfl, by simp [Optional]⟩

/-- At the end of the text the stream ends. -/
theorem exists_next_end {cursor : Cursor} {first : Option Candidate} (hrest : cursor.rest = [])
    (hfirst : Optional first) (log : TokenLog) :
    ∃ ended, TokenReader.next ⟨cursor, log, [], false, first, []⟩ = some ended ∧
      ended.tokens.toList.map Placed.token = log.toList.map Placed.token ++ [.streamEnd] := by
  obtain ⟨kept, hkept, hrefresh⟩ := exists_refresh hfirst cursor
  obtain ⟨text, index, line, column⟩ := cursor
  obtain rfl : text = [] := hrest
  have hskip : skipToToken false false ⟨[], index, line, column⟩ =
      (false, ⟨[], index, line, column⟩) := by
    rw [skipToToken]
  have hread : TokenReader.next ⟨⟨[], index, line, column⟩, log, [], false, first, []⟩ =
      readToken ⟨⟨[], index, line, column⟩,
        log.pushMany 0 ⟨.blockEnd, ⟨line, column⟩⟩, [], false, kept, []⟩ := by
    simp only [next, inFlow, List.isEmpty_nil, Bool.not_true, hskip]
    simp [dropStale, hrefresh, closeBlocks, inFlow, Cursor.position]
  have hdropped (tokens : TokenLog) :
      dropCandidate ⟨⟨[], index, line, column⟩, tokens, [], false, kept, []⟩ =
        some ⟨⟨[], index, line, column⟩, tokens, [], false, none, []⟩ := by
    cases kept with
    | none => rfl
    | some candidate => simp [dropCandidate, hkept candidate rfl]
  rw [hread]
  simp [readToken, readEnd, endBlocks, closeBlocks, inFlow, hdropped, emit]

/-- Behind the closing brace of the root the text ends. -/
theorem exists_readAll_close {reader : TokenReader} {tokens : List Token} {keyAllowed : Bool}
    (h : InFlow reader 0 tokens keyAllowed ['\x7d']) (fuel : Nat) :
    ∃ read, reader.readAll (fuel + 2) = some read ∧
      read.map Placed.token = tokens ++ [.flowMappingEnd, .streamEnd] := by
  obtain ⟨cursor, log, first, rfl, hrest, hcolumn, rfl, hfirst⟩ := h
  obtain ⟨kept, hkept, hnext⟩ :=
    exists_next_flow hrest (by decide) (refresh_none cursor) hfirst log keyAllowed 0
  rw [readToken_closeRoot hrest hcolumn] at hnext
  have hmoved : (cursor.move 1).rest = [] := by
    rw [Cursor.move, hrest]
    rfl
  obtain ⟨ended, hended, htokens⟩ :=
    exists_next_end hmoved hkept (log.push ⟨.flowMappingEnd, cursor.position⟩)
  have hclosed : (log.push ⟨.flowMappingEnd, cursor.position⟩).last? ≠ some .streamEnd := by
    simp [TokenLog.last?_push]
  have hlast : ended.tokens.last? = some .streamEnd := by
    rw [TokenLog.last?_eq, ← List.getLast?_map, htokens, List.getLast?_append]
    rfl
  refine ⟨ended.tokens.toList, ?_, ?_⟩
  · rw [readAll_of_next hnext hclosed, readAll_of_next_end hended hlast]
  · rw [htokens, TokenLog.toList_push, List.map_append, List.append_assoc]
    rfl

end TokenReader

/-- An object of printable members is read as a mapping in braces. -/
theorem Token.exists_ofText?_compactObject {members : List (Text × Text)}
    {parts : List (Text × List Token)}
    (h : List.Forall₂ (TokenReader.TakesMember 0) members parts)
    (hprintable : (Json.compactObject members).Printable) :
    ∃ read, Token.ofText? (Json.compactObject members) = some read ∧
      read.map Placed.token = objectTokens parts ++ [.streamEnd] := by
  obtain ⟨keyAllowed, hmembers⟩ := TokenReader.takes_members h
  obtain ⟨reader, hstart, hreader⟩ := TokenReader.leads_start
    (Text.joinWith [','] (members.map fun member => Json.string member.1 ++ ':' :: member.2) ++
      ['\x7d'])
  obtain ⟨later, hleads, hlater⟩ := hmembers reader _ _ hreader
  obtain ⟨count, hcount, hread⟩ := hstart.trans hleads
  have hrest : later.cursor.rest = ['\x7d'] := by
    obtain ⟨cursor, log, first, rfl, hrest, -⟩ := hlater
    exact hrest
  have hfuel : (Json.compactObject members).length + 1 =
      count + ((Json.compactObject members).length - 1 - count + 2) := by
    rw [hrest] at hcount
    change count + 1 ≤ (Json.compactObject members).length at hcount
    omega
  obtain ⟨read, hall, htokens⟩ := TokenReader.exists_readAll_close hlater
    ((Json.compactObject members).length - 1 - count)
  refine ⟨read, ?_, ?_⟩
  · rw [Token.ofText?, if_pos hprintable.all_isAdmitted, hfuel]
    exact (hread _).trans hall
  · rw [htokens]
    simp [objectTokens]

end TypedVars.Yaml
