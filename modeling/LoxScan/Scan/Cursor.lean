/-
A scan by byte offsets.

* `slice?` — the text between two byte offsets, if both are on character boundaries and in order;
* `Cursor` — the state of such a scan: two offsets, the lines at both, what was found so far, and
  the log of it;
* `Loop`, `Stage` — the loops inside of an element, and the places in the scan;
* `Cursor.step?` — one step, which fails if one of its slices does;
* `Cursor.run?` — several steps;
* `Cursor.rounds` — how many of them begin a round of a loop.

Design notes: a step moves the position over one character at most, so there is a cursor for every
position that a scan comes to.  The elements of a source and their reading play no part in it.
-/
import LoxScan.Scan.Log

namespace LoxScan

/-- The text between two byte offsets.  There is none if one of them is behind the end or inside of
a character, or if they are out of order. -/
def slice? (source : String) (start stop : Nat) : Option String :=
  if h : start ≤ stop ∧ String.Pos.Raw.IsValid source ⟨start⟩ ∧
      String.Pos.Raw.IsValid source ⟨stop⟩ then
    some (String.extract (s := source) ⟨⟨start⟩, h.2.1⟩ ⟨⟨stop⟩, h.2.2⟩)
  else
    none

/-- The numeral that a text is, if it is one from end to end. -/
def numeral? (text : String) : Option Numeral :=
  let (n, rest) := Numeral.read text.toList
  if n.whole ≠ [] ∧ rest = [] then some n else none

/-- The loops inside of elements. -/
inductive Loop
  | comment
  | string
  /-- Over the digits in front of a point. -/
  | whole
  /-- Over the digits behind a point. -/
  | fraction
  | word
  deriving DecidableEq

/-- Whether the loop goes on over the character. -/
def Loop.takes : Loop → Char → Bool
  | comment, c => c != '\n'
  | string, c => c != '"'
  | whole, c | fraction, c => c.isDigit
  | word, c => isWordCharacter c

/-- The places in a scan. -/
inductive Stage
  /-- At the head of the loop over the elements. -/
  | between
  /-- In front of an element. -/
  | element
  /-- Behind the first character of an element. -/
  | lead (c : Char)
  /-- At the head of a loop. -/
  | test (l : Loop)
  /-- In a loop that goes on over the character. -/
  | body (l : Loop) (c : Char)
  /-- Behind a loop. -/
  | behind (l : Loop)
  /-- Behind the closing quote of a string. -/
  | closing
  /-- Behind a numeral. -/
  | numeral
  /-- Behind a mark. -/
  | mark (m : Mark)
  | done
  deriving DecidableEq

/-- Whether a round of a loop begins here, either of the loop over the elements or of one inside of
an element. -/
def Stage.isRound : Stage → Bool
  | element => true
  | body _ _ => true
  | _ => false

/-- The state of a scan by byte offsets. -/
structure Cursor where
  source : String
  /-- Where the element begins. -/
  start : Nat
  /-- How far the source was read. -/
  pos : Nat
  /-- The line on which the element begins. -/
  startLine : UInt32
  /-- The current line. -/
  line : UInt32
  tokens : List Token
  diagnostics : List Diagnostic
  log : List LogRecord
  stage : Stage
  deriving DecidableEq

namespace Cursor

/-- The cursor at the start of a source. -/
def atStart (source : String) : Cursor where
  source := source
  start := 0
  pos := 0
  startLine := 1
  line := 1
  tokens := []
  diagnostics := []
  log := [startRecord source]
  stage := .between

/-! ### What a cursor can do -/

/-- Goes on at another stage. -/
def enter (m : Cursor) (stage : Stage) : Cursor := { m with stage := stage }

/-- Whether the whole source was read. -/
def atEnd (m : Cursor) : Bool := m.source.utf8ByteSize ≤ m.pos

/-- The characters that were not read yet. -/
def ahead? (m : Cursor) : Option (List Char) :=
  (slice? m.source m.pos m.source.utf8ByteSize).map String.toList

/-- The next character, or `none` at the end of the source. -/
def peek? (m : Cursor) : Option (Option Char) := m.ahead?.map List.head?

/-- The character behind the next one. -/
def peekSecond? (m : Cursor) : Option (Option Char) := m.ahead?.map (·[1]?)

/-- The text of the element so far. -/
def lexeme? (m : Cursor) : Option String := slice? m.source m.start m.pos

/-- Reads the next character, if there is one. -/
def advance? (m : Cursor) : Option (Option Char × Cursor) := do
  match ← m.peek? with
  | some c => pure (some c, { m with pos := m.pos + c.utf8Size })
  | none => pure (none, m)

/-- Reads the next character only if it is the expected one, and says whether it is. -/
def accept? (m : Cursor) (expected : Char) : Option (Bool × Cursor) := do
  if (← m.peek?) = some expected then
    pure (true, { m with pos := m.pos + expected.utf8Size })
  else
    pure (false, m)

/-- Notes a token, and leaves a record of it. -/
def push? (m : Cursor) (kind : Kind) (literal : Option Literal) : Option Cursor := do
  let lexeme ← m.lexeme?
  let token : Token := ⟨kind, lexeme, literal, m.startLine⟩
  pure { m with
    tokens := m.tokens ++ [token]
    log := m.log ++ [⟨.trace, token.display⟩] }

/-- Notes a fault, and leaves a record of it. -/
def report (m : Cursor) (fault : Fault) : Cursor :=
  let diagnostic : Diagnostic := ⟨fault, m.line⟩
  { m with
    diagnostics := m.diagnostics ++ [diagnostic]
    log := m.log ++ [⟨.trace, diagnostic.display⟩] }

/-- Goes on to the next line. -/
def nextLine (m : Cursor) : Cursor := { m with line := m.line + 1 }

/-! ### Steps -/

/-- The end of the scan.  The end of the input is a token that leaves no record. -/
def finish (m : Cursor) : Cursor :=
  let tokens := m.tokens ++ [Token.endOfInput m.line]
  { m with tokens := tokens, log := m.log ++ [endRecord tokens m.diagnostics], stage := .done }

/-- The step at the head of the loop over the elements. -/
def between (m : Cursor) : Cursor :=
  if m.atEnd then
    m.finish
  else
    { m with start := m.pos, startLine := m.line, stage := .element }

/-- The step behind the first character of an element. -/
def lead? (m : Cursor) (c : Char) : Option Cursor :=
  match Lead.of c with
  | .newline => some (m.nextLine.enter .between)
  | .blank => some (m.enter .between)
  | .quote => some (m.enter (.test .string))
  | .digit => some (m.enter (.test .whole))
  | .letter => some (m.enter (.test .word))
  | .mark k =>
    if k = .slash then do
      let (found, m) ← m.accept? '/'
      pure (m.enter (if found then .test .comment else .mark .slash))
    else
      match k.withEquals? with
      | some longer => do
        let (found, m) ← m.accept? '='
        pure (m.enter (.mark (if found then longer else k)))
      | none => some (m.enter (.mark k))
  | .stray => some ((m.report (.unexpectedCharacter c)).enter .between)

/-- The step behind a loop. -/
def behind? (m : Cursor) : Loop → Option Cursor
  | .comment => some (m.enter .between)
  | .string =>
    if m.atEnd then
      some ((m.report .unterminatedString).enter .between)
    else do
      let (_, m) ← m.advance?
      pure (m.enter .closing)
  | .whole => do
    let first ← m.peek?
    let second ← m.peekSecond?
    if first = some '.' ∧ second.any Char.isDigit then
      let (_, m) ← m.advance?
      pure (m.enter (.test .fraction))
    else
      pure (m.enter .numeral)
  | .fraction => some (m.enter .numeral)
  | .word => do
    let lexeme ← m.lexeme?
    let m ← m.push? (.ofWord lexeme) none
    pure (m.enter .between)

/-- One step of a scan.  It fails if a slice of the source does that it needs. -/
def step? (m : Cursor) : Option Cursor :=
  match m.stage with
  | .between => some m.between
  | .element => do
    let (first, m) ← m.advance?
    pure (m.enter (match first with
      | some c => .lead c
      | none => .between))
  | .lead c => m.lead? c
  | .test l => do
    let next ← m.peek?
    pure (m.enter (match next with
      | some c => if l.takes c then .body l c else .behind l
      | none => .behind l))
  | .body l c => do
    let m := if l = .string ∧ c = '\n' then m.nextLine else m
    let (_, m) ← m.advance?
    pure (m.enter (.test l))
  | .behind l => m.behind? l
  | .closing => do
    -- without the quotes
    let value ← slice? m.source (m.start + 1) (m.pos - 1)
    let m ← m.push? .string (some (.text value))
    pure (m.enter .between)
  | .numeral => do
    let lexeme ← m.lexeme?
    match numeral? lexeme with
    | some n =>
      let m ← m.push? .number (some (.number n.value))
      pure (m.enter .between)
    | none => pure ((m.report (.unreadableNumber lexeme)).enter .between)
  | .mark k => do
    let m ← m.push? (.mark k) none
    pure (m.enter .between)
  | .done => some m

/-- So many steps of a scan. -/
def run? : Nat → Cursor → Option Cursor
  | 0, m => some m
  | n + 1, m => m.step?.bind (run? n)

/-- How many rounds of loops begin within so many steps. -/
def rounds (m : Cursor) (steps : Nat) : Nat :=
  (List.range steps).countP fun n => (m.run? n).any (·.stage.isRound)

end Cursor

end LoxScan
