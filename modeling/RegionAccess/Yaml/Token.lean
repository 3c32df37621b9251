import RegionAccess.Yaml.Lexeme

/-! Texts as tokens: lexemes, with what indentation says put into words. Block collections get a
start and an end, and every key is marked, though only the colon behind it shows that it is one. -/
namespace RegionAccess.Yaml

inductive Token where
  | documentStart | documentEnd
  | sequenceStart | mappingStart | blockEnd
  | flowSequenceStart | flowSequenceEnd | flowMappingStart | flowMappingEnd
  | comma | item | key | value
  | scalar (scalar : Scalar)
  deriving DecidableEq, Repr

/-- A place where a key may have started. -/
structure Candidate where
  /-- The number of tokens before it. -/
  index : Nat
  line : Nat
  column : Nat
  offset : Nat
  /-- Nothing but a key can stand there. -/
  isRequired : Bool

/-- A key ends on the line where it started, within 1024 bytes. -/
def Candidate.isStale (c : Candidate) (s : Spot) : Bool :=
  c.line < s.line || c.offset + 1024 < s.offset

/-- The tokens of a first part of a text, and what is open at its end. -/
structure Layout where
  tokens : Array Token := #[]
  /-- Columns of the open block collections, innermost first. -/
  indents : List Nat := []
  candidate : Option Candidate := none
  /-- The candidates around each open bracket, innermost first. -/
  outer : List (Option Candidate) := []
  keyAllowed : Bool := true

namespace Layout

def inFlow (l : Layout) : Bool := !l.outer.isEmpty

/-- The first column that is inside the innermost block collection. -/
def least (l : Layout) : Nat := l.indents.head?.elim 0 (· + 1)

def push (l : Layout) (keyAllowed : Bool) (t : Token) : Layout :=
  { l with tokens := l.tokens.push t, keyAllowed }

/-- Brackets suspend indentation. -/
def closeIf (l : Layout) (isOver : Nat → Bool) : Layout :=
  if l.inFlow then l
  else
    { l with
      tokens := l.tokens ++ (l.indents.takeWhile isOver).map fun _ => Token.blockEnd
      indents := l.indents.dropWhile isOver }

/-- Gives up a candidate that can no longer be a key, unless nothing else can be there. -/
def drop? (isOver : Candidate → Bool) : Option Candidate → Option (Option Candidate)
  | none => some none
  | some c => if !isOver c then some (some c) else if c.isRequired then none else some none

def giveUp? (l : Layout) : Option Layout :=
  (drop? (fun _ => true) l.candidate).map fun candidate => { l with candidate }

/-- Goes to where a lexeme starts. -/
def arrive? (l : Layout) (s : Spot) : Option Layout := do
  let candidate ← drop? (·.isStale s) l.candidate
  let outer ← l.outer.mapM (drop? (·.isStale s))
  return { l with candidate, outer }.closeIf (s.column < ·)

def insert (l : Layout) (index : Nat) (t : Token) : Layout :=
  { l with tokens := l.tokens.insertIdxIfInBounds index t }

/-- Opens a block collection in front of a token, unless its column is that of an open one. -/
def openBlock (l : Layout) (column index : Nat) (start : Token) : Layout :=
  if l.inFlow || column < l.least then l
  else { l with indents := column :: l.indents }.insert index start

def offer? (l : Layout) (s : Spot) : Option Layout :=
  if l.keyAllowed then
    l.giveUp?.map fun l =>
      { l with
        candidate := some {
          index := l.tokens.size, line := s.line, column := s.column, offset := s.offset
          isRequired := !l.inFlow && l.indents.head? == some s.column } }
  else some l

def openBracket? (l : Layout) (s : Spot) (start : Token) : Option Layout :=
  (l.offer? s).map fun l =>
    { l with candidate := none, outer := l.candidate :: l.outer }.push true start

/-- A bracket may close without one that is open; whether it has a place is for the grammar to
say. -/
def closeBracket? (l : Layout) (finish : Token) : Option Layout :=
  l.giveUp?.map fun l =>
    match l.outer with
    | [] => l.push false finish
    | candidate :: outer => { l with candidate, outer }.push false finish

/-- Closes all block collections; open brackets cannot be closed. -/
def closeAll? (l : Layout) : Option Layout :=
  if l.inFlow then none else (l.closeIf fun _ => true).giveUp?

/-- A mark that starts an item, a key or a value at the column where it stands. -/
def openAt? (l : Layout) (s : Spot) (start mark : Token) : Option Layout :=
  if l.inFlow || l.keyAllowed then
    (l.openBlock s.column l.tokens.size start).giveUp?.map (·.push (!l.inFlow) mark)
  else none

/-- The value of a key that was not marked before, or else one of its own. -/
def value? (l : Layout) (s : Spot) : Option Layout :=
  match l.candidate with
  | some c =>
    let l := { l with candidate := none }.insert c.index .key
    some ((l.openBlock c.column c.index .mappingStart).push false .value)
  | none => l.openAt? s .mappingStart .value

/-- Adds a lexeme that starts at a spot. -/
def add? (l : Layout) (s : Spot) : Lexeme → Option Layout
  | .documentStart => l.closeAll?.map (·.push false .documentStart)
  | .documentEnd => l.closeAll?.map (·.push false .documentEnd)
  | .openSequence => l.openBracket? s .flowSequenceStart
  | .closeSequence => l.closeBracket? .flowSequenceEnd
  | .openMapping => l.openBracket? s .flowMappingStart
  | .closeMapping => l.closeBracket? .flowMappingEnd
  | .comma => l.giveUp?.map (·.push true .comma)
  | .dash => if l.inFlow then none else l.openAt? s .sequenceStart .item
  | .question => l.openAt? s .mappingStart .key
  | .colon => l.value? s
  | .word scalar wraps => (l.offer? s).map (·.push wraps (.scalar scalar))
  | .block text => l.giveUp?.map (·.push true (.scalar ⟨text, false⟩))

/-- All tokens once the rest of a text is added. -/
def finish? (l : Layout) (text : List Spot) : Option (List Token) :=
  match _hskip : skip l.inFlow l.keyAllowed false text with
  | (_, []) => l.closeAll?.map (·.tokens.toList)
  | (keyAllowed, s :: rest) =>
    match { l with keyAllowed }.arrive? s with
    | none => none
    | some here =>
      match _hread : Lexeme.read? here.inFlow here.least s rest with
      | none => none
      | some (lexeme, after) =>
        match here.add? s lexeme with
        | none => none
        | some next => next.finish? after
termination_by text.length
decreasing_by
  have hle := (skip_suffix l.inFlow l.keyAllowed false text).length_le
  have hle' := (Lexeme.read?_suffix _hread).length_le
  rw [_hskip, List.length_cons] at hle
  omega

end Layout

/-- The tokens of a text, if it has any faultless reading. -/
def tokens? (text : String) : Option (List Token) := do
  let spots ← spots? text
  Layout.finish? {} spots

end RegionAccess.Yaml
