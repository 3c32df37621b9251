/-! Texts of the YAML notation as characters with their places. -/
namespace RegionAccess.Yaml

def isBlank (c : Char) : Bool := c == ' ' || c == '\t'

/-- What ends a line once line ends are brought to one form. -/
def isBreak (c : Char) : Bool := c == '\n' || c == '\u2028' || c == '\u2029'

/-- Control characters, apart from tabs and line ends, may not occur in a text. -/
def isAllowed (c : Char) : Bool :=
  let n := c.toNat
  c == '\t' || c == '\n' || c == '\r' || 0x20 ≤ n && n ≤ 0x7e || n == 0x85 ||
    0xa0 ≤ n && n ≤ 0xfffd || 0x10000 ≤ n

structure Spot where
  char : Char
  line : Nat
  column : Nat
  /-- The bytes of the line before it. -/
  offset : Nat
  deriving Repr

/-- A carriage return, the line feed after it included, and a next-line character count as one
line feed. -/
def spotsFrom (line column offset : Nat) : List Char → List Spot
  | [] => []
  | '\r' :: '\n' :: cs => ⟨'\n', line, column, offset⟩ :: spotsFrom (line + 1) 0 0 cs
  | c :: cs =>
    let shown := if c == '\r' || c == '\u0085' then '\n' else c
    ⟨shown, line, column, offset⟩ ::
      if isBreak shown then spotsFrom (line + 1) 0 0 cs
      else spotsFrom line (column + 1) (offset + c.utf8Size) cs

def spots? (text : String) : Option (List Spot) :=
  if text.toList.all isAllowed then some (spotsFrom 0 0 0 text.toList) else none

/-- Whether nothing but a blank or a line end follows. -/
def endsWord : List Spot → Bool
  | [] => true
  | s :: _ => isBlank s.char || isBreak s.char

/-- Whether a line starts with a character three times and no more of the word. -/
def isTripled (c : Char) : List Spot → Bool
  | a :: b :: d :: rest =>
    a.column == 0 && a.char == c && b.char == c && d.char == c && endsWord rest
  | _ => false

/-- Whether a line starts with the marker of a document's start or end. -/
def atMarker (text : List Spot) : Bool := isTripled '-' text || isTripled '.' text

end RegionAccess.Yaml
