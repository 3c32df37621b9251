import RegionAccess.Yaml.BlockScalar

/-! The smallest pieces of a text: marks and scalars. Directives, anchors, aliases and tags are
not part of the notation read here. -/
namespace RegionAccess.Yaml

inductive Lexeme where
  | documentStart | documentEnd
  | openSequence | closeSequence | openMapping | closeMapping
  | comma | dash | question | colon
  /-- A plain or quoted scalar, and whether a plain one is followed by line ends. -/
  | word (scalar : Scalar) (wraps : Bool)
  | block (text : String)
  deriving DecidableEq, Repr

namespace Lexeme

def ofPlain (first : Char) (read : Option (List Char × Bool × List Spot)) :
    Option (Lexeme × List Spot) :=
  read.map fun (cs, wraps, after) => (.word ⟨String.ofList (first :: cs), true⟩ wraps, after)

def ofQuoted (read : Option (List Char × List Spot)) : Option (Lexeme × List Spot) :=
  read.map fun (cs, after) => (.word ⟨String.ofList cs, false⟩ false, after)

def ofBlock (read : Option (List Char × List Spot)) : Option (Lexeme × List Spot) :=
  read.map fun (cs, after) => (.block (String.ofList cs), after)

/-- The lexeme that starts at a character, in brackets or not, and what follows it. The lines of a
scalar that go on with it are indented to a least column. -/
def read? (inFlow : Bool) (least : Nat) (s : Spot) (rest : List Spot) :
    Option (Lexeme × List Spot) :=
  let word := ofPlain s.char (plain inFlow least .nothing rest)
  if isTripled '-' (s :: rest) then some (.documentStart, rest.drop 2)
  else if isTripled '.' (s :: rest) then some (.documentEnd, rest.drop 2)
  else
    match s.char with
    | '[' => some (.openSequence, rest)
    | ']' => some (.closeSequence, rest)
    | '\x7b' => some (.openMapping, rest)
    | '\x7d' => some (.closeMapping, rest)
    | ',' => some (.comma, rest)
    | '-' => if endsWord rest then some (.dash, rest) else word
    | '?' => if inFlow || endsWord rest then some (.question, rest) else word
    | ':' => if inFlow || endsWord rest then some (.colon, rest) else word
    | '|' => if inFlow then none else ofBlock (blockScalar false least rest)
    | '>' => if inFlow then none else ofBlock (blockScalar true least rest)
    | '\'' => ofQuoted (quoted false .nothing rest)
    | '"' => ofQuoted (quoted true .nothing rest)
    | c => if "\t#&*!%@`".contains c then none else word

theorem read?_suffix {inFlow : Bool} {least : Nat} {s : Spot} {ts r : List Spot} {x : Lexeme}
    (h : read? inFlow least s ts = some (x, r)) : r <:+ ts := by
  have hplain {x r} (h : ofPlain s.char (plain inFlow least .nothing ts) = some (x, r)) :
      r <:+ ts := by
    obtain ⟨⟨t, w, r'⟩, h', h⟩ := Option.map_eq_some_iff.mp h
    obtain ⟨-, rfl⟩ : _ ∧ r' = r := by simpa using h
    exact plain_suffix h'
  have hquoted {x r b} (h : ofQuoted (quoted b .nothing ts) = some (x, r)) : r <:+ ts := by
    obtain ⟨⟨t, r'⟩, h', h⟩ := Option.map_eq_some_iff.mp h
    obtain ⟨-, rfl⟩ : _ ∧ r' = r := by simpa using h
    exact quoted_suffix h'
  have hblock {x r b} (h : ofBlock (blockScalar b least ts) = some (x, r)) : r <:+ ts := by
    obtain ⟨⟨t, r'⟩, h', h⟩ := Option.map_eq_some_iff.mp h
    obtain ⟨-, rfl⟩ : _ ∧ r' = r := by simpa using h
    exact blockScalar_suffix h'
  unfold read? at h
  grind [List.drop_suffix]

end Lexeme

/-- What follows blanks, comments and line ends, and whether a key may start there. A line end
makes room for a key, except in brackets. Where a key may start tabs are no blanks. -/
def skip (inFlow keyAllowed inComment : Bool) : List Spot → Bool × List Spot
  | [] => (keyAllowed, [])
  | s :: rest =>
    if isBreak s.char then skip inFlow (keyAllowed || !inFlow) false rest
    else if inComment || s.char == ' ' || s.char == '\t' && (inFlow || !keyAllowed) ||
        s.char == '\ufeff' && s.column == 0 then
      skip inFlow keyAllowed inComment rest
    else if s.char == '#' then skip inFlow keyAllowed true rest
    else (keyAllowed, s :: rest)

theorem skip_suffix (inFlow keyAllowed inComment : Bool) (ts : List Spot) :
    (skip inFlow keyAllowed inComment ts).2 <:+ ts := by
  fun_induction skip inFlow keyAllowed inComment ts <;>
    grind [List.IsSuffix.trans, List.suffix_cons]

end RegionAccess.Yaml
