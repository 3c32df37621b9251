import RegionAccess.Document
import RegionAccess.Yaml.Node

/-! What the nodes of a YAML document are read as. Only plain scalars are numbers or truth values;
an empty one is also a record, a map or a list without anything in it. -/
namespace RegionAccess.Yaml

/-- A number of one or more digits that an unsigned 64-bit word holds. -/
def digits? (base : Nat) (cs : List Char) : Option Nat :=
  if cs.isEmpty then none
  else do
    let n ← cs.foldlM (fun n c => do
      let d ← Text.hexValue? c
      if d < base then some (n * base + d) else none) 0
    if n < UInt64.size then some n else none

/-- After a plus sign or none: a decimal number without leading zeros, or one of the base that the
letter after a zero says. -/
def word? (cs : List Char) : Option Nat :=
  match (match cs with
    | '+' :: rest => rest
    | _ => cs) with
  | '0' :: 'x' :: rest => digits? 16 rest
  | '0' :: 'o' :: rest => digits? 8 rest
  | '0' :: 'b' :: rest => digits? 2 rest
  | ['0'] => some 0
  | '0' :: _ => none
  | rest => digits? 10 rest

namespace Scalar

def isNothing (s : Scalar) : Bool := s.isPlain && s.text.isEmpty

def bool? (s : Scalar) : Option Bool :=
  if !s.isPlain then none
  else if ["true", "True", "TRUE"].contains s.text then some true
  else if ["false", "False", "FALSE"].contains s.text then some false
  else none

end Scalar

namespace Node

def text? : Node → Option String
  | .scalar s => some s.text
  | _ => none

def entries? : Node → Option (List (String × Node))
  | .void => some []
  | .scalar s => if s.isNothing then some [] else none
  | .mapping entries => entries.mapM fun (key, value) => key.text?.map (·, value)
  | .sequence _ => none

instance : Document Node where
  record? node := node.entries?.map .named
  entries? := entries?
  items?
    | .void => some []
    | .scalar s => if s.isNothing then some [] else none
    | .sequence items => some items
    | .mapping _ => none
  text? := text?
  bool?
    | .scalar s => s.bool?
    | _ => none
  word?
    | .scalar s => if s.isPlain then Yaml.word? s.text.toList else none
    | _ => none

end Node
end RegionAccess.Yaml
