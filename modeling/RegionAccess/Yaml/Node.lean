import RegionAccess.Yaml.Token

/-! Documents as trees. Where a node is missing, and a mark says that one could stand there, an
empty plain scalar takes its place. -/
namespace RegionAccess.Yaml

inductive Node where
  /-- What a text without a document holds. -/
  | void
  | scalar (scalar : Scalar)
  | sequence (items : List Node)
  | mapping (entries : List (Node × Node))
  deriving Inhabited

/-- Something read from tokens, and fewer tokens that are left. -/
abbrev Read (α : Type) (ts : List Token) :=
  Option (α × {rest : List Token // rest.length < ts.length})

/-- Something read from tokens or assumed without any. -/
abbrev Assumed (α : Type) (ts : List Token) :=
  Option (α × {rest : List Token // rest.length ≤ ts.length})

def Node.empty : Node := .scalar .empty

namespace Grammar

/-- Whether a token follows that ends an entry of a block mapping, or a part of one. -/
def atEntryEnd : List Token → Bool
  | .key :: _ | .value :: _ | .blockEnd :: _ => true
  | _ => false

def atItemEnd : List Token → Bool
  | .item :: _ | .blockEnd :: _ => true
  | _ => false

def atFlowItemEnd : List Token → Bool
  | .comma :: _ | .flowSequenceEnd :: _ => true
  | _ => false

def atFlowEntryEnd : List Token → Bool
  | .comma :: _ | .flowMappingEnd :: _ => true
  | _ => false

def atValue : List Token → Bool
  | .value :: _ => true
  | _ => false

mutual

/-- A node. In brackets there are no block collections; the items of a value may stand at the
column of its key, and then have no start and no end. -/
def node? (inBlock mayList : Bool) : (ts : List Token) → Read Node ts
  | .scalar s :: ts => some (.scalar s, ⟨ts, by simp⟩)
  | .flowSequenceStart :: ts => do
    let (items, ⟨rest, h⟩) ← flowItems? ts
    return (.sequence items, ⟨rest, by simp; omega⟩)
  | .flowMappingStart :: ts => do
    let (entries, ⟨rest, h⟩) ← flowEntries? ts
    return (.mapping entries, ⟨rest, by simp; omega⟩)
  | .sequenceStart :: ts =>
    if inBlock then do
      let (items, ⟨rest, h⟩) ← items? ts
      return (.sequence items, ⟨rest, by simp; omega⟩)
    else none
  | .mappingStart :: ts =>
    if inBlock then do
      let (entries, ⟨rest, h⟩) ← entries? ts
      return (.mapping entries, ⟨rest, by simp; omega⟩)
    else none
  | .item :: ts =>
    if mayList then do
      let (first, ⟨rest, h⟩) ← unless? (atEntryEnd ts || atItemEnd ts) true false ts
      let (items, ⟨rest', h'⟩) ← listedItems? rest
      return (.sequence (first :: items), ⟨rest', by simp; omega⟩)
    else none
  | _ => none
termination_by ts => (ts.length, 0)

/-- A node, or the empty one where it is missing. -/
def unless? (isMissing inBlock mayList : Bool) (ts : List Token) : Assumed Node ts :=
  if isMissing then some (.empty, ⟨ts, Nat.le_refl _⟩)
  else do
    let (node, ⟨rest, h⟩) ← node? inBlock mayList ts
    return (node, ⟨rest, by omega⟩)
termination_by (ts.length, 1)

/-- Items of a block sequence up to its end. -/
def items? : (ts : List Token) → Read (List Node) ts
  | .item :: ts => do
    let (first, ⟨rest, h⟩) ← unless? (atItemEnd ts) true false ts
    let (items, ⟨rest', h'⟩) ← items? rest
    return (first :: items, ⟨rest', by simp; omega⟩)
  | .blockEnd :: ts => some ([], ⟨ts, by simp⟩)
  | _ => none
termination_by ts => (ts.length, 0)

/-- More items at the column of a key. -/
def listedItems? : (ts : List Token) → Assumed (List Node) ts
  | .item :: ts => do
    let (first, ⟨rest, h⟩) ← unless? (atEntryEnd ts || atItemEnd ts) true false ts
    let (items, ⟨rest', h'⟩) ← listedItems? rest
    return (first :: items, ⟨rest', by simp; omega⟩)
  | ts => some ([], ⟨ts, Nat.le_refl _⟩)
termination_by ts => (ts.length, 0)

/-- The value behind a key that was read, if there is one. -/
def value? (atEnd : List Token → Bool) (inBlock : Bool) : (ts : List Token) → Assumed Node ts
  | .value :: ts => do
    let (value, ⟨rest, h⟩) ← unless? (atEnd ts) inBlock inBlock ts
    return (value, ⟨rest, by simp; omega⟩)
  | ts => some (.empty, ⟨ts, Nat.le_refl _⟩)
termination_by ts => (ts.length, 0)

/-- Entries of a block mapping up to its end. -/
def entries? : (ts : List Token) → Read (List (Node × Node)) ts
  | .key :: ts => do
    let (key, ⟨rest, h⟩) ← unless? (atEntryEnd ts) true true ts
    let (value, ⟨rest', h'⟩) ← value? atEntryEnd true rest
    let (entries, ⟨rest'', h''⟩) ← entries? rest'
    return ((key, value) :: entries, ⟨rest'', by simp; omega⟩)
  | .blockEnd :: ts => some ([], ⟨ts, by simp⟩)
  | _ => none
termination_by ts => (ts.length, 0)

/-- Items in brackets up to the closing one. A pair among them is a mapping of one entry. -/
def flowItems? : (ts : List Token) → Read (List Node) ts
  | .flowSequenceEnd :: ts => some ([], ⟨ts, by simp⟩)
  | .key :: ts => do
    let (pair, ⟨rest, h⟩) ← pair? ts
    let (items, ⟨rest', h'⟩) ← moreFlowItems? rest
    return (.mapping [pair] :: items, ⟨rest', by simp; omega⟩)
  | ts => do
    let (first, ⟨rest, h⟩) ← node? false false ts
    let (items, ⟨rest', h'⟩) ← moreFlowItems? rest
    return (first :: items, ⟨rest', by omega⟩)
termination_by ts => (ts.length, 1)

def moreFlowItems? : (ts : List Token) → Read (List Node) ts
  | .flowSequenceEnd :: ts => some ([], ⟨ts, by simp⟩)
  | .comma :: ts => do
    let (items, ⟨rest, h⟩) ← flowItems? ts
    return (items, ⟨rest, by simp; omega⟩)
  | _ => none
termination_by ts => (ts.length, 0)

/-- A pair among items. A key that is missing takes the mark that shows it with it. -/
def pair? (ts : List Token) : Assumed (Node × Node) ts :=
  match ts with
  | .value :: ts | .comma :: ts | .flowSequenceEnd :: ts => do
    let (value, ⟨rest, h⟩) ← value? atFlowItemEnd false ts
    return ((.empty, value), ⟨rest, by simp; omega⟩)
  | ts => do
    let (key, ⟨rest, h⟩) ← node? false false ts
    let (value, ⟨rest', h'⟩) ← value? atFlowItemEnd false rest
    return ((key, value), ⟨rest', by omega⟩)
termination_by (ts.length, 1)

/-- Entries in braces up to the closing one. A node without a key's mark is a key that has no
value. -/
def flowEntries? : (ts : List Token) → Read (List (Node × Node)) ts
  | .flowMappingEnd :: ts => some ([], ⟨ts, by simp⟩)
  | .key :: ts => do
    let (key, ⟨rest, h⟩) ← unless? (atValue ts || atFlowEntryEnd ts) false false ts
    let (value, ⟨rest', h'⟩) ← value? atFlowEntryEnd false rest
    let (entries, ⟨rest'', h''⟩) ← moreFlowEntries? rest'
    return ((key, value) :: entries, ⟨rest'', by simp; omega⟩)
  | ts => do
    let (key, ⟨rest, h⟩) ← node? false false ts
    let (entries, ⟨rest', h'⟩) ← moreFlowEntries? rest
    return ((key, .empty) :: entries, ⟨rest', by omega⟩)
termination_by ts => (ts.length, 1)

def moreFlowEntries? : (ts : List Token) → Read (List (Node × Node)) ts
  | .flowMappingEnd :: ts => some ([], ⟨ts, by simp⟩)
  | .comma :: ts => do
    let (entries, ⟨rest, h⟩) ← flowEntries? ts
    return (entries, ⟨rest, by simp; omega⟩)
  | _ => none
termination_by ts => (ts.length, 0)

end
end Grammar

/-- The only document of a stream. -/
def Node.ofTokens? (tokens : List Token) : Option Node :=
  let alone (read : Option (Node × List Token)) : Option Node :=
    match read with
    | some (node, rest) => if rest.all (· == .documentEnd) then some node else none
    | none => none
  let node (ts : List Token) := (Grammar.node? true false ts).map fun (node, rest) => (node, rest.1)
  match tokens with
  | [] => some .void
  | .documentStart :: ts =>
    match ts with
    | [] | .documentStart :: _ | .documentEnd :: _ => alone (some (.empty, ts))
    | ts => alone (node ts)
  | ts => alone (node ts)

/-- The document that a text holds. -/
def Node.ofText? (text : String) : Option Node := (tokens? text).bind ofTokens?

end RegionAccess.Yaml
