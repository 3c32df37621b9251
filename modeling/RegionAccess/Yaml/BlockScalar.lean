import RegionAccess.Yaml.Scalar

/-! Block scalars: a header, and the lines after it that start at one column. -/
namespace RegionAccess.Yaml

/-- What becomes of the line ends behind the last line. -/
inductive Chomping where
  | clip | strip | keep
  deriving DecidableEq, Repr

def Chomping.ofChar? : Char → Option Chomping
  | '+' => some .keep
  | '-' => some .strip
  | _ => none

/-- The line ends that are left of those behind the last line. -/
def Chomping.tail : Chomping → Gap → List Char
  | .clip, .breaks first _ => first.toList
  | .keep, gap => gap.kept
  | _, _ => []

/-- A first character that means something, if it does. -/
def optionally {α : Type} (read : Char → Option α) : List Spot → Option α × List Spot
  | [] => (none, [])
  | s :: rest =>
    match read s.char with
    | some a => (some a, rest)
    | none => (none, s :: rest)

theorem optionally_suffix {α : Type} (read : Char → Option α) (ts : List Spot) :
    (optionally read ts).2 <:+ ts := by
  unfold optionally
  grind [List.suffix_cons]

def indentDigit? (c : Char) : Option Nat :=
  if '1' ≤ c ∧ c ≤ '9' then some (c.toNat - 48) else none

/-- How line ends are chomped, the columns of indentation if they are given, in either order. -/
def header (text : List Spot) : Chomping × Option Nat × List Spot :=
  let (chomping, text) := optionally Chomping.ofChar? text
  let (columns, text) := optionally indentDigit? text
  match chomping, columns with
  | none, some _ =>
    let (chomping, text) := optionally Chomping.ofChar? text
    (chomping.getD .clip, columns, text)
  | _, _ => (chomping.getD .clip, columns, text)

theorem header_suffix (ts : List Spot) : (header ts).2.2 <:+ ts := by
  unfold header
  grind [optionally_suffix, List.IsSuffix.trans]

/-- The line after one that holds nothing more but blanks and a comment. -/
def nextLine? (text : List Spot) : Option (List Spot) :=
  let text := text.dropWhile (isBlank ·.char)
  let text :=
    if text.head?.any (·.char == '#') then text.dropWhile (!isBreak ·.char) else text
  match text with
  | [] => some []
  | s :: rest => if isBreak s.char then some rest else none

theorem nextLine?_suffix {ts r : List Spot} (h : nextLine? ts = some r) : r <:+ ts := by
  unfold nextLine? at h
  grind [List.dropWhile_suffix, List.IsSuffix.trans, List.suffix_cons]

/-- Line ends up to a line that holds something, and the column farthest right at which a line
starts or ends. Only spaces indent, up to a column if that is known. -/
def blankLines (indent : Option Nat) : List Spot → Option (List Char × Nat × List Spot)
  | [] => some ([], 0, [])
  | s :: rest =>
    if indent.all (s.column < ·) && s.char == ' ' then blankLines indent rest
    else if indent.all (s.column < ·) && s.char == '\t' then none
    else if isBreak s.char then
      (blankLines indent rest).map fun (cs, column, after) =>
        (s.char :: cs, max s.column column, after)
    else some ([], s.column, s :: rest)

theorem blankLines_suffix {indent : Option Nat} {ts r : List Spot} {cs : List Char} {n : Nat}
    (h : blankLines indent ts = some (cs, n, r)) : r <:+ ts := by
  fun_induction blankLines indent ts generalizing cs n <;>
    grind [Option.map_eq_some_iff, List.IsSuffix.trans, List.suffix_cons]

/-- Lines of a block and the line ends behind the last of them. Next to a line that starts with a
blank, line ends are not folded. -/
def lines (isFolded : Bool) (indent : Nat) (gap : Gap) (isIndented : Bool) :
    List Spot → Option (List Char × Gap × List Spot)
  | [] => some ([], gap, [])
  | s :: rest =>
    if s.column ≠ indent then some ([], gap, s :: rest)
    else
      let joint := if isFolded && !isIndented && !isBlank s.char then gap.folded else gap.kept
      let line := ((s :: rest).takeWhile (!isBreak ·.char)).map (·.char)
      match _ : (s :: rest).dropWhile (!isBreak ·.char) with
      | [] => some (joint ++ line, .breaks none [], [])
      | b :: after =>
        match _ : blankLines (some indent) after with
        | none => none
        | some (more, _, after) =>
          (lines isFolded indent (.breaks (some b.char) more) (isBlank s.char) after).map
            fun (text, gap, after) => (joint ++ line ++ text, gap, after)
termination_by text => text.length
decreasing_by
  have h := (blankLines_suffix ‹_›).length_le
  have h' := (List.dropWhile_suffix (l := s :: rest) (!isBreak ·.char)).length_le
  simp_all only [List.length_cons]
  omega

theorem lines_suffix {isFolded isIndented : Bool} {indent : Nat} {gap g : Gap} {ts r : List Spot}
    {t : List Char} (h : lines isFolded indent gap isIndented ts = some (t, g, r)) : r <:+ ts := by
  fun_induction lines isFolded indent gap isIndented ts generalizing t g
  case case5 =>
    rename_i hdrop _ _ _ hblank ih
    obtain ⟨⟨t', g', r'⟩, h', h⟩ := Option.map_eq_some_iff.mp h
    obtain ⟨-, -, rfl⟩ : _ ∧ _ ∧ r' = r := by simpa using h
    exact (ih h').trans <| (blankLines_suffix hblank).trans <|
      (List.suffix_cons _ _).trans (hdrop ▸ List.dropWhile_suffix _)
  all_goals simp_all

/-- A block scalar behind its indicator, and what follows it; its lines are indented to a least
column. -/
def blockScalar (isFolded : Bool) (least : Nat) (text : List Spot) :
    Option (List Char × List Spot) := do
  let (chomping, columns, text) := header text
  let text ← nextLine? text
  let indent := columns.map (least - 1 + ·)
  let (breaks, column, text) ← blankLines indent text
  let indent := indent.getD (max column (max least 1))
  let (chars, gap, text) ← lines isFolded indent (.breaks none breaks) false text
  return (chars ++ chomping.tail gap, text)

theorem blockScalar_suffix {isFolded : Bool} {least : Nat} {ts r : List Spot} {t : List Char}
    (h : blockScalar isFolded least ts = some (t, r)) : r <:+ ts := by
  simp only [blockScalar, Option.bind_eq_bind, Option.bind_eq_some_iff, Option.pure_def,
    Option.some.injEq, Prod.mk.injEq] at h
  obtain ⟨a, ha, ⟨b, n, c⟩, hb, ⟨d, e, f⟩, hd, -, rfl⟩ := h
  exact (lines_suffix hd).trans <| (blankLines_suffix hb).trans <|
    (nextLine?_suffix ha).trans (header_suffix ts)

end RegionAccess.Yaml
