import RegionAccess.Text.Hex
import RegionAccess.Yaml.Text

/-! Scalars without block indicators. Line ends inside them are folded. -/
namespace RegionAccess.Yaml

structure Scalar where
  text : String
  /-- Without quotes and not a block; only then is a scalar more than a text. -/
  isPlain : Bool
  deriving DecidableEq, Repr

def Scalar.empty : Scalar := ⟨"", true⟩

/-- What separates two words: blanks of one line, or line ends with whatever blanks are around
them. The first line end is missing where it was escaped. -/
inductive Gap where
  | blanks (chars : List Char)
  | breaks (first : Option Char) (more : List Char)

namespace Gap

def nothing : Gap := .blanks []

def blank (c : Char) : Gap → Gap
  | .blanks cs => .blanks (cs ++ [c])
  | g => g

def lineEnd (c : Char) : Gap → Gap
  | .blanks _ => .breaks (some c) []
  | .breaks first more => .breaks first (more ++ [c])

/-- A lone line feed becomes a space; before other line ends it is dropped. -/
def folded : Gap → List Char
  | .blanks cs => cs
  | .breaks (some '\n') [] => [' ']
  | .breaks (some '\n') more => more
  | .breaks first more => first.toList ++ more

/-- All line ends as they are. -/
def kept : Gap → List Char
  | .blanks cs => cs
  | .breaks first more => first.toList ++ more

def isEmpty : Gap → Bool
  | .blanks cs => cs.isEmpty
  | .breaks .. => false

def wraps : Gap → Bool
  | .blanks _ => false
  | .breaks .. => true

end Gap

/-- The characters that only a collection in brackets reserves. -/
def isFlowMark (c : Char) : Bool := ",[]\x7b\x7d".contains c

/-- Whether a plain scalar stops before a character that is not blank. -/
def endsPlain (inFlow : Bool) (s : Spot) (rest : List Spot) : Bool :=
  s.char == ':' && endsWord rest || inFlow && isFlowMark s.char

/-- The rest of a plain scalar, whether line ends follow it, and what comes then. Lines that go on
with it are indented to a least column, in brackets only against tabs. -/
def plain (inFlow : Bool) (least : Nat) (gap : Gap) :
    List Spot → Option (List Char × Bool × List Spot)
  | [] => some ([], gap.wraps, [])
  | s :: rest =>
    if isBlank s.char then
      if gap.wraps && s.char == '\t' && s.column < least then none
      else plain inFlow least (gap.blank s.char) rest
    else if isBreak s.char then plain inFlow least (gap.lineEnd s.char) rest
    else if gap.wraps && !inFlow && s.column < least || !gap.isEmpty && s.char == '#' ||
        atMarker (s :: rest) || endsPlain inFlow s rest then
      some ([], gap.wraps, s :: rest)
    else if inFlow && s.char == ':' &&
        rest.head?.any fun next => next.char == '?' || isFlowMark next.char then none
    else do
      let (text, wraps, after) ← plain inFlow least .nothing rest
      return (gap.folded ++ s.char :: text, wraps, after)

theorem plain_suffix {inFlow : Bool} {least : Nat} {gap : Gap} {ts r : List Spot} {t : List Char}
    {w : Bool} (h : plain inFlow least gap ts = some (t, w, r)) : r <:+ ts := by
  induction ts generalizing gap t w with
  | nil => simp_all [plain]
  | cons s rest ih =>
    unfold plain at h
    split at h
    · split at h
      · simp at h
      · exact (ih h).trans (List.suffix_cons _ _)
    · split at h
      · exact (ih h).trans (List.suffix_cons _ _)
      · split at h
        · simp_all
        · split at h
          · simp at h
          · simp only [Option.bind_eq_bind, Option.bind_eq_some_iff, Option.pure_def,
              Option.some.injEq, Prod.mk.injEq] at h
            obtain ⟨⟨t', w', r'⟩, h', -, -, rfl⟩ := h
            exact (ih h').trans (List.suffix_cons _ _)

/-- What a letter stands for after a backslash. -/
def escaped? : Char → Option Char
  | '0' => some '\x00'
  | 'a' => some '\x07'
  | 'b' => some '\x08'
  | 't' | '\t' => some '\t'
  | 'n' => some '\n'
  | 'v' => some '\x0b'
  | 'f' => some '\x0c'
  | 'r' => some '\r'
  | 'e' => some '\x1b'
  | 'N' => some '\u0085'
  | '_' => some '\u00a0'
  | 'L' => some '\u2028'
  | 'P' => some '\u2029'
  | c => if " \"/\\".contains c then some c else none

/-- How many digits of a code point follow a letter after a backslash. -/
def escapeWidth? : Char → Option Nat
  | 'x' => some 2
  | 'u' => some 4
  | 'U' => some 8
  | _ => none

def codePoint? (width : Nat) (text : List Spot) : Option Char :=
  let digits := (text.take width).map (·.char)
  if digits.length < width then none
  else (Text.readHex? digits).bind fun n => if n.isValidChar then some (Char.ofNat n) else none

/-- A word and what was read behind it, with the gap in front. -/
def Gap.lead (g : Gap) (word : List Char) (behind : Option (List Char × List Spot)) :
    Option (List Char × List Spot) :=
  behind.map fun (text, after) => (g.folded ++ word ++ text, after)

theorem Gap.of_lead {g : Gap} {word t : List Char} {r : List Spot}
    {behind : Option (List Char × List Spot)} (h : g.lead word behind = some (t, r)) :
    ∃ t', behind = some (t', r) := by
  obtain ⟨⟨t', r'⟩, rfl, h⟩ := Option.map_eq_some_iff.mp h
  exact ⟨t', by simp_all⟩

/-- The rest of a quoted scalar and what follows its closing quote. -/
def quoted (isDouble : Bool) (gap : Gap) : List Spot → Option (List Char × List Spot)
  | [] => none
  | s :: rest =>
    if atMarker (s :: rest) then none
    else if isBlank s.char then quoted isDouble (gap.blank s.char) rest
    else if isBreak s.char then quoted isDouble (gap.lineEnd s.char) rest
    else if s.char == (if isDouble then '"' else '\'') then
      match rest with
      | next :: rest' =>
        if !isDouble && next.char == '\'' then gap.lead ['\''] (quoted isDouble .nothing rest')
        else some (gap.folded, rest)
      | [] => some (gap.folded, [])
    else if isDouble && s.char == '\\' then
      match rest with
      | [] => none
      | e :: rest =>
        if isBreak e.char then gap.lead [] (quoted isDouble (.breaks none []) rest)
        else
          match escapeWidth? e.char with
          | some width =>
            (codePoint? width rest).bind fun c =>
              gap.lead [c] (quoted isDouble .nothing (rest.drop width))
          | none =>
            (escaped? e.char).bind fun c => gap.lead [c] (quoted isDouble .nothing rest)
    else gap.lead [s.char] (quoted isDouble .nothing rest)
termination_by text => text.length
decreasing_by all_goals simp only [List.length_cons, List.length_drop]; omega

theorem quoted_suffix {isDouble : Bool} {gap : Gap} {ts r : List Spot} {t : List Char}
    (h : quoted isDouble gap ts = some (t, r)) : r <:+ ts := by
  fun_induction quoted isDouble gap ts generalizing t <;>
    grind [Gap.of_lead, Option.bind_eq_some_iff, List.IsSuffix.trans, List.suffix_cons,
      List.drop_suffix]

end RegionAccess.Yaml
