import RegionAccess.Text.Hex

/-! 128-bit identifiers and their text: 8-4-4-4-12 hexadecimal digits, also read without
hyphens, in braces, or after a urn label. -/
namespace RegionAccess

structure Uuid where
  value : BitVec 128
  deriving DecidableEq, Repr

namespace Uuid

/-- The order of the bytes, first byte first. -/
instance : Ord Uuid := ⟨compareOn value⟩

instance : Std.TransOrd Uuid := inferInstanceAs (Std.TransCmp (compareOn value))

instance : Std.LawfulEqOrd Uuid where
  eq_of_compare {a b} h := by
    obtain ⟨a⟩ := a
    obtain ⟨b⟩ := b
    exact congrArg Uuid.mk (Std.LawfulEqOrd.eq_of_compare h)

def groups : List Nat := [8, 4, 4, 4, 12]

/-- Groups of digits, a hyphen between each two. -/
def hyphenate : List Nat → List Char → List Char
  | [], ds => ds
  | [_], ds => ds
  | n :: ns, ds => ds.take n ++ '-' :: hyphenate ns (ds.drop n)

/-- The digits of hyphenated groups, refused unless each group has its length. -/
def unhyphenate? : List Nat → List Char → Option (List Char)
  | [], cs => if cs.isEmpty then some [] else none
  | [n], cs => if cs.length = n then some cs else none
  | n :: ns, cs =>
      match cs.drop n with
      | '-' :: rest => (unhyphenate? ns rest).map (cs.take n ++ ·)
      | _ => none

def text (u : Uuid) : String :=
  String.ofList (hyphenate groups (Text.hexDigits 32 u.value.toNat))

def ofDigits? (cs : List Char) : Option Uuid :=
  if cs.length = 32 then (Text.readHex? cs).map fun n => ⟨BitVec.ofNat 128 n⟩ else none

def ofHyphenated? (cs : List Char) : Option Uuid := (unhyphenate? groups cs).bind ofDigits?

/-- What stands between braces, when the text is braced. -/
def unbraced? (cs : List Char) : Option (List Char) :=
  match cs with
  | '\x7b' :: rest => if rest.getLast? = some '\x7d' then some rest.dropLast else none
  | _ => none

/-- What follows a urn label, whatever the case of its letters. -/
def unlabelled? (cs : List Char) : Option (List Char) :=
  if "urn:uuid:".toList.isPrefixOf (cs.map Char.toLower) then some (cs.drop 9) else none

def parse? (s : String) : Option Uuid :=
  let cs := s.toList
  ofDigits? cs <|> ofHyphenated? cs <|> (unbraced? cs).bind ofHyphenated? <|>
    (unlabelled? cs).bind ofHyphenated?

theorem length_hyphenate_groups {ds : List Char} (h : ds.length = 32) :
    (hyphenate groups ds).length = 36 := by
  simp [hyphenate, groups, h]

theorem unhyphenate?_hyphenate (ns : List Nat) (ds : List Char)
    (h : ds.length = ns.foldr (· + ·) 0) : unhyphenate? ns (hyphenate ns ds) = some ds := by
  induction ns generalizing ds with
  | nil => simp_all [hyphenate, unhyphenate?]
  | cons n ns ih =>
    cases ns with
    | nil => simp_all [hyphenate, unhyphenate?]
    | cons m ns =>
      have hn : n ≤ ds.length := by rw [h, List.foldr_cons]; omega
      have hlen : (ds.take n).length = n := by simp [Nat.min_eq_left hn]
      have hrest := ih (ds.drop n) (by rw [List.length_drop, h, List.foldr_cons]; omega)
      simp only [hyphenate, unhyphenate?, List.drop_left' hlen, List.take_left' hlen]
      rw [hrest, Option.map_some, List.take_append_drop]

theorem ofDigits?_hexDigits (u : Uuid) :
    ofDigits? (Text.hexDigits 32 u.value.toNat) = some u := by
  have hlt : u.value.toNat % Nat.pow 16 32 = u.value.toNat := Nat.mod_eq_of_lt u.value.isLt
  rw [ofDigits?, if_pos (Text.length_hexDigits _ _), Text.readHex?_hexDigits, hlt,
    Option.map_some, BitVec.ofNat_toNat, BitVec.setWidth_eq]

/-- Reading the text of an identifier gives it back. -/
@[simp] theorem parse?_text (u : Uuid) : parse? u.text = some u := by
  have hlen := Text.length_hexDigits 32 u.value.toNat
  have hplain : ofDigits? (hyphenate groups (Text.hexDigits 32 u.value.toNat)) = none := by
    rw [ofDigits?, if_neg (by rw [length_hyphenate_groups hlen]; decide)]
  have hhyphenated :
      ofHyphenated? (hyphenate groups (Text.hexDigits 32 u.value.toNat)) = some u := by
    rw [ofHyphenated?, unhyphenate?_hyphenate groups _ (by rw [hlen]; rfl), Option.bind_some,
      ofDigits?_hexDigits]
  rw [parse?, text, String.toList_ofList, hplain, hhyphenated]
  rfl

end Uuid
end RegionAccess
