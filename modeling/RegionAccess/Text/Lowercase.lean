import RegionAccess.Text.CaseMapping
import RegionAccess.Text.CaseContext

/-! Full lower-casing of text, with the two-character image of the dotted capital I and the
word-final form of sigma. Lower-cased text is a fixed point. -/
namespace RegionAccess.Text

/-- Whether the nearest character that is not case-ignorable is cased. -/
def meetsCased (cs : List Char) : Bool :=
  match cs.dropWhile isCaseIgnorable with
  | [] => false
  | c :: _ => isCased c

/-- The image of a character other than the capital sigma. -/
def lowerChar (c : Char) : List Char :=
  if c = 'İ' then ['i', '\u0307'] else [Char.ofNat (lowerPoint c.toNat)]

/-- Lower-cases what follows a prefix, given with its nearest character first. -/
def lowerAfter : List Char → List Char → List Char
  | _, [] => []
  | before, c :: rest =>
      (if c = 'Σ' then [if meetsCased before && !meetsCased rest then 'ς' else 'σ']
        else lowerChar c) ++ lowerAfter (c :: before) rest

def lower (s : String) : String := String.ofList (lowerAfter [] s.toList)

/-- A character that lower-casing leaves alone in every context. -/
def IsLowerFixed (c : Char) : Prop := c ≠ 'Σ' ∧ lowerChar c = [c]

instance (c : Char) : Decidable (IsLowerFixed c) := inferInstanceAs (Decidable (_ ∧ _))

/-- No image under the first span is a source of the second. -/
def CaseSpan.misses (s t : CaseSpan) : Bool :=
  Nat.blt (s.image + (s.last - s.first)) t.first || Nat.blt t.last s.image ||
    (s.stride == 2 && t.stride == 2 && (s.image + t.first) % 2 == 1)

/-- No image under the span is the given point. -/
def CaseSpan.avoids (s : CaseSpan) (n : Nat) : Bool :=
  Nat.blt (s.image + (s.last - s.first)) n || Nat.blt n s.image

/-- The images under one span are characters that lower-casing leaves alone. -/
def CaseSpan.closed (s : CaseSpan) : Bool :=
  (Nat.blt (s.image + (s.last - s.first)) 0xd800 ||
      (Nat.blt 0xdfff s.image && Nat.blt (s.image + (s.last - s.first)) 0x110000)) &&
    s.avoids 0x3a3 && s.avoids 0x130 && caseSpans.all s.misses

theorem caseSpans_closed : caseSpans.all CaseSpan.closed = true := by decide +kernel

theorem lowerPoint_cases (n : Nat) :
    lowerPoint n = n ∨ ∃ s ∈ caseSpans, s.image? n = some (lowerPoint n) := by
  unfold lowerPoint
  cases h : caseSpans.findSome? (·.image? n) with
  | none => exact .inl rfl
  | some m =>
    obtain ⟨s, hs, hm⟩ := List.exists_of_findSome?_eq_some h
    exact .inr ⟨s, hs, by simpa using hm⟩

theorem CaseSpan.image?_eq_some {s : CaseSpan} {n m : Nat} (h : s.image? n = some m) :
    s.image ≤ m ∧ m ≤ s.image + (s.last - s.first) ∧ (m - s.image) % s.stride = 0 := by
  unfold image? at h
  split at h
  case isFalse => simp at h
  case isTrue hn =>
    simp only [Option.some.injEq] at h
    subst h
    refine ⟨by omega, by omega, ?_⟩
    rw [Nat.add_sub_cancel_left]
    exact hn.2.2

theorem CaseSpan.image?_of_misses {s t : CaseSpan} (h : s.misses t) {n m : Nat}
    (hm : s.image? n = some m) : t.image? m = none := by
  obtain ⟨hlow, hhigh, hstride⟩ := image?_eq_some hm
  simp only [misses, Bool.or_eq_true, Bool.and_eq_true, Nat.blt_eq, beq_iff_eq] at h
  rw [image?, if_neg]
  rintro ⟨hfirst, hlast, ht⟩
  obtain (h | h) | ⟨⟨hs2, ht2⟩, hodd⟩ := h
  · omega
  · omega
  · rw [hs2] at hstride
    rw [ht2] at ht
    omega

theorem CaseSpan.ne_of_avoids {s : CaseSpan} {k : Nat} (h : s.avoids k) {n m : Nat}
    (hm : s.image? n = some m) : m ≠ k := by
  obtain ⟨hlow, hhigh, -⟩ := image?_eq_some hm
  simp only [avoids, Bool.or_eq_true, Nat.blt_eq] at h
  omega

theorem image_closed {s : CaseSpan} (hs : s ∈ caseSpans) {n m : Nat} (h : s.image? n = some m) :
    m.isValidChar ∧ m ≠ 0x3a3 ∧ m ≠ 0x130 ∧ lowerPoint m = m := by
  have hc := List.all_eq_true.mp caseSpans_closed s hs
  simp only [CaseSpan.closed, Bool.and_eq_true, Bool.or_eq_true, Nat.blt_eq] at hc
  obtain ⟨⟨⟨hv, h3⟩, h1⟩, hf⟩ := hc
  obtain ⟨hlow, hhigh, -⟩ := CaseSpan.image?_eq_some h
  refine ⟨?_, CaseSpan.ne_of_avoids h3 h, CaseSpan.ne_of_avoids h1 h, ?_⟩
  · unfold Nat.isValidChar
    omega
  · have hnone : caseSpans.findSome? (·.image? m) = none :=
      List.findSome?_eq_none_iff.mpr fun t ht =>
        CaseSpan.image?_of_misses (List.all_eq_true.mp hf t ht) h
    simp [lowerPoint, hnone]

theorem toNat_ofNat {n : Nat} (h : n.isValidChar) : (Char.ofNat n).toNat = n := by
  rw [Char.ofNat, dif_pos h]
  rfl

theorem isLowerFixed_of_point {n : Nat} (hv : n.isValidChar) (h3 : n ≠ 0x3a3) (h1 : n ≠ 0x130)
    (hf : lowerPoint n = n) : IsLowerFixed (Char.ofNat n) := by
  have hn := toNat_ofNat hv
  refine ⟨fun h => h3 ?_, ?_⟩
  · rw [← hn, h]; rfl
  · have hi : Char.ofNat n ≠ 'İ' := fun h => h1 (by rw [← hn, h]; rfl)
    simp [lowerChar, hi, hn, hf]

theorem lowerChar_fixed {c : Char} (hc : c ≠ 'Σ') : ∀ d ∈ lowerChar c, IsLowerFixed d := by
  unfold lowerChar
  split
  · intro d hd
    simp only [List.mem_cons, List.not_mem_nil, or_false] at hd
    obtain rfl | rfl := hd <;> decide +kernel
  · rename_i hi
    intro d hd
    rw [List.mem_singleton] at hd
    subst hd
    obtain h | ⟨s, hs, h⟩ := lowerPoint_cases c.toNat
    · rw [h, Char.ofNat_toNat]
      exact ⟨hc, by simp [lowerChar, hi, h, Char.ofNat_toNat]⟩
    · obtain ⟨hv, h3, h1, hf⟩ := image_closed hs h
      exact isLowerFixed_of_point hv h3 h1 hf

theorem lowerAfter_fixed (before cs : List Char) : ∀ d ∈ lowerAfter before cs, IsLowerFixed d := by
  induction cs generalizing before with
  | nil => simp [lowerAfter]
  | cons c rest ih =>
    intro d hd
    rw [lowerAfter, List.mem_append] at hd
    obtain hd | hd := hd
    · split at hd
      · rw [List.mem_singleton] at hd
        subst hd
        split <;> decide +kernel
      · exact lowerChar_fixed ‹_› d hd
    · exact ih _ d hd

theorem lowerAfter_of_fixed {cs : List Char} (h : ∀ c ∈ cs, IsLowerFixed c) (before : List Char) :
    lowerAfter before cs = cs := by
  induction cs generalizing before with
  | nil => rfl
  | cons c rest ih =>
    obtain ⟨hs, hc⟩ := h c (by simp)
    rw [lowerAfter, if_neg hs, hc, ih fun d hd => h d (by simp [hd])]
    rfl

/-- Lower-casing is idempotent over all of Unicode. -/
@[simp] theorem lower_lower (s : String) : lower (lower s) = lower s := by
  simp only [lower, String.toList_ofList]
  rw [lowerAfter_of_fixed (lowerAfter_fixed [] s.toList)]

end RegionAccess.Text
