import Mathlib.Data.List.Forall2
import RegionAccess.Proofs.Engine.Toggling

/-! Which dependencies are active. Each of the watched ones is as it was toggled last, under
whatever spelling, and to compare names letter by letter is to compare what they are folded to. -/
namespace RegionAccess

/-- An ASCII capital and its small letter. -/
def IsCapitalOf (c d : Char) : Prop := 65 ≤ c.toNat ∧ c.toNat ≤ 90 ∧ d.toNat = c.toNat + 32

/-- One character, or the two cases of an ASCII letter. -/
def SameLetter (c d : Char) : Prop := c = d ∨ IsCapitalOf c d ∨ IsCapitalOf d c

/-- Names of one length that agree in every place up to the case of ASCII letters. -/
def SameName (a b : String) : Prop := List.Forall₂ SameLetter a.toList b.toList

instance (c d : Char) : Decidable (IsCapitalOf c d) := inferInstanceAs (Decidable (_ ∧ _))

instance (c d : Char) : Decidable (SameLetter c d) := inferInstanceAs (Decidable (_ ∨ _))

instance (a b : String) : Decidable (SameName a b) :=
  inferInstanceAs (Decidable (List.Forall₂ _ _ _))

theorem toNat_toLower (c : Char) :
    c.toLower.toNat = if 65 ≤ c.toNat ∧ c.toNat ≤ 90 then c.toNat + 32 else c.toNat := by
  by_cases h : 65 ≤ c.toNat ∧ c.toNat ≤ 90
  · have hcapital : c.val ≥ 'A'.val ∧ c.val ≤ 'Z'.val :=
      ⟨UInt32.le_iff_toNat_le.mpr h.1, UInt32.le_iff_toNat_le.mpr h.2⟩
    have hlower : c.toLower = _ := dif_pos hcapital
    rw [hlower, if_pos h]
    show (c.val + 32).toNat = c.toNat + 32
    rw [UInt32.toNat_add, Char.toNat_val]
    exact Nat.mod_eq_of_lt (show c.toNat + 32 < 2 ^ 32 by omega)
  · have hother : ¬ (c.val ≥ 'A'.val ∧ c.val ≤ 'Z'.val) := fun hc =>
      h ⟨UInt32.le_iff_toNat_le.mp hc.1, UInt32.le_iff_toNat_le.mp hc.2⟩
    have hlower : c.toLower = c := dif_neg hother
    rw [hlower, if_neg h]

theorem toLower_eq_iff {c d : Char} : c.toLower = d.toLower ↔ SameLetter c d := by
  rw [← Char.toNat_inj, toNat_toLower, toNat_toLower]
  unfold SameLetter IsCapitalOf
  rw [← Char.toNat_inj]
  split <;> split <;> omega

/-- Names are folded to one exactly where they are the same but for the case of ASCII letters. -/
theorem asciiLower_eq_iff {a b : String} : asciiLower a = asciiLower b ↔ SameName a b := by
  rw [← String.toList_inj, asciiLower, asciiLower, String.toList_map, String.toList_map,
    ← List.forall₂_eq_eq_eq, List.forall₂_map_left_iff, List.forall₂_map_right_iff]
  simp only [toLower_eq_iff]
  rfl

theorem SameName.symm {a b : String} (h : SameName a b) : SameName b a :=
  asciiLower_eq_iff.mp (asciiLower_eq_iff.mpr h).symm

theorem SameName.trans {a b c : String} (h : SameName a b) (h' : SameName b c) : SameName a c :=
  asciiLower_eq_iff.mp ((asciiLower_eq_iff.mpr h).trans (asciiLower_eq_iff.mpr h'))

/-- A dependency was enabled or disabled, under the name that the host has for it. -/
structure Toggle where
  name : String
  enabled : Bool
  deriving DecidableEq

/-- The last toggle of a name. -/
def Toggle.last? (toggles : List Toggle) (name : String) : Option Toggle :=
  toggles.findRev? fun t => SameName t.name name

theorem Toggle.last?_concat (toggles : List Toggle) (t : Toggle) (name : String) :
    last? (toggles ++ [t]) name = if SameName t.name name then some t else last? toggles name := by
  by_cases h : SameName t.name name <;> simp [last?, h]

theorem Toggle.last?_eq_some_iff {toggles : List Toggle} {name : String} {last : Toggle} :
    last? toggles name = some last ↔ SameName last.name name ∧
      ∃ earlier later, toggles = earlier ++ last :: later ∧
        ∀ t ∈ later, ¬ SameName t.name name := by
  rw [last?, List.findRev?_eq_find?_reverse, List.find?_eq_some_iff_append]
  simp only [decide_eq_true_eq, Bool.not_eq_true', decide_eq_false_iff_not]
  refine and_congr_right fun _ => ⟨?_, ?_⟩
  · rintro ⟨later, earlier, htoggles, hlater⟩
    refine ⟨earlier.reverse, later.reverse, ?_, fun t ht => hlater t (List.mem_reverse.mp ht)⟩
    rw [← List.reverse_reverse toggles, htoggles]
    simp
  · rintro ⟨earlier, later, rfl, hlater⟩
    refine ⟨later.reverse, earlier.reverse, by simp, fun t ht => hlater t (List.mem_reverse.mp ht)⟩

namespace Dependencies
variable {watched : List String} {toggles past : List Toggle} {d : Dependencies}

/-- Whether the toggle is taken up; one that is not changes nothing. -/
def report (t : Toggle) : StateM Dependencies Bool := fun d =>
  match d.toggle t.name t.enabled with
  | none => (false, d)
  | some d => (true, d)

/-- The watched dependencies are as they were toggled last, and no others are active. -/
structure Follows (watched : List String) (toggles : List Toggle) (d : Dependencies) : Prop where
  watched_eq : d.watched = watched
  isActive_iff : ∀ name, d.isActive name = true ↔
    (∃ w ∈ watched, SameName w name) ∧ (Toggle.last? toggles name).any (·.enabled) = true

theorem follows_new (watched : List String) : Follows watched [] { watched } where
  watched_eq := rfl
  isActive_iff name := by simp [isActive, Toggle.last?]

namespace Follows

theorem toggle_isSome_iff (h : Follows watched past d) (t : Toggle) :
    (d.toggle t.name t.enabled).isSome = true ↔ ∃ w ∈ watched, SameName w t.name := by
  simp only [Dependencies.toggle_isSome_iff, h.watched_eq, asciiLower_eq_iff]

/-- Under a name that nobody watches, no watched dependency is toggled. -/
theorem ignore (h : Follows watched past d) {t : Toggle}
    (ht : ¬ ∃ w ∈ watched, SameName w t.name) : Follows watched (past ++ [t]) d where
  watched_eq := h.watched_eq
  isActive_iff name := by
    rw [h.isActive_iff, Toggle.last?_concat]
    refine and_congr_right fun ⟨w, hw, hname⟩ => ?_
    rw [if_neg fun hsame => ht ⟨w, hw, hname.trans hsame.symm⟩]

/-- A watched dependency is toggled under all of its spellings, and no other is. -/
theorem take (h : Follows watched past d) {t : Toggle} {d' : Dependencies}
    (ht : d.toggle t.name t.enabled = some d') : Follows watched (past ++ [t]) d' := by
  obtain ⟨hwatched, hactive⟩ := toggle_takes ht
  obtain ⟨w, hw, hname⟩ := (h.toggle_isSome_iff t).mp (Option.isSome_of_eq_some ht)
  refine ⟨hwatched.trans h.watched_eq, fun name => ?_⟩
  rw [hactive, Toggle.last?_concat]
  by_cases hsame : SameName t.name name
  · have hlisted : ∃ w ∈ watched, SameName w name := ⟨w, hw, hname.trans hsame⟩
    rw [if_pos (asciiLower_eq_iff.mpr hsame.symm), if_pos hsame, Option.any_some]
    exact (and_iff_right hlisted).symm
  · rw [if_neg fun heq => hsame (asciiLower_eq_iff.mp heq).symm, if_neg hsame]
    exact h.isActive_iff name

theorem report (h : Follows watched past d) (t : Toggle) :
    (Dependencies.report t d).1 = decide (∃ w ∈ watched, SameName w t.name) ∧
      Follows watched (past ++ [t]) (Dependencies.report t d).2 := by
  have hsome := h.toggle_isSome_iff t
  unfold Dependencies.report
  cases ht : d.toggle t.name t.enabled with
  | none =>
    have hunwatched : ¬ ∃ w ∈ watched, SameName w t.name := by
      rw [← hsome, ht]
      exact Bool.false_ne_true
    exact ⟨(decide_eq_false hunwatched).symm, h.ignore hunwatched⟩
  | some d' =>
    have hwatched : ∃ w ∈ watched, SameName w t.name := hsome.mp (Option.isSome_of_eq_some ht)
    exact ⟨(decide_eq_true hwatched).symm, h.take ht⟩

/-- One toggle after the other is answered and followed. -/
theorem run (h : Follows watched past d) (toggles : List Toggle) :
    (toggles.mapM Dependencies.report d).1 =
        toggles.map (fun t => decide (∃ w ∈ watched, SameName w t.name)) ∧
      Follows watched (past ++ toggles) (toggles.mapM Dependencies.report d).2 := by
  induction toggles generalizing past d with
  | nil =>
    rw [List.append_nil]
    exact ⟨rfl, h⟩
  | cons t toggles ih =>
    obtain ⟨htaken, hnext⟩ := h.report t
    obtain ⟨hlater, hlast⟩ := ih hnext
    rw [List.mapM_cons]
    rw [List.append_assoc] at hlast
    exact ⟨congrArg₂ List.cons htaken hlater, hlast⟩

end Follows

/-- From the start, whatever is toggled under whatever names, a dependency is active exactly if it
is watched and was enabled when it was toggled last, names being the same up to the case of ASCII
letters. Each toggle is taken up if it is of a watched dependency, and is without effect if not. -/
theorem active_by_last_toggle (watched : List String) (toggles : List Toggle) :
    let run := toggles.mapM report { watched }
    (∀ name, run.2.isActive name = true ↔ (∃ w ∈ watched, SameName w name) ∧
      ∃ earlier last later, toggles = earlier ++ last :: later ∧ SameName last.name name ∧
        last.enabled = true ∧ ∀ t ∈ later, ¬ SameName t.name name) ∧
    run.1 = toggles.map (fun t => decide (∃ w ∈ watched, SameName w t.name)) ∧
    ∀ t : Toggle, (¬ ∃ w ∈ watched, SameName w t.name) →
      ((toggles ++ [t]).mapM report { watched }).2 = run.2 := by
  intro run
  obtain ⟨htaken, hfollows⟩ := (follows_new watched).run toggles
  rw [List.nil_append] at hfollows
  refine ⟨fun name => ?_, htaken, fun t ht => ?_⟩
  · rw [hfollows.isActive_iff, Option.any_eq_true]
    simp only [Toggle.last?_eq_some_iff]
    refine and_congr_right fun _ => ⟨?_, ?_⟩
    · rintro ⟨last, ⟨hname, earlier, later, htoggles, hlater⟩, henabled⟩
      exact ⟨earlier, last, later, htoggles, hname, henabled, hlater⟩
    · rintro ⟨earlier, last, later, htoggles, hname, henabled, hlater⟩
      exact ⟨last, ⟨hname, earlier, later, htoggles, hlater⟩, henabled⟩
  · have hnone : run.2.toggle t.name t.enabled = none := by
      rwa [← hfollows.toggle_isSome_iff t, Bool.not_eq_true, Option.isSome_eq_false_iff,
        Option.isNone_iff_eq_none] at ht
    rw [List.mapM_append]
    show (report t run.2).2 = run.2
    rw [report, hnone]

end Dependencies

/-- The diary was disabled last, in other letters. Of the guild only the letters of ASCII may change
their case, so that it stays enabled under one spelling and is nobody's under another. -/
theorem active_by_last_toggle_of_guild :
    let toggles : List Toggle :=
      [⟨"diary", true⟩, ⟨"ÜNLü", true⟩, ⟨"DIARY", false⟩, ⟨"ÜNLÜ", false⟩]
    let run := toggles.mapM Dependencies.report { watched := ["Diary", "Ünlü"] }
    run.1 = [true, true, true, false] ∧ run.2.isActive "ÜnLü" = true ∧
      run.2.isActive "Diary" = false ∧ run.2.isActive "ünlü" = false := by
  intro toggles
  obtain ⟨hactive, htaken, -⟩ := Dependencies.active_by_last_toggle ["Diary", "Ünlü"] toggles
  generalize toggles.mapM Dependencies.report { watched := ["Diary", "Ünlü"] } = run
    at hactive htaken ⊢
  have hdiary : Toggle.last? toggles "Diary" = some ⟨"DIARY", false⟩ := by decide +kernel
  refine ⟨htaken.trans (by decide +kernel), (hactive _).mpr ⟨by decide +kernel, ?_⟩, ?_, ?_⟩
  · exact ⟨[⟨"diary", true⟩], ⟨"ÜNLü", true⟩, [⟨"DIARY", false⟩, ⟨"ÜNLÜ", false⟩], rfl,
      by decide +kernel, rfl, by decide +kernel⟩
  · refine Bool.eq_false_iff.mpr fun h => ?_
    obtain ⟨-, earlier, last, later, htoggles, hname, henabled, hlater⟩ := (hactive _).mp h
    have hlast := Toggle.last?_eq_some_iff.mpr ⟨hname, earlier, later, htoggles, hlater⟩
    rw [Option.some.inj (hlast.symm.trans hdiary)] at henabled
    cases henabled
  · exact Bool.eq_false_iff.mpr fun h => absurd ((hactive _).mp h).1 (by decide +kernel)

end RegionAccess
