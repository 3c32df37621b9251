import RegionAccess.Event.Protection
import RegionAccess.Proofs.Index.Calls

/-! Testing the locations of a change one after the other, with a state that the tests thread. What
is left is what each test says; and where a yes rests on a call, the calls are made in the order of
the locations that are left. -/
namespace RegionAccess

theorem keepPassing_cons {m : Type → Type} [Monad m] [LawfulMonad m] (passes : Location → m Bool)
    (l : Location) (ls : List Location) : keepPassing passes (l :: ls) = do
      let passed ← passes l
      let left ← keepPassing passes ls
      return if passed then l :: left else left := by
  rw [keepPassing]
  apply bind_congr
  intro passed
  cases passed <;> simp

/-- A computation with two states as one whose state is their pair. -/
def paired {ρ τ α : Type} (x : StateT ρ (StateM τ) α) : StateM (ρ × τ) α := fun (s, t) =>
  let ((a, s), t) := x s t
  (a, (s, t))

theorem paired_keepPassing {ρ τ : Type} (passes : Location → StateT ρ (StateM τ) Bool)
    (ls : List Location) :
    paired (keepPassing passes ls) = keepPassing (fun l => paired (passes l)) ls := by
  induction ls with
  | nil => rfl
  | cons l ls ih =>
    rw [keepPassing_cons, keepPassing_cons, ← ih]
    rfl

theorem keepPassing_eq_paired {ρ τ : Type} (passes : Location → StateT ρ (StateM τ) Bool)
    (ls : List Location) (s : ρ) (t : τ) :
    (keepPassing passes ls s t).1.1 = (keepPassing (fun l => paired (passes l)) ls (s, t)).1 :=
  congrArg Prod.fst (congrFun (paired_keepPassing passes ls) (s, t))

/-- The change at the locations left to it, cancelled if it lost all that it had. -/
def BlockChange.leftAt (e : BlockChange) (left : List Location) : BlockChange :=
  { e with
    locations := left
    isCancelled := e.isCancelled || (left.length != e.locations.length && left.isEmpty) }

/-- The build check is a filter with a subject that may change. -/
theorem BlockChange.checkBuild_eq {σ : Type} [RegionIndex σ] (e : BlockChange)
    (subject : Subject) : (e.checkBuild subject : StateM σ _) = do
      let (left, _) ← keepPassing (fun l => allows l .build) e.locations subject
      return e.leftAt left := rfl

section
variable {τ : Type} {passes : Location → StateM τ Bool} {keep : Location → Bool}

/-- Tests that an invariant of the state decides filter the locations. -/
theorem keepPassing_eq_filter {P : τ → Prop}
    (h : ∀ l t, P t → (passes l t).1 = keep l ∧ P (passes l t).2) (ls : List Location) {t : τ}
    (ht : P t) : (keepPassing passes ls t).1 = ls.filter keep := by
  induction ls generalizing t with
  | nil => rfl
  | cons l ls ih =>
    obtain ⟨hkeep, hnext⟩ := h l t ht
    rw [keepPassing_cons, List.filter_cons, ← ih hnext, ← hkeep]
    rfl

theorem Yields.keepPassing (h : ∀ l, Yields (passes l) (· = keep l)) (ls : List Location) :
    Yields (RegionAccess.keepPassing passes ls) (· = ls.filter keep) := fun _ =>
  keepPassing_eq_filter (P := fun _ => True) (fun l t _ => ⟨h l t, trivial⟩) ls trivial

theorem Yields.keepPassing_sublist (passes : Location → StateM τ Bool) (ls : List Location) :
    Yields (RegionAccess.keepPassing passes ls) (·.Sublist ls) := by
  induction ls with
  | nil => exact Yields.pure .slnil
  | cons l ls ih =>
    rw [keepPassing_cons]
    refine Yields.bind Yields.any fun passed _ => Yields.bind ih fun left hl => Yields.pure ?_
    split
    · exact hl.cons_cons l
    · exact hl.cons l

theorem someFails_cons_run (l : Location) (ls : List Location) (t : τ) :
    someFails passes (l :: ls) t =
      if (passes l t).1 then someFails passes ls (passes l t).2 else (true, (passes l t).2) := by
  show (if (passes l t).1 then someFails passes ls else pure true) (passes l t).2 = _
  split <;> rfl

theorem Yields.someFails (h : ∀ l, Yields (passes l) (· = keep l)) (ls : List Location) :
    Yields (RegionAccess.someFails passes ls) (· = ls.any (!keep ·)) := by
  induction ls with
  | nil => exact Yields.pure rfl
  | cons l ls ih =>
    refine Yields.bind (h l) ?_
    intro passed hp
    subst hp
    rw [List.any_cons]
    cases keep l with
    | true => exact ih
    | false => exact Yields.pure rfl

end

namespace Keeps
variable {τ : Type} {P : τ → Prop} {passes : Location → StateM τ Bool}

theorem keepPassing (h : ∀ l, Keeps P (passes l)) (ls : List Location) :
    Keeps P (RegionAccess.keepPassing passes ls) := by
  induction ls with
  | nil => exact Keeps.pure []
  | cons l ls ih =>
    rw [keepPassing_cons]
    exact (h l).bind fun passed => ih.bind fun left => Keeps.pure _

theorem someFails (h : ∀ l, Keeps P (passes l)) (ls : List Location) :
    Keeps P (RegionAccess.someFails passes ls) := by
  induction ls with
  | nil => exact Keeps.pure false
  | cons l ls ih => exact (h l).bind fun passed => Keeps.ite ih (Keeps.pure true)

end Keeps

section
variable {τ π : Type} [Recording τ π]
open Recording

instance {ρ : Type} : Recording (ρ × τ) (ρ × π) where
  plain t := (t.1, plain t.2)
  calls t := calls t.2

namespace Mirrors

theorem paired {ρ α : Type} {x : StateT ρ (StateM τ) α} {y : StateT ρ (StateM π) α}
    (h : ∀ s, Mirrors (x s) (y s)) : Mirrors (paired x) (paired y) where
  value t := congrArg Prod.fst ((h t.1).value t.2)
  state t := Prod.ext (congrArg Prod.snd ((h t.1).value t.2)) ((h t.1).state t.2)
  extended t := (h t.1).extended t.2

theorem of_paired {ρ α : Type} {x : StateT ρ (StateM τ) α} {y : StateT ρ (StateM π) α}
    (h : Mirrors (RegionAccess.paired x) (RegionAccess.paired y)) (s : ρ) :
    Mirrors (x s) (y s) where
  value t := Prod.ext (h.value (s, t)) (congrArg Prod.fst (h.state (s, t)))
  state t := congrArg Prod.snd (h.state (s, t))
  extended t := h.extended (s, t)

theorem keepPassing {passes : Location → StateM τ Bool} {passes' : Location → StateM π Bool}
    (h : ∀ l, Mirrors (passes l) (passes' l)) (ls : List Location) :
    Mirrors (RegionAccess.keepPassing passes ls) (RegionAccess.keepPassing passes' ls) := by
  induction ls with
  | nil => exact Mirrors.pure []
  | cons l ls ih =>
    rw [keepPassing_cons, keepPassing_cons]
    exact (h l).bind fun passed => ih.bind fun left => Mirrors.pure _

theorem someFails {passes : Location → StateM τ Bool} {passes' : Location → StateM π Bool}
    (h : ∀ l, Mirrors (passes l) (passes' l)) (ls : List Location) :
    Mirrors (RegionAccess.someFails passes ls) (RegionAccess.someFails passes' ls) := by
  induction ls with
  | nil => exact Mirrors.pure false
  | cons l ls ih => exact (h l).bind fun passed => Mirrors.ite ih (Mirrors.pure true)

end Mirrors

/-- Every yes of a test rests on one call, which the test makes. -/
def Attests (passes : Location → StateM τ Bool) (call : Location → Call) : Prop :=
  ∀ l t, ∃ asked, calls (passes l t).2 = calls t ++ asked ∧
    ((passes l t).1 = true → call l ∈ asked)

namespace Attests
variable {passes : Location → StateM τ Bool} {call : Location → Call}

theorem keepPassing (h : Attests passes call) (ls : List Location) (t : τ) :
    ∃ asked, calls (RegionAccess.keepPassing passes ls t).2 = calls t ++ asked ∧
      ((RegionAccess.keepPassing passes ls t).1.map call).Sublist asked := by
  induction ls generalizing t with
  | nil => exact ⟨[], (List.append_nil _).symm, .slnil⟩
  | cons l ls ih =>
    obtain ⟨asked, hasked, hyes⟩ := h l t
    obtain ⟨more, hmore, hsub⟩ := ih (passes l t).2
    refine ⟨asked ++ more, ?_, ?_⟩
    · rw [keepPassing_cons, ← List.append_assoc, ← hasked]
      exact hmore
    · rw [keepPassing_cons]
      show ((if (passes l t).1 then l :: _ else _ : List Location).map call).Sublist _
      split
      next hpassed => exact (List.singleton_sublist.mpr (hyes hpassed)).append hsub
      next => exact hsub.trans (List.sublist_append_right asked more)

theorem someFails (h : Attests passes call) (ls : List Location) (t : τ) :
    ∃ asked, calls (RegionAccess.someFails passes ls t).2 = calls t ++ asked ∧
      ((RegionAccess.someFails passes ls t).1 = false → (ls.map call).Sublist asked) := by
  induction ls generalizing t with
  | nil => exact ⟨[], (List.append_nil _).symm, fun _ => .slnil⟩
  | cons l ls ih =>
    obtain ⟨asked, hasked, hyes⟩ := h l t
    rw [someFails_cons_run]
    split
    next hpassed =>
      obtain ⟨more, hmore, hsub⟩ := ih (passes l t).2
      refine ⟨asked ++ more, ?_, fun hnone => ?_⟩
      · rw [← List.append_assoc, ← hasked]
        exact hmore
      · exact (List.singleton_sublist.mpr (hyes hpassed)).append (hsub hnone)
    next => exact ⟨asked, hasked, fun hnone => nomatch hnone⟩

end Attests
end
end RegionAccess
