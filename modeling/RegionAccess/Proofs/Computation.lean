import RegionAccess.Host

/-! What holds of the value of a stateful computation from every state it may start in, and what it
keeps of that state. Nothing is assumed of the state otherwise, so a host that changes its answers
between two calls is covered. -/
namespace RegionAccess

/-- The value satisfies the predicate, whatever state the computation starts in. -/
def Yields {τ α : Type} (x : StateM τ α) (P : α → Prop) : Prop := ∀ t, P (x t).1

namespace Yields
variable {τ α β γ : Type} {x : StateM τ α} {P Q : α → Prop}

protected theorem pure {a : α} (h : P a) : Yields (Pure.pure a : StateM τ α) P := fun _ => h

protected theorem bind {f : α → StateM τ β} {R : β → Prop} (hx : Yields x P)
    (hf : ∀ a, P a → Yields (f a) R) : Yields (x >>= f) R := fun t => hf _ (hx t) _

/-- What comes after matters only on the values there can be. -/
theorem bind_congr {f g : α → StateM τ β} (hx : Yields x P) (hfg : ∀ a, P a → f a = g a) :
    x >>= f = x >>= g := funext fun t => congrFun (hfg _ (hx t)) _

theorem mono (hx : Yields x P) (h : ∀ a, P a → Q a) : Yields x Q := fun t => h _ (hx t)

theorem and (hP : Yields x P) (hQ : Yields x Q) : Yields x fun a => P a ∧ Q a :=
  fun t => ⟨hP t, hQ t⟩

theorem any : Yields x fun _ => True := fun _ => trivial

theorem consult {σ : Type} {q : StateM σ α} (h : Yields q P) : Yields (RegionAccess.consult q) P :=
  fun t => h t.index

/-- A traversal that keeps a view of every element keeps the views of the list. -/
theorem mapM {f : α → StateM τ β} {before : α → γ} {after : β → γ}
    (hf : ∀ a, Yields (f a) fun b => after b = before a) (as : List α) :
    Yields (as.mapM f) fun bs => bs.map after = as.map before := by
  induction as with
  | nil => exact Yields.pure rfl
  | cons a as ih =>
    rw [List.mapM_cons]
    refine Yields.bind (hf a) fun b hb => Yields.bind ih fun bs hbs => Yields.pure ?_
    rw [List.map_cons, List.map_cons, hb, hbs]

theorem foldlM {f : β → α → StateM τ β} {R : β → Prop} (hf : ∀ b a, R b → Yields (f b a) R)
    (as : List α) {b : β} (hb : R b) : Yields (as.foldlM f b) R := by
  induction as generalizing b with
  | nil => exact Yields.pure hb
  | cons a as ih =>
    rw [List.foldlM_cons]
    exact Yields.bind (hf b a hb) fun _ => ih

end Yields

/-- Where the predicate holds of the state before the computation, it holds of the state after. -/
def Keeps {τ α : Type} (P : τ → Prop) (x : StateM τ α) : Prop := ∀ t, P t → P (x t).2

namespace Keeps
variable {τ α β : Type} {P : τ → Prop}

protected theorem pure (a : α) : Keeps P (Pure.pure a : StateM τ α) := fun _ h => h

protected theorem bind {x : StateM τ α} {f : α → StateM τ β} (hx : Keeps P x)
    (hf : ∀ a, Keeps P (f a)) : Keeps P (x >>= f) := fun t h => hf _ _ (hx t h)

theorem ite {c : Prop} [Decidable c] {x y : StateM τ α} (hx : Keeps P x) (hy : Keeps P y) :
    Keeps P (if c then x else y) := by
  split
  · exact hx
  · exact hy

theorem mapM {f : α → StateM τ β} {as : List α} (hf : ∀ a ∈ as, Keeps P (f a)) :
    Keeps P (as.mapM f) := by
  induction as with
  | nil => exact Keeps.pure []
  | cons a as ih =>
    obtain ⟨ha, has⟩ := List.forall_mem_cons.mp hf
    rw [List.mapM_cons]
    exact ha.bind fun b => (ih has).bind fun bs => Keeps.pure (b :: bs)

theorem foldlM {f : β → α → StateM τ β} (hf : ∀ b a, Keeps P (f b a)) (as : List α) (b : β) :
    Keeps P (as.foldlM f b) := by
  induction as generalizing b with
  | nil => exact Keeps.pure b
  | cons a as ih =>
    rw [List.foldlM_cons]
    exact (hf b a).bind ih

theorem consult {σ : Type} {P : σ → Prop} {q : StateM σ α} (h : Keeps P q) :
    Keeps (fun host : Host σ => P host.index) (RegionAccess.consult q) :=
  fun host => h host.index

/-- Notices are no business of the index. -/
theorem notify {σ : Type} {P : σ → Prop} (notices : List Notice) :
    Keeps (fun host : Host σ => P host.index) (RegionAccess.notify notices) := fun _ h => h

end Keeps
end RegionAccess
