import RegionAccess.Proofs.Session.Moments

/-! Two runs over one index, whatever it answers. As long as they ask the same, they are answered
the same, and the moments at which sessions start do not show in what they ask. -/
namespace RegionAccess
open RegionIndex

/-- From one state of the index, two computations come to related values, leave the index in one
state again, and send the same notices. -/
def InStep {σ α β : Type} (R : α → β → Prop) (x : HostM σ α) (y : HostM σ β) : Prop :=
  ∀ h h' : Host σ, h.index = h'.index →
    R (x h).1 (y h').1 ∧ (x h).2.index = (y h').2.index ∧
      ∃ sent, (x h).2.notices = h.notices ++ sent ∧ (y h').2.notices = h'.notices ++ sent

namespace InStep
variable {σ α β γ δ : Type} {R : α → β → Prop} {S : γ → δ → Prop} {x : HostM σ α} {y : HostM σ β}

protected theorem pure {a : α} {b : β} (h : R a b) :
    InStep R (Pure.pure a : HostM σ α) (Pure.pure b : HostM σ β) :=
  fun _ _ hindex => ⟨h, hindex, [], (List.append_nil _).symm, (List.append_nil _).symm⟩

protected theorem bind {f : α → HostM σ γ} {g : β → HostM σ δ} (hxy : InStep R x y)
    (hfg : ∀ a b, R a b → InStep S (f a) (g b)) : InStep S (x >>= f) (y >>= g) := by
  intro h h' hindex
  obtain ⟨hab, hbetween, sent, hx, hy⟩ := hxy h h' hindex
  obtain ⟨hcd, hafter, more, hf, hg⟩ := hfg _ _ hab _ _ hbetween
  refine ⟨hcd, hafter, sent ++ more, ?_, ?_⟩
  · rw [← List.append_assoc, ← hx]
    exact hf
  · rw [← List.append_assoc, ← hy]
    exact hg

/-- A question gets the same answer both times, since the index is in one state. -/
theorem consult (question : StateM σ α) :
    InStep (· = ·) (RegionAccess.consult question) (RegionAccess.consult question) := by
  rintro ⟨index, notices⟩ ⟨_, notices'⟩ rfl
  exact ⟨rfl, rfl, [], (List.append_nil _).symm, (List.append_nil _).symm⟩

theorem notify (notices : List Notice) :
    InStep (fun _ _ => True) (RegionAccess.notify notices : HostM σ Unit)
      (RegionAccess.notify notices) :=
  fun _ _ hindex => ⟨trivial, hindex, notices, rfl, rfl⟩

theorem ite (c : Prop) [Decidable c] {x' : HostM σ α} {y' : HostM σ β} (hxy : InStep R x y)
    (hxy' : InStep R x' y') : InStep R (if c then x else x') (if c then y else y') := by
  split
  · exact hxy
  · exact hxy'

/-- Lists that agree on a view of their elements are traversed in step. -/
theorem mapM {before : α → γ} {after : β → δ} {f g : α → HostM σ β}
    (hfg : ∀ a a', before a = before a' → InStep (fun b b' => after b = after b') (f a) (g a'))
    {as as' : List α} (h : as.map before = as'.map before) :
    InStep (fun bs bs' => bs.map after = bs'.map after) (as.mapM f) (as'.mapM g) := by
  induction as generalizing as' with
  | nil =>
    obtain rfl := List.map_eq_nil_iff.mp h.symm
    exact .pure rfl
  | cons a as ih =>
    obtain ⟨a', as', rfl, ha, has⟩ := List.map_eq_cons_iff.mp h.symm
    rw [List.mapM_cons, List.mapM_cons]
    refine .bind (hfg a a' ha.symm) fun b b' hb => .bind (ih has.symm) fun bs bs' hbs => .pure ?_
    rw [List.map_cons, List.map_cons, hb, hbs]

end InStep

section
variable {σ : Type} [RegionIndex σ]

theorem FlagWatch.evaluate_inStep {w w' : FlagWatch} (h : w.timeless = w'.timeless)
    (actor : LiveActor) (location : Location) (now now' : Instant) :
    InStep (fun v v' => v.timeless = v'.timeless)
      (w.evaluate actor location now : HostM σ FlagWatch) (w'.evaluate actor location now') := by
  obtain ⟨lastChange, rfl⟩ := FlagWatch.of_timeless h
  refine .bind (.consult _) ?_
  rintro value _ rfl
  exact .ite _ (.pure h) (.bind (.notify _) fun _ _ _ => .pure rfl)

theorem Dialogue.hold_inStep {α : Type} (d : Dialogue α) :
    InStep (· = ·) (d.hold : HostM σ α) d.hold := by
  induction d with
  | done outcome => exact .pure rfl
  | remark text rest ih => exact .bind (.notify _) fun _ _ _ => ih
  | lookUp location resume ih => exact .bind (.consult _) fun found _ h => h ▸ ih found
  | inquire location flag subject resume ih =>
    exact .bind (.consult _) fun answer _ h => h ▸ ih answer
  | environment location flag resume ih => exact .bind (.consult _) fun answer _ h => h ▸ ih answer

theorem Handler.start_inStep {h h' : Handler} (hh : h.timeless = h'.timeless) (actor : LiveActor)
    (location : Location) (now now' : Instant) :
    InStep (fun k k' => k.timeless = k'.timeless)
      (h.start actor location now : HostM σ Handler) (h'.start actor location now') :=
  Handler.timeless_cases hh (.pure rfl)
    (fun _ _ hw => .bind (FlagWatch.evaluate_inStep hw actor location now now') fun _ _ hv =>
      .pure (congrArg Handler.watch hv))
    (fun rule memory => .bind (Dialogue.hold_inStep ((rule.onStart actor location).dialogue memory))
      fun _ _ hout => .pure (congrArg (fun out => (Handler.host rule out.2).timeless) hout))

/-- Sessions that agree but for moments start over alike, whenever they do. -/
theorem Session.anchor_inStep {s s' : Session} (h : s.timeless = s'.timeless) (actor : LiveActor)
    (now now' : Instant) :
    InStep (fun t t' => t.timeless = t'.timeless)
      (s.anchor actor now : HostM σ Session) (s'.anchor actor now') := by
  obtain ⟨handlers, createdAt, lastSeen, rfl, hhandlers⟩ := Session.of_timeless h
  refine .bind (.consult _) ?_
  rintro found _ rfl
  refine .bind (.mapM (fun _ _ hk => Handler.start_inStep hk actor actor.location now now')
    hhandlers) ?_
  intro started started' hstarted
  refine .pure ?_
  simp only [Session.timeless, Session.takeRegions_eq, hstarted]

end
end RegionAccess
