import RegionAccess.Proofs.Computation
import RegionAccess.Query

/-! A record of the calls made to an index. Any index can be recorded: the recorded one answers as
the index itself does, and what is computed with it differs in nothing but the record. -/
namespace RegionAccess
open RegionIndex

/-- A call to the index, with its outcome. -/
inductive Call where
  | overlapping (location : Location) (found : Except IndexError RegionSet)
  /-- The value of a flag for some subject. -/
  | inquiry (location : Location) (flag : Flag) (answer : Answer)
  | environment (location : Location) (flag : Flag) (answer : Answer)
  | invalidation

def Call.failed : Call → Bool
  | .overlapping _ (.error _) | .inquiry _ _ (.error _) | .environment _ _ (.error _) => true
  | _ => false

/-- An index with the calls made to it, the earliest first. -/
structure Recorded (σ : Type) where
  index : σ
  calls : List Call := []

/-- The inquiry counts as one call, made when it is answered. -/
def Inquiry.recorded {σ : Type} (location : Location) (flag : Flag) :
    Inquiry σ → List Call → Inquiry (Recorded σ)
  | .answer result after, calls =>
      .answer result ⟨after, calls ++ [.inquiry location flag result]⟩
  | .ask regions before resume, calls =>
      .ask regions ⟨before, calls⟩ fun standing r =>
        (resume standing r.index).recorded location flag r.calls

instance {σ : Type} [RegionIndex σ] : RegionIndex (Recorded σ) where
  overlapping location r :=
    let (found, index) := overlapping location r.index
    (found, ⟨index, r.calls ++ [.overlapping location found]⟩)
  inquire location flag r := (inquire location flag r.index).recorded location flag r.calls
  environment location flag r :=
    let (answer, index) := environment location flag r.index
    (answer, ⟨index, r.calls ++ [.environment location flag answer]⟩)
  invalidate r :=
    let (_, index) := invalidate r.index
    ((), ⟨index, r.calls ++ [.invalidation]⟩)

/-- A state that holds a recorded index, and the same state without the record. -/
class Recording (τ : Type) (π : outParam Type) where
  plain : τ → π
  calls : τ → List Call

instance {σ : Type} : Recording (Recorded σ) σ := ⟨Recorded.index, Recorded.calls⟩

instance {σ : Type} : Recording (Host (Recorded σ)) (Host σ) where
  plain h := { index := h.index.index, notices := h.notices }
  calls h := h.index.calls

/-- The host with an empty record of its index. -/
def Host.recorded {σ : Type} (h : Host σ) : Host (Recorded σ) :=
  { index := { index := h.index }, notices := h.notices }

open Recording

/-- The recorded computation does what the plain one does, and only adds to the record. -/
structure Mirrors {τ π α : Type} [Recording τ π] (x : StateM τ α) (y : StateM π α) : Prop where
  value : ∀ t, (x t).1 = (y (plain t)).1
  state : ∀ t, plain (x t).2 = (y (plain t)).2
  extended : ∀ t, calls t <+: calls (x t).2

namespace Mirrors
variable {τ π α β : Type} [Recording τ π]

protected theorem pure (a : α) : Mirrors (Pure.pure a : StateM τ α) (Pure.pure a : StateM π α) :=
  ⟨fun _ => rfl, fun _ => rfl, fun _ => List.prefix_rfl⟩

protected theorem bind {x : StateM τ α} {y : StateM π α} {f : α → StateM τ β} {g : α → StateM π β}
    (hx : Mirrors x y) (hf : ∀ a, Mirrors (f a) (g a)) : Mirrors (x >>= f) (y >>= g) where
  value t := by
    show (f (x t).1 (x t).2).1 = (g (y (plain t)).1 (y (plain t)).2).1
    rw [(hf _).value, hx.value, hx.state]
  state t := by
    show plain (f (x t).1 (x t).2).2 = (g (y (plain t)).1 (y (plain t)).2).2
    rw [(hf _).state, hx.value, hx.state]
  extended t := (hx.extended t).trans ((hf _).extended _)

theorem ite {c : Prop} [Decidable c] {x x' : StateM τ α} {y y' : StateM π α} (h : Mirrors x y)
    (h' : Mirrors x' y') : Mirrors (if c then x else x') (if c then y else y') := by
  split
  · exact h
  · exact h'

theorem mapM {f : α → StateM τ β} {g : α → StateM π β} (h : ∀ a, Mirrors (f a) (g a))
    (as : List α) : Mirrors (as.mapM f) (as.mapM g) := by
  induction as with
  | nil => exact Mirrors.pure []
  | cons a as ih =>
    rw [List.mapM_cons, List.mapM_cons]
    exact (h a).bind fun b => ih.bind fun bs => Mirrors.pure (b :: bs)

theorem foldlM {f : β → α → StateM τ β} {g : β → α → StateM π β}
    (h : ∀ b a, Mirrors (f b a) (g b a)) (as : List α) (b : β) :
    Mirrors (as.foldlM f b) (as.foldlM g b) := by
  induction as generalizing b with
  | nil => exact Mirrors.pure b
  | cons a as ih =>
    rw [List.foldlM_cons, List.foldlM_cons]
    exact (h b a).bind ih

section
variable {σ : Type}

theorem consult {x : StateM (Recorded σ) α} {y : StateM σ α} (h : Mirrors x y) :
    Mirrors (RegionAccess.consult x : HostM (Recorded σ) α) (RegionAccess.consult y) where
  value t := h.value t.index
  state t := congrArg (fun index => ({ index, notices := t.notices } : Host σ)) (h.state t.index)
  extended t := h.extended t.index

theorem run_eq {x : StateM (Recorded σ) α} {y : StateM σ α} (h : Mirrors x y)
    (r : Recorded σ) : ∃ more, x r = ((y r.index).1, ⟨(y r.index).2, r.calls ++ more⟩) := by
  obtain ⟨more, hmore⟩ := h.extended r
  have hindex : (x r).2.index = (y r.index).2 := h.state r
  have hcalls : (x r).2.calls = r.calls ++ more := hmore.symm
  refine ⟨more, Prod.ext (h.value r) ?_⟩
  show (⟨(x r).2.index, (x r).2.calls⟩ : Recorded σ) = _
  rw [hindex, hcalls]

theorem notify (notices : List Notice) :
    Mirrors (RegionAccess.notify notices : HostM (Recorded σ) Unit)
      (RegionAccess.notify notices) :=
  ⟨fun _ => rfl, fun _ => rfl, fun _ => List.prefix_rfl⟩

variable [RegionIndex σ]

theorem overlapping (location : Location) :
    Mirrors (RegionIndex.overlapping location : StateM (Recorded σ) _)
      (RegionIndex.overlapping location : StateM σ _) :=
  ⟨fun _ => rfl, fun _ => rfl, fun _ => List.prefix_append _ _⟩

theorem standing (subject : Subject) (regions : List ProtectedRegion) :
    Mirrors (subject.standing regions : StateM (Recorded σ) _)
      (subject.standing regions : StateM σ _) := by
  cases subject with
  | player i => exact Mirrors.pure _
  | offline i => exact Mirrors.pure _
  | constant s => exact Mirrors.pure _
  | deferred p =>
    refine Mirrors.bind ?_ fun out => Mirrors.pure _
    unfold OverlapProbe.find
    split
    · exact Mirrors.pure _
    · exact (overlapping p.location).bind fun found => Mirrors.pure _

end
end Mirrors

section
variable {σ : Type} [RegionIndex σ]

theorem Inquiry.conduct_ask (regions : List ProtectedRegion) (before : σ)
    (resume : Standing → σ → Inquiry σ) (subject : Subject) :
    (Inquiry.ask regions before resume).conduct subject =
      (resume (subject.standing regions before).1.1 (subject.standing regions before).2).conduct
        (subject.standing regions before).1.2 := rfl

/-- A recorded inquiry comes to the answer of the plain one, and its last call tells it. -/
theorem Inquiry.conduct_recorded (location : Location) (flag : Flag) (inquiry : Inquiry σ)
    (subject : Subject) (calls : List Call) :
    ∃ asked, (inquiry.recorded location flag calls).conduct subject =
      ((inquiry.conduct subject).1, ⟨(inquiry.conduct subject).2,
        calls ++ asked ++ [.inquiry location flag (inquiry.conduct subject).1.1]⟩) := by
  induction inquiry generalizing subject calls with
  | answer result after => exact ⟨[], by simp [recorded, conduct]⟩
  | ask regions before resume ih =>
    obtain ⟨more, hmore⟩ := (Mirrors.standing subject regions).run_eq ⟨before, calls⟩
    obtain ⟨asked, hasked⟩ := ih (subject.standing regions before).1.1
      (subject.standing regions before).2 (subject.standing regions before).1.2 (calls ++ more)
    refine ⟨more ++ asked, ?_⟩
    rw [List.append_assoc calls more asked] at hasked
    rw [recorded, conduct_ask, conduct_ask, hmore]
    exact hasked

theorem mem_calls_inquire (location : Location) (flag : Flag) (subject : Subject)
    (r : Recorded σ) :
    .inquiry location flag ((inquire location flag r).conduct subject).1.1 ∈
      ((inquire location flag r).conduct subject).2.calls := by
  obtain ⟨asked, h⟩ :=
    (inquire location flag r.index).conduct_recorded location flag subject r.calls
  have hanswer : ((inquire location flag r).conduct subject).1 = _ := congrArg Prod.fst h
  have hcalls : ((inquire location flag r).conduct subject).2.calls = _ :=
    congrArg (fun out => out.2.calls) h
  rw [hcalls, hanswer]
  exact List.mem_append_right _ List.mem_cons_self

/-- Checking a flag for a subject is recorded with the answer the verdict rests on. -/
theorem allows_recorded (location : Location) (flag : Flag) (subject : Subject) (r : Recorded σ) :
    ∃ asked answer,
      (allows location flag subject r).2.calls =
        r.calls ++ asked ++ [.inquiry location flag answer] ∧
      (allows location flag subject r).1.1 = flag.verdict answer := by
  obtain ⟨asked, h⟩ :=
    (inquire location flag r.index).conduct_recorded location flag subject r.calls
  refine ⟨asked, ((inquire location flag r.index).conduct subject).1.1, ?_, ?_⟩
  · exact congrArg (fun out => out.2.calls) h
  · exact congrArg (fun out => flag.verdict out.1.1) h

theorem Mirrors.inquire (location : Location) (flag : Flag) (subject : Subject) :
    Mirrors (RegionIndex.inquire location flag · |>.conduct subject : StateM (Recorded σ) _)
      (RegionIndex.inquire location flag · |>.conduct subject : StateM σ _) := by
  have h (r : Recorded σ) :=
    (RegionIndex.inquire location flag r.index).conduct_recorded location flag subject r.calls
  refine ⟨fun r => ?_, fun r => ?_, fun r => ?_⟩
  · obtain ⟨asked, h⟩ := h r
    exact congrArg Prod.fst h
  · obtain ⟨asked, h⟩ := h r
    exact congrArg (fun out => out.2.index) h
  · obtain ⟨asked, h⟩ := h r
    refine ⟨asked ++ [.inquiry location flag
      ((RegionIndex.inquire location flag r.index).conduct subject).1.1], ?_⟩
    rw [← List.append_assoc]
    exact (congrArg (fun out => out.2.calls) h).symm

theorem Mirrors.allows (location : Location) (flag : Flag) (subject : Subject) :
    Mirrors (RegionAccess.allows location flag subject : StateM (Recorded σ) _)
      (RegionAccess.allows location flag subject : StateM σ _) :=
  (Mirrors.inquire location flag subject).bind fun out => Mirrors.pure (flag.verdict out.1, out.2)

theorem Mirrors.isAllowed (i : Identity) (location : Location) (flag : Flag) :
    Mirrors (i.isAllowed location flag : StateM (Recorded σ) _)
      (i.isAllowed location flag : StateM σ _) :=
  (Mirrors.allows location flag (.player i)).bind fun out => Mirrors.pure out.1

theorem Mirrors.environment (location : Location) (flag : Flag) :
    Mirrors (RegionIndex.environment location flag : StateM (Recorded σ) _)
      (RegionIndex.environment location flag : StateM σ _) :=
  ⟨fun _ => rfl, fun _ => rfl, fun _ => List.prefix_append _ _⟩

theorem Mirrors.environmentAllows (flag : Flag) (location : Location) :
    Mirrors (RegionAccess.environmentAllows flag location : StateM (Recorded σ) _)
      (RegionAccess.environmentAllows flag location : StateM σ _) :=
  (Mirrors.environment location flag).bind fun answer => Mirrors.pure (flag.verdict answer)

/-- An index that keeps a record and answers what policy asks of it as the plain one does. -/
class Transparent (τ π : Type) [RegionIndex τ] [RegionIndex π] [Recording τ π] : Prop where
  allows : ∀ location flag subject,
    Mirrors (RegionAccess.allows location flag subject : StateM τ _)
      (RegionAccess.allows location flag subject : StateM π _)
  environmentAllows : ∀ flag location,
    Mirrors (RegionAccess.environmentAllows flag location : StateM τ _)
      (RegionAccess.environmentAllows flag location : StateM π _)

instance : Transparent (Recorded σ) σ := ⟨Mirrors.allows, Mirrors.environmentAllows⟩

end

/-- Some call of the record failed. -/
def Faulty {τ π : Type} [Recording τ π] (t : τ) : Prop := ∃ c ∈ calls t, c.failed = true

/-- A lookup that finds what there is, unless a call failed. -/
structure Finds {τ π ε α : Type} [Recording τ π] (x : StateM τ (Except ε α)) (found : α) :
    Prop where
  outcome : ∀ t, (x t).1 = .ok found ∨ ∃ e, (x t).1 = .error e ∧ Faulty (x t).2
  extended : ∀ t, calls t <+: calls (x t).2

theorem Finds.consult {σ ε α : Type} {x : StateM (Recorded σ) (Except ε α)} {found : α}
    (hx : Finds x found) : Finds (RegionAccess.consult x : HostM (Recorded σ) _) found :=
  ⟨fun t => hx.outcome t.index, fun t => hx.extended t.index⟩

/-- A check of a fact. It says yes only where the fact holds and certain calls were made, and where
the fact holds it says yes unless a call failed. -/
structure Decides {τ π α : Type} [Recording τ π] (x : StateM τ α) (yes : α → Prop) (fact : Prop)
    (needed : Call → Prop) : Prop where
  sound : ∀ t, yes (x t).1 → fact
  asked : ∀ t, yes (x t).1 → ∀ c, needed c → c ∈ calls (x t).2
  complete : ∀ t, fact → yes (x t).1 ∨ Faulty (x t).2
  extended : ∀ t, calls t <+: calls (x t).2

namespace Decides
variable {τ π α β : Type} [Recording τ π] {x : StateM τ α} {yes : α → Prop} {yes' : β → Prop}
  {fact : Prop} {needed : Call → Prop}

/-- What always says yes can need no calls. -/
theorem of_yields (hx : Yields x yes) (hextended : ∀ t, calls t <+: calls (x t).2) (h : fact)
    (hneeded : ∀ c, ¬ needed c) : Decides x yes fact needed where
  sound _ _ := h
  asked _ _ c hc := absurd hc (hneeded c)
  complete t _ := .inl (hx t)
  extended := hextended

protected theorem pure {a : α} (hyes : yes a) (h : fact) (hneeded : ∀ c, ¬ needed c) :
    Decides (Pure.pure a : StateM τ α) yes fact needed :=
  of_yields (Yields.pure hyes) (fun _ => List.prefix_rfl) h hneeded

theorem congr {fact' : Prop} {needed' : Call → Prop} (hx : Decides x yes fact needed)
    (h : fact ↔ fact') (hneeded : ∀ c, needed' c → needed c) : Decides x yes fact' needed' where
  sound t ht := h.mp (hx.sound t ht)
  asked t ht c hc := hx.asked t ht c (hneeded c hc)
  complete t hf := hx.complete t (h.mpr hf)
  extended := hx.extended

/-- One check after another, the second only where the first says yes. -/
protected theorem bind {next : α → StateM τ β} (hx : Decides x yes fact needed) (rest : Prop)
    (more : Call → Prop) (hno : ∀ a, ¬ yes a → ∃ b, ¬ yes' b ∧ next a = pure b)
    (hyes : ∀ a, yes a → Decides (next a) yes' rest more) :
    Decides (x >>= next) yes' (fact ∧ rest) fun c => needed c ∨ more c := by
  have hfirst (t : τ) (ht : yes' ((x >>= next) t).1) : yes (x t).1 := by
    by_cases hv : yes (x t).1
    · exact hv
    · obtain ⟨b, hb, hnext⟩ := hno _ hv
      replace ht : yes' (next (x t).1 (x t).2).1 := ht
      rw [hnext] at ht
      exact absurd ht hb
  constructor
  · intro t ht
    have hv := hfirst t ht
    exact ⟨hx.sound t hv, (hyes _ hv).sound _ ht⟩
  · intro t ht c hc
    have hv := hfirst t ht
    rcases hc with hc | hc
    · exact ((hyes _ hv).extended _).subset (hx.asked t hv c hc)
    · exact (hyes _ hv).asked _ ht c hc
  · intro t h
    show yes' (next (x t).1 (x t).2).1 ∨ Faulty (next (x t).1 (x t).2).2
    by_cases hv : yes (x t).1
    · exact (hyes _ hv).complete _ h.2
    · obtain ⟨b, -, hnext⟩ := hno _ hv
      rw [hnext]
      exact .inr ((hx.complete t h.1).resolve_left hv)
  · intro t
    apply (hx.extended t).trans
    show calls (x t).2 <+: calls (next (x t).1 (x t).2).2
    by_cases hv : yes (x t).1
    · exact (hyes _ hv).extended _
    · obtain ⟨b, -, hnext⟩ := hno _ hv
      rw [hnext]
      exact List.prefix_rfl

/-- A check before work that keeps to its verdict. -/
theorem before {next : α → StateM τ β} (hx : Decides x yes fact needed)
    (hno : ∀ a, ¬ yes a → ∃ b, ¬ yes' b ∧ next a = pure b)
    (hyes : ∀ a, yes a → Yields (next a) yes')
    (hextended : ∀ a, yes a → ∀ t, calls t <+: calls (next a t).2) :
    Decides (x >>= next) yes' fact needed := by
  have hrest (a : α) (ha : yes a) : Decides (next a) yes' True fun _ => False :=
    of_yields (hyes a ha) (hextended a ha) trivial fun _ => id
  exact (hx.bind True _ hno hrest).congr (by rw [and_true]) fun c hc => .inl hc

/-- What is made of a verdict decides the same where it still tells the verdict. -/
theorem map (hx : Decides x yes fact needed) (f : α → β) (hf : ∀ a, yes' (f a) ↔ yes a) :
    Decides (x >>= fun a => Pure.pure (f a)) yes' fact needed :=
  hx.before (fun a hno => ⟨f a, mt (hf a).mp hno, rfl⟩)
    (fun a hyes => Yields.pure ((hf a).mpr hyes)) fun _ _ _ => List.prefix_rfl

/-- A check after a lookup, refused where the lookup fails. -/
theorem after_lookup {ε : Type} {x : StateM τ (Except ε α)} {found : α} (hx : Finds x found)
    {next : Except ε α → StateM τ β} (hno : ∀ e, ∃ b, ¬ yes' b ∧ next (.error e) = pure b)
    (hyes : Decides (next (.ok found)) yes' fact needed) :
    Decides (x >>= next) yes' fact needed := by
  have hfound (t : τ) (ht : yes' ((x >>= next) t).1) : (x t).1 = .ok found := by
    rcases hx.outcome t with hv | ⟨e, he, -⟩
    · exact hv
    · obtain ⟨b, hb, hnext⟩ := hno e
      replace ht : yes' (next (x t).1 (x t).2).1 := ht
      rw [he, hnext] at ht
      exact absurd ht hb
  constructor
  · intro t ht
    have hv := hfound t ht
    replace ht : yes' (next (x t).1 (x t).2).1 := ht
    rw [hv] at ht
    exact hyes.sound _ ht
  · intro t ht c hc
    have hv := hfound t ht
    replace ht : yes' (next (x t).1 (x t).2).1 := ht
    show c ∈ calls (next (x t).1 (x t).2).2
    rw [hv] at ht ⊢
    exact hyes.asked _ ht c hc
  · intro t h
    show yes' (next (x t).1 (x t).2).1 ∨ Faulty (next (x t).1 (x t).2).2
    rcases hx.outcome t with hv | ⟨e, he, hfault⟩
    · rw [hv]
      exact hyes.complete _ h
    · obtain ⟨b, -, hnext⟩ := hno e
      rw [he, hnext]
      exact .inr hfault
  · intro t
    apply (hx.extended t).trans
    show calls (x t).2 <+: calls (next (x t).1 (x t).2).2
    rcases hx.outcome t with hv | ⟨e, he, -⟩
    · rw [hv]
      exact hyes.extended _
    · obtain ⟨b, -, hnext⟩ := hno e
      rw [he, hnext]
      exact List.prefix_rfl

/-- A check after work that settles nothing by itself. -/
theorem after {next : α → StateM τ β} {P : α → Prop} (hx : Yields x P)
    (hextended : ∀ t, calls t <+: calls (x t).2)
    (h : ∀ a, P a → Decides (next a) yes' fact needed) : Decides (x >>= next) yes' fact needed where
  sound t := (h _ (hx t)).sound _
  asked t := (h _ (hx t)).asked _
  complete t := (h _ (hx t)).complete _
  extended t := (hextended t).trans ((h _ (hx t)).extended _)

theorem consult {σ : Type} {x : StateM (Recorded σ) α} (hx : Decides x yes fact needed) :
    Decides (RegionAccess.consult x : HostM (Recorded σ) α) yes fact needed where
  sound t := hx.sound t.index
  asked t := hx.asked t.index
  complete t := hx.complete t.index
  extended t := hx.extended t.index

end Decides
end RegionAccess
