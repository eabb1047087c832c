import SkCoord.Python.Effect

/-!
# Dry runs

`Plans φ x y`: the statement `y` writes nothing, and whenever `x` returns, `y` returns the same up to
`φ`.  The relation passes through sequences (`Plans.bind`) and loops (`Plans.foldlM`).
-/

namespace Python

namespace Effect

variable {σ α β γ δ : Type}

/-- A statement that writes nothing. -/
def Silent (y : Effect σ β) : Prop := ∀ s, Keeps (fun t => t = s) y

/-- `y` is `x` without its writes: it returns what `x` returns, seen through `φ`. -/
structure Plans (φ : α → β) (x : Effect σ α) (y : Effect σ β) : Prop where
  silent : Silent y
  returns : ∀ {s a s'}, x.run s = (.ok a, s') → ∀ t, (y.run t).1 = .ok (φ a)

theorem Plans.pure (φ : α → β) (a : α) : Plans φ (pure a : Effect σ α) (pure (φ a)) where
  silent := fun _ => keeps_pure _
  returns := by
    intro s a' s' h t
    rw [run_pure] at h
    cases h
    rfl

theorem Plans.bind {φ : α → β} {ψ : γ → δ} {x : Effect σ α} {y : Effect σ β}
    {f : α → Effect σ γ} {g : β → Effect σ δ} (hx : Plans φ x y)
    (hf : ∀ a, Plans ψ (f a) (g (φ a))) (hg : ∀ b, Silent (g b)) :
    Plans ψ (x >>= f) (y >>= g) where
  silent := fun s => (hx.silent s).bind fun b => hg b s
  returns := by
    intro s c s' h t
    obtain ⟨a, u, hxa, hfa⟩ := run_bind_eq_ok.mp h
    have hy : y.run t = (.ok (φ a), t) := Prod.ext (hx.returns hxa t) (hx.silent t t rfl)
    rw [run_bind_of_ok hy]
    exact (hf a).returns hfa t

/-- **Loop rule**: a loop whose turns are planned is planned by the loop over the plans. -/
theorem Plans.foldlM {φ : α → β} {step : α → γ → Effect σ α} {plan : β → γ → Effect σ β}
    (hstep : ∀ a c, Plans φ (step a c) (plan (φ a) c)) (hplan : ∀ b c, Silent (plan b c)) :
    ∀ (l : List γ) (a : α), Plans φ (l.foldlM step a) (l.foldlM plan (φ a))
  | [], a => Plans.pure φ a
  | c :: l, a => by
    rw [List.foldlM_cons, List.foldlM_cons]
    exact (hstep a c).bind (Plans.foldlM hstep hplan l)
      fun b s => Keeps.foldlM (fun d _ b => hplan b d s) b

end Effect

end Python
