import Mathlib.Data.List.Forall2
import Mathlib.Data.List.ReduceOption

/-!
# Loops that may raise

Inversion of sequencing and of loops in `Except`, and the rules for a loop: an invariant kept by
the body, in every turn or in the turns that are taken, holds after the loop, and a projection of
the state that the body maps by a total function is mapped by the loop over that function.
-/

namespace Python

universe u

variable {ε α σ τ : Type*}

theorem bind_eq_ok {β γ : Type u} {x : Except ε β} {f : β → Except ε γ} {b : γ} :
    (x >>= f) = .ok b ↔ ∃ a, x = .ok a ∧ f a = .ok b := by
  cases x with
  | error e =>
    constructor
    · intro h; cases h
    · rintro ⟨_, h, _⟩; cases h
  | ok a =>
    constructor
    · intro h; exact ⟨a, rfl, h⟩
    · rintro ⟨_, h, h'⟩; cases h; exact h'

@[simp] theorem ok_bind {β γ : Type u} (b : β) (f : β → Except ε γ) : (.ok b >>= f) = f b := rfl

@[simp] theorem pure_eq_ok {a b : α} : (pure a : Except ε α) = .ok b ↔ a = b :=
  ⟨fun h => by cases h; rfl, fun h => by rw [h]; rfl⟩

@[simp] theorem throw_ne_ok {e : ε} {b : α} : (throw e : Except ε α) ≠ .ok b := by
  intro h; cases h

/-- What returns has a value. -/
theorem isOk_iff {x : Except ε α} : x.isOk = true ↔ ∃ a, x = .ok a := by
  cases x with
  | error e => exact ⟨nofun, nofun⟩
  | ok a => exact ⟨fun _ => ⟨a, rfl⟩, fun _ => rfl⟩

/-- What a run returned, with the state it left. -/
theorem eq_mk_of_fst_eq {p : α × σ} {a : α} (h : p.1 = a) : p = (a, p.2) := h ▸ rfl

theorem toOption_eq_some {x : Except ε α} {a : α} : x.toOption = some a ↔ x = .ok a := by
  cases x with
  | error e => exact ⟨nofun, nofun⟩
  | ok b => exact ⟨fun h => congrArg _ (Option.some.inj h), fun h => congrArg _ (Except.ok.inj h)⟩

/-- A statement whose continuation is mapped. -/
theorem bind_map_congr {β γ δ : Type u} {x : Except ε β} {f : β → Except ε γ} {g : β → Except ε δ}
    {φ : γ → δ} (h : ∀ a, g a = (f a).map φ) : (x >>= g) = (x >>= f).map φ := by
  cases x with
  | error e => rfl
  | ok a => exact h a

theorem foldlM_cons_eq_ok {step : σ → α → Except ε σ} {s t : σ} {a : α} {l : List α} :
    (a :: l).foldlM step s = .ok t ↔ ∃ s', step s a = .ok s' ∧ l.foldlM step s' = .ok t := by
  rw [List.foldlM_cons, bind_eq_ok]

theorem foldlM_append_eq_ok {step : σ → α → Except ε σ} {s t : σ} {l m : List α} :
    (l ++ m).foldlM step s = .ok t ↔
      ∃ s', l.foldlM step s = .ok s' ∧ m.foldlM step s' = .ok t := by
  rw [List.foldlM_append, bind_eq_ok]

/-- A loop that only checks returns when no check raises. -/
theorem forM_eq_ok {f : α → Except ε PUnit} :
    ∀ {l : List α}, l.forM f = .ok ⟨⟩ ↔ ∀ a ∈ l, f a = .ok ⟨⟩
  | [] => iff_of_true rfl fun a ha => absurd ha List.not_mem_nil
  | a :: l => by
    rw [List.forM_eq_forM, List.forM_cons, ← List.forM_eq_forM, bind_eq_ok, List.forall_mem_cons,
      ← forM_eq_ok]
    constructor
    · rintro ⟨⟨⟩, ha, hl⟩
      exact ⟨ha, hl⟩
    · rintro ⟨ha, hl⟩
      exact ⟨⟨⟩, ha, hl⟩

/-- A loop whose body returns for each element is the map of what it returns. -/
theorem mapM_eq_map {β : Type u} {f : α → Except ε β} {g : α → β} :
    ∀ {l : List α}, (∀ a ∈ l, f a = .ok (g a)) → l.mapM f = .ok (l.map g)
  | [], _ => rfl
  | a :: l, h => by
    rw [List.mapM_cons]
    exact bind_eq_ok.mpr ⟨g a, h a List.mem_cons_self, bind_eq_ok.mpr
      ⟨l.map g, mapM_eq_map fun a ha => h a (List.mem_cons_of_mem _ ha), rfl⟩⟩

/-- What a loop returns holds what its body returns for the elements. -/
theorem mem_mapM_iff {β : Type u} {f : α → Except ε β} : ∀ {l : List α} {m : List β},
    l.mapM f = .ok m → ∀ b, b ∈ m ↔ ∃ a ∈ l, f a = .ok b
  | [], m, h, b => by
    rw [List.mapM_nil, pure_eq_ok] at h
    rw [← h]
    exact ⟨fun hb => (List.not_mem_nil hb).elim, fun ⟨a, ha, _⟩ => (List.not_mem_nil ha).elim⟩
  | x :: l, m, h, b => by
    rw [List.mapM_cons] at h
    obtain ⟨y, hy, h⟩ := bind_eq_ok.mp h
    obtain ⟨m', hm', h⟩ := bind_eq_ok.mp h
    rw [← pure_eq_ok.mp h, List.mem_cons, mem_mapM_iff hm']
    constructor
    · rintro (rfl | ⟨a, ha, hb⟩)
      · exact ⟨x, List.mem_cons_self, hy⟩
      · exact ⟨a, List.mem_cons_of_mem _ ha, hb⟩
    · rintro ⟨a, ha, hb⟩
      rcases List.mem_cons.mp ha with rfl | ha
      · cases hy.symm.trans hb
        exact .inl rfl
      · exact .inr ⟨a, ha, hb⟩

/-- What a loop returns, when the body returns nothing else than the value of a function. -/
theorem map_of_mapM {β : Type u} {f : α → Except ε β} {g : α → β}
    (h : ∀ a b, f a = .ok b → b = g a) : ∀ {l : List α} {m : List β}, l.mapM f = .ok m → m = l.map g
  | [], m, hm => by
    rw [List.mapM_nil, pure_eq_ok] at hm
    rw [← hm]
    rfl
  | x :: l, m, hm => by
    rw [List.mapM_cons] at hm
    obtain ⟨y, hy, hm⟩ := bind_eq_ok.mp hm
    obtain ⟨m', hm', hm⟩ := bind_eq_ok.mp hm
    rw [← pure_eq_ok.mp hm, h x y hy, map_of_mapM h hm', List.map_cons]

theorem mapM_ok_of_mem {β : Type u} {f : α → Except ε β} :
    ∀ {l : List α} {m : List β}, l.mapM f = .ok m → ∀ a ∈ l, ∃ b ∈ m, f a = .ok b
  | [], _, _, _, ha => (List.not_mem_nil ha).elim
  | x :: l, m, h, a, ha => by
    rw [List.mapM_cons] at h
    obtain ⟨y, hy, h⟩ := bind_eq_ok.mp h
    obtain ⟨m', hm', h⟩ := bind_eq_ok.mp h
    rw [← pure_eq_ok.mp h]
    rcases List.mem_cons.mp ha with rfl | ha
    · exact ⟨y, List.mem_cons_self, hy⟩
    · obtain ⟨b, hb, hfb⟩ := mapM_ok_of_mem hm' a ha
      exact ⟨b, List.mem_cons_of_mem _ hb, hfb⟩

/-- A loop returns when its body does for each element. -/
theorem exists_mapM_ok {β : Type u} {f : α → Except ε β} :
    ∀ {l : List α}, (∀ a ∈ l, ∃ b, f a = .ok b) → ∃ m, l.mapM f = .ok m
  | [], _ => ⟨[], rfl⟩
  | x :: l, h => by
    obtain ⟨y, hy⟩ := h x List.mem_cons_self
    obtain ⟨m, hm⟩ := exists_mapM_ok fun a ha => h a (List.mem_cons_of_mem _ ha)
    rw [List.mapM_cons]
    exact ⟨y :: m, bind_eq_ok.mpr ⟨y, hy, bind_eq_ok.mpr ⟨m, hm, rfl⟩⟩⟩

/-- A loop returns exactly when its body does for each element. -/
theorem mapM_isOk {β : Type u} {f : α → Except ε β} {l : List α} :
    (l.mapM f).isOk ↔ ∀ a ∈ l, (f a).isOk := by
  simp only [isOk_iff]
  constructor
  · rintro ⟨m, hm⟩ a ha
    obtain ⟨b, -, hb⟩ := mapM_ok_of_mem hm a ha
    exact ⟨b, hb⟩
  · exact exists_mapM_ok

/-- A loop returns what its body returns, element by element. -/
theorem mapM_eq_ok_iff {β : Type u} {f : α → Except ε β} : ∀ {l : List α} {m : List β},
    l.mapM f = .ok m ↔ List.Forall₂ (fun a b => f a = .ok b) l m
  | [], m => by rw [List.mapM_nil, pure_eq_ok, List.forall₂_nil_left_iff, eq_comm]
  | a :: l, m => by
    rw [List.mapM_cons, bind_eq_ok, List.forall₂_cons_left_iff]
    constructor
    · rintro ⟨b, hb, h⟩
      obtain ⟨m', hm', h⟩ := bind_eq_ok.mp h
      exact ⟨b, m', hb, mapM_eq_ok_iff.mp hm', (pure_eq_ok.mp h).symm⟩
    · rintro ⟨b, m', hb, hm', rfl⟩
      exact ⟨b, hb, bind_eq_ok.mpr ⟨m', mapM_eq_ok_iff.mpr hm', rfl⟩⟩

/-- A loop whose body returns the value of a function for the elements of a kind. -/
theorem mapM_eq_ok_iff_map {β : Type u} {f : α → Except ε β} {P : α → Prop} {g : α → β}
    (h : ∀ a b, f a = .ok b ↔ P a ∧ b = g a) : ∀ {l : List α} {m : List β},
    l.mapM f = .ok m ↔ (∀ a ∈ l, P a) ∧ m = l.map g
  | [], m => by
    rw [List.mapM_nil, pure_eq_ok, eq_comm]
    exact ⟨fun hm => ⟨fun _ ha => (List.not_mem_nil ha).elim, hm⟩, fun hm => hm.2⟩
  | a :: l, m => by
    rw [List.mapM_cons, bind_eq_ok, List.forall_mem_cons, List.map_cons]
    constructor
    · rintro ⟨b, hb, hm⟩
      obtain ⟨m', hm', hm⟩ := bind_eq_ok.mp hm
      obtain ⟨hP, rfl⟩ := (h a b).mp hb
      obtain ⟨hl, rfl⟩ := (mapM_eq_ok_iff_map h).mp hm'
      exact ⟨⟨hP, hl⟩, (pure_eq_ok.mp hm).symm⟩
    · rintro ⟨⟨hP, hl⟩, rfl⟩
      exact ⟨g a, (h a _).mpr ⟨hP, rfl⟩, bind_eq_ok.mpr
        ⟨l.map g, (mapM_eq_ok_iff_map h).mpr ⟨hl, rfl⟩, rfl⟩⟩

/-- A loop that skips elements, or returns nothing for them, returns a part of what it returned. -/
theorem sublist_mapM_filter {β : Type u} {f g : α → Except ε (Option β)} (keep : α → Bool) :
    ∀ {l : List α} {m : List (Option β)}, l.mapM f = .ok m →
      (∀ a ∈ l, g a = .ok none ∨ g a = f a) →
      ∃ m', (l.filter keep).mapM g = .ok m' ∧ m'.reduceOption.Sublist m.reduceOption
  | [], m, _, _ => ⟨[], rfl, List.nil_sublist _⟩
  | a :: l, m, hm, hg => by
    rw [List.mapM_cons] at hm
    obtain ⟨b, hb, hm⟩ := bind_eq_ok.mp hm
    obtain ⟨m, hm, h⟩ := bind_eq_ok.mp hm
    rw [← pure_eq_ok.mp h]
    obtain ⟨m', hm', hsub⟩ := sublist_mapM_filter keep hm fun x hx =>
      hg x (List.mem_cons_of_mem _ hx)
    have hskip : m'.reduceOption.Sublist (b :: m).reduceOption := by
      cases b with
      | none => exact hsub
      | some b => exact hsub.cons b
    cases hkeep : keep a with
    | false =>
      rw [List.filter_cons_of_neg (by rw [hkeep]; exact Bool.false_ne_true)]
      exact ⟨m', hm', hskip⟩
    | true =>
      rw [List.filter_cons_of_pos hkeep, List.mapM_cons]
      rcases hg a List.mem_cons_self with h | h
      · exact ⟨none :: m', bind_eq_ok.mpr ⟨none, h, bind_eq_ok.mpr ⟨m', hm', rfl⟩⟩, hskip⟩
      · refine ⟨b :: m', bind_eq_ok.mpr ⟨b, h.trans hb, bind_eq_ok.mpr ⟨m', hm', rfl⟩⟩, ?_⟩
        cases b with
        | none => exact hsub
        | some b => exact hsub.cons_cons b

/-- **Invariant rule**: what holds before the loop and is kept by its body holds after it. -/
theorem foldlM_invariant {step : σ → α → Except ε σ} {I : σ → Prop}
    (hstep : ∀ s a s', I s → step s a = .ok s' → I s') :
    ∀ (l : List α) (s t : σ), I s → l.foldlM step s = .ok t → I t
  | [], s, t, hs, h => by
    rw [List.foldlM_nil, pure_eq_ok] at h
    exact h ▸ hs
  | a :: l, s, t, hs, h => by
    obtain ⟨s', h1, h2⟩ := foldlM_cons_eq_ok.mp h
    exact foldlM_invariant hstep l s' t (hstep s a s' hs h1) h2

/-- **Guarded invariant rule**: the body has to keep the invariant only in the turns that a run of
this loop takes. -/
theorem foldlM_invariant_of_turns {step : σ → α → Except ε σ} {I : σ → Prop} {G : σ → α → Prop}
    (hstep : ∀ s a s', I s → G s a → step s a = .ok s' → I s') :
    ∀ (l : List α) (s t : σ), I s →
      (∀ p a q u, l = p ++ a :: q → p.foldlM step s = .ok u → G u a) →
      l.foldlM step s = .ok t → I t
  | [], s, t, hs, _, h => by
    rw [List.foldlM_nil, pure_eq_ok] at h
    exact h ▸ hs
  | a :: l, s, t, hs, hG, h => by
    obtain ⟨s', h1, h2⟩ := foldlM_cons_eq_ok.mp h
    have hI : I s' := hstep s a s' hs (hG [] a l s rfl rfl) h1
    refine foldlM_invariant_of_turns hstep l s' t hI ?_ h2
    intro p b q u hl hp
    exact hG (a :: p) b q u (by rw [hl, List.cons_append]) (foldlM_cons_eq_ok.mpr ⟨s', h1, hp⟩)

/-- **Projection rule**: if the body maps `view` by `next`, then so does the loop. -/
theorem foldlM_project {step : σ → α → Except ε σ} (view : σ → τ) (next : τ → α → τ)
    (hstep : ∀ s a s', step s a = .ok s' → view s' = next (view s) a) :
    ∀ (l : List α) (s t : σ), l.foldlM step s = .ok t → view t = l.foldl next (view s)
  | [], s, t, h => by
    rw [List.foldlM_nil, pure_eq_ok] at h
    rw [List.foldl_nil, h]
  | a :: l, s, t, h => by
    obtain ⟨s', h1, h2⟩ := foldlM_cons_eq_ok.mp h
    rw [List.foldl_cons, ← hstep s a s' h1]
    exact foldlM_project view next hstep l s' t h2

end Python
