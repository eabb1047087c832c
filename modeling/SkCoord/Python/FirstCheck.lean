import SkCoord.Python.Except

/-!
# The first check that holds

`firstCheck` goes through named checks, each of which may raise, and returns the name of the first
that holds.  `firstCheck_isFirst_iff`: it finds the first name exactly when no check that it comes
to raises.  `firstCheck_swap`: two neighbours may change places unless both hold.
-/

namespace Python

variable {β ε : Type} {check : β → Except ε Bool}

/-- The first name whose check holds. -/
def firstCheck (check : β → Except ε Bool) : List β → Except ε (Option β)
  | [] => pure none
  | name :: names => do
    if ← check name then pure (some name) else firstCheck check names

/-- A name is the first one in a list of which `P` holds. -/
def IsFirst (P : β → Prop) (names : List β) : Option β → Prop
  | none => ∀ name ∈ names, ¬P name
  | some name => ∃ before after, names = before ++ name :: after ∧ P name ∧ ∀ n ∈ before, ¬P n

theorem firstCheck_cons_of_true {name : β} (h : check name = .ok true) (names : List β) :
    firstCheck check (name :: names) = .ok (some name) := by
  rw [firstCheck, h]
  rfl

theorem firstCheck_cons_of_false {name : β} (h : check name = .ok false) (names : List β) :
    firstCheck check (name :: names) = firstCheck check names := by
  rw [firstCheck, h]
  rfl

theorem firstCheck_cons_of_error {name : β} {e : ε} (h : check name = .error e) (names : List β) :
    firstCheck check (name :: names) = .error e := by
  rw [firstCheck, h]
  rfl

/-- An early return is a check in front of the rest. -/
theorem firstCheck_cons_ite {name : β} {p : Prop} [Decidable p] {names : List β}
    {rest : Except ε (Option β)} (h : check name = .ok (decide p))
    (hrest : ¬p → rest = firstCheck check names) :
    (if p then pure (some name) else rest) = firstCheck check (name :: names) := by
  by_cases hp : p
  · rw [if_pos hp, firstCheck_cons_of_true (by rw [h, decide_eq_true hp])]
    rfl
  · rw [if_neg hp, hrest hp, firstCheck_cons_of_false (by rw [h, decide_eq_false hp])]

theorem firstCheck_cons_bool {name : β} {b : Bool} {names : List β} {rest : Except ε (Option β)}
    (h : check name = .ok b) (hrest : b = false → rest = firstCheck check names) :
    (if b = true then pure (some name) else rest) = firstCheck check (name :: names) :=
  firstCheck_cons_ite (by rw [h, Bool.decide_eq_true]) fun hb =>
    hrest ((Bool.not_eq_true _).mp hb)

theorem isFirst_cons_of_not {P : β → Prop} {name : β} (h : ¬P name) {names : List β}
    {r : Option β} : IsFirst P (name :: names) r ↔ IsFirst P names r := by
  cases r with
  | none => exact ⟨fun hr n hn => hr n (List.mem_cons_of_mem _ hn),
      fun hr n hn => (List.mem_cons.mp hn).elim (fun heq => heq ▸ h) (hr n)⟩
  | some r =>
    constructor
    · rintro ⟨before, after, hsplit, hr, hbefore⟩
      cases before with
      | nil =>
        cases hsplit
        exact absurd hr h
      | cons n before =>
        cases hsplit
        exact ⟨before, after, rfl, hr, fun n hn => hbefore n (List.mem_cons_of_mem _ hn)⟩
    · rintro ⟨before, after, rfl, hr, hbefore⟩
      exact ⟨name :: before, after, rfl, hr,
        fun n hn => (List.mem_cons.mp hn).elim (fun heq => heq ▸ h) (hbefore n)⟩

theorem isFirst_cons_of {P : β → Prop} {name : β} (h : P name) {names : List β} {r : Option β} :
    IsFirst P (name :: names) r ↔ r = some name := by
  constructor
  · intro hr
    cases r with
    | none => exact absurd h (hr name List.mem_cons_self)
    | some r =>
      obtain ⟨before, after, hsplit, -, hbefore⟩ := hr
      cases before with
      | nil =>
        cases hsplit
        rfl
      | cons n before =>
        cases hsplit
        exact absurd h (hbefore name List.mem_cons_self)
  · rintro rfl
    exact ⟨[], names, rfl, h, fun _ hn => (List.not_mem_nil hn).elim⟩

/-- A loop that returns finds nothing exactly when no check holds. -/
theorem firstCheck_eq_none_iff {P : β → Prop} (hP : ∀ name, P name ↔ check name = .ok true)
    {names : List β} {r : Option β} (h : firstCheck check names = .ok r) :
    r = none ↔ ∀ name ∈ names, ¬P name := by
  induction names with
  | nil =>
    cases h
    exact ⟨fun _ _ hn => (List.not_mem_nil hn).elim, fun _ => rfl⟩
  | cons name names ih =>
    cases hcheck : check name with
    | error e =>
      rw [firstCheck_cons_of_error hcheck] at h
      cases h
    | ok b =>
      cases b with
      | true =>
        rw [firstCheck_cons_of_true hcheck] at h
        cases h
        refine iff_of_false (Option.some_ne_none name) fun hnone => ?_
        exact hnone name List.mem_cons_self ((hP name).mpr hcheck)
      | false =>
        rw [firstCheck_cons_of_false hcheck] at h
        have hname : ¬P name := fun hn => by cases hcheck.symm.trans ((hP name).mp hn)
        rw [ih h, List.forall_mem_cons]
        exact (and_iff_right hname).symm

/-- **The loop finds the first**: it returns a first name exactly when each check that it comes to
returns, that is when no check before the first that holds raises. -/
theorem firstCheck_isFirst_iff {P : β → Prop} (hP : ∀ name, P name ↔ check name = .ok true)
    {names : List β} : (∃ r, firstCheck check names = .ok r ∧ IsFirst P names r) ↔
      ∀ before name after, names = before ++ name :: after → (∀ n ∈ before, ¬P n) →
        (check name).isOk := by
  induction names with
  | nil =>
    refine ⟨fun _ before name after h => ?_, fun _ => ⟨none, rfl, fun _ hn => ?_⟩⟩
    · exact absurd h (List.ne_nil_of_mem (List.mem_append_right _ List.mem_cons_self)).symm
    · exact (List.not_mem_nil hn).elim
  | cons name names ih =>
    cases h : check name with
    | error e =>
      -- The first name raises: the loop ends there, and the condition fails at that name.
      rw [firstCheck_cons_of_error h]
      constructor
      · rintro ⟨r, hr, -⟩
        cases hr
      · intro hall
        have hok := hall [] name names rfl (fun _ hn => (List.not_mem_nil hn).elim)
        rw [h] at hok
        cases hok
    | ok b =>
      cases b with
      | true =>
        -- It holds: the loop returns it, and no check behind it is made.
        rw [firstCheck_cons_of_true h]
        refine ⟨fun _ before n after hsplit hbefore => ?_,
          fun _ => ⟨_, rfl, (isFirst_cons_of ((hP name).mpr h)).mpr rfl⟩⟩
        cases before with
        | nil =>
          cases hsplit
          rw [h]
          rfl
        | cons m before =>
          cases hsplit
          exact absurd ((hP name).mpr h) (hbefore name List.mem_cons_self)
      | false =>
        -- It does not hold: the loop goes on, and so does the condition.
        have hname : ¬P name := fun hn => by cases h.symm.trans ((hP name).mp hn)
        simp only [firstCheck_cons_of_false h, isFirst_cons_of_not hname, ih]
        constructor
        · intro hall before n after hsplit hbefore
          cases before with
          | nil =>
            cases hsplit
            rw [h]
            rfl
          | cons m before =>
            cases hsplit
            exact hall before n after rfl fun m hm => hbefore m (List.mem_cons_of_mem _ hm)
        · intro hall before n after hsplit hbefore
          refine hall (name :: before) n after (by rw [hsplit, List.cons_append]) fun m hm => ?_
          exact (List.mem_cons.mp hm).elim (fun heq => heq ▸ hname) (hbefore m)

/-- **Neighbours that change places**: the loop returns the same in both orders when one of the two
does not hold, or when it does not get to them. -/
theorem firstCheck_swap {x y : β} {bx b' : Bool} (hx : check x = .ok bx) (hy : check y = .ok b')
    (h : bx = false ∨ b' = false) (names : List β) :
    firstCheck check (x :: y :: names) = firstCheck check (y :: x :: names) := by
  rcases h with rfl | rfl
  · rw [firstCheck_cons_of_false hx]
    cases b' with
    | true => rw [firstCheck_cons_of_true hy, firstCheck_cons_of_true hy]
    | false => rw [firstCheck_cons_of_false hy, firstCheck_cons_of_false hy,
        firstCheck_cons_of_false hx]
  · rw [firstCheck_cons_of_false hy]
    cases bx with
    | true => rw [firstCheck_cons_of_true hx, firstCheck_cons_of_true hx]
    | false => rw [firstCheck_cons_of_false hx, firstCheck_cons_of_false hx,
        firstCheck_cons_of_false hy]

/-- Names whose checks do not hold are passed over. -/
theorem firstCheck_append_of_false {front names : List β} (h : ∀ n ∈ front, check n = .ok false) :
    firstCheck check (front ++ names) = firstCheck check names := by
  induction front with
  | nil => rfl
  | cons n front ih =>
    rw [List.cons_append, firstCheck_cons_of_false (h n List.mem_cons_self)]
    exact ih fun m hm => h m (List.mem_cons_of_mem _ hm)

/-- What stands behind some names matters only when the loop passes over them. -/
theorem firstCheck_append_congr {front names names' : List β}
    (h : (∀ n ∈ front, check n = .ok false) → firstCheck check names = firstCheck check names') :
    firstCheck check (front ++ names) = firstCheck check (front ++ names') := by
  induction front with
  | nil => exact h fun _ hn => (List.not_mem_nil hn).elim
  | cons n front ih =>
    rw [List.cons_append, List.cons_append]
    cases hcheck : check n with
    | error e => rw [firstCheck_cons_of_error hcheck, firstCheck_cons_of_error hcheck]
    | ok b =>
      cases b with
      | true => rw [firstCheck_cons_of_true hcheck, firstCheck_cons_of_true hcheck]
      | false =>
        rw [firstCheck_cons_of_false hcheck, firstCheck_cons_of_false hcheck]
        refine ih fun hfront => h fun m hm => ?_
        exact (List.mem_cons.mp hm).elim (fun heq => heq ▸ hcheck) (hfront m)

end Python
