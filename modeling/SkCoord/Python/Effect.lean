import SkCoord.Python.Str

/-!
# Statements on a state

An `Effect` runs on a state and returns a value or raises.  What it wrote before it raised stays
written, so the state comes back in both cases.  `tryExcept` is `try: … except Exception:`, which
the death of the process passes by, and `io` is one input/output step with the fault that befalls
it.
-/

namespace Python

/-- A statement on a state. -/
def Effect (σ α : Type) := σ → Except PyError α × σ

namespace Effect

variable {σ α β : Type}

/-- The statements in order, up to the first that raises. -/
instance : Monad (Effect σ) where
  pure a := fun s => (.ok a, s)
  bind x f := fun s => match x s with
    | (.ok a, s') => f a s'
    | (.error e, s') => (.error e, s')

/-- `raise e`. -/
def raise (e : PyError) : Effect σ α := fun s => (.error e, s)

/-- The state. -/
def get : Effect σ σ := fun s => (.ok s, s)

/-- A computation that reads and does not write. -/
def lift (x : Except PyError α) : Effect σ α := fun s => (x, s)

/-- A write. -/
def modify (f : σ → σ) : Effect σ Unit := fun s => (.ok (), f s)

/-- `try: x; except Exception as e: handler(e)`. -/
def tryExcept (x : Effect σ α) (handler : PyError → Effect σ α) : Effect σ α := fun s =>
  match x s with
  | (.ok a, s') => (.ok a, s')
  | (.error .killed, s') => (.error .killed, s')
  | (.error e, s') => handler e s'

/-- `try: x; except OSError: raise ValueError(msg)`. -/
def osAs (msg : String) (x : Effect σ α) : Effect σ α := fun s =>
  match x s with
  | (.error (.os _), s') => (.error (.value msg), s')
  | r => r

/-- What a statement does in a state. -/
def run (x : Effect σ α) (s : σ) : Except PyError α × σ := x s

theorem run_bind (x : Effect σ α) (f : α → Effect σ β) (s : σ) :
    (x >>= f).run s = match x.run s with
      | (.ok a, s') => (f a).run s'
      | (.error e, s') => (.error e, s') := rfl

theorem run_bind_of_ok {x : Effect σ α} {f : α → Effect σ β} {s s' : σ} {a : α}
    (h : x.run s = (.ok a, s')) : (x >>= f).run s = (f a).run s' := by
  rw [run_bind, h]

theorem run_bind_of_error {x : Effect σ α} {f : α → Effect σ β} {s s' : σ} {e : PyError}
    (h : x.run s = (.error e, s')) : (x >>= f).run s = (.error e, s') := by
  rw [run_bind, h]

/-- A statement and the value behind it. -/
theorem run_bind_pure {x : Effect σ Unit} {s s' : σ} (h : x.run s = (.ok (), s')) (a : α) :
    (x >>= fun _ => pure a).run s = (.ok a, s') :=
  run_bind_of_ok h

/-- What returned ran through both statements. -/
theorem run_bind_eq_ok {x : Effect σ α} {f : α → Effect σ β} {s t : σ} {b : β} :
    (x >>= f).run s = (.ok b, t) ↔ ∃ a s', x.run s = (.ok a, s') ∧ (f a).run s' = (.ok b, t) := by
  rw [run_bind]
  cases hx : x.run s with
  | mk r s' =>
    cases r with
    | ok a =>
      constructor
      · intro h; exact ⟨a, s', rfl, h⟩
      · rintro ⟨_, _, h, h'⟩; cases h; exact h'
    | error e =>
      constructor
      · intro h; cases h
      · rintro ⟨_, _, h, _⟩; cases h

@[simp] theorem run_pure (a : α) (s : σ) : (pure a : Effect σ α).run s = (.ok a, s) := rfl

@[simp] theorem run_raise (e : PyError) (s : σ) :
    (raise e : Effect σ α).run s = (.error e, s) := rfl

@[simp] theorem run_lift (x : Except PyError α) (s : σ) :
    (lift x : Effect σ α).run s = (x, s) := rfl

theorem run_lift_bind (x : Except PyError α) (f : α → Effect σ β) (s : σ) :
    (lift x >>= f).run s = match x with
      | .ok a => (f a).run s
      | .error e => (.error e, s) := by
  cases x <;> rfl

@[simp] theorem run_get_bind (f : σ → Effect σ α) (s : σ) : (get >>= f).run s = (f s).run s := rfl

@[simp] theorem run_modify (f : σ → σ) (s : σ) : (modify f).run s = (.ok (), f s) := rfl

/-- A computation that only reads hands its value on. -/
theorem run_lift_bind_eq_ok {x : Except PyError α} {f : α → Effect σ β} {s t : σ} {b : β} :
    (lift x >>= f).run s = (.ok b, t) ↔ ∃ a, x = .ok a ∧ (f a).run s = (.ok b, t) := by
  rw [run_bind_eq_ok]
  constructor
  · rintro ⟨a, s', h, h'⟩
    obtain ⟨hx, rfl⟩ := Prod.mk.inj h
    exact ⟨a, hx, h'⟩
  · rintro ⟨a, hx, h⟩
    exact ⟨a, s, by rw [run_lift, hx], h⟩

/-- What holds where a computation that only reads raises, and behind it. -/
theorem run_lift_bind_rule {x : Except PyError α} {f : α → Effect σ β} {s : σ}
    (Q : Except PyError β × σ → Prop) (herr : ∀ e, Q (.error e, s))
    (hok : ∀ a, x = .ok a → Q ((f a).run s)) : Q ((lift x >>= f).run s) := by
  rw [run_lift_bind]
  cases x with
  | error e => exact herr e
  | ok a => exact hok a rfl

theorem run_tryExcept (x : Effect σ α) (handler : PyError → Effect σ α) (s : σ) :
    (tryExcept x handler).run s = match x.run s with
      | (.ok a, s') => (.ok a, s')
      | (.error .killed, s') => (.error .killed, s')
      | (.error e, s') => (handler e).run s' := rfl

/-- A body that returns needs no handler. -/
theorem run_tryExcept_of_ok {x : Effect σ α} {handler : PyError → Effect σ α} {s s' : σ} {a : α}
    (h : x.run s = (.ok a, s')) : (tryExcept x handler).run s = (.ok a, s') := by
  rw [run_tryExcept, h]

/-- The death of the process passes by the handler. -/
theorem run_tryExcept_of_killed {x : Effect σ α} {handler : PyError → Effect σ α} {s s' : σ}
    (h : x.run s = (.error .killed, s')) : (tryExcept x handler).run s = (.error .killed, s') := by
  rw [run_tryExcept, h]

/-- The handler runs in the state in which the body raised. -/
theorem run_tryExcept_of_error {x : Effect σ α} {handler : PyError → Effect σ α} {s s' : σ}
    {e : PyError} (h : x.run s = (.error e, s')) (he : e ≠ .killed) :
    (tryExcept x handler).run s = (handler e).run s' := by
  rw [run_tryExcept, h]
  cases e <;> first | rfl | exact absurd rfl he

/-! ### What holds of the state in between -/

/-- `x` keeps a property of the state, whether it returns or raises. -/
def Keeps (I : σ → Prop) (x : Effect σ α) : Prop := ∀ s, I s → I (x.run s).2

section

variable {I : σ → Prop}

theorem keeps_pure (a : α) : Keeps I (pure a : Effect σ α) := fun _ hs => hs

theorem keeps_raise (e : PyError) : Keeps I (raise e : Effect σ α) := fun _ hs => hs

theorem keeps_lift (x : Except PyError α) : Keeps I (lift x : Effect σ α) := fun _ hs => hs

theorem keeps_get : Keeps I (get : Effect σ σ) := fun _ hs => hs

/-- The state that a run leaves. -/
theorem Keeps.of_run {x : Effect σ α} (hx : Keeps I x) {s s' : σ} {r : Except PyError α} (hs : I s)
    (h : x.run s = (r, s')) : I s' := by
  have hleft := hx s hs
  rwa [h] at hleft

/-- What follows a value that is computed may use how it is computed. -/
theorem keeps_lift_bind {x : Except PyError α} {f : α → Effect σ β}
    (hf : ∀ a, x = .ok a → Keeps I (f a)) : Keeps I (lift x >>= f) := fun s hs =>
  run_lift_bind_rule (fun r : Except PyError β × σ => I r.2) (fun _ => hs) fun a ha => hf a ha s hs

theorem Keeps.bind {x : Effect σ α} {f : α → Effect σ β} (hx : Keeps I x)
    (hf : ∀ a, Keeps I (f a)) : Keeps I (x >>= f) := by
  intro s hs
  have h1 := hx s hs
  rw [run_bind]
  cases h : x.run s with
  | mk r s' =>
    rw [h] at h1
    cases r with
    | ok a => exact hf a s' h1
    | error e => exact h1

/-- A loop keeps what each of its turns keeps. -/
theorem Keeps.foldlM {step : β → α → Effect σ β} : ∀ {l : List α},
    (∀ a ∈ l, ∀ b, Keeps I (step b a)) → ∀ b, Keeps I (l.foldlM step b)
  | [], _, b => keeps_pure b
  | a :: l, h, b => by
    rw [List.foldlM_cons]
    exact (h a List.mem_cons_self b).bind
      (Keeps.foldlM fun a ha => h a (List.mem_cons_of_mem _ ha))

theorem Keeps.tryExcept {x : Effect σ α} {handler : PyError → Effect σ α} (hx : Keeps I x)
    (hh : ∀ e, Keeps I (handler e)) : Keeps I (tryExcept x handler) := by
  intro s hs
  have h1 := hx s hs
  cases h : x.run s with
  | mk r s' =>
    rw [h] at h1
    cases r with
    | ok a => rw [run_tryExcept_of_ok h]; exact h1
    | error e =>
      by_cases he : e = .killed
      · rw [he] at h
        rw [run_tryExcept_of_killed h]
        exact h1
      · rw [run_tryExcept_of_error h he]
        exact hh e s' h1

end

/-! ### How a run ends -/

/-- `x` runs from `s` into a state with a property, whether it returns or raises. -/
def Ends (I : σ → Prop) (x : Effect σ α) (s : σ) : Prop := I (x.run s).2

namespace Ends

variable {I : σ → Prop} {s s' : σ}

theorem pure {a : α} (hs : I s) : Ends I (Pure.pure a : Effect σ α) s := hs

theorem raise {e : PyError} (hs : I s) : Ends I (Effect.raise e : Effect σ α) s := hs

theorem get_bind {f : σ → Effect σ α} (h : Ends I (f s) s) : Ends I (get >>= f) s := h

/-- A computation that only reads either hands its value on or raises where it is. -/
theorem lift_bind {x : Except PyError α} {f : α → Effect σ β} (hs : I s)
    (h : ∀ a, x = .ok a → Ends I (f a) s) : Ends I (lift x >>= f) s := by
  unfold Ends
  rw [run_lift_bind]
  cases hx : x with
  | ok a => exact h a hx
  | error e => exact hs

/-- The second statement runs from wherever the first returned. -/
theorem bind {J : σ → Prop} {x : Effect σ α} {f : α → Effect σ β} (hx : Ends J x s)
    (hraise : ∀ {t}, J t → I t) (h : ∀ a t, J t → Ends I (f a) t) : Ends I (x >>= f) s := by
  unfold Ends at *
  rw [run_bind]
  cases hrun : x.run s with
  | mk r t =>
    rw [hrun] at hx
    cases r with
    | ok a => exact h a t hx
    | error e => exact hraise hx

theorem bind_of_ok {x : Effect σ α} {f : α → Effect σ β} {a : α} (hx : x.run s = (.ok a, s'))
    (h : Ends I (f a) s') : Ends I (x >>= f) s := by
  unfold Ends
  rw [run_bind_of_ok hx]
  exact h

theorem bind_of_error {x : Effect σ α} {f : α → Effect σ β} {e : PyError}
    (hx : x.run s = (.error e, s')) (hs : I s') : Ends I (x >>= f) s := by
  unfold Ends
  rw [run_bind_of_error hx]
  exact hs

theorem of_run {x : Effect σ α} {r : Except PyError α} (hx : x.run s = (r, s')) (hs : I s') :
    Ends I x s := by
  unfold Ends
  rw [hx]
  exact hs

end Ends

end Effect

/-! ### Faults -/

/-- What befalls an input/output step: nothing; an error, or the death of the process, before or
after the step takes effect; or the same in the middle of a write, of which all but the end of the
line may have reached the file. -/
inductive Fault where
  | ok
  | fails (took : Bool) (e : PyError)
  | torn (full : Bool) (e : PyError)
  deriving DecidableEq, Repr

namespace Fault

/-- The error that the step raises. -/
def error : Fault → Option PyError
  | ok => none
  | fails _ e => some e
  | torn _ e => some e

/-- The step takes its whole effect. -/
def took : Fault → Bool
  | ok => true
  | fails took _ => took
  | torn _ _ => false

/-- The step takes its effect or it does not. -/
def isWhole : Fault → Bool
  | torn _ _ => false
  | _ => true

/-- A step that does not raise takes its effect. -/
theorem took_of_error {f : Fault} (h : f.error = none) : f.took = true := by
  cases f with
  | ok => rfl
  | fails took e => cases h
  | torn full e => cases h

/-- The fault as it leaves `except OSError: raise ValueError(msg)`. -/
def osAs (msg : String) : Fault → Fault
  | fails took (.os _) => fails took (.value msg)
  | torn full (.os _) => torn full (.value msg)
  | f => f

end Fault

namespace Effect

variable {σ : Type}

/-- An input/output step with effect `whole`, or `part` when it is torn. -/
def io (f : Fault) (whole : σ → σ) (part : Bool → σ → σ) : Effect σ Unit := fun s =>
  match f with
  | .ok => (.ok (), whole s)
  | .fails took e => (.error e, if took then whole s else s)
  | .torn full e => (.error e, part full s)

/-- A step that cannot be torn: it writes another file and renames it. -/
def ioAtomic (f : Fault) (whole : σ → σ) : Effect σ Unit := io f whole fun _ s => s

theorem run_io_of_isWhole {f : Fault} (hf : f.isWhole = true) (whole : σ → σ)
    (part : Bool → σ → σ) (s : σ) :
    (io f whole part).run s =
      (match f.error with
        | none => .ok ()
        | some e => .error e, if f.took then whole s else s) := by
  cases f with
  | ok => rfl
  | fails took e => rfl
  | torn full e => cases hf

theorem run_ioAtomic (f : Fault) (whole : σ → σ) (s : σ) :
    (ioAtomic f whole).run s =
      (match f.error with
        | none => .ok ()
        | some e => .error e, if f.took then whole s else s) := by
  cases f <;> rfl

/-- A step that returned took its effect. -/
theorem run_io_eq_ok {f : Fault} {whole : σ → σ} {part : Bool → σ → σ} {s t : σ} {u : Unit}
    (h : (io f whole part).run s = (.ok u, t)) : t = whole s := by
  unfold io run at h
  split at h <;> cases h
  rfl

theorem osAs_io (msg : String) (f : Fault) (whole : σ → σ) (part : Bool → σ → σ) :
    osAs msg (io f whole part) = io (f.osAs msg) whole part := by
  funext s
  cases f with
  | ok => rfl
  | fails took e => cases e <;> rfl
  | torn full e => cases e <;> rfl

theorem keeps_io {I : σ → Prop} {f : Fault} {whole : σ → σ} {part : Bool → σ → σ}
    (hw : ∀ s, I s → I (whole s)) (hp : ∀ b s, I s → I (part b s)) : Keeps I (io f whole part) := by
  intro s hs
  cases f with
  | ok => exact hw s hs
  | fails took e => cases took <;> first | exact hs | exact hw s hs
  | torn full e => exact hp full s hs

end Effect

end Python
