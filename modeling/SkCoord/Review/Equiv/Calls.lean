import SkCoord.Review.Broker

/-!
# What a call has done

`Local` says of a call, from where it stands, which records it has written and what it has asked of
GitHub: it asks for the head, then for the checks, then for the review, each behind the guards on the
answer before (`Asks`), and it writes a reservation first and at most one result of each kind behind
it.  `Call.next_turn` says what a step does (`Turn`), and `Local.next` is the step lemma.
-/

namespace SkCoord

open Python

namespace Review

variable {V : Type} {b : Broker V} {r : ReviewRequest} {W : List Dict} {A : List (Asked V)}

/-- What a call asks of GitHub, the latest first. -/
inductive Asks (b : Broker V) (r : ReviewRequest) : List (Asked V) → Prop
  | nothing : Asks b r []
  | pull (answer : Except Exc V) : Asks b r [.pullRequest answer]
  | checks {current : V} (hcurrent : b.verifyPull r current = .ok ()) (answer : Except Exc V) :
    Asks b r [.requiredChecks answer, .pullRequest (.ok current)]
  | review {current checks : V} (hcurrent : b.verifyPull r current = .ok ())
      (hchecks : b.verifyChecks checks = .ok ()) (answer : Except Exc V) :
    Asks b r [.createReview answer, .requiredChecks (.ok checks), .pullRequest (.ok current)]

/-- What a call has written and asked inside its `try` block. -/
inductive Inside (b : Broker V) (r : ReviewRequest) : List Dict → List (Asked V) → Prop
  | reserved {digest : String} {now : b.Time} {A : List (Asked V)} (hasks : Asks b r A) :
    Inside b r [b.reservation r digest now] A
  | accepted {digest : String} {now now' : b.Time} {current checks response : V} {record : Dict}
      (hcurrent : b.verifyPull r current = .ok ()) (hchecks : b.verifyChecks checks = .ok ())
      (hrecord : b.accepted r response now' = .ok record) :
    Inside b r [record, b.reservation r digest now]
      [.createReview (.ok response), .requiredChecks (.ok checks), .pullRequest (.ok current)]

/-- The call has asked for its review. -/
def Submitted (A : List (Asked V)) : Prop := ∃ answer, Asked.createReview answer ∈ A

/-- A strict call raises no `ValueError` behind its request for the review. -/
def Spares (strict : Bool) (A : List (Asked V)) (e : Exc) : Prop :=
  strict = true → Submitted A → e.cls ≠ .value

/-- What a call has written and asked at its end. -/
inductive Over (b : Broker V) (strict : Bool) (r : ReviewRequest) :
    List Dict → List (Asked V) → Prop
  | nothing : Over b strict r [] []
  | inside {W : List Dict} {A : List (Asked V)} (h : Inside b r W A) : Over b strict r W A
  | handled {W : List Dict} {A : List (Asked V)} {e raised : Exc} {now : b.Time} {record : Dict}
      (h : Inside b r W A) (hrecord : b.handled r e now = some (record, raised))
      (he : Spares strict A e) : Over b strict r (record :: W) A

/-- What a call has written and asked, from where it stands: nothing before its reservation, then
the reservation and one answer more with every gate it has passed. -/
def Local (b : Broker V) (strict : Bool) (r : ReviewRequest) (phase : Phase V) (W : List Dict)
    (A : List (Asked V)) : Prop :=
  match phase with
  | .called => W = [] ∧ A = []
  | .waiting _ => W = [] ∧ A = []
  | .scanning _ => W = [] ∧ A = []
  | .reserving _ => W = [] ∧ A = []
  | .viewing => (∃ digest now, W = [b.reservation r digest now]) ∧ A = []
  | .checking => (∃ digest now, W = [b.reservation r digest now]) ∧
      ∃ current, A = [.pullRequest (.ok current)] ∧ b.verifyPull r current = .ok ()
  | .submitting => (∃ digest now, W = [b.reservation r digest now]) ∧
      ∃ current checks, A = [.requiredChecks (.ok checks), .pullRequest (.ok current)] ∧
        b.verifyPull r current = .ok () ∧ b.verifyChecks checks = .ok ()
  | .accepting response => (∃ digest now, W = [b.reservation r digest now]) ∧
      ∃ current checks, A = [.createReview (.ok response), .requiredChecks (.ok checks),
        .pullRequest (.ok current)] ∧
        b.verifyPull r current = .ok () ∧ b.verifyChecks checks = .ok ()
  | .returning _ => Inside b r W A
  | .handling e => Inside b r W A ∧ Spares strict A e
  | .ended _ => Over b strict r W A
  | .dead => Over b strict r W A

theorem Spares.of_not_submitted {strict : Bool} {e : Exc} (h : ¬Submitted A) :
    Spares strict A e := fun _ hsubmitted => absurd hsubmitted h

/-- A process may die anywhere. -/
theorem Local.over {strict : Bool} {phase : Phase V} (h : Local b strict r phase W A) :
    Over b strict r W A := by
  cases phase with
  | called | waiting _ | scanning _ | reserving _ =>
    obtain ⟨rfl, rfl⟩ := h
    exact .nothing
  | viewing =>
    obtain ⟨⟨digest, now, rfl⟩, rfl⟩ := h
    exact .inside (.reserved .nothing)
  | checking =>
    obtain ⟨⟨digest, now, rfl⟩, current, rfl, -⟩ := h
    exact .inside (.reserved (.pull _))
  | submitting =>
    obtain ⟨⟨digest, now, rfl⟩, current, checks, rfl, hcurrent, -⟩ := h
    exact .inside (.reserved (.checks hcurrent _))
  | accepting response =>
    obtain ⟨⟨digest, now, rfl⟩, current, checks, rfl, hcurrent, hchecks⟩ := h
    exact .inside (.reserved (.review hcurrent hchecks _))
  | returning response => exact .inside h
  | handling e => exact .inside h.1
  | ended result => exact h
  | dead => exact h

/-- A step behind the request for the review raises no `ValueError`. -/
def Step.RaisesNoValue (b : Broker V) (c : Call V) : Step b → Prop
  | .submit answer _ => ∀ e, answer = .error e → e.cls ≠ .value
  | .accept now w => ∀ response, c.phase = .accepting response →
      (∀ e, b.accepted c.request response now = .error e → e.cls ≠ .value) ∧
        ∀ e, w.raised = some e → e.cls ≠ .value
  | .give => ∀ response, c.phase = .returning response →
      ∀ e, b.returned response = .error e → e.cls ≠ .value
  | _ => True

section

variable (b : Broker V) (audit : List Char) (free : Bool) (r : ReviewRequest)

/-- What a step of a call does, one branch of `Call.next` after another. -/
inductive Turn : Phase V → Step b → Move V → Prop
  | refuse {file : Broker.PreflightFile} (e : Exc) :
    Turn .called (.validate file) { phase := .ended (.error e) }
  | wait {file : Broker.PreflightFile} (digest : String) :
    Turn .called (.validate file) { phase := .waiting digest }
  | enter {digest : String} (hfree : free = true) :
    Turn (.waiting digest) .enter { phase := .scanning digest }
  | replay {digest : String} (e : Exc) :
    Turn (.scanning digest) .scan { phase := .ended (.error e) }
  | fresh {digest : String} (hscan : b.scan audit r.requestId = .ok none) :
    Turn (.scanning digest) .scan { phase := .reserving digest }
  | reserve {digest : String} (now : b.Time) (w : Write) : Turn (.reserving digest) (.reserve now w)
      (.write b (b.reservation r digest now) .viewing (fun e => .ended (.error e)) w)
  | viewFails (answer : Except Exc V) (e : Exc) : Turn .viewing (.view answer)
      { phase := .handling e, asked := some (.pullRequest answer) }
  | view {current : V} (hcurrent : b.verifyPull r current = .ok ()) :
    Turn .viewing (.view (.ok current))
      { phase := .checking, asked := some (.pullRequest (.ok current)) }
  | checkFails (answer : Except Exc V) (e : Exc) : Turn .checking (.check answer)
      { phase := .handling e, asked := some (.requiredChecks answer) }
  | check {checks : V} (hchecks : b.verifyChecks checks = .ok ()) :
    Turn .checking (.check (.ok checks))
      { phase := .submitting, asked := some (.requiredChecks (.ok checks)) }
  | submitFails (e : Exc) (created : Bool) : Turn .submitting (.submit (.error e) created)
      { phase := .handling e, asked := some (.createReview (.error e)), created }
  | submit (response : V) (created : Bool) : Turn .submitting (.submit (.ok response) created)
      { phase := .accepting response, asked := some (.createReview (.ok response)), created }
  | acceptFails {response : V} {now : b.Time} (w : Write) {e : Exc}
      (herror : b.accepted r response now = .error e) :
    Turn (.accepting response) (.accept now w) { phase := .handling e }
  | accept {response : V} {now : b.Time} (w : Write) {record : Dict}
      (hrecord : b.accepted r response now = .ok record) :
    Turn (.accepting response) (.accept now w) (.write b record (.returning response) .handling w)
  | giveFails {response : V} {e : Exc} (herror : b.returned response = .error e) :
    Turn (.returning response) .give { phase := .handling e }
  | give (response : V) (fields : List (String × V)) :
    Turn (.returning response) .give { phase := .ended (.ok fields) }
  | reraise (now : b.Time) (w : Write) (e : Exc) :
    Turn (.handling e) (.handle now w) { phase := .ended (.error e) }
  | handle {now : b.Time} (w : Write) {e raised : Exc} {record : Dict}
      (hrecord : b.handled r e now = some (record, raised)) : Turn (.handling e) (.handle now w)
      (.write b record (.ended (.error raised)) (fun e => .ended (.error e)) w)

end

theorem Call.next_turn {audit : List Char} {free : Bool} {c : Call V} {st : Step b} {m : Move V}
    (hm : c.next b audit free st = some m) : Turn b audit free c.request c.phase st m := by
  obtain ⟨r, phase⟩ := c
  unfold Call.next at hm
  dsimp only at hm ⊢
  -- A phase has one step that fits it; all other pairs are the last branch.
  split at hm
  · split at hm
    · cases hm
      exact .refuse _
    · cases hm
      exact .wait _
  · split at hm
    · rename_i hfree
      cases hm
      exact .enter hfree
    · cases hm
  · split at hm
    · cases hm
      exact .replay _
    · cases hm
      exact .replay _
    · rename_i hscan
      cases hm
      exact .fresh hscan
  · cases hm
    exact .reserve _ _
  · rename_i answer
    split at hm
    · cases hm
      exact .viewFails answer _
    · rename_i hverify
      cases hm
      cases answer with
      | error e => cases hverify
      | ok current => exact .view hverify
  · rename_i answer
    split at hm
    · cases hm
      exact .checkFails answer _
    · rename_i hverify
      cases hm
      cases answer with
      | error e => cases hverify
      | ok checks => exact .check hverify
  · split at hm
    · cases hm
      exact .submitFails _ _
    · cases hm
      exact .submit _ _
  · split at hm
    · rename_i herror
      cases hm
      exact .acceptFails _ herror
    · rename_i hrecord
      cases hm
      exact .accept _ hrecord
  · split at hm
    · rename_i herror
      cases hm
      exact .giveFails herror
    · cases hm
      exact .give _ _
  · split at hm
    · cases hm
      exact .reraise _ _ _
    · rename_i hrecord
      cases hm
      exact .handle _ hrecord
  · cases hm

/-- **A step** of a call keeps what is known of it. -/
theorem Local.next {strict : Bool} {audit : List Char} {free : Bool} {c : Call V} {st : Step b}
    {m : Move V} (h : Local b strict c.request c.phase W A)
    (hm : c.next b audit free st = some m) (hst : strict = true → st.RaisesNoValue b c) :
    Local b strict c.request m.phase (m.record.toList ++ W) (m.asked.toList ++ A) := by
  have hturn := Call.next_turn hm
  obtain ⟨r, phase⟩ := c
  dsimp only at h hturn ⊢
  cases hturn with
  | refuse _ | replay _ =>
    obtain ⟨rfl, rfl⟩ := h
    exact .nothing
  | wait _ | fresh _ =>
    obtain ⟨rfl, rfl⟩ := h
    exact ⟨rfl, rfl⟩
  | enter _ => exact h
  | @reserve digest now w =>
    obtain ⟨rfl, rfl⟩ := h
    cases w with
    | done => exact ⟨⟨digest, now, rfl⟩, rfl⟩
    | unsynced e => exact .inside (.reserved .nothing)
    | fails left e => exact .nothing
  | viewFails answer e =>
    obtain ⟨⟨digest, now, rfl⟩, rfl⟩ := h
    refine ⟨.reserved (.pull answer), .of_not_submitted ?_⟩
    rintro ⟨a, ha⟩
    cases List.mem_singleton.mp ha
  | @view current hverify =>
    obtain ⟨⟨digest, now, rfl⟩, rfl⟩ := h
    exact ⟨⟨digest, now, rfl⟩, current, rfl, hverify⟩
  | checkFails answer e =>
    obtain ⟨⟨digest, now, rfl⟩, current, rfl, hcurrent⟩ := h
    refine ⟨.reserved (.checks hcurrent answer), .of_not_submitted ?_⟩
    rintro ⟨a, ha⟩
    rcases List.mem_cons.mp ha with ha | ha
    · cases ha
    · cases List.mem_singleton.mp ha
  | @check checks hverify =>
    obtain ⟨⟨digest, now, rfl⟩, current, rfl, hcurrent⟩ := h
    exact ⟨⟨digest, now, rfl⟩, current, checks, rfl, hcurrent, hverify⟩
  | submitFails e created =>
    obtain ⟨⟨digest, now, rfl⟩, current, checks, rfl, hcurrent, hchecks⟩ := h
    exact ⟨.reserved (.review hcurrent hchecks _), fun hstrict _ => hst hstrict e rfl⟩
  | submit response created =>
    obtain ⟨⟨digest, now, rfl⟩, current, checks, rfl, hcurrent, hchecks⟩ := h
    exact ⟨⟨digest, now, rfl⟩, current, checks, rfl, hcurrent, hchecks⟩
  | @acceptFails response _ w e herror =>
    obtain ⟨⟨digest, now', rfl⟩, current, checks, rfl, hcurrent, hchecks⟩ := h
    exact ⟨.reserved (.review hcurrent hchecks _),
      fun hstrict _ => (hst hstrict response rfl).1 e herror⟩
  | @accept response _ w record hrecord =>
    obtain ⟨⟨digest, now', rfl⟩, current, checks, rfl, hcurrent, hchecks⟩ := h
    cases w with
    | done => exact .accepted hcurrent hchecks hrecord
    | unsynced e =>
      -- the line is there, and the exception is handled all the same
      exact ⟨.accepted hcurrent hchecks hrecord,
        fun hstrict _ => (hst hstrict response rfl).2 e rfl⟩
    | fails left e =>
      exact ⟨.reserved (.review hcurrent hchecks _),
        fun hstrict _ => (hst hstrict response rfl).2 e rfl⟩
  | @giveFails response e herror =>
    exact ⟨h, fun hstrict _ => hst hstrict response rfl e herror⟩
  | give _ _ => exact .inside h
  | reraise _ _ _ => exact .inside h.1
  | @handle now w e raised record hrecord =>
    obtain ⟨hinside, hspares⟩ := h
    cases w with
    | done => exact .handled hinside hrecord hspares
    | unsynced e' => exact .handled hinside hrecord hspares
    | fails left e' => exact .inside hinside

/-- What a call asks keeps the order of `submit_review`. -/
theorem Inside.asks (h : Inside b r W A) : Asks b r A := by
  cases h with
  | reserved hasks => exact hasks
  | accepted hcurrent hchecks _ => exact .review hcurrent hchecks _

theorem Over.asks {strict : Bool} (h : Over b strict r W A) : Asks b r A := by
  cases h with
  | nothing => exact .nothing
  | inside h => exact h.asks
  | handled h _ _ => exact h.asks

theorem Local.asks {strict : Bool} {phase : Phase V} (h : Local b strict r phase W A) :
    Asks b r A := h.over.asks

/-- A call that has asked anything has reserved its request. -/
theorem Over.wrote {strict : Bool} (h : Over b strict r W A) (hA : A ≠ []) : W ≠ [] := by
  cases h with
  | nothing => exact absurd rfl hA
  | inside h =>
    cases h with
    | reserved _ => exact List.cons_ne_nil _ _
    | accepted _ _ _ => exact List.cons_ne_nil _ _
  | handled _ _ _ => exact List.cons_ne_nil _ _

end Review

end SkCoord
