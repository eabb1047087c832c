import SkCoord.Review.Equiv.Submit

/-!
# The head of a review

A review is attached to the head of the moment, which is the requested one exactly when no push has
moved it since the call looked (`review_exact_head_iff`); without a push between the two it has not
(`headUnmoved_of_no_push`).
-/

namespace SkCoord

open Python

namespace Review

variable {V : Type} {b : Broker V}

/-! ### The head of a review -/

/-- Where a call makes GitHub create its review, the pull request still has the head that
`pull_request` reported to this call. -/
def HeadUnmoved (b : Broker V) (s : System V) : Label b → Prop
  | .step i (.submit _ true) => ∀ c current, s.calls[i]? = some c → c.phase = .submitting →
      Asked.pullRequest (.ok current) ∈ s.askedBy i →
      b.objects.strField current "head_sha" =
        .ok (s.heads c.request.repository c.request.pullRequest)
  | _ => True

/-- The review is attached to the requested head. -/
def CreatedReview.Exact (review : CreatedReview) : Prop := review.commit = review.request.head

/-- A call before its review has seen the requested head. -/
theorem Safe.submitting {strict : Bool} {s : System V} (h : Safe b strict s) {i : ℕ} {c : Call V}
    (hc : s.calls[i]? = some c) (hphase : c.phase = .submitting) :
    ∃ current, Asked.pullRequest (.ok current) ∈ s.askedBy i ∧
      b.objects.strField current "head_sha" = .ok c.request.head ∧
      ∀ current', Asked.pullRequest (.ok current') ∈ s.askedBy i → current' = current := by
  have hlocal := h.calls i c hc
  rw [hphase] at hlocal
  obtain ⟨-, current, checks, hA, hcurrent, -⟩ := hlocal
  refine ⟨current, ?_, (verifyPull_eq_ok hcurrent).1, fun current' hmem => ?_⟩
  · rw [hA]
    exact List.mem_cons_of_mem _ List.mem_cons_self
  · rw [hA] at hmem
    rcases List.mem_cons.mp hmem with heq | hmem
    · cases heq
    · cases List.mem_singleton.mp hmem
      rfl

/-- A review is created by a request for one: no other phase of a call makes a move that creates. -/
theorem created_iff {audit : List Char} {free : Bool} {c : Call V} {st : Step b} {m : Move V}
    (hm : c.next b audit free st = some m) :
    m.created = true ↔ ∃ answer, st = .submit answer true ∧ c.phase = .submitting := by
  have hturn := Call.next_turn hm
  obtain ⟨r, phase⟩ := c
  dsimp only at hturn ⊢
  have hother : m.created = false → (∀ answer, st ≠ .submit answer true) →
      (m.created = true ↔ ∃ answer, st = .submit answer true ∧ phase = .submitting) := by
    intro hfalse hne
    rw [hfalse]
    exact ⟨nofun, fun ⟨answer, heq, _⟩ => absurd heq (hne answer)⟩
  -- A move that writes to the audit file creates nothing.
  have hwrite : ∀ (record : Dict) (next : Phase V) (failed : Exc → Phase V) (w : Write),
      (Move.write b record next failed w).created = false := by
    intro record next failed w
    cases w <;> rfl
  cases hturn with
  | submitFails _ created | submit _ created =>
    -- The request: the service creates a review or not, whatever it answers.
    constructor
    · rintro rfl
      exact ⟨_, rfl, rfl⟩
    · rintro ⟨answer, heq, -⟩
      cases heq
      rfl
  | reserve _ w | accept w _ | handle w _ => exact hother (hwrite _ _ _ w) nofun
  | _ => exact hother rfl nofun

/-- A call before its review can ask for it. -/
theorem next_submit {audit : List Char} {free : Bool} {c : Call V} (hphase : c.phase = .submitting)
    (answer : Except Exc V) (created : Bool) :
    ∃ m, c.next b audit free (.submit answer created) = some m := by
  obtain ⟨r, phase⟩ := c
  cases hphase
  cases answer with
  | error e => exact ⟨_, rfl⟩
  | ok response => exact ⟨_, rfl⟩

/-- Only a review that is created moves the condition. -/
theorem headUnmoved_of_not_created {s : System V} {i : ℕ} {st : Step b}
    (h : ∀ c answer, s.calls[i]? = some c → st = .submit answer true → c.phase ≠ .submitting) :
    HeadUnmoved b s (.step i st) := by
  unfold HeadUnmoved
  split
  · rename_i j answer heq
    cases heq
    exact fun c current hc hphase => absurd hphase (h c answer hc rfl)
  · trivial

/-- The reviews behind a label are exact if those before are and the head has not moved. Only a
request for a review adds one, and its call has the head it verified in the phase. -/
theorem exact_step_iff {strict : Bool} {s : System V} (h : Safe b strict s) (label : Label b) :
    (∀ review ∈ (s.step b label).reviews, review.Exact) ↔
      HeadUnmoved b s label ∧ ∀ review ∈ s.reviews, review.Exact := by
  cases label with
  | call request uuid => exact ⟨fun hexact => ⟨trivial, hexact⟩, And.right⟩
  | push repository number sha => exact ⟨fun hexact => ⟨trivial, hexact⟩, And.right⟩
  | die i left =>
    have hreviews : (s.step b (.die i left)).reviews = s.reviews := by
      unfold System.step
      dsimp only
      split
      · rfl
      · split
        · rfl
        · rfl
    rw [hreviews]
    exact ⟨fun hexact => ⟨trivial, hexact⟩, And.right⟩
  | step i st =>
    cases hc : s.calls[i]? with
    | none =>
      have hsame : s.step b (.step i st) = s := by
        unfold System.step
        dsimp only
        rw [hc]
      have hmoved : HeadUnmoved b s (.step i st) :=
        headUnmoved_of_not_created fun c answer hc' => by
          rw [hc] at hc'
          cases hc'
      rw [hsame]
      exact ⟨fun hexact => ⟨hmoved, hexact⟩, And.right⟩
    | some c =>
      cases hm : c.next b s.audit s.free st with
      | none =>
        have hsame : s.step b (.step i st) = s := by
          unfold System.step
          dsimp only
          rw [hc]
          dsimp only
          rw [hm]
        have hmoved : HeadUnmoved b s (.step i st) := by
          refine headUnmoved_of_not_created fun c' answer hc' hst hphase => ?_
          rw [hc] at hc'
          cases hc'
          obtain ⟨m, hsome⟩ := @next_submit _ b s.audit s.free c hphase answer true
          rw [hst] at hm
          cases hm.symm.trans hsome
        rw [hsame]
        exact ⟨fun hexact => ⟨hmoved, hexact⟩, And.right⟩
      | some m =>
        rw [step_of_next hc hm]
        by_cases hcreated : m.created = true
        · obtain ⟨answer, rfl, hphase⟩ := (created_iff hm).mp hcreated
          -- The call is between its check and its request: the new review is exact if the head is
          -- still the checked one.
          obtain ⟨current, hcurrent, hhead, honly⟩ := h.submitting hc hphase
          have hreviews : (s.apply i c m).reviews =
              ⟨c.request, s.heads c.request.repository c.request.pullRequest⟩ :: s.reviews := by
            show (if m.created then _ else _) = _
            rw [hcreated]
            rfl
          rw [hreviews, List.forall_mem_cons]
          refine and_congr_left fun _ => ⟨fun hexact c' current' hc' _ hmem => ?_, fun hmoved => ?_⟩
          · rw [hc] at hc'
            cases hc'
            rw [honly current' hmem, hhead]
            exact congrArg Except.ok (Eq.symm hexact)
          · have hsame := hmoved c current hc hphase hcurrent
            rw [hhead] at hsame
            exact (Except.ok.inj hsame).symm
        · -- No other move adds a review.
          have hreviews : (s.apply i c m).reviews = s.reviews := if_neg hcreated
          have hmoved : HeadUnmoved b s (.step i st) := by
            refine headUnmoved_of_not_created fun c' answer hc' hst hphase => ?_
            rw [hc] at hc'
            cases hc'
            exact hcreated ((created_iff hm).mpr ⟨answer, hst, hphase⟩)
          rw [hreviews]
          exact ⟨fun hexact => ⟨hmoved, hexact⟩, And.right⟩

theorem exact_run_iff {strict : Bool} : ∀ (labels : List (Label b)) {s : System V},
    Safe b strict s → (strict = true → s.StepsMeet b (RaisesNoValue b) labels) →
      ((∀ review ∈ (s.run b labels).reviews, review.Exact) ↔
        s.StepsMeet b (HeadUnmoved b) labels ∧ ∀ review ∈ s.reviews, review.Exact)
  | [], s, _, _ => ⟨fun hexact => ⟨trivial, hexact⟩, And.right⟩
  | label :: labels, s, h, hmeet => by
    have hstep := h.step label fun hstrict => (hmeet hstrict).1
    have hrest := exact_run_iff labels hstep fun hstrict => (hmeet hstrict).2
    show (∀ review ∈ ((s.step b label).run b labels).reviews, review.Exact) ↔ _
    rw [hrest, exact_step_iff h label]
    show _ ↔ (HeadUnmoved b s label ∧ (s.step b label).StepsMeet b (HeadUnmoved b) labels) ∧ _
    exact ⟨fun ⟨hlater, hnow, hexact⟩ => ⟨⟨hnow, hlater⟩, hexact⟩,
      fun ⟨⟨hnow, hlater⟩, hexact⟩ => ⟨hlater, hnow, hexact⟩⟩

/-- **Exact heads.**  In a run every review is attached to the head named in its request exactly
when no review is created while its pull request has another head than `pull_request` reported. -/
theorem review_exact_head_iff (b : Broker V) (audit : List Char) (heads : String → ℤ → String)
    (labels : List (Label b)) :
    (∀ review ∈ ((System.start audit heads).run b labels).reviews, review.Exact) ↔
      (System.start audit heads).StepsMeet b (HeadUnmoved b) labels := by
  rw [exact_run_iff labels (@safe_start V b false audit heads) nofun]
  exact ⟨And.left, fun h => ⟨h, fun review hreview => by cases hreview⟩⟩

/-! ### Pushes -/

/-- A call stands between `pull_request` and `create_review`. -/
def Phase.between : Phase V → Bool
  | .checking => true
  | .submitting => true
  | _ => false

/-- `pull_request` reports the head of the moment. -/
def ReportsHead (b : Broker V) (s : System V) : Label b → Prop
  | .step i (.view (.ok current)) => ∀ c, s.calls[i]? = some c →
      b.objects.strField current "head_sha" =
        .ok (s.heads c.request.repository c.request.pullRequest)
  | _ => True

/-- No push moves the pull request of a call away from the requested head while the call stands
between `pull_request` and `create_review`. -/
def NoPushBetween (b : Broker V) (s : System V) : Label b → Prop
  | .push repository number sha => ∀ (i : ℕ) (c : Call V), s.calls[i]? = some c →
      c.phase.between = true → c.request.repository = repository → c.request.pullRequest = number →
        sha = c.request.head
  | _ => True

/-- Every call between the two sees its head. -/
def SeesHead (s : System V) : Prop :=
  ∀ (i : ℕ) (c : Call V), s.calls[i]? = some c → c.phase.between = true →
    s.heads c.request.repository c.request.pullRequest = c.request.head

/-- How a call comes between the two, the check of the head and the request: by the answer that
passes the check, or it was there already. -/
theorem next_between {audit : List Char} {free : Bool} {c : Call V} {st : Step b} {m : Move V}
    (hm : c.next b audit free st = some m) (hbetween : m.phase.between = true) :
    (∃ current, st = .view (.ok current) ∧ b.verifyPull c.request current = .ok ()) ∨
      c.phase.between = true := by
  have hturn := Call.next_turn hm
  obtain ⟨r, phase⟩ := c
  dsimp only at hturn ⊢
  -- A move that writes to the audit file leads to a phase outside.
  have hwrite : ∀ (record : Dict) (next : Phase V) (failed : Exc → Phase V) (w : Write),
      next.between = false → (∀ e, (failed e).between = false) →
        (Move.write b record next failed w).phase.between = false := by
    intro record next failed w hnext hfailed
    cases w with
    | done => exact hnext
    | unsynced e => exact hfailed e
    | fails left e => exact hfailed e
  cases hturn with
  | @view current hverify => exact .inl ⟨current, rfl, hverify⟩
  | check _ => exact .inr rfl
  | reserve _ w | accept w _ | handle w _ =>
    rw [hwrite _ _ _ w rfl fun _ => rfl] at hbetween
    cases hbetween
  | _ => cases hbetween

theorem SeesHead.step {s : System V} (h : SeesHead s) (label : Label b)
    (hreports : ReportsHead b s label) (hpush : NoPushBetween b s label) :
    SeesHead (s.step b label) := by
  cases label with
  | call request uuid =>
    intro i c hc hbetween
    have hmem : s.calls[i]? = some c ∨ c.phase = .called := by
      rcases Nat.lt_or_ge i s.calls.length with hlt | hge
      · exact .inl ((List.getElem?_append_left hlt).symm.trans hc)
      · refine .inr ?_
        have hnew : c ∈ [({ request := if request.requestId = "" then
            { request with requestId := uuid } else request } : Call V)] :=
          List.mem_of_getElem? ((List.getElem?_append_right hge).symm.trans hc)
        rw [List.mem_singleton.mp hnew]
    rcases hmem with hold | hcalled
    · exact h i c hold hbetween
    · rw [hcalled] at hbetween
      cases hbetween
  | push repository number sha =>
    intro i c hc hbetween
    show (if c.request.repository = repository ∧ c.request.pullRequest = number then sha else
      s.heads c.request.repository c.request.pullRequest) = _
    split
    · rename_i hsame
      exact hpush i c hc hbetween hsame.1 hsame.2
    · exact h i c hc hbetween
  | die i left =>
    unfold System.step
    dsimp only
    split
    · exact h
    · rename_i c hc
      split
      · exact h
      · intro j d hd hbetween
        rcases calls_apply hc hd with ⟨-, rfl⟩ | ⟨-, hd⟩
        · cases hbetween
        · exact h j d hd hbetween
  | step i st =>
    unfold System.step
    dsimp only
    split
    · exact h
    · rename_i c hc
      split
      · exact h
      · rename_i m hm
        intro j d hd hbetween
        rcases calls_apply hc hd with ⟨-, rfl⟩ | ⟨-, hd⟩
        · rcases next_between hm hbetween with ⟨current, rfl, hverify⟩ | hbefore
          · -- what the call has seen is the head of the moment and the requested one
            have hseen := (verifyPull_eq_ok hverify).1.symm.trans (hreports c hc)
            exact (Except.ok.inj hseen).symm
          · exact h i c hc hbefore
        · exact h j d hd hbetween

/-- Without such a push, and if `pull_request` reports the head of the moment, no head has moved. -/
theorem headUnmoved_of_no_push {strict : Bool} : ∀ (labels : List (Label b)) {s : System V},
    Safe b strict s → (strict = true → s.StepsMeet b (RaisesNoValue b) labels) → SeesHead s →
      s.StepsMeet b (fun s label => ReportsHead b s label ∧ NoPushBetween b s label) labels →
        s.StepsMeet b (HeadUnmoved b) labels
  | [], s, _, _, _, _ => trivial
  | label :: labels, s, h, hmeet, hsees, hlabels => by
    obtain ⟨⟨hreports, hpush⟩, hrest⟩ := hlabels
    refine ⟨?_, headUnmoved_of_no_push labels (h.step label fun hstrict => (hmeet hstrict).1)
      (fun hstrict => (hmeet hstrict).2) (hsees.step label hreports hpush) hrest⟩
    unfold HeadUnmoved
    split
    · intro c current hc hphase hmem
      obtain ⟨current', -, hhead, honly⟩ := h.submitting hc hphase
      rw [honly current hmem, hhead]
      have hbetween : c.phase.between = true := by
        rw [hphase]
        rfl
      exact congrArg Except.ok (hsees _ c hc hbetween).symm
    · trivial

/-- No step of a call moves a head. -/
theorem heads_step (s : System V) (i : ℕ) (st : Step b) :
    (s.step b (.step i st)).heads = s.heads := by
  unfold System.step
  dsimp only
  split
  · rfl
  · split
    · rfl
    · rfl

/-- The labels of a call whose pull request moves before its review. -/
def pushedLabels : List (Label sampleBroker) :=
  sampleLabels ++ [.push "o/r" 1 (hexText 39 ++ "b"), .step 0 (.submit (.ok (.obj [])) true)]

/-- The review is attached to the head that was pushed behind the checks. -/
theorem review_of_pushed_head :
    (System.start [] fun _ _ => hexText 40).StepsMeet sampleBroker (ReportsHead sampleBroker)
      pushedLabels ∧
    ∃ review ∈ ((System.start [] fun _ _ => hexText 40).run sampleBroker pushedLabels).reviews,
      ¬review.Exact := by
  constructor
  · refine ⟨trivial, trivial, trivial, trivial, trivial, fun c _ => ?_, trivial, trivial, trivial,
      trivial⟩
    rw [heads_step, heads_step, heads_step, heads_step]
    rfl
  · unfold pushedLabels
    rw [run_append, run_sampleLabels]
    refine ⟨⟨sampleRequest, hexText 39 ++ "b"⟩, List.mem_cons_self, fun hexact => ?_⟩
    have hne : hexText 39 ++ "b" ≠ hexText 40 := by decide +kernel
    exact hne hexact

end Review

end SkCoord
