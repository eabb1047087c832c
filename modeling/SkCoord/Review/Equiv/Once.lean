import SkCoord.Python.Except
import SkCoord.Review.Equiv.Calls

/-!
# At most one review for a request

A reservation whose line has been written refuses its request from then on, whatever is written
behind it (`Reserved.append`, `Reserved.scan`): its line is read back, or the audit file is corrupt.
`Safe` holds in every state of a run (`Safe.run`): one call holds the lock, two calls that have
written have different requests, and no request is sent twice (`review_at_most_once`).
-/

namespace SkCoord

open Python

namespace Review

variable {V : Type} {b : Broker V} {audit : List Char} {requestId : String}

/-! ### The audit file -/

/-- A line that no call with this request gets past. -/
def Refuses (b : Broker V) (requestId : String) (line : List Char) : Prop :=
  ∀ v, Json.loads b.floats line = some v → ∃ record, v = .obj record ∧
    ∀ outcome, (Broker.outcomeAfter requestId outcome record).isSome = true

/-- A line of the audit file with its newline refuses this request. -/
def Reserved (b : Broker V) (audit : List Char) (requestId : String) : Prop :=
  ∃ pre post, audit = pre ++ '\n' :: post ∧
    ∃ line ∈ fileLines (pre ++ ['\n']), Refuses b requestId line

/-- Nothing that is written behind it takes the refusal back. -/
theorem Reserved.append (h : Reserved b audit requestId) (text : List Char) :
    Reserved b (audit ++ text) requestId := by
  obtain ⟨pre, post, rfl, hline⟩ := h
  exact ⟨pre, post ++ text, by rw [List.append_assoc, List.cons_append], hline⟩

theorem outcomeAfter_isSome {outcome : Option String} (h : outcome.isSome = true) (record : Dict) :
    (Broker.outcomeAfter requestId outcome record).isSome = true := by
  unfold Broker.outcomeAfter
  split
  · split
    · rfl
    · split
      · split
        · split
          · rfl
          · rfl
        · rfl
      · exact h
  · exact h

/-- An outcome stays one, and a record of the request makes one. -/
theorem priorOutcome_isSome : ∀ {records : List Json} {outcome outcome' : Option String},
    Broker.priorOutcome requestId records outcome = .ok outcome' →
      (outcome.isSome = true ∨ ∃ record, Json.obj record ∈ records ∧
        ∀ o, (Broker.outcomeAfter requestId o record).isSome = true) →
      outcome'.isSome = true
  | [], outcome, outcome', h, hsome => by
    cases h
    rcases hsome with hsome | ⟨record, hmem, -⟩
    · exact hsome
    · cases hmem
  | .obj record :: records, outcome, outcome', h, hsome => by
    refine @priorOutcome_isSome records _ _ h ?_
    rcases hsome with hsome | ⟨record', hmem, hsome⟩
    · exact .inl (outcomeAfter_isSome hsome record)
    · rcases List.mem_cons.mp hmem with heq | hmem
      · cases heq
        exact .inl (hsome outcome)
      · exact .inr ⟨record', hmem, hsome⟩
  | .null :: _, _, _, h, _ => by cases h
  | .bool _ :: _, _, _, h, _ => by cases h
  | .int _ :: _, _, _, h, _ => by cases h
  | .float _ :: _, _, _, h, _ => by cases h
  | .str _ :: _, _, _, h, _ => by cases h
  | .arr _ :: _, _, _, h, _ => by cases h

theorem mem_of_mapM_option {α β : Type} {f : α → Option β} :
    ∀ {l : List α} {m : List β}, l.mapM f = some m → ∀ a ∈ l, ∃ v ∈ m, f a = some v
  | [], m, h, a, ha => by cases ha
  | x :: l, m, h, a, ha => by
    rw [List.mapM_cons] at h
    simp only [Option.bind_eq_bind, Option.bind_eq_some_iff] at h
    obtain ⟨v, hv, vs, hvs, h⟩ := h
    cases h
    rcases List.mem_cons.mp ha with rfl | ha
    · exact ⟨v, List.mem_cons_self, hv⟩
    · obtain ⟨v', hmem, hv'⟩ := mem_of_mapM_option hvs a ha
      exact ⟨v', List.mem_cons_of_mem v hmem, hv'⟩

/-- What a scan that goes on has read. -/
theorem scan_eq_ok {outcome : Option String} (h : b.scan audit requestId = .ok outcome) :
    ∃ records, (fileLines audit).mapM (Json.loads b.floats) = some records ∧
      Broker.priorOutcome requestId records none = .ok outcome := by
  unfold Broker.scan at h
  split at h
  · cases h
  · rename_i records hrecords
    exact ⟨records, hrecords, h⟩

/-- **A refused request** does not get past the scan. -/
theorem Reserved.scan (h : Reserved b audit requestId) : b.scan audit requestId ≠ .ok none := by
  intro hscan
  obtain ⟨pre, post, rfl, line, hline, hrefuses⟩ := h
  obtain ⟨records, hrecords, hprior⟩ := scan_eq_ok hscan
  have hmem : line ∈ fileLines (pre ++ '\n' :: post) := by
    rw [fileLines_append]
    exact List.mem_append_left _ hline
  obtain ⟨v, hv, hloads⟩ := mem_of_mapM_option hrecords line hmem
  obtain ⟨record, rfl, hsome⟩ := hrefuses v hloads
  have houtcome := priorOutcome_isSome hprior (.inr ⟨record, hv, hsome⟩)
  cases houtcome

/-- A text of a record stands in the sorted record. -/
theorem get_sorted {d : Dict} (hd : (Assoc.keys d).Nodup) {key value : String}
    (hmem : (key, Json.str value) ∈ d) :
    Dict.get ((Json.sortFields d).insertionSort fun p q => p.1 ≤ q.1) key = .str value := by
  have hperm := List.perm_insertionSort (fun p q : String × Json => p.1 ≤ q.1) (Json.sortFields d)
  have hsorted : (key, Json.str value) ∈ Json.sortFields d := by
    clear hperm hd
    induction d with
    | nil => cases hmem
    | cons p d ih =>
      rcases List.mem_cons.mp hmem with rfl | hmem
      · exact List.mem_cons_self
      · exact List.mem_cons_of_mem _ (ih hmem)
  have hnodup : (Assoc.keys ((Json.sortFields d).insertionSort fun p q => p.1 ≤ q.1)).Nodup := by
    have hkeys := hperm.map Prod.fst
    rw [show (Json.sortFields d).map Prod.fst = Assoc.keys d from Json.keys_sortFields d] at hkeys
    exact hkeys.nodup_iff.mpr hd
  unfold Dict.get
  rw [Assoc.get?_of_mem hnodup (hperm.mem_iff.mpr hsorted)]
  rfl

section

variable {r : ReviewRequest} {digest : String} {now : b.Time}

theorem reservation_wellFormed : (Json.obj (b.reservation r digest now)).WellFormed b.floats := by
  refine ⟨?_, Json.fieldsWellFormed_iff.mpr ?_⟩
  · show ["type", "state", "request_id", "caller", "repository", "pull_request", "head",
      "evidence_hash", "preflight_hash", "preflight_digest", "decision", "reviewer",
      "timestamp"].Nodup
    decide
  · intro p hp
    simp only [Broker.reservation, List.mem_cons, List.not_mem_nil, or_false] at hp
    rcases hp with rfl | rfl | rfl | rfl | rfl | rfl | rfl | rfl | rfl | rfl | rfl | rfl | rfl
    all_goals first | exact trivial | exact now.2

/-- **A reservation** behind a scan that went on refuses its request. -/
theorem reserved_of_scan (h : b.scan audit r.requestId = .ok none) :
    Reserved b (audit ++ b.recordLine (b.reservation r digest now)) r.requestId := by
  obtain ⟨records, hrecords, -⟩ := scan_eq_ok h
  have hclean : ∀ line ∈ fileLines audit, Json.loads b.floats line ≠ none := by
    intro line hline hnone
    obtain ⟨v, -, hloads⟩ := mem_of_mapM_option hrecords line hline
    cases hnone.symm.trans hloads
  have hwell := @reservation_wellFormed V b r digest now
  obtain ⟨line, hline, hrecord⟩ := exists_record_line (y := .compact)
    (show (Json.obj _).WellFormed b.floats from hwell.sortKeys) hclean
  refine ⟨audit ++ (Json.obj (b.reservation r digest now)).canonical b.floats, [], ?_, line, ?_,
    fun v hv => ⟨_, hrecord v hv, fun outcome => ?_⟩⟩
  · unfold Broker.recordLine
    rw [List.append_assoc]
  · exact hline
  · have hid : (Dict.get ((Json.sortFields (b.reservation r digest now)).insertionSort
        fun p q => p.1 ≤ q.1) "request_id") = .str r.requestId :=
      get_sorted hwell.1 (by simp [Broker.reservation])
    have htype : (Dict.get ((Json.sortFields (b.reservation r digest now)).insertionSort
        fun p q => p.1 ≤ q.1) "type") = .str "github_review_reservation" :=
      get_sorted hwell.1 (by simp [Broker.reservation])
    unfold Broker.outcomeAfter
    rw [hid, htype, if_pos (Json.pyEq_refl _), if_pos (Json.pyEq_refl _)]
    rfl

end

/-! ### What every call keeps -/

/-- The records that a call has written, the latest first. -/
def System.writtenBy (s : System V) (i : ℕ) : List Dict :=
  (s.written.filter fun p => p.1 == i).map Prod.snd

/-- What a call has asked of GitHub, the latest first. -/
def System.askedBy (s : System V) (i : ℕ) : List (Asked V) :=
  (s.sent.filter fun x => x.call == i).map Sent.asked

/-- The request that a `create_review` was sent for. -/
def Sent.createsFor (x : Sent V) : Option String :=
  match x.asked with
  | .createReview _ => some x.request.requestId
  | _ => none

/-- What holds between the calls of a system: one transaction at a time, and what a call has written
is where every later call with its identifier finds it. -/
structure Safe (b : Broker V) (strict : Bool) (s : System V) : Prop where
  exclusive : ∀ (i j : ℕ) (c d : Call V), s.calls[i]? = some c → s.calls[j]? = some d →
    c.phase.inTransaction = true → d.phase.inTransaction = true → i = j
  calls : ∀ (i : ℕ) (c : Call V), s.calls[i]? = some c →
    Local b strict c.request c.phase (s.writtenBy i) (s.askedBy i)
  fresh : ∀ i : ℕ, s.calls.length ≤ i → s.writtenBy i = [] ∧ s.askedBy i = []
  reserving : ∀ (i : ℕ) (c : Call V) (digest : String), s.calls[i]? = some c → c.phase = .reserving digest →
    b.scan s.audit c.request.requestId = .ok none
  reserved : ∀ (i : ℕ) (c : Call V), s.calls[i]? = some c → s.writtenBy i ≠ [] →
    Reserved b s.audit c.request.requestId
  unique : ∀ (i j : ℕ) (c d : Call V), s.calls[i]? = some c → s.calls[j]? = some d → s.writtenBy i ≠ [] →
    s.writtenBy j ≠ [] → c.request.requestId = d.request.requestId → i = j
  requests : ∀ x ∈ s.sent, ∃ c, s.calls[x.call]? = some c ∧ c.request = x.request
  once : (s.sent.filterMap Sent.createsFor).Nodup

section

variable {s : System V} {i j : ℕ} {c : Call V} {m : Move V}

theorem writtenBy_apply_self :
    (s.apply i c m).writtenBy i = m.record.toList ++ s.writtenBy i := by
  unfold System.writtenBy System.apply
  cases m.record with
  | none => rfl
  | some record => simp

theorem writtenBy_apply_ne (h : j ≠ i) : (s.apply i c m).writtenBy j = s.writtenBy j := by
  unfold System.writtenBy System.apply
  cases m.record with
  | none => rfl
  | some record => simp [h.symm]

theorem askedBy_apply_self : (s.apply i c m).askedBy i = m.asked.toList ++ s.askedBy i := by
  unfold System.askedBy System.apply
  cases m.asked with
  | none => rfl
  | some asked => simp

theorem askedBy_apply_ne (h : j ≠ i) : (s.apply i c m).askedBy j = s.askedBy j := by
  unfold System.askedBy System.apply
  cases m.asked with
  | none => rfl
  | some asked => simp [h.symm]

theorem calls_apply_self (hc : s.calls[i]? = some c) :
    (s.apply i c m).calls[i]? = some { c with phase := m.phase } := by
  have hlt : i < s.calls.length := (List.getElem?_eq_some_iff.mp hc).1
  show (s.calls.set i _)[i]? = _
  rw [List.getElem?_set_self hlt]

theorem calls_apply_ne (h : j ≠ i) : (s.apply i c m).calls[j]? = s.calls[j]? :=
  List.getElem?_set_ne h.symm

/-- A call behind a step. -/
theorem calls_apply (hc : s.calls[i]? = some c) {d : Call V}
    (hd : (s.apply i c m).calls[j]? = some d) :
    j = i ∧ d = { c with phase := m.phase } ∨ j ≠ i ∧ s.calls[j]? = some d := by
  by_cases h : j = i
  · rw [h, calls_apply_self hc] at hd
    exact .inl ⟨h, (Option.some.inj hd).symm⟩
  · rw [calls_apply_ne h] at hd
    exact .inr ⟨h, hd⟩

end

/-- What a step of a call is, from the point of view of the others. -/
structure Sound (b : Broker V) (strict : Bool) (s : System V) (i : ℕ) (c : Call V) (m : Move V) :
    Prop where
  next : Local b strict c.request m.phase (m.record.toList ++ s.writtenBy i)
    (m.asked.toList ++ s.askedBy i)
  lock : m.phase.inTransaction = true → c.phase.inTransaction = true ∨ s.free = true
  text : m.text ≠ [] → c.phase.inTransaction = true
  reserving : ∀ digest, m.phase = .reserving digest →
    m.text = [] ∧ b.scan s.audit c.request.requestId = .ok none
  first : m.record ≠ none → s.writtenBy i = [] →
    ∃ digest digest' now, c.phase = .reserving digest ∧
      m.text = b.recordLine (b.reservation c.request digest' now)

theorem free_iff {s : System V} : s.free = true ↔
    ∀ (i : ℕ) (c : Call V), s.calls[i]? = some c → c.phase.inTransaction = false := by
  unfold System.free
  rw [List.all_eq_true]
  constructor
  · intro h i c hc
    have hfree := h c (List.mem_of_getElem? hc)
    rwa [Bool.not_eq_true'] at hfree
  · intro h c hc
    obtain ⟨i, hi⟩ := List.getElem?_of_mem hc
    rw [h i c hi]
    rfl

/-- An asked review is the last thing that a call asks. -/
theorem Asks.not_submitted {r : ReviewRequest} {A : List (Asked V)} {x : Asked V}
    (h : Asks b r (x :: A)) : ¬Submitted A := by
  rintro ⟨answer, hmem⟩
  cases h with
  | pull _ => cases hmem
  | checks _ _ => cases List.mem_singleton.mp hmem
  | review _ _ _ =>
    rcases List.mem_cons.mp hmem with heq | hmem
    · cases heq
    · cases List.mem_singleton.mp hmem

theorem mem_askedBy {s : System V} {x : Sent V} (h : x ∈ s.sent) : x.asked ∈ s.askedBy x.call :=
  List.mem_map.mpr ⟨x, List.mem_filter.mpr ⟨h, beq_self_eq_true x.call⟩, rfl⟩

/-- **A sound step** keeps the system safe. -/
theorem Safe.apply {strict : Bool} {s : System V} {i : ℕ} {c : Call V} {m : Move V}
    (h : Safe b strict s) (hc : s.calls[i]? = some c) (hm : Sound b strict s i c m) :
    Safe b strict (s.apply i c m) := by
  have haudit : (s.apply i c m).audit = s.audit ++ m.text := rfl
  -- only the call that holds the lock writes
  have hother : ∀ (j : ℕ) (d : Call V), j ≠ i → s.calls[j]? = some d → d.phase.inTransaction = true →
      m.text = [] := by
    intro j d hne hd hin
    by_contra htext
    exact hne (h.exclusive j i d c hd hc hin (hm.text htext))
  have hreserved : ∀ (j : ℕ) (d : Call V), (s.apply i c m).calls[j]? = some d → (s.apply i c m).writtenBy j ≠ [] →
      Reserved b (s.apply i c m).audit d.request.requestId := by
    intro j d hd hwritten
    rw [haudit]
    rcases calls_apply hc hd with ⟨rfl, rfl⟩ | ⟨hne, hd⟩
    · by_cases hold : s.writtenBy j = []
      · rw [writtenBy_apply_self, hold, List.append_nil] at hwritten
        have hrecord : m.record ≠ none := by
          rintro hnone
          rw [hnone] at hwritten
          exact hwritten rfl
        obtain ⟨digest, digest', now, hphase, htext⟩ := hm.first hrecord hold
        rw [htext]
        exact reserved_of_scan (h.reserving j c digest hc hphase)
      · exact (h.reserved j c hc hold).append m.text
    · rw [writtenBy_apply_ne hne] at hwritten
      exact (h.reserved j d hd hwritten).append m.text
  have hfirst : ∀ (j : ℕ) (d : Call V), j ≠ i → s.calls[j]? = some d → s.writtenBy j ≠ [] →
      (s.apply i c m).writtenBy i ≠ [] → d.request.requestId ≠ c.request.requestId := by
    intro j d hne hd hwritten hnew heq
    by_cases hold : s.writtenBy i = []
    · rw [writtenBy_apply_self, hold, List.append_nil] at hnew
      have hrecord : m.record ≠ none := by
        rintro hnone
        rw [hnone] at hnew
        exact hnew rfl
      obtain ⟨digest, -, -, hphase, -⟩ := hm.first hrecord hold
      have hscan := h.reserving i c digest hc hphase
      rw [← heq] at hscan
      exact (h.reserved j d hd hwritten).scan hscan
    · exact hne (h.unique j i d c hd hc hwritten hold heq)
  refine ⟨?_, ?_, ?_, ?_, hreserved, ?_, ?_, ?_⟩
  · intro j k d e hd he hind hine
    rcases calls_apply hc hd with ⟨rfl, rfl⟩ | ⟨hj, hd₀⟩
    · rcases calls_apply hc he with ⟨rfl, -⟩ | ⟨hk, he⟩
      · rfl
      · rcases hm.lock hind with hin | hfree
        · exact h.exclusive j k c e hc he hin hine
        · rw [free_iff.mp hfree k e he] at hine
          cases hine
    · rcases calls_apply hc he with ⟨rfl, rfl⟩ | ⟨hk, he⟩
      · rcases hm.lock hine with hin | hfree
        · exact h.exclusive j k d c hd₀ hc hind hin
        · rw [free_iff.mp hfree j d hd₀] at hind
          cases hind
      · exact h.exclusive j k d e hd₀ he hind hine
  · intro j d hd
    rcases calls_apply hc hd with ⟨rfl, rfl⟩ | ⟨hne, hd⟩
    · rw [writtenBy_apply_self, askedBy_apply_self]
      exact hm.next
    · rw [writtenBy_apply_ne hne, askedBy_apply_ne hne]
      exact h.calls j d hd
  · intro j hj
    have hlt : i < s.calls.length := (List.getElem?_eq_some_iff.mp hc).1
    have hlength : (s.apply i c m).calls.length = s.calls.length := List.length_set
    rw [hlength] at hj
    have hne : j ≠ i := by omega
    rw [writtenBy_apply_ne hne, askedBy_apply_ne hne]
    exact h.fresh j hj
  · intro j d digest hd hphase
    rw [haudit]
    rcases calls_apply hc hd with ⟨rfl, rfl⟩ | ⟨hne, hd⟩
    · obtain ⟨htext, hscan⟩ := hm.reserving digest hphase
      rw [htext, List.append_nil]
      exact hscan
    · have hin : d.phase.inTransaction = true := by
        rw [hphase]
        rfl
      rw [hother j d hne hd hin, List.append_nil]
      exact h.reserving j d digest hd hphase
  · intro j k d e hd he hwj hwk hid
    rcases calls_apply hc hd with ⟨rfl, rfl⟩ | ⟨hj, hd₀⟩
    · rcases calls_apply hc he with ⟨rfl, -⟩ | ⟨hk, he⟩
      · rfl
      · rw [writtenBy_apply_ne hk] at hwk
        exact absurd hid.symm (hfirst k e hk he hwk hwj)
    · rw [writtenBy_apply_ne hj] at hwj
      rcases calls_apply hc he with ⟨rfl, rfl⟩ | ⟨hk, he⟩
      · exact absurd hid (hfirst j d hj hd₀ hwj hwk)
      · rw [writtenBy_apply_ne hk] at hwk
        exact h.unique j k d e hd₀ he hwj hwk hid
  · intro x hx
    have hold : ∀ x ∈ s.sent, ∃ d, (s.apply i c m).calls[x.call]? = some d ∧
        d.request = x.request := by
      intro x hx
      obtain ⟨d, hd, hrequest⟩ := h.requests x hx
      by_cases heq : x.call = i
      · rw [heq] at hd ⊢
        cases hc.symm.trans hd
        exact ⟨_, calls_apply_self hc, hrequest⟩
      · exact ⟨d, (calls_apply_ne heq).trans hd, hrequest⟩
    rcases List.mem_append.mp hx with hx | hx
    · obtain ⟨a, -, rfl⟩ := List.mem_map.mp hx
      exact ⟨_, calls_apply_self hc, rfl⟩
    · exact hold x hx
  · show ((m.asked.toList.map (Sent.mk i c.request) ++ s.sent).filterMap Sent.createsFor).Nodup
    cases hasked : m.asked with
    | none => exact h.once
    | some a =>
      rw [Option.toList_some, List.map_singleton, List.singleton_append]
      cases hcreates : Sent.createsFor (Sent.mk i c.request a) with
      | none =>
        rw [List.filterMap_cons_none hcreates]
        exact h.once
      | some id =>
        rw [List.filterMap_cons_some hcreates, List.nodup_cons]
        refine ⟨fun hmem => ?_, h.once⟩
        obtain ⟨y, hy, hyid⟩ := List.mem_filterMap.mp hmem
        have hid : id = c.request.requestId := by
          unfold Sent.createsFor at hcreates
          split at hcreates
          · exact (Option.some.inj hcreates).symm
          · cases hcreates
        obtain ⟨answer, hanswer, hyrequest⟩ : ∃ answer, y.asked = .createReview answer ∧
            y.request.requestId = id := by
          unfold Sent.createsFor at hyid
          split at hyid
          · rename_i answer hanswer
            exact ⟨answer, hanswer, Option.some.inj hyid⟩
          · cases hyid
        obtain ⟨d, hd, hdrequest⟩ := h.requests y hy
        have hmemy : Asked.createReview answer ∈ s.askedBy y.call := hanswer ▸ mem_askedBy hy
        have hwrote : s.writtenBy y.call ≠ [] :=
          (h.calls y.call d hd).over.wrote (List.ne_nil_of_mem hmemy)
        have hnext := hm.next.asks
        rw [hasked] at hnext
        have hnot : ¬Submitted (s.askedBy i) := hnext.not_submitted
        have hne : y.call ≠ i := by
          intro heq
          rw [heq] at hmemy
          exact hnot ⟨answer, hmemy⟩
        have hnew : (s.apply i c m).writtenBy i ≠ [] := by
          rw [writtenBy_apply_self]
          refine hm.next.over.wrote ?_
          rw [hasked]
          exact List.cons_ne_nil _ _
        refine hfirst y.call d hne hd hwrote hnew ?_
        rw [hdrequest, hyrequest, hid]

/-! ### Steps and runs -/

/-- What a step needs of the lock and of the audit file. -/
structure Disciplined (b : Broker V) (audit : List Char) (free : Bool) (c : Call V) (m : Move V) :
    Prop where
  lock : m.phase.inTransaction = true → c.phase.inTransaction = true ∨ free = true
  text : m.text ≠ [] → c.phase.inTransaction = true
  reserving : ∀ digest, m.phase = .reserving digest →
    m.text = [] ∧ b.scan audit c.request.requestId = .ok none
  record : m.record ≠ none →
    (∃ digest digest' now, c.phase = .reserving digest ∧
      m.text = b.recordLine (b.reservation c.request digest' now)) ∨
    (∃ response, c.phase = .accepting response) ∨ ∃ e, c.phase = .handling e

/-- Every move of a call is disciplined, one phase of the call after another: it enters the
transaction with the lock, writes inside it only, and reserves only what the scan has not found. -/
theorem Call.next_disciplined {audit : List Char} {free : Bool} {c : Call V} {st : Step b}
    {m : Move V} (hm : c.next b audit free st = some m) : Disciplined b audit free c m := by
  have hturn := Call.next_turn hm
  obtain ⟨r, phase⟩ := c
  dsimp only at hturn
  -- What a move without a record has to keep, in the transaction and outside of it.
  have hquiet : ∀ {n : Move V}, n.text = [] → n.record = none →
      (n.phase.inTransaction = true → phase.inTransaction = true ∨ free = true) →
      (∀ digest, n.phase ≠ .reserving digest) → Disciplined b audit free ⟨r, phase⟩ n :=
    fun htext hrecord hlock hne => ⟨hlock, fun h => absurd htext h,
      fun digest heq => absurd heq (hne digest), fun h => absurd hrecord h⟩
  cases hturn with
  | refuse _ | wait _ | replay _ | give _ _ | reraise _ _ _ => exact hquiet rfl rfl nofun nofun
  | enter hfree => exact hquiet rfl rfl (fun _ => .inr hfree) nofun
  | fresh hscan =>
    -- The scan found nothing of this request, so the call goes on to reserve.
    exact ⟨fun _ => .inl rfl, fun h => absurd rfl h, fun _ _ => ⟨rfl, hscan⟩,
      fun h => absurd rfl h⟩
  | viewFails _ _ | view _ | checkFails _ _ | check _ | submitFails _ _ | submit _ _
  | acceptFails _ _ | giveFails _ => exact hquiet rfl rfl (fun _ => .inl rfl) nofun
  | @reserve digest now w =>
    cases w with
    | done =>
      exact ⟨fun _ => .inl rfl, fun _ => rfl, nofun,
        fun _ => .inl ⟨digest, digest, now, rfl, rfl⟩⟩
    | unsynced e =>
      exact ⟨nofun, fun _ => rfl, nofun, fun _ => .inl ⟨digest, digest, now, rfl, rfl⟩⟩
    | fails left e => exact ⟨nofun, fun _ => rfl, nofun, fun h => absurd rfl h⟩
  | @accept response now w record hrecord =>
    cases w with
    | done =>
      exact ⟨fun _ => .inl rfl, fun _ => rfl, nofun, fun _ => .inr (.inl ⟨response, rfl⟩)⟩
    | unsynced e =>
      exact ⟨fun _ => .inl rfl, fun _ => rfl, nofun, fun _ => .inr (.inl ⟨response, rfl⟩)⟩
    | fails left e => exact ⟨fun _ => .inl rfl, fun _ => rfl, nofun, fun h => absurd rfl h⟩
  | @handle now w e raised record hrecord =>
    cases w with
    | done => exact ⟨nofun, fun _ => rfl, nofun, fun _ => .inr (.inr ⟨e, rfl⟩)⟩
    | unsynced e' => exact ⟨nofun, fun _ => rfl, nofun, fun _ => .inr (.inr ⟨e, rfl⟩)⟩
    | fails left e' => exact ⟨nofun, fun _ => rfl, nofun, fun h => absurd rfl h⟩

section

variable {strict : Bool} {s : System V} {i : ℕ} {c : Call V}

theorem Safe.sound_next (h : Safe b strict s) (hc : s.calls[i]? = some c) {st : Step b} {m : Move V}
    (hm : c.next b s.audit s.free st = some m) (hst : strict = true → st.RaisesNoValue b c) :
    Sound b strict s i c m := by
  have hlocal := h.calls i c hc
  have hdis := Call.next_disciplined hm
  refine ⟨hlocal.next hm hst, hdis.lock, hdis.text, hdis.reserving, fun hrecord hnone => ?_⟩
  -- a result is written behind a reservation
  rcases hdis.record hrecord with hfirst | ⟨response, hphase⟩ | ⟨e, hphase⟩
  · exact hfirst
  · rw [hphase] at hlocal
    obtain ⟨⟨digest, now, hW⟩, -⟩ := hlocal
    rw [hnone] at hW
    cases hW
  · rw [hphase] at hlocal
    have hinside : Inside b c.request (s.writtenBy i) (s.askedBy i) := hlocal.1
    rw [hnone] at hinside
    cases hinside

theorem Safe.sound_dies (h : Safe b strict s) (hc : s.calls[i]? = some c) (left : List Char) :
    Sound b strict s i c (System.diesLeaving c left) := by
  refine ⟨(h.calls i c hc).over, nofun, fun htext => ?_, nofun, fun hrecord => absurd rfl hrecord⟩
  unfold System.diesLeaving at htext
  dsimp only at htext
  split at htext
  · rename_i hin
    exact hin
  · exact absurd rfl htext

/-- A new call: it is in no transaction, has written nothing and asked for nothing, so every clause
is about the earlier calls or does not apply. -/
theorem Safe.call (h : Safe b strict s) (request : ReviewRequest) :
    Safe b strict { s with calls := s.calls ++ [{ request := request }] } := by
  -- A call of the longer list is an earlier one, or the new one at the end.
  have hnew : ∀ (j : ℕ) (d : Call V), (s.calls ++ [({ request := request } : Call V)])[j]? = some d →
      s.calls[j]? = some d ∨ j = s.calls.length ∧ d = { request := request } := by
    intro j d hd
    rcases Nat.lt_trichotomy j s.calls.length with hlt | heq | hgt
    · rw [List.getElem?_append_left hlt] at hd
      exact .inl hd
    · rw [heq, List.getElem?_concat_length] at hd
      exact .inr ⟨heq, (Option.some.inj hd).symm⟩
    · rw [List.getElem?_eq_none (by rw [List.length_append, List.length_singleton]; omega)] at hd
      cases hd
  have hempty : s.writtenBy s.calls.length = [] ∧ s.askedBy s.calls.length = [] :=
    h.fresh _ le_rfl
  refine ⟨?_, ?_, ?_, ?_, ?_, ?_, ?_, h.once⟩
  · intro j k d e hd he hind hine
    rcases hnew j d hd with hd | ⟨-, rfl⟩
    · rcases hnew k e he with he | ⟨-, rfl⟩
      · exact h.exclusive j k d e hd he hind hine
      · cases hine
    · cases hind
  · intro j d hd
    rcases hnew j d hd with hd | ⟨rfl, rfl⟩
    · exact h.calls j d hd
    · exact hempty
  · intro j hj
    rw [List.length_append, List.length_singleton] at hj
    exact h.fresh j (by omega)
  · intro j d digest hd hphase
    rcases hnew j d hd with hd | ⟨rfl, rfl⟩
    · exact h.reserving j d digest hd hphase
    · cases hphase
  · intro j d hd hwritten
    rcases hnew j d hd with hd | ⟨rfl, rfl⟩
    · exact h.reserved j d hd hwritten
    · exact absurd hempty.1 hwritten
  · intro j k d e hd he hwj hwk hid
    rcases hnew j d hd with hd | ⟨rfl, rfl⟩
    · rcases hnew k e he with he | ⟨rfl, rfl⟩
      · exact h.unique j k d e hd he hwj hwk hid
      · exact absurd hempty.1 hwk
    · exact absurd hempty.1 hwj
  · intro x hx
    obtain ⟨d, hd, hrequest⟩ := h.requests x hx
    have hlt : x.call < s.calls.length := (List.getElem?_eq_some_iff.mp hd).1
    exact ⟨d, (List.getElem?_append_left hlt).trans hd, hrequest⟩

end

/-- No call of a run raises a `ValueError` behind its request for the review. -/
def RaisesNoValue (b : Broker V) (s : System V) : Label b → Prop
  | .step i st => ∀ c, s.calls[i]? = some c → st.RaisesNoValue b c
  | _ => True

/-- **One label** keeps the system safe. -/
theorem Safe.step {strict : Bool} {s : System V} (h : Safe b strict s) (label : Label b)
    (hlabel : strict = true → RaisesNoValue b s label) : Safe b strict (s.step b label) := by
  unfold System.step
  split
  · exact h.call _
  · exact ⟨h.exclusive, h.calls, h.fresh, h.reserving, h.reserved, h.unique, h.requests, h.once⟩
  · rename_i i left
    split
    · exact h
    · rename_i c hc
      split
      · exact h
      · exact h.apply hc (h.sound_dies hc left)
  · rename_i i st
    split
    · exact h
    · rename_i c hc
      split
      · exact h
      · rename_i m hm
        exact h.apply hc (h.sound_next hc hm fun hstrict => hlabel hstrict c hc)

theorem safe_start {strict : Bool} (audit : List Char) (heads : String → ℤ → String) :
    Safe b strict (System.start audit heads) := by
  have hnone : ∀ (i : ℕ) (c : Call V),
      (System.start audit heads : System V).calls[i]? = some c → False := by
    intro i c hc
    have hnil : ([] : List (Call V))[i]? = some c := hc
    rw [List.getElem?_nil] at hnil
    cases hnil
  refine ⟨?_, ?_, fun _ _ => ⟨rfl, rfl⟩, ?_, ?_, ?_, ?_, List.nodup_nil⟩
  · exact fun i j c d hc => (hnone i c hc).elim
  · exact fun i c hc => (hnone i c hc).elim
  · exact fun i c digest hc => (hnone i c hc).elim
  · exact fun i c hc => (hnone i c hc).elim
  · exact fun i j c d hc => (hnone i c hc).elim
  · intro x hx
    cases hx

/-- **Every run** keeps the system safe. -/
theorem Safe.run {strict : Bool} : ∀ (labels : List (Label b)) {s : System V}, Safe b strict s →
    (strict = true → s.StepsMeet b (RaisesNoValue b) labels) → Safe b strict (s.run b labels)
  | [], _, h, _ => h
  | label :: labels, s, h, hmeet => by
    show Safe b strict ((s.step b label).run b labels)
    refine Safe.run labels (h.step label fun hstrict => (hmeet hstrict).1) fun hstrict => ?_
    exact (hmeet hstrict).2

/-! ### The reviews -/

/-- In one call, a review is asked for behind an answer of `pull_request` with the requested head
and another author, and an answer of `required_checks` with checks that have all passed. -/
def AskedBehindGates (b : Broker V) (s : System V) : Prop :=
  ∀ (after before : List (Sent V)) (x : Sent V) (answer : Except Exc V),
    s.sent = after ++ x :: before → x.asked = .createReview answer →
    (∃ current : V, { x with asked := .pullRequest (.ok current) } ∈ before ∧
      b.objects.strField current "head_sha" = .ok x.request.head ∧
      ∃ author, b.objects.strField current "author" = .ok author ∧
        b.casefold author ≠ b.casefold b.reviewer) ∧
    ∃ (checks : V) (values : List V), { x with asked := .requiredChecks (.ok checks) } ∈ before ∧
      b.objects.truthy checks = .ok true ∧ b.objects.values checks = .ok values ∧
      ∀ value ∈ values, b.checkPasses value = .ok true

theorem guardThat_eq_ok {ok : Bool} {message : String} :
    Broker.guardThat ok message = .ok () ↔ ok = true := by
  unfold Broker.guardThat
  cases ok with
  | true => exact ⟨fun _ => rfl, fun _ => rfl⟩
  | false => exact ⟨nofun, nofun⟩

theorem verifyPull_eq_ok {r : ReviewRequest} {current : V}
    (h : b.verifyPull r current = .ok ()) :
    b.objects.strField current "head_sha" = .ok r.head ∧
      ∃ author, b.objects.strField current "author" = .ok author ∧
        b.casefold author ≠ b.casefold b.reviewer := by
  obtain ⟨head, hhead, h⟩ := bind_eq_ok.mp h
  obtain ⟨⟨⟩, hguard, h⟩ := bind_eq_ok.mp h
  obtain ⟨author, hauthor, h⟩ := bind_eq_ok.mp h
  have hsame : head = r.head := of_decide_eq_true (guardThat_eq_ok.mp hguard)
  have hother := of_decide_eq_true (guardThat_eq_ok.mp h)
  exact ⟨hsame ▸ hhead, author, hauthor, hother⟩

theorem checksPass_eq_true : ∀ {values : List V}, b.checksPass values = .ok true →
    ∀ value ∈ values, b.checkPasses value = .ok true
  | [], _, value, hmem => by cases hmem
  | v :: values, h, value, hmem => by
    obtain ⟨passes, hpasses, h⟩ := bind_eq_ok.mp h
    cases passes with
    | false => cases h
    | true =>
      rcases List.mem_cons.mp hmem with rfl | hmem
      · exact hpasses
      · exact checksPass_eq_true h value hmem

theorem verifyChecks_eq_ok {checks : V} (h : b.verifyChecks checks = .ok ()) :
    ∃ values, b.objects.truthy checks = .ok true ∧ b.objects.values checks = .ok values ∧
      ∀ value ∈ values, b.checkPasses value = .ok true := by
  obtain ⟨nonEmpty, hnonEmpty, h⟩ := bind_eq_ok.mp h
  cases nonEmpty with
  | false => cases h
  | true =>
    obtain ⟨values, hvalues, h⟩ := bind_eq_ok.mp h
    obtain ⟨passes, hpasses, h⟩ := bind_eq_ok.mp h
    cases passes with
    | false => cases h
    | true => exact ⟨values, hnonEmpty, hvalues, checksPass_eq_true hpasses⟩

theorem Safe.gates {strict : Bool} {s : System V} (h : Safe b strict s) :
    AskedBehindGates b s := by
  intro after before x answer hsent hx
  have hmem : x ∈ s.sent := by
    rw [hsent]
    exact List.mem_append_right _ List.mem_cons_self
  obtain ⟨c, hc, hrequest⟩ := h.requests x hmem
  have hasks := (h.calls x.call c hc).asks
  -- what the call has asked before
  have hsplit : s.askedBy x.call =
      (after.filter fun y => y.call == x.call).map Sent.asked ++ .createReview answer ::
        (before.filter fun y => y.call == x.call).map Sent.asked := by
    have hself : (x.call == x.call) = true := beq_self_eq_true x.call
    unfold System.askedBy
    rw [hsent, List.filter_append, List.map_append, List.filter_cons, hself, if_pos rfl,
      List.map_cons, hx]
  have hbefore : ∀ a, a ∈ (before.filter fun y => y.call == x.call).map Sent.asked →
      { x with asked := a } ∈ before := by
    intro a ha
    obtain ⟨y, hy, rfl⟩ := List.mem_map.mp ha
    obtain ⟨hy, hcall⟩ := List.mem_filter.mp hy
    obtain ⟨d, hd, hdrequest⟩ := h.requests y (by
      rw [hsent]
      exact List.mem_append_right _ (List.mem_cons_of_mem x hy))
    rw [beq_iff_eq] at hcall
    rw [hcall] at hd
    cases hc.symm.trans hd
    have heq : y = { x with asked := y.asked } := by
      obtain ⟨call, request, asked⟩ := y
      dsimp only at hcall hdrequest
      rw [hcall, ← hdrequest, hrequest]
    rw [← heq]
    exact hy
  rw [hsplit] at hasks
  generalize (after.filter fun y => y.call == x.call).map Sent.asked = post at hasks
  generalize (before.filter fun y => y.call == x.call).map Sent.asked = pre at hasks hbefore
  obtain ⟨current, checks, rfl, hcurrent, hchecks⟩ : ∃ current checks,
      pre = [.requiredChecks (.ok checks), .pullRequest (.ok current)] ∧
        b.verifyPull c.request current = .ok () ∧ b.verifyChecks checks = .ok () := by
    have hnot : post = [] := by
      cases post with
      | nil => rfl
      | cons a post =>
        have hlater := hasks.not_submitted
        exact absurd ⟨answer, List.mem_append_right _ List.mem_cons_self⟩ hlater
    rw [hnot, List.nil_append] at hasks
    cases hasks with
    | review hcurrent hchecks _ => exact ⟨_, _, rfl, hcurrent, hchecks⟩
  obtain ⟨hhead, hauthor⟩ := verifyPull_eq_ok hcurrent
  obtain ⟨values, htruthy, hvalues, hpass⟩ := verifyChecks_eq_ok hchecks
  rw [hrequest] at hhead
  exact ⟨⟨current, hbefore _ (List.mem_cons_of_mem _ List.mem_cons_self), hhead, hauthor⟩,
    checks, values, hbefore _ List.mem_cons_self, htruthy, hvalues, hpass⟩

/-- **At most one review for a request**: in every state of every run, whatever the audit file held
and the client answered, whichever writes failed and whichever processes died, no two requests for a
review have the same identifier, and each was sent behind the gates of its own call. -/
theorem review_at_most_once (b : Broker V) (audit : List Char) (heads : String → ℤ → String)
    (labels : List (Label b)) :
    (((System.start audit heads).run b labels).sent.filterMap Sent.createsFor).Nodup ∧
      AskedBehindGates b ((System.start audit heads).run b labels) := by
  have hsafe : Safe b false ((System.start audit heads).run b labels) :=
    (safe_start audit heads).run labels nofun
  exact ⟨hsafe.once, hsafe.gates⟩

end Review

end SkCoord
