import SkCoord.Review.Equiv.Once

/-!
# The way to the review

A request that passes the gates comes as far as its request for the review (`run_to_submit`): its
receipt is in canonical form and passes its checks (`receipt_eq_ok`), the audit file does not know it,
and GitHub reports its head and checks that have passed.
-/

namespace SkCoord

open Python

namespace Review

variable {V : Type} {b : Broker V}

/-! ### The way to the review -/

/-- The labels of a call that nothing disturbs, up to its request for the review. -/
def submitLabels (request : ReviewRequest) (file : Broker.PreflightFile) (now : b.Time)
    (current checks : V) : List (Label b) :=
  [.call request "", .step 0 (.validate file), .step 0 .enter, .step 0 .scan,
    .step 0 (.reserve now .done), .step 0 (.view (.ok current)), .step 0 (.check (.ok checks))]

/-- The state in which a request stands before its review. -/
def submittingState (b : Broker V) (audit : List Char) (heads : String → ℤ → String)
    (request : ReviewRequest) (digest : String) (now : b.Time) (current checks : V) : System V where
  audit := audit ++ b.recordLine (b.reservation request digest now)
  heads := heads
  calls := [{ request, phase := .submitting }]
  written := [(0, b.reservation request digest now)]
  sent := [⟨0, request, .requiredChecks (.ok checks)⟩, ⟨0, request, .pullRequest (.ok current)⟩]

theorem step_of_next {s : System V} {i : ℕ} {c : Call V} {st : Step b} {m : Move V}
    (hc : s.calls[i]? = some c) (hm : c.next b s.audit s.free st = some m) :
    s.step b (.step i st) = s.apply i c m := by
  unfold System.step
  dsimp only
  rw [hc]
  dsimp only
  rw [hm]

/-- **A request that passes the gates** comes before its review. -/
theorem run_to_submit {audit : List Char} {heads : String → ℤ → String} {request : ReviewRequest}
    {file : Broker.PreflightFile} {digest : String} {now : b.Time} {current checks : V}
    (hid : request.requestId ≠ "") (hvalid : b.validate request = .ok ())
    (hreceipt : b.receipt request file = .ok digest)
    (hscan : b.scan audit request.requestId = .ok none)
    (hcurrent : b.verifyPull request current = .ok ()) (hchecks : b.verifyChecks checks = .ok ()) :
    (System.start audit heads).run b (submitLabels request file now current checks) =
      submittingState b audit heads request digest now current checks := by
  have hcall : (System.start audit heads).step b (.call request "") =
      { audit, heads, calls := [{ request := request }] } := by
    unfold System.step
    dsimp only
    rw [if_neg hid]
    rfl
  have hvalidate : ({ request } : Call V).next b audit true (.validate file) =
      some { phase := .waiting digest } := by
    have hboth : (do b.validate request; b.receipt request file) = .ok digest :=
      bind_eq_ok.mpr ⟨(), hvalid, hreceipt⟩
    unfold Call.next
    dsimp only
    rw [hboth]
  have hscans : ({ request, phase := .scanning digest } : Call V).next b audit false .scan =
      some { phase := .reserving digest } := by
    unfold Call.next
    dsimp only
    rw [hscan]
  have hview : ({ request, phase := .viewing } : Call V).next b
      (audit ++ b.recordLine (b.reservation request digest now)) false (.view (.ok current)) =
      some { phase := .checking, asked := some (.pullRequest (.ok current)) } := by
    have hboth : (do b.verifyPull request (← (.ok current : Except Exc V))) = .ok () := hcurrent
    unfold Call.next
    dsimp only
    rw [hboth]
  have hcheck : ({ request, phase := .checking } : Call V).next b
      (audit ++ b.recordLine (b.reservation request digest now)) false (.check (.ok checks)) =
      some { phase := .submitting, asked := some (.requiredChecks (.ok checks)) } := by
    have hboth : (do b.verifyChecks (← (.ok checks : Except Exc V))) = .ok () := hchecks
    unfold Call.next
    dsimp only
    rw [hboth]
  -- one state behind each label
  have h1 : ({ audit, heads, calls := [{ request := request }] } : System V).step b
      (.step 0 (.validate file)) =
      { audit, heads, calls := [{ request, phase := .waiting digest }] } := by
    rw [step_of_next rfl hvalidate, System.apply, List.append_nil]
    rfl
  have h2 : ({ audit, heads, calls := [{ request, phase := .waiting digest }] } : System V).step b
      (.step 0 .enter) = { audit, heads, calls := [{ request, phase := .scanning digest }] } := by
    rw [@step_of_next _ b _ 0 { request, phase := .waiting digest } .enter
      { phase := .scanning digest } rfl rfl, System.apply, List.append_nil]
    rfl
  have h3 : ({ audit, heads, calls := [{ request, phase := .scanning digest }] } : System V).step b
      (.step 0 .scan) = { audit, heads, calls := [{ request, phase := .reserving digest }] } := by
    rw [step_of_next rfl hscans, System.apply, List.append_nil]
    rfl
  have h4 : ({ audit, heads, calls := [{ request, phase := .reserving digest }] } : System V).step b
      (.step 0 (.reserve now .done)) =
      { audit := audit ++ b.recordLine (b.reservation request digest now), heads
        calls := [{ request, phase := .viewing }]
        written := [(0, b.reservation request digest now)] } := rfl
  have h5 : ({ audit := audit ++ b.recordLine (b.reservation request digest now), heads
               calls := [{ request, phase := .viewing }]
               written := [(0, b.reservation request digest now)] } : System V).step b
      (.step 0 (.view (.ok current))) =
      { audit := audit ++ b.recordLine (b.reservation request digest now), heads
        calls := [{ request, phase := .checking }]
        written := [(0, b.reservation request digest now)]
        sent := [⟨0, request, .pullRequest (.ok current)⟩] } := by
    rw [step_of_next rfl hview, System.apply, List.append_nil]
    rfl
  have h6 : ({ audit := audit ++ b.recordLine (b.reservation request digest now), heads
               calls := [{ request, phase := .checking }]
               written := [(0, b.reservation request digest now)]
               sent := [⟨0, request, .pullRequest (.ok current)⟩] } : System V).step b
      (.step 0 (.check (.ok checks))) =
      submittingState b audit heads request digest now current checks := by
    rw [step_of_next rfl hcheck, System.apply, List.append_nil]
    rfl
  unfold submitLabels System.run
  rw [List.foldl_cons, hcall, List.foldl_cons, h1, List.foldl_cons, h2, List.foldl_cons, h3,
    List.foldl_cons, h4, List.foldl_cons, h5, List.foldl_cons, h6, List.foldl_nil]

/-! ### A request that passes -/

/-- Values of JSON as a client returns them. -/
def jsonObjects : Objects Json where
  truthy v := .ok v.truthy
  get? v key := match v with
    | .obj d => .ok (Assoc.get? d key)
    | _ => .error { cls := .other, name := "AttributeError", message := "get" }
  contains v key := match v with
    | .obj d => .ok (key ∈ Assoc.keys d)
    | _ => .error { cls := .other, name := "TypeError", message := "not iterable" }
  item v key := match v with
    | .obj d => match Assoc.get? d key with
      | some x => .ok x
      | none => .error { cls := .other, name := "KeyError", message := key }
    | _ => .error { cls := .other, name := "TypeError", message := "not subscriptable" }
  values v := match v with
    | .obj d => .ok (d.map Prod.snd)
    | _ => .error { cls := .other, name := "AttributeError", message := "values" }
  isMapping := Json.isDict
  str v := match v with
    | .str s => .ok s
    | _ => .ok ""
  json v := .ok v

/-- A hexadecimal number of `n` digits. -/
def hexText (n : ℕ) : String := String.ofList (List.replicate n 'a')

/-- A broker that reviews as `bob`. -/
def sampleBroker : Broker Json where
  objects := jsonObjects
  floats := zeroFloats
  allowlist := ["o/r"]
  reviewer := "bob"
  casefold := id
  lower := id
  sha256 := fun _ => hexText 64
  strOf := fun v => match v with
    | .str s => s
    | _ => ""

/-- A request of `alice`. -/
def sampleRequest : ReviewRequest where
  caller := "alice"
  repository := "o/r"
  pullRequest := 1
  head := hexText 40
  evidenceHash := hexText 64
  preflightHash := hexText 64
  preflightDigest := hexText 64
  decision := "approve"
  requestId := "q1"

/-- The entry of a check that passed. -/
def passedCheck (name : String) : Json :=
  .obj [("elapsed_ms", .int 1), ("exit_code", .int 0), ("name", .str name)]

/-- Its receipt. -/
def sampleReceipt : Dict :=
  [("base", .str (hexText 40)),
    ("checks", .arr (Broker.requiredPreflight.map passedCheck)),
    ("diff_sha256", .str (hexText 64)),
    ("digest", .str (hexText 64)),
    ("head", .str (hexText 40)),
    ("paths", .arr [.str "a.py"]),
    ("repository", .str "host/o/r"),
    ("schema", .str "skfleet.local-ci-preflight/v1"),
    ("state", .str "PASS"),
    ("tree", .str (hexText 40))]

/-- The file of the receipt. -/
def sampleFile : Broker.PreflightFile :=
  .bytes (sampleBroker.canonicalBytes (.obj sampleReceipt) ++ encodeUtf8 ['\n']) false

theorem sample_validate : sampleBroker.validate sampleRequest = .ok () := by
  obtain ⟨⟨⟩, h⟩ := isOk_iff.mp
    (show (sampleBroker.validate sampleRequest).isOk = true by decide +kernel)
  exact h

/-- A dictionary in order stays as it is. -/
theorem sortKeys_of_sorted {d : Dict} (hkeys : (Assoc.keys d).Pairwise (· ≤ ·))
    (hfields : Json.sortFields d = d) : (Json.obj d).sortKeys = .obj d := by
  have hsorted : d.Pairwise fun p q => p.1 ≤ q.1 := List.pairwise_map.mp hkeys
  show Json.obj ((Json.sortFields d).insertionSort fun p q => p.1 ≤ q.1) = _
  rw [hfields]
  exact congrArg Json.obj hsorted.insertionSort_eq

theorem sortKeys_passedCheck (name : String) : (passedCheck name).sortKeys = passedCheck name :=
  sortKeys_of_sorted (show ["elapsed_ms", "exit_code", "name"].Pairwise (· ≤ ·) by decide +kernel) rfl

theorem sample_sorted : (Json.obj sampleReceipt).sortKeys = .obj sampleReceipt := by
  refine sortKeys_of_sorted (by decide +kernel) ?_
  have hchecks : Json.sortElems (Broker.requiredPreflight.map passedCheck) =
      Broker.requiredPreflight.map passedCheck := by
    unfold Broker.requiredPreflight
    simp only [List.map_cons, List.map_nil, Json.sortElems, sortKeys_passedCheck]
  show [_, ("checks", Json.arr (Json.sortElems (Broker.requiredPreflight.map passedCheck))), _, _, _,
    _, _, _, _, _] = _
  rw [hchecks]
  rfl

theorem sample_wellFormed : (Json.obj sampleReceipt).WellFormed zeroFloats := by
  simp [sampleReceipt, passedCheck, Json.WellFormed, Json.FieldsWellFormed,
    Json.ElemsWellFormed, Broker.requiredPreflight, Assoc.keys]

/-- A receipt in canonical form that passes its checks. -/
theorem receipt_eq_ok {V : Type} {b : Broker V} {r : ReviewRequest} {d : Dict}
    (hsorted : (Json.obj d).sortKeys = .obj d) (hwell : (Json.obj d).WellFormed b.floats)
    (hsize : ((Json.obj d).canonical b.floats).length < 1024 * 1024)
    (hhash : b.sha256 (b.canonicalBytes (.obj d) ++ encodeUtf8 ['\n']) = r.preflightHash)
    (hdigest : Dict.get d "digest" =
      .str (b.sha256 (b.canonicalBytes (.obj (d.filter fun p => p.1 ≠ "digest")))))
    (hpinned : Dict.get d "digest" = .str r.preflightDigest)
    (hvalid : b.validateReceipt r d = .ok ()) :
    b.receipt r (.bytes (b.canonicalBytes (.obj d) ++ encodeUtf8 ['\n']) false) =
      .ok r.preflightDigest := by
  have hbytes : b.canonicalBytes (.obj d) ++ encodeUtf8 ['\n'] =
      encodeUtf8 ((Json.obj d).canonical b.floats ++ ['\n']) := (encodeUtf8_append _ _).symm
  have hread : (decodeUtf8 (b.canonicalBytes (.obj d) ++ encodeUtf8 ['\n'])).bind
      (Json.loads b.floats) = some (.obj d) := by
    rw [hbytes, decodeUtf8_encodeUtf8]
    show Json.loads b.floats ((Json.obj d).canonical b.floats ++ ['\n']) = _
    unfold Json.canonical
    rw [hsorted, Json.loads_line hwell]
  have hlength : (b.canonicalBytes (.obj d) ++ encodeUtf8 ['\n']).length ≤ 1024 * 1024 := by
    have hprintable : Printable ((Json.obj d).canonical b.floats) := Json.printable_dumps _ _ _
    have hone : (encodeUtf8 ['\n']).length = 1 := rfl
    rw [List.length_append, hone]
    show (encodeUtf8 ((Json.obj d).canonical b.floats)).length + 1 ≤ _
    rw [length_encodeUtf8 hprintable]
    omega
  unfold Broker.receipt
  refine bind_eq_ok.mpr ⟨(), guardThat_eq_ok.mpr (decide_eq_true hlength), ?_⟩
  refine bind_eq_ok.mpr ⟨(), guardThat_eq_ok.mpr rfl, ?_⟩
  refine bind_eq_ok.mpr ⟨(), guardThat_eq_ok.mpr (decide_eq_true hhash), ?_⟩
  rw [hread]
  refine bind_eq_ok.mpr ⟨(), guardThat_eq_ok.mpr (decide_eq_true rfl), ?_⟩
  refine bind_eq_ok.mpr ⟨(), guardThat_eq_ok.mpr ?_, ?_⟩
  · rw [hdigest]
    exact Json.pyEq_refl _
  · refine bind_eq_ok.mpr ⟨(), guardThat_eq_ok.mpr ?_, bind_eq_ok.mpr ⟨(), hvalid, rfl⟩⟩
    rw [hpinned]
    exact Json.pyEq_refl _

theorem sample_receipt :
    sampleBroker.receipt sampleRequest sampleFile = .ok sampleRequest.preflightDigest := by
  have hvalid : sampleBroker.validateReceipt sampleRequest sampleReceipt = .ok () := by
    obtain ⟨⟨⟩, h⟩ := isOk_iff.mp (show (sampleBroker.validateReceipt sampleRequest
      sampleReceipt).isOk = true by decide +kernel)
    exact h
  exact receipt_eq_ok sample_sorted sample_wellFormed (by decide +kernel) rfl rfl rfl hvalid

/-- What `pull_request` answers. -/
def samplePull : Json := .obj [("head_sha", .str (hexText 40)), ("author", .str "carol")]

/-- What `required_checks` answers. -/
def sampleChecks : Json :=
  .obj [("ci", .obj [("status", .str "completed"), ("conclusion", .str "success")])]

/-- A reading of the clock. -/
def sampleTime : sampleBroker.Time := ⟨0, rfl⟩

/-- The labels up to the request for the review. -/
def sampleLabels : List (Label sampleBroker) :=
  submitLabels sampleRequest sampleFile sampleTime samplePull sampleChecks

theorem run_sampleLabels (heads : String → ℤ → String) :
    (System.start [] heads).run sampleBroker sampleLabels =
      submittingState sampleBroker [] heads sampleRequest sampleRequest.preflightDigest sampleTime
        samplePull sampleChecks := by
  have hid : sampleRequest.requestId ≠ "" := by decide
  exact run_to_submit hid sample_validate sample_receipt rfl rfl rfl

theorem run_append (s : System V) (labels labels' : List (Label b)) :
    s.run b (labels ++ labels') = (s.run b labels).run b labels' := List.foldl_append

end Review

end SkCoord
