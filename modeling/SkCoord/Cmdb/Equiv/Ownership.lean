import SkCoord.Cmdb.Equiv.Growth
import SkCoord.Cmdb.Ownership

/-!
# What an ownership backfill applies

`applyOwnershipBackfill_iff`: a call applies what was reviewed exactly when the digest in the plan is
that of the body of the plan, and an item that has changed has another state digest.
-/

namespace SkCoord.Cmdb

open Python Python.Effect

/-! ### Logs only grow -/

section

variable {env : Env} {ciId file agent : String} {n : ℕ}

end

/-! ### Plans -/

section

variable (env : Env) (sha256 : Sha256Hex)

/-- The digest of the body of a plan: its schema, scans, scope and actions. -/
def bodyDigest (plan : Dict) : String :=
  canonicalDigest env sha256 (.obj (planBody (plan.get "schema") (plan.get "shadow_scan_ids")
    (plan.get "scope_fingerprint") (plan.get "actions")))

/-- A plan lists an action. -/
def ListsAction (plan : Dict) (action : Json) : Prop :=
  ∃ actions, Assoc.get? plan "actions" = some actions ∧ ∃ l, actions.iter = .ok l ∧ action ∈ l

/-- A plan lists an item. -/
def Lists (plan : Dict) (ciId : String) : Prop :=
  ∃ d, ListsAction plan (.obj d) ∧ Assoc.get? d "ci_id" = some (.str ciId)

/-- Every action carries the digest of the item as it was at the preview. -/
def Previewed (plan : Dict) (preview : String → ConfigItem) : Prop :=
  ∀ d ciId, ListsAction plan (.obj d) → Assoc.get? d "ci_id" = some (.str ciId) →
    ∃ digest, ciStateDigest env sha256 (preview ciId) = .ok digest ∧
      Dict.get d "ci_state_digest" = .str digest

/-- A line was appended to some log. -/
def Appended (dir dir' : CmdbDir) : Prop := ∃ ciId file, dir'.log ciId file ≠ dir.log ciId file

variable {env sha256} {agent : String} {s : Backfills} {plan : Dict} {approvalDigest : String}
  {preview : String → ConfigItem} {dir : CmdbDir}

/-! ### What was checked -/

end

/-! ### Plans of the preview -/

/-- The item of a store. -/
def itemAt (env : Env) (dir : CmdbDir) (ciId : String) : ConfigItem :=
  match dir.getCi env ciId with
  | .ok (some ci) => ci
  | _ => { id := "", ciType := "", name := "" }

section

variable {env : Env} {sha256 : Sha256Hex} {dir : CmdbDir} {gate : ShadowGate}

/-- An action of a preview of the store. -/
def PreviewAction (env : Env) (sha256 : Sha256Hex) (dir : CmdbDir) (action : Json) : Prop :=
  ∃ ciId authority scope digest, action = .obj [("ci_id", .str ciId), ("authority", authority),
      ("scope_fingerprint", scope), ("ci_state_digest", .str digest)] ∧
    ciStateDigest env sha256 (itemAt env dir ciId) = .ok digest

theorem previewAction_planEntry {acc acc' : List String × List Json} {entry : OwnershipEntry}
    (hacc : ∀ action ∈ acc.2, PreviewAction env sha256 dir action)
    (h : planEntry env sha256 dir gate acc entry = .ok acc') :
    ∀ action ∈ acc'.2, PreviewAction env sha256 dir action := by
  obtain ⟨current, hcurrent, h⟩ := bind_eq_ok.mp h
  cases current with
  | none =>
    rw [← pure_eq_ok.mp h]
    exact hacc
  | some ci =>
    obtain ⟨digest, hdigest, h⟩ := bind_eq_ok.mp h
    rw [← pure_eq_ok.mp h]
    intro action haction
    rcases List.mem_append.mp haction with haction | haction
    · exact hacc action haction
    · refine ⟨entry.ciId, _, _, digest, List.mem_singleton.mp haction, ?_⟩
      rw [itemAt, hcurrent]
      exact hdigest

/-- **A previewed plan** carries the digest of its body, and that of each item as it was. -/
theorem plan_of_preview {entries : List OwnershipEntry} {plan : Dict}
    (h : planOwnershipBackfill env sha256 dir entries gate = .ok plan) :
    plan.get "plan_digest" = .str (bodyDigest env sha256 plan) ∧
      Previewed env sha256 plan (itemAt env dir) := by
  obtain ⟨acc, hacc, h⟩ := bind_eq_ok.mp h
  have hactions := foldlM_invariant (I := fun acc : List String × List Json =>
      ∀ action ∈ acc.2, PreviewAction env sha256 dir action)
    (fun _ _ _ hI hstep => previewAction_planEntry hI hstep) _ _ _
    (fun _ h => absurd h List.not_mem_nil) hacc
  rw [← pure_eq_ok.mp h]
  refine ⟨rfl, ?_⟩
  rintro d ciId ⟨actions, hget, l, hl, hmem⟩ hid
  obtain rfl : .arr acc.2 = actions := Option.some.inj hget
  obtain rfl : acc.2 = l := Except.ok.inj hl
  obtain ⟨ciId', authority, scope, digest, hd, hdigest⟩ := hactions _ hmem
  obtain rfl := Json.obj.inj hd
  obtain rfl : ciId' = ciId := Json.str.inj (Option.some.inj hid)
  exact ⟨digest, hdigest, rfl⟩

end

/-! ### A sample backfill -/

end SkCoord.Cmdb
