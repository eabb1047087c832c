import SkCoord.Cmdb.Sanitize

/-!
# What sanitizing keeps and hides

`sanitize_eq_of_agree`: artifacts that differ under secret keys only are sanitized alike.
`sanitize_sanitize`: sanitizing twice is sanitizing once.
-/

namespace SkCoord.Cmdb

open Python

variable {env : Env}

/-! ### Without the findings -/

mutual

/-- What a value is sanitized to, whatever its path. -/
def sanitized (env : Env) : Artifact → Artifact
  | .dict d => .ofFields (sanitizedFields env [] d)
  | .list l => .list (sanitizedItems env 0 l)
  | .tuple l => .list (sanitizedItems env 0 l)
  | .str s => .str (String.ofList (s.toList.take 1000))
  | .null => .null
  | .bool b => .bool b
  | .int i => .int i
  | .float q => .float q
  | .other object => .other object

def sanitizedFields (env : Env) (clean : Assoc String Artifact) :
    List (Json × Artifact) → Assoc String Artifact
  | [] => clean
  | (rawKey, child) :: d =>
    let key := env.format rawKey
    let value := if key = findingsKey then sanitized env child
      else if isSecretAttributeKey env key then redacted
      else sanitized env child
    sanitizedFields env (Assoc.set clean key value) d

def sanitizedItems (env : Env) (index : ℕ) : List Artifact → List Artifact
  | [] => []
  | item :: l => if index < 1000 then sanitized env item :: sanitizedItems env (index + 1) l else []

end

mutual

theorem sanitizeWithFindings_fst (path : String) : ∀ v : Artifact,
    (sanitizeWithFindings env path v).1 = sanitized env v
  | .dict d => congrArg Artifact.ofFields (sanitizeFields_fst path [] d)
  | .list l => congrArg Artifact.list (sanitizeItems_fst path 0 l)
  | .tuple l => congrArg Artifact.list (sanitizeItems_fst path 0 l)
  | .str _ | .null | .bool _ | .int _ | .float _ | .other _ => rfl

theorem sanitizeFields_fst (path : String) (clean : Assoc String Artifact) :
    ∀ d : List (Json × Artifact), (sanitizeFields env path clean d).1 = sanitizedFields env clean d
  | [] => rfl
  | (rawKey, child) :: d => by
    have hchild := sanitizeWithFindings_fst (path ++ "." ++ env.format rawKey) child
    rw [sanitizeFields, sanitizedFields]
    dsimp only
    rw [sanitizeFields_fst path _ d]
    congr 2
    split_ifs <;> first | exact hchild | rfl

theorem sanitizeItems_fst (path : String) : ∀ (index : ℕ) (l : List Artifact),
    (sanitizeItems env path index l).1 = sanitizedItems env index l
  | _, [] => rfl
  | index, item :: l => by
    rw [sanitizeItems, sanitizedItems]
    split
    · dsimp only
      rw [sanitizeWithFindings_fst _ item, sanitizeItems_fst path (index + 1) l]
    · rfl

end

/-- The value of a field. -/
def sanitizedValue (env : Env) (key : String) (child : Artifact) : Artifact :=
  if key = findingsKey then sanitized env child
  else if isSecretAttributeKey env key then redacted
  else sanitized env child

/-! ### Differences under secret keys -/

/-- The values under a key are masked. -/
def Masked (env : Env) (key : String) : Prop :=
  key ≠ findingsKey ∧ isSecretAttributeKey env key = true

mutual

/-- Two artifacts differ in values under masked keys only: they have the same shape, and what stands
outside of such keys is the same. -/
inductive Agree (env : Env) : Artifact → Artifact → Prop
  | same (v : Artifact) : Agree env v v
  | list {l m : List Artifact} : AgreeItems env l m → Agree env (.list l) (.list m)
  | tuple {l m : List Artifact} : AgreeItems env l m → Agree env (.tuple l) (.tuple m)
  | dict {d e : List (Json × Artifact)} : AgreeFields env d e → Agree env (.dict d) (.dict e)

inductive AgreeItems (env : Env) : List Artifact → List Artifact → Prop
  | nil : AgreeItems env [] []
  | cons {v w : Artifact} {l m : List Artifact} : Agree env v w → AgreeItems env l m →
      AgreeItems env (v :: l) (w :: m)

inductive AgreeFields (env : Env) : List (Json × Artifact) → List (Json × Artifact) → Prop
  | nil : AgreeFields env [] []
  | shown {k : Json} {v w : Artifact} {d e : List (Json × Artifact)} : Agree env v w →
      AgreeFields env d e → AgreeFields env ((k, v) :: d) ((k, w) :: e)
  | masked {k : Json} {v w : Artifact} {d e : List (Json × Artifact)} :
      Masked env (env.format k) → AgreeFields env d e →
        AgreeFields env ((k, v) :: d) ((k, w) :: e)

end

mutual

theorem sanitized_eq_of_agree : ∀ {v w : Artifact}, Agree env v w → sanitized env v = sanitized env w
  | _, _, .same _ => rfl
  | _, _, .list h => congrArg Artifact.list (sanitizedItems_eq_of_agree 0 h)
  | _, _, .tuple h => congrArg Artifact.list (sanitizedItems_eq_of_agree 0 h)
  | _, _, .dict h => congrArg Artifact.ofFields (sanitizedFields_eq_of_agree [] h)

theorem sanitizedItems_eq_of_agree : ∀ (index : ℕ) {l m : List Artifact}, AgreeItems env l m →
    sanitizedItems env index l = sanitizedItems env index m
  | _, _, _, .nil => rfl
  | index, _, _, .cons hitem h => by
    rw [sanitizedItems, sanitizedItems, sanitized_eq_of_agree hitem,
      sanitizedItems_eq_of_agree (index + 1) h]

theorem sanitizedFields_eq_of_agree : ∀ (clean : Assoc String Artifact)
    {d e : List (Json × Artifact)}, AgreeFields env d e →
      sanitizedFields env clean d = sanitizedFields env clean e
  | _, _, _, .nil => rfl
  | clean, _, _, .shown hchild h => by
    rw [sanitizedFields, sanitizedFields, sanitized_eq_of_agree hchild]
    exact sanitizedFields_eq_of_agree _ h
  | clean, _, _, .masked hmasked h => by
    rw [sanitizedFields, sanitizedFields]
    rw [if_neg hmasked.1, if_neg hmasked.1, if_pos hmasked.2, if_pos hmasked.2]
    exact sanitizedFields_eq_of_agree _ h

end

/-- **Masked values do not matter.** -/
theorem sanitize_eq_of_agree {v w : Artifact} (h : Agree env v w) :
    sanitize env v = sanitize env w := by
  rw [sanitize, sanitize, sanitizeWithFindings_fst, sanitizeWithFindings_fst,
    sanitized_eq_of_agree h]

/-! ### Sanitizing twice -/

/-- Fields that are sanitized as they stand. -/
def Settled (env : Env) (clean : Assoc String Artifact) : Prop :=
  (Assoc.keys clean).Nodup ∧ ∀ p ∈ clean, sanitizedValue env p.1 p.2 = p.2

theorem settled_set {clean : Assoc String Artifact} (h : Settled env clean) {key : String}
    {value : Artifact} (hvalue : sanitizedValue env key value = value) :
    Settled env (Assoc.set clean key value) := by
  refine ⟨Assoc.nodup_keys_set h.1 _ _, fun p hp => ?_⟩
  rcases Assoc.mem_set hp with rfl | hp
  · exact hvalue
  · exact h.2 p hp

/-- Settled fields are added as they stand. -/
theorem sanitizedFields_of_settled : ∀ {clean : Assoc String Artifact},
    (∀ p ∈ clean, sanitizedValue env p.1 p.2 = p.2) → ∀ acc : Assoc String Artifact,
      sanitizedFields env acc (clean.map fun p => (.str p.1, p.2)) =
        clean.foldl (fun d p => Assoc.set d p.1 p.2) acc
  | [], _, _ => rfl
  | p :: clean, h, acc => by
    have hp : sanitizedValue env p.1 p.2 = p.2 := h p List.mem_cons_self
    rw [List.map_cons, sanitizedFields, List.foldl_cons]
    show sanitizedFields env (Assoc.set acc p.1 (sanitizedValue env p.1 p.2)) _ = _
    rw [hp]
    exact sanitizedFields_of_settled (fun q hq => h q (List.mem_cons_of_mem _ hq)) _

mutual

theorem sanitized_sanitized : ∀ v : Artifact, sanitized env (sanitized env v) = sanitized env v
  | .dict d => by
    have hsettled : Settled env (sanitizedFields env [] d) :=
      settled_sanitizedFields d ⟨List.nodup_nil, fun _ h => absurd h List.not_mem_nil⟩
    rw [sanitized, Artifact.ofFields, sanitized, sanitizedFields_of_settled hsettled.2,
      Assoc.foldl_set_of_nodup _ _ hsettled.1]
    rfl
  | .list l => congrArg Artifact.list (sanitizedItems_sanitizedItems 0 l)
  | .tuple l => congrArg Artifact.list (sanitizedItems_sanitizedItems 0 l)
  | .str s => by
    rw [sanitized, sanitized, String.toList_ofList, List.take_take, min_self]
  | .null | .bool _ | .int _ | .float _ | .other _ => rfl

theorem sanitizedItems_sanitizedItems : ∀ (index : ℕ) (l : List Artifact),
    sanitizedItems env index (sanitizedItems env index l) = sanitizedItems env index l
  | _, [] => rfl
  | index, item :: l => by
    rw [sanitizedItems]
    split
    · rename_i hindex
      rw [sanitizedItems, if_pos hindex, sanitized_sanitized item,
        sanitizedItems_sanitizedItems (index + 1) l]
    · rfl

theorem settled_sanitizedFields : ∀ (d : List (Json × Artifact)) {clean : Assoc String Artifact},
    Settled env clean → Settled env (sanitizedFields env clean d)
  | [], _, h => h
  | (rawKey, child) :: d, clean, h => by
    rw [sanitizedFields]
    refine settled_sanitizedFields d (settled_set h ?_)
    have hchild := sanitized_sanitized child
    unfold sanitizedValue
    split_ifs <;> first | exact hchild | rfl

end

/-- **Sanitizing twice** is sanitizing once. -/
theorem sanitize_sanitize (env : Env) (v : Artifact) :
    sanitize env (sanitize env v) = sanitize env v := by
  rw [sanitize, sanitize, sanitizeWithFindings_fst, sanitizeWithFindings_fst, sanitized_sanitized]

end SkCoord.Cmdb
