import SkCoord.Cmdb.Equiv.Edges

/-!
# Who may take a tag from an item

`tag_authorities` has one place for each tag.  `authority_eq`: it holds the authority that the last of
the grants since the tag was last absent names, so that a grant without an authority leaves no trace
in it and a grant of another authority takes the place over.  `removedByGrantors_iff`: an authority
takes only tags that it alone has granted, in every run in which no authority untags a tag that it was
the last to grant but not the only one.
-/

namespace SkCoord.Cmdb

open Python

variable {env : Env} {tag : String} {ci ci' : ConfigItem} {e : Dict}

/-! ### Grants -/

/-- The event is about the tag. -/
def namesTag (env : Env) (tag : String) (e : Dict) : Bool :=
  (e.get "tag").truthy && env.format (e.get "tag") == tag

/-- The event grants the tag. -/
def grantsTag (env : Env) (tag : String) (e : Dict) : Bool :=
  ConfigItem.Action.of e == .tag && namesTag env tag e

/-- The authority that an event carries, as `tag_authorities` would hold it. -/
def authorityOf (env : Env) (e : Dict) : Option String :=
  if (e.get "authority").truthy then some (env.format (e.get "authority")) else none

/-- The authority that the last of the grants names, if any of them names one. -/
def lastAuthority (env : Env) (grants : List Dict) : Option String :=
  (grants.filterMap (authorityOf env)).getLast?

/-- A turn of the loop, with the grants of the tag since it was last absent. -/
def holdStep (env : Env) (tag : String) (s : ConfigItem × List Dict) (e : Dict) :
    Except PyError (ConfigItem × List Dict) := do
  let ci ← s.1.step env e
  pure (ci, if tag ∈ ci.tags then s.2 ++ [e].filter (grantsTag env tag) else [])

/-- The tag events that have granted the tag since it was last absent. -/
def grantsSince (env : Env) (tag : String) (ci : ConfigItem) (events : List Dict) :
    Except PyError (List Dict) := do
  let s ← events.foldlM (holdStep env tag) (ci, [])
  pure s.2

theorem lastAuthority_concat (grants : List Dict) (e : Dict) :
    lastAuthority env (grants ++ [e]) = (authorityOf env e).or (lastAuthority env grants) := by
  rw [lastAuthority, lastAuthority, List.filterMap_append]
  cases h : authorityOf env e with
  | none => simp [h]
  | some a => simp [h]

/-! ### One turn -/

theorem tags_setMetadata (ci : ConfigItem) (key text : String) :
    (ci.setMetadata key text).tags = ci.tags ∧
      (ci.setMetadata key text).tagAuthorities = ci.tagAuthorities := by
  unfold ConfigItem.setMetadata
  split <;> exact ⟨rfl, rfl⟩

/-- What a turn does to the tags and their authorities. -/
theorem tags_step (h : ConfigItem.step env ci e = .ok ci') :
    (ConfigItem.Action.of e = .tag ∧ ci'.tags = (ci.foldTag env e).tags ∧
        ci'.tagAuthorities = (ci.foldTag env e).tagAuthorities) ∨
      (ConfigItem.Action.of e = .untag ∧ ci'.tags = (ci.foldUntag env e).tags ∧
        ci'.tagAuthorities = (ci.foldUntag env e).tagAuthorities) ∨
      (ConfigItem.Action.of e ≠ .tag ∧ ConfigItem.Action.of e ≠ .untag ∧ ci'.tags = ci.tags ∧
        ci'.tagAuthorities = ci.tagAuthorities) := by
  obtain ⟨ci₁, h, htouch⟩ := bind_eq_ok.mp h
  rw [← pure_eq_ok.mp htouch]
  cases haction : ConfigItem.Action.of e with
  | tag =>
    rw [haction] at h
    exact .inl ⟨rfl, by rw [← pure_eq_ok.mp h]; exact ⟨rfl, rfl⟩⟩
  | untag =>
    rw [haction] at h
    exact .inr (.inl ⟨rfl, by rw [← pure_eq_ok.mp h]; exact ⟨rfl, rfl⟩⟩)
  -- the other actions write neither field
  | setAttribute =>
    rw [haction] at h
    refine .inr (.inr ⟨by decide, by decide, ?_⟩)
    unfold ConfigItem.foldAction ConfigItem.foldAttribute at h
    dsimp only at h
    split at h
    · obtain ⟨-, -, h⟩ := bind_eq_ok.mp h
      rw [← pure_eq_ok.mp h]
      exact ⟨rfl, rfl⟩
    · rw [← pure_eq_ok.mp h]
      exact ⟨rfl, rfl⟩
  | relate =>
    rw [haction] at h
    refine .inr (.inr ⟨by decide, by decide, ?_⟩)
    obtain ⟨rel, -, h⟩ := bind_eq_ok.mp h
    rw [← pure_eq_ok.mp h]
    split <;> exact ⟨rfl, rfl⟩
  | metadata =>
    rw [haction] at h
    refine .inr (.inr ⟨by decide, by decide, ?_⟩)
    obtain ⟨-, -, h⟩ := bind_eq_ok.mp h
    split at h
    · rw [← pure_eq_ok.mp h]
      exact tags_setMetadata _ _ _
    · rw [← pure_eq_ok.mp h]
      exact ⟨rfl, rfl⟩
  | status | unrelate | other =>
    rw [haction] at h
    exact .inr (.inr ⟨by decide, by decide, by rw [← pure_eq_ok.mp h]; exact ⟨rfl, rfl⟩⟩)

/-- A grant puts the tag on the item, and its authority in the place of the tag if it names one. -/
theorem foldTag_of_names (ci : ConfigItem) (h : namesTag env tag e = true) :
    tag ∈ (ci.foldTag env e).tags ∧ Assoc.get? (ci.foldTag env e).tagAuthorities tag =
      (authorityOf env e).or (Assoc.get? ci.tagAuthorities tag) := by
  obtain ⟨htruthy, htag⟩ := Bool.and_eq_true_iff.mp h
  have htag : env.format (e.get "tag") = tag := eq_of_beq htag
  unfold ConfigItem.foldTag authorityOf
  rw [if_pos htruthy]
  dsimp only
  rw [htag]
  constructor
  · split
    · assumption
    · exact List.mem_append_right _ (List.mem_singleton.mpr rfl)
  · split
    · rw [Assoc.get?_set_self]
      rfl
    · rfl

/-- A grant of another tag. -/
theorem foldTag_of_other (ci : ConfigItem) (h : namesTag env tag e = false) :
    (tag ∈ (ci.foldTag env e).tags ↔ tag ∈ ci.tags) ∧
      Assoc.get? (ci.foldTag env e).tagAuthorities tag = Assoc.get? ci.tagAuthorities tag := by
  unfold ConfigItem.foldTag
  split
  · rename_i htruthy
    have hne : tag ≠ env.format (e.get "tag") := by
      intro heq
      rw [namesTag, htruthy, ← heq, beq_self_eq_true] at h
      exact Bool.noConfusion h
    dsimp only
    constructor
    · split
      · exact Iff.rfl
      · rw [List.mem_append, List.mem_singleton]
        exact or_iff_left hne
    · split
      · exact Assoc.get?_set_ne _ _ hne
      · rfl
  · exact ⟨Iff.rfl, rfl⟩

/-- The event takes the tag: it is from an operator, or the tag is in the hands of its authority. -/
def ConfigItem.takes (env : Env) (ci : ConfigItem) (tag : String) (e : Dict) : Bool :=
  namesTag env tag e && (!(e.get "authority").truthy || ci.tagOwnedBy tag (e.get "authority"))

/-- What an untag event does to a tag. -/
theorem foldUntag_tag (env : Env) (tag : String) (ci : ConfigItem) (e : Dict) :
    (tag ∈ (ci.foldUntag env e).tags ↔ tag ∈ ci.tags ∧ ci.takes env tag e = false) ∧
      Assoc.get? (ci.foldUntag env e).tagAuthorities tag =
        if ci.takes env tag e then none else Assoc.get? ci.tagAuthorities tag := by
  unfold ConfigItem.foldUntag ConfigItem.takes namesTag
  cases htruthy : (e.get "tag").truthy with
  | false => simp
  | true =>
    dsimp only
    by_cases htag : env.format (e.get "tag") = tag
    · rw [htag, beq_self_eq_true, Bool.and_self, Bool.true_and, if_pos rfl]
      split
      · rename_i htakes
        simp [htakes]
      · rename_i hkeeps
        simp [Bool.eq_false_iff.mpr hkeeps]
    · have hne : (env.format (e.get "tag") == tag) = false := beq_eq_false_iff_ne.mpr htag
      rw [hne, Bool.and_false, Bool.false_and, if_pos rfl, if_neg Bool.false_ne_true]
      split
      · refine ⟨?_, Assoc.get?_erase_ne _ (Ne.symm htag)⟩
        simp [Ne.symm htag]
      · simp

/-! ### The place of a tag -/

/-- What the place of a tag holds is what the grants since it was last absent left there. -/
def PlaceHolds (env : Env) (tag : String) (s : ConfigItem × List Dict) : Prop :=
  Assoc.get? s.1.tagAuthorities tag = lastAuthority env s.2 ∧ (tag ∉ s.1.tags → s.2 = [])

/-- **One turn** keeps what the place of a tag holds. -/
theorem placeHolds_step {s s' : ConfigItem × List Dict} (hs : PlaceHolds env tag s)
    (h : holdStep env tag s e = .ok s') : PlaceHolds env tag s' := by
  obtain ⟨ci', hstep, h⟩ := bind_eq_ok.mp h
  cases pure_eq_ok.mp h
  obtain ⟨hplace, habsent⟩ := hs
  refine ⟨?_, fun hnot => if_neg hnot⟩
  dsimp only
  rcases tags_step hstep with ⟨haction, htags, hauthorities⟩ | ⟨haction, htags, hauthorities⟩ |
    ⟨htag, -, htags, hauthorities⟩
  · -- a tag event grants the place to its authority, if it names the tag
    rw [htags, hauthorities]
    cases hnames : namesTag env tag e with
    | true =>
      obtain ⟨hmem, hget⟩ := foldTag_of_names s.1 hnames
      have hgrants : grantsTag env tag e = true := by
        rw [grantsTag, haction, hnames]
        rfl
      rw [hget, if_pos hmem, List.filter_cons_of_pos hgrants, List.filter_nil,
        lastAuthority_concat, hplace]
    | false =>
      obtain ⟨hmem, hget⟩ := foldTag_of_other s.1 hnames
      have hgrants : grantsTag env tag e = false := by rw [grantsTag, hnames, Bool.and_false]
      rw [hget, hplace, List.filter_cons_of_neg (by rw [hgrants]; exact Bool.false_ne_true),
        List.filter_nil, List.append_nil]
      split
      · rfl
      · rename_i hnot
        rw [habsent fun hin => hnot (hmem.mpr hin)]
  · -- an untag event may take the tag away, and with it the authority
    have hgrants : grantsTag env tag e = false := by
      rw [grantsTag, haction]
      rfl
    obtain ⟨hmem, hget⟩ := foldUntag_tag env tag s.1 e
    rw [htags, hauthorities, hget, List.filter_cons_of_neg (by rw [hgrants]; exact Bool.false_ne_true),
      List.filter_nil, List.append_nil]
    cases htakes : s.1.takes env tag e with
    | true =>
      rw [if_pos rfl, if_neg fun hin => Bool.noConfusion (htakes.symm.trans (hmem.mp hin).2)]
      rfl
    | false =>
      rw [if_neg Bool.false_ne_true, hplace]
      split
      · rfl
      · rename_i hnot
        rw [habsent fun hin => hnot (hmem.mpr ⟨hin, htakes⟩)]
  · have hgrants : grantsTag env tag e = false := by
      rw [grantsTag, beq_eq_false_iff_ne.mpr htag, Bool.false_and]
    rw [htags, hauthorities, hplace,
      List.filter_cons_of_neg (by rw [hgrants]; exact Bool.false_ne_true), List.filter_nil,
      List.append_nil]
    split
    · rfl
    · rename_i hnot
      rw [habsent hnot]

/-- The grants are kept beside the fold, not in its way. -/
theorem foldlM_holdStep (env : Env) (tag : String) : ∀ (events : List Dict) (s : ConfigItem × List Dict),
    (events.foldlM (holdStep env tag) s).map Prod.fst =
      events.foldlM (ConfigItem.step env) s.1
  | [], s => rfl
  | e :: events, s => by
    rw [List.foldlM_cons, List.foldlM_cons]
    unfold holdStep
    cases hstep : s.1.step env e with
    | error err => rfl
    | ok ci => exact foldlM_holdStep env tag events _

/-- The grants of a run, with what the place of the tag holds at its end. -/
theorem authority_eq {ci₀ : ConfigItem} (hnone : ci₀.tagAuthorities = []) {events : List Dict}
    {grants : List Dict} (hfold : events.foldlM (ConfigItem.step env) ci₀ = .ok ci)
    (hgrants : grantsSince env tag ci₀ events = .ok grants) :
    Assoc.get? ci.tagAuthorities tag = lastAuthority env grants ∧ (tag ∉ ci.tags → grants = []) := by
  obtain ⟨s, hs, hpure⟩ := bind_eq_ok.mp hgrants
  have hfst := foldlM_holdStep env tag events (ci₀, [])
  rw [hs, hfold] at hfst
  cases Except.ok.inj hfst
  cases pure_eq_ok.mp hpure
  have hstart : PlaceHolds env tag (ci₀, []) := by
    refine ⟨?_, fun _ => rfl⟩
    rw [hnone]
    rfl
  exact foldlM_invariant (fun s e s' hs h => placeHolds_step hs h) events _ s hstart hs

theorem exists_fold_of_grantsSince {ci₀ : ConfigItem} {events grants : List Dict}
    (h : grantsSince env tag ci₀ events = .ok grants) :
    ∃ ci, events.foldlM (ConfigItem.step env) ci₀ = .ok ci := by
  obtain ⟨s, hs, -⟩ := bind_eq_ok.mp h
  have hfst := foldlM_holdStep env tag events (ci₀, [])
  rw [hs] at hfst
  exact ⟨s.1, hfst.symm⟩

/-! ### Removals -/

/-- An authority takes a tag only when it has granted it since the tag was last absent, and no one
else has. -/
def RemovedByGrantors (env : Env) (ci₀ : ConfigItem) (events : List Dict) : Prop :=
  ∀ before e after, events = before ++ e :: after →
    ∀ ci ci', before.foldlM (ConfigItem.step env) ci₀ = .ok ci → ci.step env e = .ok ci' →
      ConfigItem.Action.of e = .untag → (e.get "authority").truthy = true →
      ∀ tag ∈ ci.tags, tag ∉ ci'.tags →
        ∀ grants, grantsSince env tag ci₀ before = .ok grants →
          grants ≠ [] ∧ ∀ g ∈ grants, authorityOf env g = authorityOf env e

/-- No authority untags a tag that it was the last authority to grant, but not the only one to
grant, since the tag was last absent. -/
def UntaggedBySoleGrantors (env : Env) (ci₀ : ConfigItem) (events : List Dict) : Prop :=
  ∀ before e after, events = before ++ e :: after →
    ∀ tag a, ConfigItem.Action.of e = .untag → namesTag env tag e = true →
      e.get "authority" = .str a → a ≠ "" →
      ∀ grants, grantsSince env tag ci₀ before = .ok grants →
        lastAuthority env grants = some a → ∀ g ∈ grants, authorityOf env g = some a

/-- The turn of an untag event returns. -/
theorem untag_returns (ci : ConfigItem) (haction : ConfigItem.Action.of e = .untag) :
    ∃ ci', ci.step env e = .ok ci' := by
  unfold ConfigItem.step
  rw [haction]
  exact ⟨_, rfl⟩

/-- An untag event with an authority removes the tags in its hands. -/
theorem removes_iff (h : ci.step env e = .ok ci') (haction : ConfigItem.Action.of e = .untag)
    (htruthy : (e.get "authority").truthy = true) :
    tag ∈ ci.tags ∧ tag ∉ ci'.tags ↔ tag ∈ ci.tags ∧ namesTag env tag e = true ∧
      ∃ a, e.get "authority" = .str a ∧ Assoc.get? ci.tagAuthorities tag = some a := by
  have htags : ci'.tags = (ci.foldUntag env e).tags := by
    rcases tags_step h with ⟨htag, -, -⟩ | ⟨-, htags, -⟩ | ⟨-, hne, -, -⟩
    · exact absurd (htag.symm.trans haction) nofun
    · exact htags
    · exact absurd haction hne
  have howned : ci.tagOwnedBy tag (e.get "authority") = true ↔
      ∃ a, e.get "authority" = .str a ∧ Assoc.get? ci.tagAuthorities tag = some a := by
    unfold ConfigItem.tagOwnedBy
    cases hget : Assoc.get? ci.tagAuthorities tag with
    | none =>
      rw [jsonOfOption, Json.pyEq_null_iff]
      constructor
      · intro hnull
        rw [hnull] at htruthy
        exact Bool.noConfusion htruthy
      · rintro ⟨a, -, hsome⟩
        cases hsome
    | some a =>
      rw [jsonOfOption, Json.pyEq_str_iff]
      constructor
      · exact fun heq => ⟨a, heq, rfl⟩
      · rintro ⟨b, heq, hsome⟩
        rw [heq, Option.some.inj hsome]
  rw [htags, (foldUntag_tag env tag ci e).1, ← howned, ConfigItem.takes, htruthy, Bool.not_true,
    Bool.false_or]
  refine and_congr_right fun hin => ?_
  rw [not_and, Bool.not_eq_false, Bool.and_eq_true]
  exact ⟨fun h => h hin, fun h _ => h⟩

/-- **Tags are removed by their authority** in the runs in which no authority untags a tag that it
was the last to grant but shares with another grant. -/
theorem removedByGrantors_iff (env : Env) (ciId : String) (core : Json) (ci₀ : ConfigItem)
    (hcore : ConfigItem.ofCore env ciId core = .ok ci₀) (events : List Dict) :
    RemovedByGrantors env ci₀ events ↔ UntaggedBySoleGrantors env ci₀ events := by
  have hnone : ci₀.tagAuthorities = [] := (defaults_ofCore hcore).2.2
  constructor
  · intro hremoved before e after hsplit tag a haction hnames hauthority hne grants hgrants hlast g hg
    obtain ⟨ci, hci⟩ := exists_fold_of_grantsSince hgrants
    obtain ⟨hplace, habsent⟩ := authority_eq hnone hci hgrants
    have hin : tag ∈ ci.tags := by
      by_contra hnot
      rw [habsent hnot] at hg
      exact List.not_mem_nil hg
    have htruthy : (e.get "authority").truthy = true := by
      rw [hauthority]
      exact (Json.truthy_str a).mpr hne
    obtain ⟨ci', hstep⟩ := untag_returns ci haction
    have hremoves := (removes_iff hstep haction htruthy).mpr
      ⟨hin, hnames, a, hauthority, hplace.trans hlast⟩
    have hall := (hremoved before e after hsplit ci ci' hci hstep haction htruthy tag hin
      hremoves.2 grants hgrants).2 g hg
    rw [hall, authorityOf, if_pos htruthy, hauthority]
    rfl
  · intro hsole before e after hsplit ci ci' hci hstep haction htruthy tag hin hnot grants hgrants
    obtain ⟨-, hnames, a, hauthority, hget⟩ :=
      (removes_iff hstep haction htruthy).mp ⟨hin, hnot⟩
    obtain ⟨hplace, -⟩ := authority_eq hnone hci hgrants
    have hlast : lastAuthority env grants = some a := hplace.symm.trans hget
    have hne : a ≠ "" := by
      rw [hauthority] at htruthy
      exact (Json.truthy_str a).mp htruthy
    have hcarried : authorityOf env e = some a := by
      rw [authorityOf, if_pos htruthy, hauthority]
      rfl
    rw [hcarried]
    refine ⟨?_, hsole before e after hsplit tag a haction hnames hauthority hne grants hgrants hlast⟩
    rintro rfl
    cases hlast

/-! ### A tag of two parties -/

/-- A core that says nothing but its identifier. -/
def bareCore : Json := .obj [("id", .str "ci-host-nor")]

/-- The item of that core. -/
def bareItem : ConfigItem := { id := "ci-host-nor", ciType := "service", name := "" }

/-- An event about the tag `"prod"`. -/
def prodEvent (action authority : String) : Dict :=
  [("action", .str action), ("tag", .str "prod"), ("authority", .str authority)]

/-- A collector grants the tag and takes it again. -/
theorem removedByGrantors_iff_alone :
    ConfigItem.ofCore unaryMachine "ci-host-nor" bareCore = .ok bareItem ∧
      (RemovedByGrantors unaryMachine bareItem
          [prodEvent "tag" "systemd:nor", prodEvent "untag" "systemd:nor"] ↔
        UntaggedBySoleGrantors unaryMachine bareItem
          [prodEvent "tag" "systemd:nor", prodEvent "untag" "systemd:nor"]) :=
  ⟨rfl, removedByGrantors_iff unaryMachine "ci-host-nor" bareCore bareItem rfl _⟩

/-- A collector grants the tag, an operator grants it too, and the collector takes it from both. -/
theorem shared_tag_removed :
    ConfigItem.ofCore unaryMachine "ci-host-nor" bareCore = .ok bareItem ∧
      ¬ RemovedByGrantors unaryMachine bareItem
        [prodEvent "tag" "systemd:nor", prodEvent "tag" "", prodEvent "untag" "systemd:nor"] := by
  refine ⟨rfl, fun h => ?_⟩
  have hgrants : grantsSince unaryMachine "prod" bareItem
      [prodEvent "tag" "systemd:nor", prodEvent "tag" ""] =
        .ok [prodEvent "tag" "systemd:nor", prodEvent "tag" ""] := rfl
  have hall := (h [prodEvent "tag" "systemd:nor", prodEvent "tag" ""]
    (prodEvent "untag" "systemd:nor") [] rfl _ _ rfl rfl rfl rfl "prod" (by decide) (by decide)
    _ hgrants).2 (prodEvent "tag" "") (List.mem_cons_of_mem _ (List.mem_singleton.mpr rfl))
  exact absurd hall (by decide)

end SkCoord.Cmdb
