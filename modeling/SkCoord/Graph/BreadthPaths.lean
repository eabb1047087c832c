import SkCoord.Graph.Breadth

/-!
# What a breadth-first search finds

The points that were on the queue stand in the order of their distances and, at one distance, in
the order of the paths on which they were found, which are the leading ones (`Breadth.Inv`).
`run_isSound` says what every search has found, `mem_seen_iff` and `mem_cycles_iff` what one has that
is not truncated: all that the start reaches, and the links that come back to a leading path.
-/

namespace DirectedGraph

open Relation

variable {α β : Type*} [LinearOrder α]

section

variable (links : α → List (α × β)) (start : α) (maxDepth : ℕ)

/-- There is a link from `a` to `b`. -/
def Linked (a b : α) : Prop := ∃ l, (b, l) ∈ links a

/-- **What a search has found**: points at their distances, and links that come back. -/
structure Breadth.IsSound (s : Breadth α β) : Prop where
  seen : s.seen = start :: s.nodes.map Found.node
  nodup : s.seen.Nodup
  dist : ∀ f ∈ s.nodes, IsDist (Linked links) start f.depth f.node
  cycles : ∀ c ∈ s.cycles, ∃ p a b, c = p ++ [b] ∧ IsLeading (Linked links) start p a ∧
    Linked links a b ∧ b ∈ p

/-- The order of the queue. -/
def Waiting.Before (w w' : Waiting α) : Prop :=
  w.depth < w'.depth ∨ (w.depth = w'.depth ∧ w.path < w'.path)

/-- The links of a point have been followed. -/
def Breadth.Expanded (s : Breadth α β) (u : Waiting α) : Prop :=
  (s.truncated = true ∧ maxDepth ≤ u.depth) ∨
    ∀ b, Linked links u.node b → b ∈ s.seen ∧ (b ∈ u.path → u.path ++ [b] ∈ s.cycles)

/-- A point of the queue was found on its leading path. -/
structure Waiting.IsEntry (w : Waiting α) (s : Breadth α β) : Prop where
  leading : IsLeading (Linked links) start w.path w.node
  length : w.path.length = w.depth + 1
  bound : w.depth ≤ maxDepth
  path : ∀ a ∈ w.path, a ∈ s.seen

/-- The invariant of a search that has taken `old` from its queue. -/
structure Breadth.Inv (old : List (Waiting α)) (s : Breadth α β) : Prop
    extends Breadth.IsSound links start s where
  entries : ∀ w ∈ old ++ s.queue, w.IsEntry links start maxDepth s
  entry : ∀ a ∈ s.seen, ∃ w ∈ old ++ s.queue, w.node = a
  order : (old ++ s.queue).Pairwise Waiting.Before
  child : ∀ w ∈ s.queue, w.path = [start] ∨ ∃ u ∈ old, w.path = u.path ++ [w.node]

/-- A search between two turns. -/
def Breadth.Going (s : Breadth α β) : Prop :=
  ∃ old, s.Inv links start maxDepth old ∧ ∀ u ∈ old, s.Expanded links maxDepth u

/-- A search that was cut. -/
def Breadth.WasCut (s : Breadth α β) : Prop :=
  s.IsSound links start ∧ s.truncated = true ∧ s.queue = []

end

section

variable {links : α → List (α × β)} {start : α} {maxDepth maxNodes : ℕ} {s : Breadth α β}
  {old : List (Waiting α)} {w u : Waiting α} {a b : α}

/-! ### The queue -/

theorem Waiting.Before.depth_le (h : w.Before u) : w.depth ≤ u.depth := by
  rcases h with h | ⟨h, -⟩ <;> omega

theorem Waiting.Before.path_lt (h : w.Before u) (heq : w.depth = u.depth) : w.path < u.path := by
  rcases h with h | ⟨-, h⟩
  · omega
  · exact h

theorem Breadth.going_initial :
    (Breadth.initial start : Breadth α β).Going links start maxDepth := by
  refine ⟨[], ⟨⟨rfl, List.nodup_singleton _, fun f hf => absurd hf List.not_mem_nil,
    fun c hc => absurd hc List.not_mem_nil⟩, ?_, ?_, List.pairwise_singleton _ _, ?_⟩,
    fun u hu => absurd hu List.not_mem_nil⟩
  · intro w hw
    obtain rfl := List.mem_singleton.mp hw
    exact ⟨isLeading_start, rfl, Nat.zero_le _, fun a ha => ha⟩
  · intro a ha
    exact ⟨_, List.mem_singleton_self _, (List.mem_singleton.mp ha).symm⟩
  · intro w hw
    obtain rfl := List.mem_singleton.mp hw
    exact .inl rfl

namespace Breadth.Inv

/-- The head of the queue is taken. -/
theorem pop {queue : List (Waiting α)} (h : s.Inv links start maxDepth old)
    (hqueue : s.queue = w :: queue) :
    ({ s with queue } : Breadth α β).Inv links start maxDepth (old ++ [w]) := by
  have hsplit : old ++ s.queue = (old ++ [w]) ++ queue := by
    rw [hqueue, List.append_assoc, List.singleton_append]
  refine ⟨⟨h.seen, h.nodup, h.dist, h.cycles⟩, ?_, ?_, ?_, ?_⟩
  · intro u hu
    have hentry := h.entries u (hsplit ▸ hu)
    exact ⟨hentry.leading, hentry.length, hentry.bound, hentry.path⟩
  · intro a ha
    rw [← hsplit]
    exact h.entry a ha
  · rw [← hsplit]
    exact h.order
  · intro u hu
    rcases h.child u (hqueue ▸ List.mem_cons_of_mem _ hu) with hstart | ⟨v, hv, hpath⟩
    · exact .inl hstart
    · exact .inr ⟨v, List.mem_append_left _ hv, hpath⟩

variable (h : s.Inv links start maxDepth (old ++ [w]))

include h

theorem head : w.IsEntry links start maxDepth s :=
  h.entries w (List.mem_append_left _ (List.mem_append_right _ List.mem_cons_self))

theorem before_of_mem_old (hu : u ∈ old) : u.Before w :=
  (List.pairwise_append.mp (List.pairwise_append.mp h.order).1).2.2 u hu w List.mem_cons_self

theorem before_of_mem_queue (hu : u ∈ s.queue) : w.Before u :=
  (List.pairwise_append.mp h.order).2.2 w (List.mem_append_right _ List.mem_cons_self) u hu

/-- What is nearer than the point that is expanded has been expanded. -/
theorem mem_old_of_lt (hu : u ∈ (old ++ [w]) ++ s.queue) (hlt : u.depth < w.depth) : u ∈ old := by
  rcases List.mem_append.mp hu with hu | hu
  · rcases List.mem_append.mp hu with hu | hu
    · exact hu
    · rw [List.mem_singleton.mp hu] at hlt
      exact absurd hlt (lt_irrefl _)
  · exact absurd (h.before_of_mem_queue hu).depth_le (by omega)

/-- A point that has been seen is an entry whose path is the shortest. -/
theorem entry_of_path {p : List α} (hp : Path (Linked links) start p a) (ha : a ∈ s.seen) :
    ∃ u ∈ (old ++ [w]) ++ s.queue, u.node = a ∧ u.IsEntry links start maxDepth s ∧
      u.path.length ≤ p.length := by
  obtain ⟨u, hu, rfl⟩ := h.entry a ha
  have hentry := h.entries u hu
  exact ⟨u, hu, rfl, hentry, hentry.leading.1.2 p hp⟩

variable (hexpanded : ∀ u ∈ old, s.Expanded links maxDepth u)

include hexpanded

omit h in
/-- A link from what has been expanded leads to what has been seen. -/
theorem seen_of_old (hu : u ∈ old) (hdepth : u.depth < maxDepth) (hlink : Linked links u.node b) :
    b ∈ s.seen := by
  rcases hexpanded u hu with ⟨-, hdeep⟩ | hall
  · omega
  · exact (hall b hlink).1

/-- **All that is not farther than the point that is expanded has been seen.** -/
theorem seen_of_path {p : List α} (hp : Path (Linked links) start p a)
    (hlen : p.length ≤ w.path.length) : a ∈ s.seen := by
  induction hp with
  | start =>
    rw [h.seen]
    exact List.mem_cons_self
  | step hp hlink ih =>
    rw [List.length_append, List.length_singleton] at hlen
    obtain ⟨u, hu, rfl, hentry, hshort⟩ := h.entry_of_path hp (ih (by omega))
    have hhead := h.head
    have hlt : u.depth < w.depth := by
      have := hentry.length
      have := hhead.length
      omega
    have := hhead.bound
    exact seen_of_old hexpanded (h.mem_old_of_lt hu hlt) (by omega) hlink

/-- **A point is found on its leading path.** -/
theorem leading_found (hdepth : w.depth < maxDepth) (hlink : Linked links w.node b)
    (hnew : b ∉ s.seen) : IsLeading (Linked links) start (w.path ++ [b]) b := by
  have hhead := h.head
  have hstart : b ≠ start := by
    rintro rfl
    rw [h.seen] at hnew
    exact hnew List.mem_cons_self
  -- the point in front of the last one of another path has not been expanded
  have hother : ∀ q, Path (Linked links) start q b → ∃ q', q = q' ++ [b] ∧
      w.path.length ≤ q'.length ∧ (q'.length = w.path.length → w.path ≤ q') := by
    intro q hq
    obtain ⟨q', c, rfl, hq', hc⟩ := hq.split hstart
    have hnear : ∀ hc' : c ∈ s.seen, ∃ u ∈ (old ++ [w]) ++ s.queue, u.node = c ∧
        u.IsEntry links start maxDepth s ∧ u.path.length ≤ q'.length ∧
        (u.path.length ≤ w.path.length → u ∉ old) := by
      intro hc'
      obtain ⟨u, hu, rfl, hentry, hshort⟩ := h.entry_of_path hq' hc'
      refine ⟨u, hu, rfl, hentry, hshort, fun hle hold => hnew ?_⟩
      have := hentry.length
      have := hhead.length
      exact seen_of_old hexpanded hold (by omega) hc
    have hlen : w.path.length ≤ q'.length := by
      by_contra hlt
      obtain ⟨u, hu, -, hentry, hshort, hold⟩ :=
        hnear (h.seen_of_path hexpanded hq' (by omega))
      have := hentry.length
      have := hhead.length
      exact hold (by omega) (h.mem_old_of_lt hu (by omega))
    refine ⟨q', rfl, hlen, fun heq => ?_⟩
    obtain ⟨u, hu, rfl, hentry, hshort, hold⟩ :=
      hnear (h.seen_of_path hexpanded hq' heq.le)
    have hulen := hentry.length
    have hwlen := hhead.length
    have hle : w.depth ≤ u.depth := by
      by_contra hlt
      exact hold (by omega) (h.mem_old_of_lt hu (by omega))
    have hshortest : IsShortest (Linked links) start q' u.node := by
      refine ⟨hq', fun p hp => ?_⟩
      have := hentry.leading.1.2 p hp
      omega
    have hpath : u.path ≤ q' := hentry.leading.2 q' hshortest
    rcases List.mem_append.mp hu with hu | hu
    · rcases List.mem_append.mp hu with hu | hu
      · exact absurd hu (hold (by omega))
      · rw [List.mem_singleton.mp hu] at hpath
        exact hpath
    · exact ((h.before_of_mem_queue hu).path_lt (by omega)).le.trans hpath
  refine ⟨⟨hhead.leading.1.1.step hlink, fun q hq => ?_⟩, fun q hq => ?_⟩
  · obtain ⟨q', rfl, hlen, -⟩ := hother q hq
    simp only [List.length_append]
    omega
  · obtain ⟨q', rfl, hlen, hle⟩ := hother q hq.1
    have hshort := hq.2 _ (hhead.leading.1.1.step hlink)
    simp only [List.length_append] at hshort
    exact append_le_append (hle (by omega)) (by omega) [b]

/-! ### One link -/

omit hexpanded in
/-- What is on the queue stands before what is found now. -/
theorem before_found (hsiblings : ∀ e ∈ s.queue, e.path = w.path ++ [e.node] → e.node < b)
    {e : Waiting α} (he : e ∈ (old ++ [w]) ++ s.queue) :
    e.Before ⟨b, w.depth + 1, w.path ++ [b]⟩ := by
  have hhead := h.head
  have hwlen := hhead.length
  rcases List.mem_append.mp he with hold | hqueue
  · refine .inl ?_
    rcases List.mem_append.mp hold with hold | hw
    · exact Nat.lt_succ_of_le (h.before_of_mem_old hold).depth_le
    · rw [List.mem_singleton.mp hw]
      exact Nat.lt_succ_self _
  · have helen := (h.entries e he).length
    rcases h.child e hqueue with hstart | ⟨u, hu, hpath⟩
    · refine .inl ?_
      rw [hstart, List.length_singleton] at helen
      show e.depth < w.depth + 1
      omega
    · have hulen := (h.entries u (List.mem_append_left _ hu)).length
      have hedepth : e.depth = u.depth + 1 := by
        rw [hpath, List.length_append, List.length_singleton] at helen
        omega
      rcases List.mem_append.mp hu with hold | hw
      · -- the parent stands before the point that is expanded
        have hbefore := h.before_of_mem_old hold
        rcases hbefore.depth_le.lt_or_eq with hlt | heq
        · refine .inl ?_
          show e.depth < w.depth + 1
          omega
        · refine .inr ⟨by rw [hedepth, heq], ?_⟩
          show e.path < w.path ++ [b]
          rw [hpath]
          exact append_lt_append (hbefore.path_lt heq) (by omega) _ _
      · obtain rfl := List.mem_singleton.mp hw
        refine .inr ⟨hedepth, ?_⟩
        show e.path < u.path ++ [b]
        rw [hpath]
        exact concat_lt_concat (hsiblings e hqueue hpath) _

/-- A new point goes to the end of the queue. -/
theorem found (hdepth : w.depth < maxDepth) {l : β} (hlink : (b, l) ∈ links w.node)
    (hnew : b ∉ s.seen) (hsiblings : ∀ e ∈ s.queue, e.path = w.path ++ [e.node] → e.node < b) :
    (s.found w b l).Inv links start maxDepth (old ++ [w]) := by
  have hhead := h.head
  have hleading := h.leading_found hexpanded hdepth ⟨l, hlink⟩ hnew
  have hlength : (w.path ++ [b]).length = w.depth + 1 + 1 := by
    rw [List.length_append, hhead.length, List.length_singleton]
  -- the new entry is the last of the queue, so what is said of each entry is said of it apart
  have hsplit : (old ++ [w]) ++ (s.found w b l).queue =
      ((old ++ [w]) ++ s.queue) ++ [⟨b, w.depth + 1, w.path ++ [b]⟩] :=
    (List.append_assoc _ _ _).symm
  refine ⟨⟨?_, ?_, ?_, h.cycles⟩, ?_, ?_, ?_, ?_⟩
  · show s.seen ++ [b] = start :: (s.nodes ++ [_]).map Found.node
    rw [h.seen, List.map_append]
    rfl
  · refine List.nodup_append.mpr ⟨h.nodup, List.nodup_singleton _, ?_⟩
    rintro x hx y hy rfl
    exact hnew (List.mem_singleton.mp hy ▸ hx)
  · intro f hf
    rcases List.mem_append.mp hf with hf | hf
    · exact h.dist f hf
    · rw [List.mem_singleton.mp hf]
      exact ⟨_, hleading.1, hlength⟩
  · intro e he
    rw [hsplit] at he
    rcases List.mem_append.mp he with he | he
    · have hentry := h.entries e he
      exact ⟨hentry.leading, hentry.length, hentry.bound,
        fun x hx => List.mem_append_left _ (hentry.path x hx)⟩
    · rw [List.mem_singleton.mp he]
      refine ⟨hleading, hlength, hdepth, fun x hx => ?_⟩
      rcases List.mem_append.mp hx with hx | hx
      · exact List.mem_append_left _ (hhead.path x hx)
      · exact List.mem_append_right _ hx
  · intro x hx
    rw [hsplit]
    rcases List.mem_append.mp hx with hx | hx
    · obtain ⟨e, he, hnode⟩ := h.entry x hx
      exact ⟨e, List.mem_append_left _ he, hnode⟩
    · exact ⟨_, List.mem_append_right _ (List.mem_singleton_self _), (List.mem_singleton.mp hx).symm⟩
  · rw [hsplit]
    refine List.pairwise_append.mpr ⟨h.order, List.pairwise_singleton _ _, fun e he e' he' => ?_⟩
    rw [List.mem_singleton.mp he']
    exact h.before_found hsiblings he
  · intro e he
    rcases List.mem_append.mp he with he | he
    · exact h.child e he
    · rw [List.mem_singleton.mp he]
      exact .inr ⟨w, List.mem_append_right _ List.mem_cons_self, rfl⟩

omit hexpanded in
/-- A link that comes back is recorded. -/
theorem loop (hlink : Linked links w.node b) (hmem : b ∈ w.path) :
    (s.loop w b).Inv links start maxDepth (old ++ [w]) := by
  refine ⟨⟨h.seen, h.nodup, h.dist, fun c hc => ?_⟩, fun e he => ?_, h.entry, h.order, h.child⟩
  · rcases List.mem_append.mp hc with hc | hc
    · exact h.cycles c hc
    · rw [List.mem_singleton.mp hc]
      exact ⟨w.path, w.node, b, rfl, h.head.leading, hlink, hmem⟩
  · have hentry := h.entries e he
    exact ⟨hentry.leading, hentry.length, hentry.bound, hentry.path⟩

end Breadth.Inv

/-! ### One turn -/

namespace Breadth

omit [LinearOrder α] in
/-- What has been expanded stays so while more is seen and recorded. -/
theorem Expanded.mono {t : Breadth α β} (h : s.Expanded links maxDepth u)
    (htruncated : s.truncated = true → t.truncated = true) (hseen : ∀ a ∈ s.seen, a ∈ t.seen)
    (hcycles : ∀ c ∈ s.cycles, c ∈ t.cycles) : t.Expanded links maxDepth u := by
  rcases h with ⟨ht, hdeep⟩ | hall
  · exact .inl ⟨htruncated ht, hdeep⟩
  · exact .inr fun b hb => ⟨hseen b (hall b hb).1, fun hmem => hcycles _ ((hall b hb).2 hmem)⟩

omit [LinearOrder α] in
theorem Expanded.found {l : β} (h : s.Expanded links maxDepth u) :
    (s.found w b l).Expanded links maxDepth u :=
  h.mono id (fun _ ha => List.mem_append_left _ ha) fun _ hc => hc

omit [LinearOrder α] in
theorem Expanded.loop (h : s.Expanded links maxDepth u) :
    (s.loop w b).Expanded links maxDepth u :=
  h.mono id (fun _ ha => ha) fun _ hc => List.mem_append_left _ hc

/-- **The loop over the links of a point**, behind those that have been followed. -/
theorem scan_spec (hsorted : (links w.node).Pairwise fun p p' => p.1 ≤ p'.1)
    (hdepth : w.depth < maxDepth) :
    ∀ {rest done : List (α × β)} {s : Breadth α β}, links w.node = done ++ rest →
      s.Inv links start maxDepth (old ++ [w]) → (∀ u ∈ old, s.Expanded links maxDepth u) →
      (∀ p ∈ done, p.1 ∈ s.seen ∧ (p.1 ∈ w.path → w.path ++ [p.1] ∈ s.cycles)) →
      (∀ e ∈ s.queue, e.path = w.path ++ [e.node] → ∃ p ∈ done, p.1 = e.node) →
      (s.scan maxNodes w rest).Going links start maxDepth ∨
        (s.scan maxNodes w rest).WasCut links start
  | [], done, s, hsplit, hinv, hexpanded, hdone, _ => by
    refine .inl ⟨old ++ [w], hinv, fun u hu => ?_⟩
    rcases List.mem_append.mp hu with hu | hu
    · exact hexpanded u hu
    · rw [List.mem_singleton.mp hu]
      refine .inr fun b ⟨l, hl⟩ => hdone (b, l) ?_
      rw [hsplit, List.append_nil] at hl
      exact hl
  | (b, l) :: rest, done, s, hsplit, hinv, hexpanded, hdone, hsiblings => by
    have hsplit' : links w.node = (done ++ [(b, l)]) ++ rest := by
      rw [hsplit, List.append_assoc, List.singleton_append]
    have hlink : (b, l) ∈ links w.node := by
      rw [hsplit]
      exact List.mem_append_right _ List.mem_cons_self
    unfold Breadth.scan
    split
    · rename_i hmem
      refine scan_spec hsorted hdepth hsplit' (hinv.loop ⟨l, hlink⟩ hmem)
        (fun u hu => (hexpanded u hu).loop) (fun p hp => ?_) fun e he hpath => ?_
      · rcases List.mem_append.mp hp with hp | hp
        · exact ⟨(hdone p hp).1, fun hp' => List.mem_append_left _ ((hdone p hp).2 hp')⟩
        · rw [List.mem_singleton.mp hp]
          exact ⟨hinv.head.path b hmem, fun _ => List.mem_append_right _ List.mem_cons_self⟩
      · obtain ⟨p, hp, hnode⟩ := hsiblings e he hpath
        exact ⟨p, List.mem_append_left _ hp, hnode⟩
    · rename_i hpath
      split
      · rename_i hseen
        refine scan_spec hsorted hdepth hsplit' hinv hexpanded (fun p hp => ?_)
          fun e he hpath' => ?_
        · rcases List.mem_append.mp hp with hp | hp
          · exact hdone p hp
          · rw [List.mem_singleton.mp hp]
            exact ⟨hseen, fun hmem => absurd hmem hpath⟩
        · obtain ⟨p, hp, hnode⟩ := hsiblings e he hpath'
          exact ⟨p, List.mem_append_left _ hp, hnode⟩
      · rename_i hnew
        split
        · exact .inr ⟨⟨hinv.seen, hinv.nodup, hinv.dist, hinv.cycles⟩, rfl, rfl⟩
        · -- the links are sorted, and a point that has been seen is another one
          have hless : ∀ e ∈ s.queue, e.path = w.path ++ [e.node] → e.node < b := by
            intro e he hepath
            obtain ⟨p, hp, hnode⟩ := hsiblings e he hepath
            rw [hsplit] at hsorted
            refine lt_of_le_of_ne ?_ ?_
            · rw [← hnode]
              exact (List.pairwise_append.mp hsorted).2.2 p hp (b, l) List.mem_cons_self
            · rintro rfl
              exact hnew (hnode ▸ (hdone p hp).1)
          refine scan_spec hsorted hdepth hsplit'
            (hinv.found hexpanded hdepth hlink hnew hless)
            (fun u hu => (hexpanded u hu).found) (fun p hp => ?_) fun e he hepath => ?_
          · rcases List.mem_append.mp hp with hp | hp
            · exact ⟨List.mem_append_left _ (hdone p hp).1, (hdone p hp).2⟩
            · rw [List.mem_singleton.mp hp]
              exact ⟨List.mem_append_right _ List.mem_cons_self, fun hmem => absurd hmem hpath⟩
          · rcases List.mem_append.mp he with he | he
            · obtain ⟨p, hp, hnode⟩ := hsiblings e he hepath
              exact ⟨p, List.mem_append_left _ hp, hnode⟩
            · rw [List.mem_singleton.mp he]
              exact ⟨(b, l), List.mem_append_right _ List.mem_cons_self, rfl⟩

/-- **One turn.** -/
theorem Going.turn (hsorted : ∀ a, (links a).Pairwise fun p p' => p.1 ≤ p'.1)
    (h : s.Going links start maxDepth) {queue : List (Waiting α)} (hqueue : s.queue = w :: queue) :
    (Breadth.turn links maxDepth maxNodes w { s with queue }).Going links start maxDepth ∨
      (Breadth.turn links maxDepth maxNodes w { s with queue }).WasCut links start := by
  obtain ⟨old, hinv, hexpanded⟩ := h
  have hpop := hinv.pop hqueue
  unfold Breadth.turn
  split
  · rename_i hdeep
    refine .inl ⟨old ++ [w], ⟨⟨hpop.seen, hpop.nodup, hpop.dist, hpop.cycles⟩, fun e he => ?_,
      hpop.entry, hpop.order, hpop.child⟩, fun u hu => ?_⟩
    · have hentry := hpop.entries e he
      exact ⟨hentry.leading, hentry.length, hentry.bound, hentry.path⟩
    · rcases List.mem_append.mp hu with hu | hu
      · exact (hexpanded u hu).mono (fun ht => by simp [ht]) (fun _ ha => ha) fun _ hc => hc
      · rw [List.mem_singleton.mp hu]
        cases hlinks : links w.node with
        | nil =>
          refine .inr fun b ⟨l, hl⟩ => ?_
          rw [hlinks] at hl
          exact absurd hl List.not_mem_nil
        | cons p l => exact .inl ⟨by simp, hdeep⟩
  · rename_i hdepth
    refine scan_spec (hsorted w.node) (not_le.mp hdepth) (List.nil_append _).symm hpop
      (fun u hu => (hexpanded u hu).mono id (fun _ ha => ha) fun _ hc => hc)
      (fun p hp => absurd hp List.not_mem_nil) fun e he hpath => ?_
    -- the parent of what is on the queue was expanded before
    exfalso
    rcases hinv.child e (hqueue ▸ List.mem_cons_of_mem _ he) with hstart | ⟨u, hu, hparent⟩
    · have hlen := congrArg List.length (hstart.symm.trans hpath)
      have hpos := hpop.head.leading.1.1.length_pos
      simp only [List.length_append, List.length_singleton] at hlen
      omega
    · have hsame := (List.append_inj' (hparent.symm.trans hpath) rfl).1
      have hulen := (hpop.entries u (List.mem_append_left _ (List.mem_append_left _ hu))).length
      have hwlen := hpop.head.length
      have hdepths : u.depth = w.depth := by
        rw [hsame] at hulen
        omega
      exact absurd ((hpop.before_of_mem_old hu).path_lt hdepths) (by rw [hsame]; exact lt_irrefl _)

/-! ### The whole search -/

/-- **A search** keeps its invariant until its queue is empty. -/
theorem run_spec (hsorted : ∀ a, (links a).Pairwise fun p p' => p.1 ≤ p'.1) :
    ∀ {fuel : ℕ} {s t : Breadth α β},
      s.Going links start maxDepth ∨ s.WasCut links start →
      s.run links maxDepth maxNodes fuel = some t →
      t.queue = [] ∧ (t.Going links start maxDepth ∨ t.WasCut links start)
  | 0, s, t, _, h => by cases h
  | fuel + 1, s, t, hstate, h => by
    unfold Breadth.run at h
    cases hqueue : s.queue with
    | nil =>
      rw [hqueue] at h
      cases h
      exact ⟨hqueue, hstate⟩
    | cons w queue =>
      rw [hqueue] at h
      rcases hstate with hgoing | ⟨-, -, hempty⟩
      · exact run_spec hsorted (hgoing.turn hsorted hqueue) h
      · rw [hempty] at hqueue
        cases hqueue

section

variable (hsorted : ∀ a, (links a).Pairwise fun p p' => p.1 ≤ p'.1) {fuel : ℕ} {t : Breadth α β}
  (h : (Breadth.initial start).run links maxDepth maxNodes fuel = some t)

include hsorted h

/-- **What any search has found.** -/
theorem run_isSound : t.IsSound links start := by
  rcases (run_spec hsorted (.inl going_initial) h).2 with ⟨old, hinv, -⟩ | ⟨hsound, -⟩
  · exact hinv.toIsSound
  · exact hsound

variable (hcomplete : t.truncated = false)

include hcomplete

/-- A search that is not truncated has followed the links of all that it has seen. -/
theorem run_entries : ∀ a ∈ t.seen, ∃ p, IsLeading (Linked links) start p a ∧
    ∀ b, Linked links a b → b ∈ t.seen ∧ (b ∈ p → p ++ [b] ∈ t.cycles) := by
  obtain ⟨hqueue, hstate⟩ := run_spec hsorted (.inl going_initial) h
  rcases hstate with ⟨old, hinv, hexpanded⟩ | ⟨-, ht, -⟩
  · intro a ha
    obtain ⟨u, hu, rfl⟩ := hinv.entry a ha
    refine ⟨u.path, (hinv.entries u hu).leading, ?_⟩
    rw [hqueue, List.append_nil] at hu
    rcases hexpanded u hu with ⟨ht, -⟩ | hall
    · rw [hcomplete] at ht
      cases ht
    · exact hall
  · rw [hcomplete] at ht
    cases ht

/-- **A search that is not truncated has seen exactly what the start reaches.** -/
theorem mem_seen_iff : a ∈ t.seen ↔ ReflTransGen (Linked links) start a := by
  have hsound := run_isSound hsorted h
  have hstart : start ∈ t.seen := by
    rw [hsound.seen]
    exact List.mem_cons_self
  constructor
  · intro ha
    obtain ⟨p, hp, -⟩ := run_entries hsorted h hcomplete a ha
    exact hp.1.1.reach
  · intro hreach
    induction hreach with
    | refl => exact hstart
    | tail _ hlink ih =>
      obtain ⟨p, -, hall⟩ := run_entries hsorted h hcomplete _ ih
      exact (hall _ hlink).1

/-- **The cycles of a search that is not truncated** are the leading paths with a link that comes
back to them. -/
theorem mem_cycles_iff {c : List α} : c ∈ t.cycles ↔ ∃ p a b, c = p ++ [b] ∧
    IsLeading (Linked links) start p a ∧ Linked links a b ∧ b ∈ p := by
  refine ⟨(run_isSound hsorted h).cycles c, ?_⟩
  rintro ⟨p, a, b, rfl, hp, hlink, hmem⟩
  have ha := (mem_seen_iff hsorted h hcomplete).mpr hp.1.1.reach
  obtain ⟨p', hp', hall⟩ := run_entries hsorted h hcomplete a ha
  rw [hp.unique hp'] at hmem ⊢
  exact (hall b hlink).2 hmem

end

end Breadth

end

end DirectedGraph
