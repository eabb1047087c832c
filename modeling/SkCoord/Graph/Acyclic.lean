import Mathlib.Logic.Relation
import Mathlib.Data.Fintype.Card
import Mathlib.Data.Set.Finite.List

/-!
# Acyclic relations

A relation without a path from a point to itself.  `Acyclic.mono` passes to fewer edges and
`Acyclic.insert` to more: edges out of one point keep a relation acyclic when none of their ends
reaches that point.  `Acyclic.union` adds edges anywhere, as long as none leads back to where it
begins.  With finitely many edges every path ends (`Acyclic.exists_end`).
-/

namespace DirectedGraph

open Relation

variable {α : Type*} {r r' : α → α → Prop}

/-- No point is on a path to itself. -/
def Acyclic (r : α → α → Prop) : Prop := ∀ a, ¬TransGen r a a

theorem Acyclic.mono (h : Acyclic r) (hsub : ∀ a b, r' a b → r a b) : Acyclic r' :=
  fun a hcycle => h a (TransGen.mono hsub a a hcycle)

/-- A relation without edges is acyclic. -/
theorem acyclic_of_empty (h : ∀ a b, ¬r a b) : Acyclic r := by
  intro a hcycle
  obtain ⟨b, hab, -⟩ := TransGen.head'_iff.mp hcycle
  exact h a b hab

section

variable {c : α} (hnew : ∀ a b, r' a b → r a b ∨ a = c ∧ ¬ReflTransGen r b c)
include hnew

/-- Up to its first visit of `c` a path uses no edge out of `c`. -/
theorem reach_of_new {b : α} (h : ReflTransGen r' b c) : ReflTransGen r b c := by
  induction h using ReflTransGen.head_induction_on with
  | refl => exact .refl
  | head hstep _ ih =>
    rcases hnew _ _ hstep with hr | ⟨rfl, -⟩
    · exact .head hr ih
    · exact .refl

/-- A path without edges out of `c` is an old one. -/
theorem path_of_new {a b : α} (h : TransGen r' a b) :
    TransGen r a b ∨ ReflTransGen r' a c ∧ TransGen r' c b := by
  induction h with
  | single hab =>
    rcases hnew _ _ hab with hr | ⟨rfl, -⟩
    · exact Or.inl (.single hr)
    · exact Or.inr ⟨.refl, .single hab⟩
  | tail hpath hstep ih =>
    rcases hnew _ _ hstep with hr | ⟨rfl, -⟩
    · rcases ih with hold | ⟨hac, hcb⟩
      · exact Or.inl (hold.tail hr)
      · exact Or.inr ⟨hac, hcb.tail hstep⟩
    · exact Or.inr ⟨hpath.to_reflTransGen, .single hstep⟩

/-- **More edges**, out of one point that none of their ends reaches. -/
theorem Acyclic.insert (h : Acyclic r) : Acyclic r' := by
  -- a cycle through `c` leaves it by an old edge, since the new ones do not come back
  have hc : ¬TransGen r' c c := by
    intro hcycle
    obtain ⟨b, hcb, hbc⟩ := TransGen.head'_iff.mp hcycle
    have hold : ReflTransGen r b c := reach_of_new hnew hbc
    rcases hnew _ _ hcb with hr | ⟨-, hno⟩
    · exact h c (TransGen.head' hr hold)
    · exact hno hold
  intro a hcycle
  rcases path_of_new hnew hcycle with hold | ⟨hac, hca⟩
  · exact h a hold
  · exact hc (hca.trans_left hac)

end

/-! ### New edges that close no cycle -/

/-- **Guarded edges**: edges whose ends do not lead back to where they begin close no cycle. -/
theorem Acyclic.union (h : Acyclic r)
    (hnew : ∀ a b, r' a b → ¬ReflTransGen (fun a b => r a b ∨ r' a b) b a) :
    Acyclic fun a b => r a b ∨ r' a b := by
  -- a path is an old one, or it takes a new edge somewhere
  have hsplit : ∀ {a b : α}, TransGen (fun a b => r a b ∨ r' a b) a b →
      TransGen r a b ∨ ∃ c d, ReflTransGen (fun a b => r a b ∨ r' a b) a c ∧ r' c d ∧
        ReflTransGen (fun a b => r a b ∨ r' a b) d b := by
    intro a b hpath
    induction hpath with
    | single hab =>
      rcases hab with hr | hr'
      · exact .inl (.single hr)
      · exact .inr ⟨a, _, .refl, hr', .refl⟩
    | tail hpath hstep ih =>
      rcases ih with hold | ⟨c, d, hac, hcd, hdb⟩
      · rcases hstep with hr | hr'
        · exact .inl (hold.tail hr)
        · exact .inr ⟨_, _, hpath.to_reflTransGen, hr', .refl⟩
      · exact .inr ⟨c, d, hac, hcd, hdb.tail hstep⟩
  intro a hcycle
  rcases hsplit hcycle with hold | ⟨c, d, hac, hcd, hda⟩
  · exact h a hold
  · exact hnew c d hcd (hda.trans hac)

/-- **The ends of paths**: when finitely many points have edges, every point leads to one without.
-/
theorem Acyclic.exists_end (h : Acyclic r) {l : List α} (hl : ∀ a b, r a b → a ∈ l) (a : α) :
    ∃ c, ReflTransGen r a c ∧ ∀ d, ¬r c d := by
  by_cases ha : a ∈ l
  · let back : {a // a ∈ l} → {a // a ∈ l} → Prop := fun x y => TransGen r y.1 x.1
    have : IsTrans {a // a ∈ l} back := ⟨fun _ _ _ hxy hyz => hyz.trans hxy⟩
    have : Std.Irrefl back := ⟨fun x hx => h x.1 hx⟩
    have : Finite {a // a ∈ l} := (List.finite_toSet l).to_subtype
    have hwf : WellFounded back := Finite.wellFounded_of_trans_of_irrefl back
    suffices hend : ∀ x : {a // a ∈ l}, ∃ c, ReflTransGen r x.1 c ∧ ∀ d, ¬r c d from hend ⟨a, ha⟩
    intro x
    induction x using hwf.induction with
    | _ x ih =>
      by_cases hstep : ∃ d, r x.1 d
      · obtain ⟨d, hd⟩ := hstep
        by_cases hdl : d ∈ l
        · obtain ⟨c, hc, hcend⟩ := ih ⟨d, hdl⟩ (.single hd)
          exact ⟨c, .head hd hc, hcend⟩
        · exact ⟨d, .single hd, fun e he => hdl (hl d e he)⟩
      · exact ⟨x.1, .refl, fun d hd => hstep ⟨d, hd⟩⟩
  · exact ⟨a, .refl, fun d hd => ha (hl a d hd)⟩

/-- Where every point has one edge at most, all paths from a point end at one. -/
theorem end_unique (h : ∀ a b c, r a b → r a c → b = c) {a c c' : α} (hc : ReflTransGen r a c)
    (hend : ∀ d, ¬r c d) (hc' : ReflTransGen r a c') (hend' : ∀ d, ¬r c' d) : c = c' := by
  have hstop : ∀ {x y : α}, (∀ d, ¬r x d) → ReflTransGen r x y → x = y := by
    intro x y hx hxy
    rcases hxy.cases_head with rfl | ⟨d, hd, -⟩
    · rfl
    · exact absurd hd (hx d)
  rcases ReflTransGen.total_of_right_unique (fun a b c hb hc => h a b c hb hc) hc hc' with hcc | hcc
  · exact hstop hend hcc
  · exact (hstop hend' hcc).symm

end DirectedGraph
