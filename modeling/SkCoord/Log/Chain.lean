import Mathlib.Data.List.Chain
import Mathlib.Data.List.Infix
import Mathlib.Logic.Function.Basic

/-!
# Hash chains

Entries that may name the digest of the entry before.  A reader accepts a sequence in which every
entry that names a digest names that of the entry before it; an entry that names none begins a chain
anywhere.  `suffix_of_linked`: where every entry but the first names its predecessor, no accepted
sequence has the same last entry and other entries before it.
-/

namespace Chain

variable {α δ : Type*} (digest : α → δ) (link : α → Option δ)

/-- Every entry behind the first names the entry before. -/
def Linked (l : List α) : Prop := l.IsChain fun a b => link b = some (digest a)

/-- What a reader accepts behind an entry, or at the beginning. -/
def Accepts : Option α → List α → Prop
  | _, [] => True
  | before, a :: l => (∀ d ∈ link a, ∃ b ∈ before, d = digest b) ∧ Accepts (some a) l

variable {digest link}

theorem Accepts.of_append : ∀ {l m : List α} {before : Option α},
    Accepts digest link before (l ++ m) → Accepts digest link (l.getLast?.or before) m
  | [], _, _, h => h
  | a :: l, m, before, h => by
    have hrest := Accepts.of_append h.2
    cases l with
    | nil => exact hrest
    | cons b l =>
      rw [List.getLast?_cons_cons]
      cases hlast : (b :: l).getLast? with
      | none => exact absurd (List.getLast?_eq_none_iff.mp hlast) (List.cons_ne_nil _ _)
      | some c => rwa [hlast] at hrest

theorem Accepts.left : ∀ {l m : List α} {before : Option α},
    Accepts digest link before (l ++ m) → Accepts digest link before l
  | [], _, _, _ => trivial
  | _ :: _, _, _, h => ⟨h.1, Accepts.left h.2⟩

/-- An entry that names no other begins a chain. -/
theorem Accepts.of_none {a : α} {l : List α} {before : Option α}
    (h : Accepts digest link before (a :: l)) (ha : link a = none) :
    Accepts digest link none (a :: l) :=
  ⟨fun d hd => absurd (ha.symm.trans hd) (Option.some_ne_none d).symm, h.2⟩

/-- An accepted entry that names a digest stands behind the entry of that digest. -/
theorem Accepts.before {a : α} {l : List α} {d : δ} (h : Accepts digest link none (l ++ [a]))
    (ha : link a = some d) : ∃ b, l.getLast? = some b ∧ d = digest b := by
  obtain ⟨hlink, -⟩ := h.of_append
  obtain ⟨b, hb, hd⟩ := hlink d ha
  rw [Option.or_none] at hb
  exact ⟨b, hb, hd⟩

/-- **Tamper evidence**: what is accepted and ends like a linked sequence ends with the whole of
it. -/
theorem suffix_of_linked (hdigest : Function.Injective digest) {l : List α}
    (hl : Linked digest link l) : ∀ {m : List α}, Accepts digest link none m →
      m.getLast? = l.getLast? → l <:+ m := by
  induction l using List.reverseRecOn with
  | nil => exact fun _ _ => List.nil_suffix
  | append_singleton l a ih =>
    intro m hm hlast
    rw [List.getLast?_concat] at hlast
    obtain ⟨m, rfl⟩ := List.getLast?_eq_some_iff.mp hlast
    cases hl' : l.getLast? with
    | none =>
      rw [List.getLast?_eq_none_iff.mp hl']
      exact ⟨m, rfl⟩
    | some b =>
      -- the last entry names the one before it, in both
      have hlink : link a = some (digest b) :=
        (List.isChain_append.mp hl).2.2 b hl' a rfl
      obtain ⟨c, hc, hd⟩ := hm.before hlink
      have hbc : b = c := hdigest hd
      have hsuffix : l <:+ m := by
        exact ih (List.isChain_append.mp hl).1 hm.left (by rw [hc, hl', hbc])
      obtain ⟨p, hp⟩ := hsuffix
      exact ⟨p, by rw [← hp, List.append_assoc]⟩

/-- A sequence that is accepted as it is, and of which no end can stand for the whole, is linked. -/
theorem linked_of_suffix {l : List α} (hl : Accepts digest link none l)
    (h : ∀ m, m ≠ [] → m <:+ l → Accepts digest link none m → l <:+ m) : Linked digest link l := by
  refine List.isChain_iff_forall_rel_of_append_cons_cons.mpr fun {a b p q} hsplit => ?_
  rw [hsplit] at hl h
  have hb : Accepts digest link (some a) (b :: q) := by
    have hrest := hl.of_append
    exact hrest.2
  cases hlink : link b with
  | some d =>
    obtain ⟨c, hc, hd⟩ := hb.1 d hlink
    cases hc
    rw [hd]
  | none =>
    -- the chain can begin at `b`, so what is before can be cut off
    have hend : b :: q <:+ p ++ a :: b :: q := ⟨p ++ [a], by simp⟩
    have hcut := h (b :: q) (List.cons_ne_nil _ _) hend (hb.of_none hlink)
    have hlength := hcut.length_le
    rw [List.length_append, List.length_cons] at hlength
    omega

end Chain
