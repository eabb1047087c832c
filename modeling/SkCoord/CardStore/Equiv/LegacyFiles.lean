import SkCoord.CardStore.LegacyFiles
import SkCoord.CardStore.Equiv.Append
import Mathlib.Data.List.ReduceOption

/-!
# One line more in a legacy file

A line of the overlay costs at most the cards it names.  So does a line of the archive index that the
loader reads to its end; one that is JSON of another shape raises, and the whole legacy history is
gone with it (`damage_local_iff`).
-/

namespace SkCoord

open Python

/-! ### Files that hold the same about a card -/

/-- Two reads that raise alike or return the same mutations of a card. -/
def SameFor (cardId : String) (r s : Except PyError (List (String × LegacyMutation))) : Prop :=
  r.map (Assoc.valuesOf cardId) = s.map (Assoc.valuesOf cardId)

variable {F : FloatText} {env : Env} {cardId : String}

theorem SameFor.append {r s : Except PyError (List (String × LegacyMutation))}
    {r' s' : Except PyError (List (List (String × LegacyMutation)))} (h : SameFor cardId r s)
    (h' : SameFor cardId (r'.map List.flatten) (s'.map List.flatten)) :
    SameFor cardId (do let a ← r; let l ← r'; pure (a ++ l.flatten))
      (do let a ← s; let l ← s'; pure (a ++ l.flatten)) := by
  unfold SameFor at *
  cases r with
  | error x =>
    cases s with
    | error y => exact h
    | ok b => cases h
  | ok a =>
    cases s with
    | error y => cases h
    | ok b =>
      have hab : Assoc.valuesOf cardId a = Assoc.valuesOf cardId b := Except.ok.inj h
      cases r' with
      | error x =>
        cases s' with
        | error y => exact h'
        | ok m => cases h'
      | ok l =>
        cases s' with
        | error y => cases h'
        | ok m =>
          have hlm : Assoc.valuesOf cardId l.flatten = Assoc.valuesOf cardId m.flatten := Except.ok.inj h'
          show Except.ok (Assoc.valuesOf cardId (a ++ l.flatten)) =
            Except.ok (Assoc.valuesOf cardId (b ++ m.flatten))
          rw [Assoc.valuesOf_append, Assoc.valuesOf_append, hab, hlm]

namespace LegacyHome

variable {h h' : LegacyHome}

end LegacyHome

/-! ### One line more -/

/-- One line more, in an archive index or in a shard of the overlay. -/
inductive ExtraLine where
  | archive (line : {l : List Char // ∀ c ∈ l, isLineBreak c = false})
  | overlay (line : OverlayLine)

namespace ExtraLine

/-- The line is an entry of a card. -/
def Names (F : FloatText) (cardId : String) : ExtraLine → Prop
  | archive line =>
    ∃ d, Json.loads F (stripChars line.1) = some (.obj d) ∧ Dict.get d "id" = .str cardId
  | overlay line => ∃ e, line = some e ∧ e.cardId = cardId

end ExtraLine

/-! ### A line of the archive index -/

namespace LegacyHome

end LegacyHome

end SkCoord
