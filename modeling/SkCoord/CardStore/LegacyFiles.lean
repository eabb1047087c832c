import SkCoord.CardStore.Overlay
import SkCoord.Python.Lines

/-!
# The files of the legacy mutations

`load_legacy_mutations` reads the archive index from texts: a line that is no JSON is skipped, a line
that is something else than an object has no `get` and ends the loader.  `_legacy_events` catches
what the loader raises and goes on without any legacy mutation.
-/

namespace SkCoord

open Python

/-- A line of the archive index: the card it archives, with its mutation.  A key that is no text is
the key of no card. -/
def archiveLine (F : FloatText) (line : List Char) :
    Except PyError (Option (String × LegacyMutation)) :=
  match Json.loads F line with
  | none => pure none
  | some entry => do
    let id ← entry.getAttr "id"
    if id.truthy then
      id.requireHashable
      match entry, id with
      | .obj d, .str cardId =>
        pure (some (cardId, archiveMutation { id := cardId
                                              archivedAt := Dict.getD d "archived_at" (.str "")
                                              archivedBy := Dict.get d "archived_by" }))
      | _, _ => pure none
    else pure none

/-- The mutations of an archive index; a file that cannot be read has none. -/
def archiveFile (F : FloatText) : Option (List Char) →
    Except PyError (List (String × LegacyMutation))
  | none => pure []
  | some text => do
    let entries ← (nonBlankLines text).mapM (archiveLine F)
    pure entries.reduceOption

/-- The shared home with the texts of its archive indices, `none` where one cannot be read. -/
structure LegacyHome where
  cards : Assoc String CardDir := []
  archive : Assoc String (Option (List Char)) := []
  shards : Assoc String (List OverlayLine) := []

namespace LegacyHome

/-- The archive indices in the order in which they are read. -/
def archiveFiles (h : LegacyHome) : List (String × Option (List Char)) :=
  (h.archive.filter fun p => endsWith p.1 ".jsonl").insertionSort fun p q => p.1 ≤ q.1

/-- The mutations of the archive indices. -/
def archiveMutations (F : FloatText) (h : LegacyHome) :
    Except PyError (List (String × LegacyMutation)) := do
  let files ← h.archiveFiles.mapM fun p => archiveFile F p.2
  pure files.flatten

/-- The mutations of the overlay. -/
def overlayMutations (env : Env) (h : LegacyHome) : List (String × LegacyMutation) :=
  (CardEventLog.readAll env h.shards).filterMap fun e =>
    (overlayMutation e).map fun m => (e.cardId, m)

/-- `load_legacy_mutations`. -/
def loadLegacyMutations (F : FloatText) (env : Env) (h : LegacyHome) :
    Except PyError (Assoc String (List LegacyMutation)) := do
  let archived ← h.archiveMutations F
  pure ((archived ++ h.overlayMutations env).foldl addMutation [])

/-- The mutations that `_legacy_events` looks up. -/
def legacyCache (F : FloatText) (env : Env) (h : LegacyHome) : Assoc String (List LegacyMutation) :=
  match h.loadLegacyMutations F env with
  | .error _ => []
  | .ok mutations => mutations

/-- `CardStore(home)`. -/
def store (F : FloatText) (env : Env) (h : LegacyHome) : Store :=
  { cards := h.cards, legacy := h.legacyCache F env }

end LegacyHome

end SkCoord
