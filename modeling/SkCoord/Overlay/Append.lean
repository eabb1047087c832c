import SkCoord.Overlay.Bytes

/-!
# Appending to the bytes of a shard

`CardEventLog.append` writes the JSON text of an event and a newline behind what is in the shard of
this host.  `FileHome` is the shared home with its shards as bytes, and `FileHome.home` the same home
with the lines that its readers validate, on which the checks of `append` on the card run.
-/

namespace SkCoord

open Python

/-- The shared home with the bytes of its shards. -/
structure FileHome where
  cards : Assoc String CardDir := []
  archive : List ArchiveEntry := []
  files : Assoc String Bytes := []
  /-- A directory holds no two files of one name. -/
  nodup : (Assoc.keys files).Nodup := by decide

namespace FileHome

/-- The bytes of a shard; one that is missing is as an empty one. -/
def content (h : FileHome) (file : String) : Bytes := (Assoc.get? h.files file).getD []

/-- The home with other bytes in a shard. -/
def write (h : FileHome) (file : String) (content : Bytes) : FileHome :=
  { h with
    files := Assoc.set h.files file content
    nodup := Assoc.nodup_keys_set h.nodup file content }

@[simp] theorem content_write_self (h : FileHome) (file : String) (content : Bytes) :
    (h.write file content).content file = content := by
  rw [FileHome.content, write, Assoc.get?_set_self]
  rfl

@[simp] theorem content_write_ne (h : FileHome) {file name : String} (content : Bytes)
    (hname : name ≠ file) : (h.write file content).content name = h.content name := by
  rw [FileHome.content, write, Assoc.get?_set_ne _ _ hname, FileHome.content]

/-- The lines of a shard, as `read_all` validates them. -/
def overlayLines (E : OverlayEnv) (now : String) (content : Bytes) : List OverlayLine :=
  (CardEventLog.strippedLines content).map fun p => E.validateBytes now p.1

/-- The home with the validated lines of its shards. -/
def home (E : OverlayEnv) (now : String) (h : FileHome) : Home :=
  { cards := h.cards
    archive := h.archive
    shards := h.files.map fun p => (p.1, overlayLines E now p.2) }

/-- What `read_all` takes from a shard. -/
def reading (E : OverlayEnv) (now : String) (h : FileHome) (file : String) :
    CardEventLog.ShardReading :=
  CardEventLog.readShard E now file (h.content file)

end FileHome

namespace CardEventLog

variable (E : OverlayEnv) (now : String)

/-- `event.model_dump_json()`. -/
def payloadText (e : CardEvent) : List Char := Json.dumpsUtf8 E.floats (.obj e.modelDump)

/-- The check of `writer_lock`; the names of shards end as they should. -/
def requireFilename (file : String) : Except PyError Unit :=
  if file.toList.any (fun c => c = '/' || c = '\\') || contains file ".." then
    throw (.value "card event writer filename is unsafe")
  else pure ()

/-- The check of the text of an event. -/
def requireOneLine (payload : List Char) : Except PyError Unit :=
  if '\n' ∈ payload ∨ '\r' ∈ payload then
    throw (.value ("overlay event must serialize to a single line; " ++
      "a newline in the payload would split the ledger record"))
  else pure ()

/-- `append`. -/
def append (e : CardEvent) : Effect FileHome Unit := do
  let h ← Effect.get
  Effect.lift (requireIdentity E.env e)
  Effect.lift (requireCard E.env (h.home E now) e)
  let file := shardName E.env
  Effect.lift (requireFilename file)
  Effect.lift (e.validate E.env true)
  -- a shard that is missing is created when it is opened
  Effect.modify fun h => h.write file (h.content file)
  Effect.lift (requireContent E now file (h.content file))
  let payload := payloadText E e
  Effect.lift (requireOneLine payload)
  Effect.modify fun h => h.write file (h.content file ++ encodeUtf8 (payload ++ ['\n']))

end CardEventLog

end SkCoord
