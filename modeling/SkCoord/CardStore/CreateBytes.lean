import SkCoord.CardStore.CreateExplicit
import SkCoord.Python.JsonFile

/-!
# The bytes that `create` writes

`create` opens `core.json` for an exclusive write and then writes the text of the core in place, as
many bytes at a time as the system takes.  A creation that is stopped, or whose write fails, leaves
the file as it is by then, and every later read of the card goes by that file.
-/

namespace SkCoord

open Python

/-- The text of a core, with what reads it. -/
structure CoreText (core : CardCore) where
  floats : FloatText
  /-- `core.model_dump_json(indent=2)`. -/
  dump : List Char
  /-- The object of the text. -/
  value : Dict
  /-- The core of an object. -/
  read : Dict → CardCore
  opens : dump.head? = some '{'
  closes : dump.getLast? = some '}'
  loads : Json.loads floats dump = some (.obj value)
  read_value : read value = core

namespace CoreText

variable {core : CardCore}

/-- `(core.model_dump_json(indent=2) + "\n").encode("utf-8")`. -/
def payload (text : CoreText core) : Bytes := encodeUtf8 (text.dump ++ ['\n'])

/-- The bytes of the object itself. -/
def objectBytes (text : CoreText core) : Bytes := encodeUtf8 text.dump

/-- What `_load_core` makes of the bytes of a file. -/
def coreFile (text : CoreText core) (raw : Bytes) : CoreFile :=
  match decodeUtf8 raw with
  | none => .malformed
  | some s =>
    match Json.loads text.floats s with
    | some (.obj d) => .present (text.read d)
    | _ => .malformed

end CoreText

/-- A store with this file as the core of a card. -/
def Store.putCore (st : Store) (cardId : String) (file : CoreFile) : Store :=
  { st with cards := Assoc.set st.cards cardId { st.dir cardId with core := file } }

/-- How far a creation has come: it has passed its checks, it has written so many bytes of an open
file, or it has closed the file. -/
inductive CreatePhase where
  | checked
  | writing (offset : ℕ)
  | written
  deriving DecidableEq, Repr

/-- A creation and the store. -/
structure CreateState where
  phase : CreatePhase
  store : Store

/-- One step of a creation on the file. -/
inductive WriteStep {core : CardCore} (text : CoreText core) :
    CreateState → CreateState → Prop where
  /-- `os.open("core.json", O_CREAT | O_EXCL | O_WRONLY)`. -/
  | openFile {st : Store} (h : (st.dir core.id).core.exists = false) :
    WriteStep text ⟨.checked, st⟩ ⟨.writing 0, st.putCore core.id (text.coreFile [])⟩
  /-- `offset += os.write(fd, payload[offset:])`. -/
  | write {st : Store} {offset n : ℕ} (hn : 0 < n) (hle : offset + n ≤ text.payload.length) :
    WriteStep text ⟨.writing offset, st⟩
      ⟨.writing (offset + n),
        st.putCore core.id (text.coreFile (text.payload.take (offset + n)))⟩
  /-- `os.fsync(fd)` and `os.close(fd)`. -/
  | close {st : Store} :
    WriteStep text ⟨.writing text.payload.length, st⟩ ⟨.written, st⟩

/-- What a creation in a store may leave when it is stopped: any state on its way. -/
def StopsAt {core : CardCore} (text : CoreText core) (st : Store) (s : CreateState) : Prop :=
  Relation.ReflTransGen (WriteStep text) ⟨.checked, st⟩ s

/-- The creation passes its checks and comes to its write. -/
structure Admissible (env : CreationEnv) (core : CardCore) (st : Store) : Prop where
  creationGuard : env.creationGuard st core = .ok ()
  valid : validateCardLockIdentifier core.id = .ok core.id
  absent : (st.dir core.id).core = .absent
  governCreate : SkCoord.governCreate env st core = .ok ()

/-- What a creation that was stopped should leave, where `st` is the store before it. -/
structure CrashAtomic (env : CreationEnv) (core : CardCore) (st st' : Store) : Prop where
  /-- No core is visible or the complete one is. -/
  visible : st'.loadCore core.id = .ok none ∨ st'.loadCore core.id = .ok (some core)
  /-- The card folds. -/
  folds : ∃ card, st'.fold env.env core.id = .ok card
  /-- The cards are listed if they were. -/
  lists : ∀ includeArchived, (st.listCards env.env includeArchived).isOk →
    (st'.listCards env.env includeArchived).isOk
  /-- The governor answers for another card as it did, or as it does once the card is there. -/
  governs : ∀ other : CardCore, other.id ≠ core.id →
    SkCoord.governCreate env st' other = SkCoord.governCreate env st other ∨
      SkCoord.governCreate env st' other = SkCoord.governCreate env (st.setCore core) other
  /-- The same creation returns, and the complete core is stored. -/
  retries : ∀ s : CreationState, s.store = st' →
    ∃ t, (create env .ok .ok core).run s = (.ok core.id, t) ∧
      (t.store.dir core.id).core = .present core

end SkCoord
