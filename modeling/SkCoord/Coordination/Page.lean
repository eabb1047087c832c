import SkCoord.Coordination.Board
import SkCoord.Python.Bytes

/-!
# Pages of task views

`taskViewPageFromStore` reads one page of an owner's population: it asks the owner for one record
more than the page holds, folds each, and hands out a cursor when the page is not the last.  A cursor
names the last card of the page and is bound by a digest to the scope, the limit, the archive mode
and the population state.
-/

namespace SkCoord

open Python

/-! ### The owner -/

/-- One bounded owner result and its population identity. -/
structure TaskViewReadBatch where
  cardIds : List String
  populationState : String

/-- `_TASK_VIEW_SCOPE_MAX_CHARACTERS`. -/
def taskViewScopeMaxCharacters : ℕ := 256

/-- `_TASK_VIEW_SCOPE_MAX_BYTES`. -/
def taskViewScopeMaxBytes : ℕ := 1024

/-- Owner-authorized keyset reader; the bounds are those of `__post_init__`. -/
structure TaskViewReadScope where
  authorizationScope : String
  readPage : Option String → ℕ → Except PyError TaskViewReadBatch
  characters : 1 ≤ authorizationScope.toList.length ∧
    authorizationScope.toList.length ≤ taskViewScopeMaxCharacters
  bytes : authorizationScope.utf8ByteSize ≤ taskViewScopeMaxBytes

/-! ### Cursors -/

/-- What a cursor is signed with.  `digest` is `hmac.digest` under the secret of the process. -/
structure CursorEnv where
  floats : FloatText
  digest : Bytes → Bytes
  length_digest : ∀ body, (digest body).length = 32

/-- `_TASK_VIEW_CURSOR_MAX_ENCODED_BYTES`. -/
def taskViewCursorMaxEncodedBytes : ℕ := 10382

/-- The payload of a cursor, its keys in the order of `sort_keys`. -/
def cursorPayload (after : String) (archived : Bool) (limit : ℕ) (population scope : String) : Dict :=
  [("after", .str after), ("archived", .bool archived), ("limit", .int limit),
    ("population", .str population), ("scope", .str scope), ("v", .int 2)]

/-- `_task_view_cursor`. -/
def taskViewCursor (E : CursorEnv) (payload : Dict) : Except PyError String :=
  let body := encodeUtf8 ((Json.obj payload).dumps E.floats .compact)
  let cursor := stripPadding (urlsafeB64encode (body ++ E.digest body))
  if cursor.length > taskViewCursorMaxEncodedBytes then
    throw (.value "task-view cursor exceeds its encoded-size contract")
  else pure (String.ofList cursor)

/-- The fields of a cursor. -/
def cursorFields : List String := ["after", "archived", "limit", "population", "scope", "v"]

/-- The card and the population that a signed payload names, when it is bound to this read. -/
def boundPosition (payload : Json) (scope : String) (limit : ℕ) (includeArchived : Bool) :
    Option (String × String) :=
  match payload with
  | .obj d =>
    let bound :=
      (Assoc.keys d).all (· ∈ cursorFields) && cursorFields.all (· ∈ Assoc.keys d) &&
        (Dict.get d "v").pyEq (.int 2) && (Dict.get d "scope").pyEq (.str scope) &&
        (Dict.get d "limit").pyEq (.int limit) &&
        match Dict.get d "archived" with
        | .bool b => b == includeArchived
        | _ => false
    match Dict.get d "after", Dict.get d "population" with
    | .str after, .str population =>
      if bound && after ≠ "" && after.toList.length ≤ 128 && population ≠ "" &&
          population.toList.length ≤ 256 then
        (validateCardLockIdentifier after).toOption.map fun after => (after, population)
      else none
    | _, _ => none
  | _ => none

/-- What the characters of a cursor name: the text is decoded, the signature checked, the payload
read. -/
def cursorPosition (E : CursorEnv) (l : List Char) (scope : String) (limit : ℕ)
    (includeArchived : Bool) : Option (String × String) := do
  let raw ← b64decode (restorePadding l)
  let body := raw.take (raw.length - 32)
  let signature := raw.drop (raw.length - 32)
  if signature.length ≠ 32 ∨ signature ≠ E.digest body then none
  else
    let text ← decodeUtf8 body
    let payload ← Json.loads E.floats text
    boundPosition payload scope limit includeArchived

/-- `_task_view_cursor_position`. -/
def taskViewCursorPosition (E : CursorEnv) (cursor : Option String) (scope : String) (limit : ℕ)
    (includeArchived : Bool) : Except PyError (Option (String × String)) :=
  match cursor with
  | none => pure none
  | some cursor =>
    let l := cursor.toList
    if l = [] ∨ l.length > taskViewCursorMaxEncodedBytes ∨ l.any (fun c => 128 ≤ c.toNat) then
      throw (.value "task-view cursor is malformed")
    else
      match cursorPosition E l scope limit includeArchived with
      | some position => pure (some position)
      | none => throw (.value "task-view cursor is malformed, stale, or out of scope")

/-! ### Pages -/

/-- `_TASK_VIEW_PAGE_LIMIT`. -/
def taskViewPageLimit : ℕ := 200

/-- One bounded page plus a continuation cursor. -/
structure TaskViewPage where
  items : List TaskView
  populationState : String
  nextCursor : Option String
  hasMore : Bool
  eligibleRecordsTouched : ℕ

/-- The error of a page whose population has changed. -/
def stalePopulation : PyError := .value "task-view cursor population is stale"

/-- The card of one selected identifier. -/
def pageCard (env : Env) (st : Store) (includeArchived : Bool) (cardId : String) :
    Except PyError Card :=
  let card :=
    match Store.fold env st cardId with
    | .error e => some (unreadableCard cardId e)
    | .ok card => card
  match card with
  | none => throw stalePopulation
  | some c =>
    if c.id ≠ cardId ∨ (c.kind ≠ .task ∧ c.kind ≠ .epic) ∨ (c.archived && !includeArchived) then
      throw stalePopulation
    else pure c

/-- The loop over the selected identifiers. -/
def pageCards (env : Env) (st : Store) (includeArchived : Bool) :
    Option String → List String → Except PyError (List Card)
  | _, [] => pure []
  | previous, cardId :: ids => do
    let _ ← validateCardLockIdentifier cardId
    if previous.any fun p => decide (cardId ≤ p) then
      throw (.value "task-view owner reader returned an unstable order")
    else
      let card ← pageCard env st includeArchived cardId
      let cards ← pageCards env st includeArchived (some cardId) ids
      pure (card :: cards)

/-- The cursor behind a page that is not the last. -/
def nextCursorOf (E : CursorEnv) (scope : String) (limit : ℕ) (includeArchived : Bool)
    (population : String) (cards : List Card) : Except PyError (Option String) :=
  match cards[limit - 1]? with
  | some last =>
    if cards.length > limit then do
      let cursor ← taskViewCursor E (cursorPayload last.id includeArchived limit population scope)
      pure (some cursor)
    else pure none
  | none => pure none

/-- The batch that the owner returns for a position. -/
def ownerBatch (scope : TaskViewReadScope) (limit : ℕ) (after : Option String) :
    Except PyError TaskViewReadBatch :=
  match scope.readPage after (limit + 1) with
  | .ok batch => pure batch
  -- the death of the process is no `Exception`
  | .error .killed => throw .killed
  | .error _ => throw (.value "task-view authorization population is unavailable")

/-- The page behind a position. -/
def pageBehind (env : Env) (E : CursorEnv) (st : Store) (scope : TaskViewReadScope) (limit : ℕ)
    (includeArchived : Bool) (position : Option (String × String)) : Except PyError TaskViewPage := do
  let after := position.map Prod.fst
  let batch ← ownerBatch scope limit after
  if batch.cardIds.length > limit + 1 then
    throw (.value "task-view owner reader exceeded the bounded request")
  else if batch.populationState = "" ∨ batch.populationState.toList.length > 256 ∨
      position.any (fun p => batch.populationState ≠ p.2) then
    throw stalePopulation
  else
    let cards ← pageCards env st includeArchived after batch.cardIds
    let items ← (cards.take limit).mapM taskViewFromCard
    let nextCursor ← nextCursorOf E scope.authorizationScope limit includeArchived
      batch.populationState cards
    pure
      { items
        populationState := batch.populationState
        nextCursor
        hasMore := decide (cards.length > limit)
        eligibleRecordsTouched := batch.cardIds.length }

/-- `task_view_page_from_store`. -/
def taskViewPageFromStore (env : Env) (E : CursorEnv) (st : Store) (scope : TaskViewReadScope)
    (limit : ℕ) (includeArchived : Bool) (cursor : Option String) : Except PyError TaskViewPage := do
  if ¬(1 ≤ limit ∧ limit ≤ taskViewPageLimit) then
    throw (.value ("task-view limit must be between 1 and " ++ toString taskViewPageLimit))
  else
    let position ← taskViewCursorPosition E cursor scope.authorizationScope limit includeArchived
    pageBehind env E st scope limit includeArchived position

/-- The pages from a cursor to the one without a next cursor.  The number bounds how many. -/
def readPages (page : Option String → Except PyError TaskViewPage) :
    ℕ → Option String → Except PyError (List TaskViewPage)
  | 0, _ => throw (.runtime "more pages than expected")
  | n + 1, cursor => do
    let p ← page cursor
    match p.nextCursor with
    | none => pure [p]
    | some next => do
      let rest ← readPages page n (some next)
      pure (p :: rest)

/-! ### Populations -/

/-- An identifier that a page may list: it folds to a task or an epic of its own name, archived only
where archived cards are included. -/
def Listable (env : Env) (st : Store) (includeArchived : Bool) (cardId : String) : Prop :=
  ∃ c, Store.fold env st cardId = .ok (some c) ∧ c.id = cardId ∧
    (c.kind = .task ∨ c.kind = .epic) ∧ (c.archived = true → includeArchived = true)

/-- A population that stays fixed: listable identifiers in order, and their state. -/
structure Population (env : Env) (st : Store) (includeArchived : Bool) where
  ids : List String
  sorted : ids.Pairwise (· < ·)
  listable : ∀ cardId ∈ ids, Listable env st includeArchived cardId
  state : String

/-- The first identifiers of a population behind one. -/
def Population.batch {env : Env} {st : Store} {includeArchived : Bool}
    (p : Population env st includeArchived) (after : Option String) (count : ℕ) :
    TaskViewReadBatch where
  cardIds := (p.ids.filter fun cardId => after.all (· < cardId)).take count
  populationState := p.state

/-- The scope reads the population. -/
def TaskViewReadScope.Reads {env : Env} {st : Store} {includeArchived : Bool}
    (scope : TaskViewReadScope) (p : Population env st includeArchived) : Prop :=
  ∀ after count, scope.readPage after count = .ok (p.batch after count)

/-- The card has the texts that a task view holds. -/
def HasView (env : Env) (st : Store) (cardId : String) : Prop :=
  ∃ c v, Store.fold env st cardId = .ok (some c) ∧ taskViewFromCard c = .ok v

end SkCoord
