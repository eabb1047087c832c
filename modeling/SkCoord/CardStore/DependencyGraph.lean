import SkCoord.CardStore.Store
import SkCoord.Graph.Search

/-!
# The dependency graph of the board

`foldedEdges` is the graph that every new dependency is checked against: the folded dependencies
of every card in the store, an unreadable card counting as one without any.
-/

namespace SkCoord

open Python

/-- `would_create_cycle`. -/
def wouldCreateCycle (edges : Assoc String (List String)) (cardId dependencyId : String) : Bool :=
  if cardId = dependencyId then true
  else DirectedGraph.search edges cardId (DirectedGraph.searchFuel edges) [] [dependencyId]

/-- A call of `amend_dependency` with the action `add_dependency`. -/
structure Amendment where
  cardId : String
  dependencyId : String
  agent : String := ""
  reason : String
  deriving DecidableEq, Repr

/-- The payload of an amendment. -/
def Amendment.payload (a : Amendment) : Dict :=
  [("dependency", .str a.dependencyId), ("reason", .str (strip a.reason))]

/-- The file is there. -/
def CoreFile.exists : CoreFile → Bool
  | .absent => false
  | _ => true

namespace Store

/-- The names of directories that hold a core. -/
def namesWithCore (st : Store) : List String → Except PyError (List String)
  | [] => pure []
  | name :: names => do
    let _ ← validateCardLockIdentifier name
    let rest ← namesWithCore st names
    pure (if (st.dir name).core.exists then name :: rest else rest)

/-- `list_card_ids`. -/
def listCardIds (st : Store) : Except PyError (List String) :=
  namesWithCore st ((Assoc.keys st.cards).insertionSort fun a b => a ≤ b)

/-- `list_cards`. -/
def listCards (env : Env) (st : Store) (includeArchived : Bool) : Except PyError (List Card) := do
  let ids ← st.listCardIds
  let cards ← ids.mapM (st.fold env)
  pure (cards.reduceOption.filter fun c => includeArchived || !c.archived)

/-- A card of the board: its identifier and its folded dependencies.  A card that does not fold
is listed as unreadable, without dependencies. -/
def cardEdges (env : Env) (st : Store) (cardId : String) : Option (String × List String) :=
  match fold env st cardId with
  | .error _ => some (cardId, [])
  | .ok none => none
  | .ok (some c) => some (c.id, c.dependencies)

/-- `{card.id: list(card.dependencies) for card in self.list_cards(include_archived=True,
degrade_unreadable=True)}`. -/
def foldedEdges (env : Env) (st : Store) : Except PyError (Assoc String (List String)) := do
  let ids ← listCardIds st
  pure ((ids.filterMap (cardEdges env st)).foldl (fun d p => Assoc.set d p.1 p.2) [])

/-- The error of a dependency that closes a cycle. -/
def cycleError (cardId dependencyId : String) : PyError :=
  .value ("dependency " ++ cardId ++ " -> " ++ dependencyId ++ " would create a cycle")

/-! ### Amendments -/

/-- `_card_exists`; `tasks` are the identifiers of the legacy task files. -/
def cardExists (st : Store) (tasks : List String) (cardId : String) : Except PyError Bool := do
  let core ← loadCore st cardId
  pure (core.isSome || cardId ∈ tasks)

/-- `current_dependencies`. -/
def currentDependencies (env : Env) (st : Store) (cardId : String) :
    Except PyError (List String) := do
  let card ← fold env st cardId
  pure ((card.map (·.dependencies)).getD [])

/-- What `amend_dependency` does before it takes the lock of the card. -/
def amendRequire (st : Store) (tasks : List String) (a : Amendment) : Except PyError Unit := do
  require (a.cardId ≠ "" ∧ a.dependencyId ≠ "") "card and dependency identifiers are required"
  require (a.cardId ≠ a.dependencyId) "a card cannot depend on itself"
  require (isBlank a.reason = false) "a dependency amendment reason is required"
  let found ← cardExists st tasks a.cardId
  require (found = true) ("card " ++ a.cardId ++ " not found")
  let found ← cardExists st tasks a.dependencyId
  require (found = true) ("dependency " ++ a.dependencyId ++ " not found")
where
  require (p : Prop) [Decidable p] (msg : String) : Except PyError Unit :=
    if p then pure () else throw (.value msg)

/-- What `amend_dependency` reads under the lock of the card: `false` when the dependency is there
already, and an error when it closes a cycle. -/
def amendCheck (env : Env) (st : Store) (a : Amendment) : Except PyError Bool := do
  let dependencies ← currentDependencies env st a.cardId
  if a.dependencyId ∈ dependencies then pure false
  else do
    let edges ← foldedEdges env st
    if wouldCreateCycle edges a.cardId a.dependencyId then
      throw (cycleError a.cardId a.dependencyId)
    else pure true

/-- The event that `amend_dependency` appends. -/
def amendAppend (env : Env) (st : Store) (a : Amendment) (stamp : Stamp) :
    Except PyError (Store × Event) :=
  appendEvent env st a.cardId "add_dependency" (if a.agent = "" then "coord" else a.agent)
    a.payload stamp

/-! ### Creation -/

/-- The dependency checks of `_govern_create`. -/
def governDependencies (env : Env) (st : Store) (core : CardCore) : Except PyError Unit :=
  if core.dependencies.isEmpty then pure ()
  else do
    let edges ← foldedEdges env st
    core.dependencies.forM fun dependencyId =>
      if wouldCreateCycle edges core.id dependencyId then
        throw (cycleError core.id dependencyId)
      else pure ()

/-- A store with this core in the directory of its card. -/
def setCore (st : Store) (core : CardCore) : Store :=
  { st with cards := Assoc.set st.cards core.id { st.dir core.id with core := .present core } }

theorem dir_setCore_self (st : Store) (core : CardCore) :
    (st.setCore core).dir core.id = { st.dir core.id with core := .present core } := by
  unfold setCore dir
  simp

theorem dir_setCore_of_ne (st : Store) {core : CardCore} {cardId : String} (h : cardId ≠ core.id) :
    (st.setCore core).dir cardId = st.dir cardId := by
  unfold setCore dir
  simp [h]

/-- The exclusive write of `create`: a core that is there already stays. -/
def publishCore (st : Store) (core : CardCore) : Store :=
  if (st.dir core.id).core.exists then st else setCore st core

end Store

end SkCoord
