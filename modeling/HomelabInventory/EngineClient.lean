import Mathlib.Data.Nat.Notation
import Mathlib.Data.Option.Basic

/-!
# The engine client

A browser keeps a copy of a project in a worker and follows the server's stream
of committed revisions. This file models the client between its awaits, together
with the messages it exchanges with its worker and with the server: every action
is one message that arrives or one call that is made, so a run is an interleaving
of them. The worker answers its requests in order and never fails.
-/

namespace HomelabInventory

/-! ## The client -/

/-- What the client shows of itself. -/
inductive DomainEnginePhase where
  | idle
  | loading
  | ready
  | conflict
  | rebuilding
  deriving DecidableEq

/-- A recovery on its way: the snapshot is asked for, read by the server, and
handed to a new worker. -/
inductive Recovery where
  | fetching
  | fetched (revision : ℕ)
  | initializing (revision : ℕ)
  deriving DecidableEq

/-- A command that was sent to the worker: a committed patch to replay, or a
mutation to try out. -/
inductive WorkerRequest where
  | replay (baseRevision committedRevision : ℕ)
  | optimistic (baseRevision requestId : ℕ)
  deriving DecidableEq

/-- The answer of the server to a posted command. -/
inductive CommandAnswer where
  | committed (revision : ℕ)
  | conflict
  | rejected
  deriving DecidableEq

/-- How far the mutation that is carried out has come. -/
inductive MutationStage where
  /-- the worker tries the command out -/
  | optimistic
  /-- the command is on its way to the server -/
  | posted (baseRevision optimisticRevision : ℕ)
  /-- the answer is on its way back -/
  | answered (optimisticRevision : ℕ) (answer : CommandAnswer)
  /-- the command failed, and the client is rebuilding -/
  | failed
  deriving DecidableEq

/-- The mutation that is carried out. Mutations wait for each other. -/
structure Mutation where
  requestId : ℕ
  stage : MutationStage
  deriving DecidableEq

/-- The state of the client. The worker is known by the revision of its engine. -/
structure DomainEngineClient where
  phase : DomainEnginePhase := .idle
  revision : Option ℕ := none
  workerRevision : Option ℕ := none
  activeMutationRequestId : Option ℕ := none
  nextRequestId : ℕ := 1
  worker : Option ℕ := none
  pending : List WorkerRequest := []
  mutation : Option Mutation := none
  recovery : Option Recovery := none
  deriving DecidableEq

namespace DomainEngineClient

/-- Show a phase and a revision. -/
def setState (client : DomainEngineClient) (phase : DomainEnginePhase) (revision : Option ℕ) :
    DomainEngineClient :=
  { client with phase := phase, revision := revision }

/-- The next request identifier; the identifiers wrap around. -/
def takeRequestId (client : DomainEngineClient) : ℕ × DomainEngineClient :=
  (client.nextRequestId,
    { client with
      nextRequestId := if client.nextRequestId ≥ 4294967295 then 1 else client.nextRequestId + 1 })

/-- Start a recovery, unless one is on its way. -/
def recover (client : DomainEngineClient) (phase : DomainEnginePhase) : DomainEngineClient :=
  if client.recovery.isSome then client
  else { client.setState phase client.revision with recovery := some .fetching }

/-- Rebuild the worker. -/
def rebuild (client : DomainEngineClient) : DomainEngineClient := client.recover .rebuilding

/-- Drop the worker and everything that it was asked. A mutation it was trying
out is given up; the calls that replay a commit ask for a rebuild. -/
def terminateWorker (client : DomainEngineClient) : DomainEngineClient :=
  { client with
    worker := none
    workerRevision := none
    activeMutationRequestId := none
    pending := []
    mutation := client.mutation.filter (·.stage ≠ .optimistic) }

/-- Send a committed operation to the worker. Without a worker revision the call
fails, and the client is rebuilt. -/
def dispatchReplay (client : DomainEngineClient) (committedRevision : ℕ) : DomainEngineClient :=
  match client.workerRevision with
  | none => client.rebuild
  | some baseRevision =>
    let client := client.takeRequestId.2
    { client with pending := client.pending ++ [.replay baseRevision committedRevision] }

/-- Take up a committed revision. `supported` tells whether an operation that
replays the patch was found. -/
def applyCommittedResponse (client : DomainEngineClient)
    (baseRevision committedRevision requestId : ℕ) (supported : Bool) : DomainEngineClient :=
  if client.revision = some committedRevision then client
  else if client.activeMutationRequestId = some requestId ∧ client.revision = some baseRevision ∧
    client.workerRevision = some committedRevision then
    client.setState .ready (some committedRevision)
  else if client.revision ≠ some baseRevision then client.rebuild
  else if !supported then client.rebuild
  else client.dispatchReplay committedRevision

/-- Start a mutation. -/
def mutate (client : DomainEngineClient) : Option DomainEngineClient :=
  match client.revision with
  | none => none
  | some revision =>
    if client.phase = .ready ∧ client.workerRevision = some revision ∧ client.mutation = none then
      let (requestId, client) := client.takeRequestId
      some { client with
        pending := client.pending ++ [.optimistic revision requestId]
        mutation := some { requestId := requestId, stage := .optimistic } }
    else none

/-- The answer of the worker to its first request: it carries out a request on its
own revision, unless the engine turns it down. -/
def workerAnswer (client : DomainEngineClient) (accepted : Bool) : Option DomainEngineClient :=
  match client.worker, client.pending with
  | some engine, .replay baseRevision committedRevision :: pending =>
    let client := { client with pending := pending }
    if accepted ∧ baseRevision = engine then
      let client :=
        { client with worker := some (engine + 1), workerRevision := some (engine + 1) }
      if engine + 1 = committedRevision then
        some (client.setState .ready (some committedRevision))
      else some client.rebuild
    else some client.rebuild
  | some engine, .optimistic baseRevision requestId :: pending =>
    let client := { client with pending := pending }
    if accepted ∧ baseRevision = engine then
      some { client with
        worker := some (engine + 1)
        workerRevision := some (engine + 1)
        activeMutationRequestId := some requestId
        mutation := some { requestId := requestId, stage := .posted baseRevision (engine + 1) } }
    else some { client with mutation := none }
  | _, _ => none

/-- A mutation is over: its request identifier is no longer the active one. -/
def finishMutation (client : DomainEngineClient) (requestId : ℕ) : DomainEngineClient :=
  { client with
    mutation := none
    activeMutationRequestId :=
      if client.activeMutationRequestId = some requestId then none
      else client.activeMutationRequestId }

/-- A mutation fails: the client is rebuilt before the mutation is over. -/
def failMutation (client : DomainEngineClient) (requestId : ℕ) : DomainEngineClient :=
  { client.rebuild with mutation := some { requestId := requestId, stage := .failed } }

/-- The answer to the posted command arrives. -/
def receiveAnswer (client : DomainEngineClient) : Option DomainEngineClient :=
  match client.mutation with
  | some { requestId, stage := .answered optimisticRevision (.committed revision) } =>
    if revision = optimisticRevision then
      some (({ client with workerRevision := some revision }.setState .ready
        (some revision)).finishMutation requestId)
    else some (client.failMutation requestId)
  | some { requestId, stage := .answered _ .conflict } =>
    some ((client.setState .conflict client.revision).failMutation requestId)
  | some { requestId, stage := .answered _ .rejected } => some (client.failMutation requestId)
  | _ => none

/-- The connection of the posted command breaks down. -/
def loseAnswer (client : DomainEngineClient) : Option DomainEngineClient :=
  match client.mutation with
  | some { requestId, stage := .posted _ _ } | some { requestId, stage := .answered _ _ } =>
    some (client.failMutation requestId)
  | _ => none

/-- The snapshot arrives: the worker is replaced by a new one. -/
def receiveSnapshot (client : DomainEngineClient) : Option DomainEngineClient :=
  match client.recovery with
  | some (.fetched revision) =>
    some { client.terminateWorker with
      worker := some revision
      recovery := some (.initializing revision) }
  | _ => none

/-- The new worker is ready, and the recovery is over, as is a mutation that has
been waiting for it. -/
def workerReady (client : DomainEngineClient) : Option DomainEngineClient :=
  match client.recovery with
  | some (.initializing revision) =>
    let client := { client with workerRevision := some revision, recovery := none }
    let client := client.setState .ready (some revision)
    match client.mutation with
    | some { requestId, stage := .failed } => some (client.finishMutation requestId)
    | _ => some client
  | _ => none

/-- The worker is initialized and can answer. -/
def isInitializing (client : DomainEngineClient) : Bool :=
  match client.recovery with
  | some (.initializing _) => true
  | _ => false

end DomainEngineClient

/-! ## The client and the server -/

/-- A committed revision in the stream of events. -/
structure CommitEvent where
  baseRevision : ℕ
  revision : ℕ
  requestId : ℕ
  deriving DecidableEq

/-- The server, the stream of events to the client, and the client. The greatest
revision that was delivered is recorded. -/
structure ClientRun where
  serverRevision : ℕ
  connected : Bool := false
  events : List CommitEvent := []
  delivered : Option ℕ := none
  client : DomainEngineClient := {}
  deriving DecidableEq

/-- What can happen next. -/
inductive ClientAction where
  /-- the client is started -/
  | start
  /-- the stream of events is opened -/
  | connect
  /-- a rebuild is asked for -/
  | rebuild
  /-- another client's command is committed -/
  | commit (requestId : ℕ)
  /-- the next event arrives -/
  | deliverEvent (supported : Bool)
  /-- the server reads its snapshot -/
  | readSnapshot
  /-- the snapshot arrives -/
  | receiveSnapshot
  /-- the new worker is ready -/
  | workerReady
  /-- a mutation is started -/
  | mutate
  /-- the worker answers its first request -/
  | workerAnswer (accepted : Bool)
  /-- the server handles the posted command -/
  | handleCommand (accepted : Bool)
  /-- the answer to the posted command arrives -/
  | receiveAnswer
  /-- the connection of the posted command breaks down -/
  | loseAnswer
  deriving DecidableEq

namespace ClientRun

/-- The server commits a revision and announces it. -/
def commit (run : ClientRun) (requestId : ℕ) : ClientRun :=
  { run with
    serverRevision := run.serverRevision + 1
    events :=
      if run.connected then
        run.events ++
          [{ baseRevision := run.serverRevision
             revision := run.serverRevision + 1
             requestId := requestId }]
      else run.events }

/-- The server handles a posted command: one about its own revision is committed,
unless the engine turns it down. -/
def handleCommand (run : ClientRun) (accepted : Bool) : Option ClientRun :=
  match run.client.mutation with
  | some { requestId, stage := .posted baseRevision optimisticRevision } =>
    let answered := fun (run : ClientRun) (answer : CommandAnswer) =>
      { run with client := { run.client with
          mutation := some
            { requestId := requestId, stage := .answered optimisticRevision answer } } }
    if baseRevision ≠ run.serverRevision then some (answered run .conflict)
    else if !accepted then some (answered run .rejected)
    else some (answered (run.commit requestId) (.committed (run.serverRevision + 1)))
  | _ => none

/-- One action, when it is possible. -/
def step (run : ClientRun) : ClientAction → Option ClientRun
  | .start => some { run with client := run.client.recover .loading }
  | .connect =>
    if run.client.phase = .ready then some { run with connected := true } else none
  | .rebuild => some { run with client := run.client.rebuild }
  | .commit requestId => some (run.commit requestId)
  | .deliverEvent supported =>
    match run.events with
    | [] => none
    | event :: events =>
      some { run with
        events := events
        delivered := some (max (run.delivered.getD 0) event.revision)
        client := run.client.applyCommittedResponse event.baseRevision event.revision
          event.requestId supported }
  | .readSnapshot =>
    if run.client.recovery = some .fetching then
      some { run with client := { run.client with
        recovery := some (.fetched run.serverRevision) } }
    else none
  | .receiveSnapshot => run.client.receiveSnapshot.map fun client => { run with client := client }
  | .workerReady => run.client.workerReady.map fun client => { run with client := client }
  | .mutate => run.client.mutate.map fun client => { run with client := client }
  | .workerAnswer accepted =>
    if run.client.isInitializing then none
    else (run.client.workerAnswer accepted).map fun client => { run with client := client }
  | .handleCommand accepted => run.handleCommand accepted
  | .receiveAnswer => run.client.receiveAnswer.map fun client => { run with client := client }
  | .loseAnswer => run.client.loseAnswer.map fun client => { run with client := client }

/-- Some actions, one after the other. -/
def steps (run : ClientRun) (actions : List ClientAction) : Option ClientRun :=
  actions.foldlM step run

/-- Nothing is on its way. -/
structure Quiescent (run : ClientRun) : Prop where
  ready : run.client.phase = .ready
  no_event : run.events = []
  no_request : run.client.pending = []
  no_recovery : run.client.recovery = none
  no_mutation : run.client.mutation = none

end ClientRun

end HomelabInventory
