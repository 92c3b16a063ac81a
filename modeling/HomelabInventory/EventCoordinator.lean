import HomelabInventory.GuardedRuns
import Mathlib.Data.List.Basic
import Mathlib.Tactic.Basic

/-!
# The coordinator of the installation's events

`installation-event-coordinator.mjs`: `SharingInstallationEventCoordinator` keeps a stream
to the sharing service open while there is interest in remote events. The steps are the
calls from outside, the timers, and what each `await` of `connectInternal` comes back
with. A timer may fire at any time, so delays are left out.
-/

namespace HomelabInventory.EventCoordinator

/-! ## State -/

/-- What the coordinator reads of the repository. -/
structure Repository where
  connectionEnabled : Bool
  /-- `enrollmentState === 'connected'` -/
  enrolled : Bool
  /-- `getRemoteEventInterest().required` -/
  interest : Bool
  pendingClaim : Bool
  /-- the pending claim expires at some time to come -/
  claimExpires : Bool
  accountReconciliationDue : Bool
deriving DecidableEq

/-- There is a connection to keep. -/
def Repository.hasWork (repository : Repository) : Bool :=
  repository.connectionEnabled && repository.enrolled && repository.interest

/-- What a run of `connectInternal` waits for. -/
inductive Point where
  /-- `identityService.activate` -/
  | activating
  /-- `identityService.reconcileAccountStatus`, before the stream -/
  | reconciling
  /-- `client.events` -/
  | fetching
  /-- `reader.read` -/
  | reading
  /-- `identityService.reconcileAccountStatus`, for an event -/
  | handling (claim : Bool)
  /-- `identityService.readiness` -/
  | probing
  /-- returned; the callback of `.finally` is still to come -/
  | settled
deriving DecidableEq

/-- A run of `connectInternal`. -/
structure Run where
  id : ℕ
  point : Point
  /-- its signal is aborted -/
  aborted : Bool
  opened : Bool
deriving DecidableEq

/-- The coordinator with its surroundings and its runs. A run is known by a number, which
also stands for its promise and its controller. -/
structure Coordinator where
  effectiveEnabled : Bool
  repository : Repository
  /-- `identityService.getCapabilities().installationEvents` -/
  installationEvents : Bool
  stopped : Bool
  running : Option ℕ
  runs : List Run
  nextRun : ℕ
  connectionController : Option ℕ
  reconnectTimer : Bool
  renewalTimer : Bool
  claimTimer : Bool
  watchdogTimer : Bool
  reader : Bool
  streamConnected : Bool
  renewalRequested : Bool
  watchdogTimedOut : Bool
  dormant : Option Bool
  /-- `wake` was called after the last change of the repository -/
  woken : Bool
deriving DecidableEq

namespace Coordinator

/-- `constructor` -/
def create (effectiveEnabled : Bool) (repository : Repository) (installationEvents : Bool) :
    Coordinator where
  effectiveEnabled
  repository
  installationEvents
  stopped := true
  running := none
  runs := []
  nextRun := 0
  connectionController := none
  reconnectTimer := false
  renewalTimer := false
  claimTimer := false
  watchdogTimer := false
  reader := false
  streamConnected := false
  renewalRequested := false
  watchdogTimedOut := false
  dormant := none
  woken := false

/-! ## Methods -/

/-- `this.connectionController?.abort()` -/
def abort (s : Coordinator) : Coordinator :=
  { s with runs := s.runs.map fun run =>
      if s.connectionController = some run.id then { run with aborted := true } else run }

/-- `stop` -/
def stop (s : Coordinator) : Coordinator :=
  { s.abort with
    stopped := true
    reconnectTimer := false
    renewalTimer := false
    claimTimer := false
    watchdogTimer := false
    connectionController := none
    reader := false
    streamConnected := false }

/-- `enterDormant` -/
def enterDormant (s : Coordinator) : Coordinator :=
  { s.abort with
    reconnectTimer := false
    renewalTimer := false
    watchdogTimer := false
    renewalRequested := false
    reader := false
    streamConnected := false
    dormant := some true }

/-- `wake`, with the repository after `expirePendingAccountClaim`. -/
def wake (s : Coordinator) (repository : Repository) : Coordinator :=
  if s.stopped || !s.effectiveEnabled then { s with woken := true }
  else
    let s := { s with repository, woken := true, claimTimer := repository.claimExpires }
    if !repository.hasWork then s.enterDormant
    else if s.running.isSome || s.reconnectTimer then { s with dormant := some false }
    else { s with dormant := some false, reconnectTimer := true }

/-- `start` -/
def start (s : Coordinator) (repository : Repository) : Coordinator :=
  if !s.effectiveEnabled || !s.stopped then s
  else { s with stopped := false }.wake repository

/-- `holdClaim`, with the repository after the claim is saved. -/
def holdClaim (s : Coordinator) (repository : Repository) : Coordinator :=
  { s with repository, woken := false, claimTimer := true }.wake repository

/-- `releaseClaimInterest`, with the repository after the claim is cleared. -/
def releaseClaimInterest (s : Coordinator) (repository : Repository) : Coordinator :=
  { s with repository, woken := false, claimTimer := false }.wake repository

/-- `connectInternal` returns before it first waits. -/
def returnsAtOnce (s : Coordinator) : Bool :=
  s.stopped || !s.effectiveEnabled || !s.repository.hasWork || !s.installationEvents

/-- `connect`, with what `connectInternal` does before it first waits. -/
def connect (s : Coordinator) : Coordinator :=
  if s.running.isSome then s
  else { s with
    connectionController := some s.nextRun
    watchdogTimedOut := false
    runs := s.runs ++
      [⟨s.nextRun, if s.returnsAtOnce then .settled else .activating, false, false⟩]
    running := some s.nextRun
    nextRun := s.nextRun + 1 }

/-! ## Runs of `connectInternal` -/

/-- The run goes on to another point. -/
def move (s : Coordinator) (id : ℕ) (point : Point) : Coordinator :=
  { s with runs := s.runs.map fun run => if run.id = id then { run with point } else run }

/-- The `finally` block. -/
def unwind (s : Coordinator) (run : Run) : Coordinator :=
  { s with
    reader := false
    watchdogTimer := false
    streamConnected := !run.opened && s.streamConnected
    renewalTimer := false }

/-- The run returns from inside `try` or `catch`. -/
def giveUp (s : Coordinator) (run : Run) : Coordinator :=
  (s.unwind run).move run.id .settled

/-- The run comes to its end and sets the timer for the next one. -/
def conclude (s : Coordinator) (run : Run) : Coordinator :=
  let s := s.unwind run
  let s := if !s.stopped && s.repository.hasWork then { s with reconnectTimer := true } else s
  s.move run.id .settled

/-- The `catch` block. -/
def fail (s : Coordinator) (run : Run) (unsupportedVersion : Bool) : Coordinator :=
  if s.stopped || (run.aborted && !s.watchdogTimedOut) then s.giveUp run
  else if unsupportedVersion then s.move run.id .probing
  else s.conclude run

/-- What a run that waits comes back with. -/
inductive Outcome where
  /-- an error, with the code `sharing-event-version-unsupported` or another -/
  | failed (unsupportedVersion : Bool)
  /-- credentials, with an expiry or without -/
  | activated (tokenExpires : Bool)
  /-- an answer without a value that is used -/
  | answered
  /-- a response with a body -/
  | opened
  /-- bytes -/
  | activity
  /-- an event that the repository applied, which leaves the repository like this -/
  | applied (repository : Repository)
  /-- an event of the account -/
  | accountEvent (claim : Bool)
  /-- the account is reconciled for an event; the repository without the claim -/
  | handled (repository : Repository)
  /-- the end of the stream -/
  | ended
deriving DecidableEq

/-- A run goes on with what it waited for. -/
def resume (s : Coordinator) (run : Run) : Outcome → Option Coordinator
  | .failed unsupportedVersion =>
    match run.point with
    | .settled => none
    | .probing => some (s.conclude run)
    | _ => some (s.fail run unsupportedVersion)
  | .activated tokenExpires =>
    if run.point = .activating then
      if !s.repository.interest then some (s.giveUp run)
      else
        let s := { s with
          renewalRequested := false
          renewalTimer := tokenExpires || s.renewalTimer }
        if !s.repository.pendingClaim && s.repository.accountReconciliationDue then
          some (s.move run.id .reconciling)
        else some (s.move run.id .fetching)
    else none
  | .answered =>
    match run.point with
    | .reconciling =>
      if !s.repository.interest then some (s.giveUp run) else some (s.move run.id .fetching)
    | .probing => some (s.conclude run)
    | _ => none
  | .opened =>
    if run.point = .fetching then
      some { s with
        streamConnected := true
        dormant := some false
        reader := true
        watchdogTimer := true
        runs := s.runs.map fun other =>
          if other.id = run.id then { other with point := .reading, opened := true } else other }
    else none
  | .activity => if run.point = .reading then some { s with watchdogTimer := true } else none
  | .applied repository =>
    if run.point = .reading then
      some ({ s with repository, woken := false }.wake repository)
    else none
  | .accountEvent claim =>
    if run.point = .reading then some (s.move run.id (.handling claim)) else none
  | .handled repository =>
    match run.point with
    | .handling claim =>
      let s := if claim then s.releaseClaimInterest repository else s
      some ((s.wake repository).move run.id .reading)
    | _ => none
  | .ended => if run.point = .reading then some (s.conclude run) else none

/-- The callback of `.finally`. -/
def finalize (s : Coordinator) (id : ℕ) : Coordinator :=
  { s with
    connectionController :=
      if s.connectionController = some id then none else s.connectionController
    running := if s.running = some id then none else s.running
    runs := s.runs.filter fun run => run.id ≠ id }

/-! ## Steps -/

/-- One step of the coordinator or of its surroundings. -/
inductive Action where
  | start (repository : Repository)
  | stop
  | wake (repository : Repository)
  | holdClaim (repository : Repository)
  | releaseClaimInterest (repository : Repository)
  | repositoryChanged (repository : Repository)
  | capabilitiesChanged (installationEvents : Bool)
  | reconnectTimer
  | renewalTimer
  | watchdogTimer
  | claimTimer (repository : Repository)
  | resume (id : ℕ) (outcome : Outcome)
  | finalize (id : ℕ)
deriving DecidableEq

/-- No `.finally` is due: its callback runs before any timer. -/
def isDrained (s : Coordinator) : Bool := s.runs.all fun run => run.point ≠ .settled

/-- The state after a step, when the step is possible. -/
def step (s : Coordinator) : Action → Option Coordinator
  | .start repository => some (s.start repository)
  | .stop => some s.stop
  | .wake repository => some (s.wake repository)
  | .holdClaim repository => some (s.holdClaim repository)
  | .releaseClaimInterest repository => some (s.releaseClaimInterest repository)
  | .repositoryChanged repository => some { s with repository, woken := false }
  | .capabilitiesChanged installationEvents => some { s with installationEvents }
  | .reconnectTimer =>
    if s.reconnectTimer && s.isDrained then some { s with reconnectTimer := false }.connect
    else none
  | .renewalTimer =>
    if s.renewalTimer && s.isDrained then
      let s := { s with renewalTimer := false }
      if !s.repository.interest then some s.enterDormant
      else
        let s := { s with renewalRequested := true }
        if !s.reader && s.running.isNone then some { s with reconnectTimer := true } else some s
    else none
  | .watchdogTimer =>
    if s.watchdogTimer && s.isDrained then
      some { s with watchdogTimer := false, watchdogTimedOut := true }.abort
    else none
  | .claimTimer repository =>
    if s.claimTimer && s.isDrained then
      some ({ s with repository, woken := false, claimTimer := false }.wake repository)
    else none
  | .resume id outcome =>
    match s.runs.find? fun run => run.id == id with
    | some run => s.resume run outcome
    | none => none
  | .finalize id =>
    match s.runs.find? fun run => run.id == id with
    | some run => if run.point = .settled then some (s.finalize id) else none
    | none => none

/-- The states of the runs from the constructor on whose steps all meet a condition. -/
abbrev Reachable (condition : Coordinator → Action → Prop) : Coordinator → Prop :=
  RunsTo step condition fun s => ∃ effectiveEnabled repository installationEvents,
    s = create effectiveEnabled repository installationEvents

end Coordinator

end HomelabInventory.EventCoordinator
