import HomelabInventory.InsertionMap
import Mathlib.Data.Nat.Notation

/-!
# Catalog generations

The official catalog lives in generation directories, one for a revision and its
digest. `activate` fills a temporary directory, moves it into place, names it in
the registry store and then writes the active pointer and the resolved paths.
`resolveActivePaths` finds the directory of the snapshot the store names again.
Every function is a call that stands at one of its awaits; a step is what runs
up to the next one.
-/

namespace HomelabInventory.Catalog

open InsertionMap

/-! ## Snapshots and directories -/

/-- A revision of the catalog with the digest of its content. It also is the name
of its generation directory. -/
structure Snapshot where
  revision : ℕ
  digest : String
deriving DecidableEq

/-- A facet index, for a revision. -/
structure FacetIndex where
  revision : ℕ
  text : String
deriving DecidableEq

/-- A verified artifact: its facet index is for its revision. -/
structure Artifact where
  snapshot : Snapshot
  facets : Option FacetIndex := none
  agrees : ∀ index ∈ facets, index.revision = snapshot.revision := by simp

/-- The files of a generation, each with what it verifies as. The search index is
rebuilt from them whenever it is not current. -/
structure Directory where
  snapshot : Option Snapshot := none
  digests : Option Snapshot := none
  facets : Option FacetIndex := none
  metadata : Option Snapshot := none
  receipt : Option Snapshot := none
deriving DecidableEq

inductive GenerationFile
  | snapshot
  | digests
  | facets
  | metadata
  | receipt
deriving DecidableEq

/-- Write a file of a generation. -/
def Directory.write (artifact : Artifact) (directory : Directory) : GenerationFile → Directory
  | .snapshot => { directory with snapshot := some artifact.snapshot }
  | .digests => { directory with digests := some artifact.snapshot }
  | .facets => { directory with facets := artifact.facets }
  | .metadata => { directory with metadata := some artifact.snapshot }
  | .receipt => { directory with receipt := some artifact.snapshot }

/-- The files `activate` writes, in their order. -/
def Artifact.files (artifact : Artifact) : List GenerationFile :=
  [.snapshot, .digests] ++ (if artifact.facets.isSome then [.facets] else []) ++
    [.metadata, .receipt]

/-- The directory with all of them. -/
def Artifact.directory (artifact : Artifact) : Directory :=
  artifact.files.foldl (Directory.write artifact) {}

/-- A file is what the generation of a snapshot asks for. -/
def Directory.passes (directory : Directory) (snapshot : Snapshot) : GenerationFile → Bool
  | .snapshot => directory.snapshot = some snapshot
  | .digests => directory.digests = some snapshot
  | .facets => directory.facets.all (·.revision = snapshot.revision)
  | .metadata => directory.metadata = some snapshot
  | .receipt => directory.receipt = some snapshot

/-! ## Files, store and memory -/

/-- What the calls share: the snapshot the store names, the files of the catalog,
and the resolved paths in memory. -/
structure World where
  store : Option Snapshot := none
  generations : List (Snapshot × Directory) := []
  /-- Temporary directories, by generation and nonce. -/
  temporary : List ((Snapshot × ℕ) × Directory) := []
  pointer : Option Snapshot := none
  /-- The files of the time before generations are there. -/
  legacy : Bool := false
  resolvedPaths : Option Snapshot := none
deriving DecidableEq

/-- `activate` may replace the active snapshot by this one: it is not older, and
does not reuse the revision for another content. -/
def acceptable (active : Option Snapshot) (snapshot : Snapshot) : Bool :=
  match active with
  | none => true
  | some active => active.revision ≤ snapshot.revision &&
      (active.revision ≠ snapshot.revision || active.digest = snapshot.digest)

def World.setTemporary (w : World) (snapshot : Snapshot) (nonce : ℕ) (directory : Directory) :
    World :=
  { w with temporary := set w.temporary (snapshot, nonce) directory }

def World.removeTemporary (w : World) (snapshot : Snapshot) (nonce : ℕ) : World :=
  { w with temporary := delete w.temporary (snapshot, nonce) }

def World.setGeneration (w : World) (snapshot : Snapshot) (directory : Directory) : World :=
  { w with generations := set w.generations snapshot directory }

/-- Move a temporary directory into place. -/
def World.install (w : World) (snapshot : Snapshot) (nonce : ℕ) : Option World :=
  match get? w.temporary (snapshot, nonce), get? w.generations snapshot with
  | some directory, none =>
    some ((w.removeTemporary snapshot nonce).setGeneration snapshot directory)
  | _, _ => none

/-- Move a generation directory out of the way. -/
def World.evict (w : World) (snapshot : Snapshot) : Option World :=
  (get? w.generations snapshot).map fun _ =>
    { w with generations := delete w.generations snapshot }

/-! ## Validating a stored generation -/

/-- What `validateStoredGeneration` still has to check, and then to write. -/
inductive Validation
  | checking (rest : List GenerationFile)
  | recording (rest : List GenerationFile)
deriving DecidableEq

def Validation.begin (ignoreMetadata : Bool) : Validation :=
  .checking ((if ignoreMetadata then [] else [GenerationFile.metadata]) ++
    [.snapshot, .digests, .facets])

inductive ValidationResult
  | continued (w : World) (validation : Validation)
  | passed
  | failed

/-- Write the metadata or the receipt of a stored generation. -/
def Directory.record (snapshot : Snapshot) (directory : Directory) : GenerationFile → Directory
  | .metadata => { directory with metadata := some snapshot }
  | .receipt => { directory with receipt := some snapshot }
  | _ => directory

def Validation.step (w : World) (snapshot : Snapshot) : Validation → ValidationResult
  | .checking [] => .continued w (.recording [.metadata, .receipt])
  | .checking (file :: rest) =>
    match get? w.generations snapshot with
    | some directory =>
      if directory.passes snapshot file then .continued w (.checking rest) else .failed
    | none => .failed
  | .recording [] => .passed
  | .recording (file :: rest) =>
    match get? w.generations snapshot with
    | some directory => .continued
        (w.setGeneration snapshot (directory.record snapshot file)) (.recording rest)
    | none => .failed

/-! ## Calls -/

/-- Where `activate` stands. -/
inductive ActivateStage
  /-- The directory of the generations is made. -/
  | preparing
  /-- The temporary directory is made. -/
  | creating (nonce : ℕ)
  | writing (nonce : ℕ) (rest : List GenerationFile)
  /-- It is looked up whether the generation is there already. -/
  | looking (nonce : ℕ)
  | validating (nonce : ℕ) (validation : Validation)
  | comparing (nonce : ℕ)
  /-- The generation is there, and the temporary directory is removed. -/
  | discarding (nonce : ℕ)
  /-- The generation is moved out of the way. -/
  | evicting (nonce : ℕ)
  | installing (nonce : ℕ)
  /-- What was moved out of the way is removed. -/
  | removing
  | committing
  /-- An error removes the temporary directory. -/
  | cleaning (nonce : ℕ)
  | flushing
  | readingPointer
  | writingPointer
  | settling
deriving DecidableEq

/-- Where `resolveActivePaths` stands. -/
inductive ResolveStage
  | looking
  | legacy
  | readingMetadata
  | lookingPointer
  | lookingReceipt (pointerExists : Bool)
  | verifyingPointer
  | verifyingStored
  | validating (validation : Validation)
  | readingPointer
  | writingPointer
  | settling
deriving DecidableEq

/-- Where `recover` stands, before it warms the catalog. -/
inductive RecoverStage
  | validating (validation : Validation)
  | readingPointer
  | writingPointer
deriving DecidableEq

/-- Why the paths are resolved: for a request, at the start of the server, or at
the end of a recovery. Only a request allows a recovery in place. -/
inductive Purpose
  | request
  | startup
  | recovery
deriving DecidableEq

inductive Call
  | activating (artifact : Artifact) (stage : ActivateStage)
  | resolving (snapshot : Snapshot) (purpose : Purpose) (stage : ResolveStage)
  | recovering (snapshot : Snapshot) (stage : RecoverStage)

/-- How a step of a call ends. -/
inductive Outcome
  | running (w : World) (call : Call)
  | returned (w : World)
  | rejected (w : World)

/-- The first part of `resolveActivePaths`, up to its first await. -/
def beginResolve (w : World) (purpose : Purpose) : Outcome :=
  match w.store with
  | none => .returned w
  | some snapshot =>
    if w.resolvedPaths = some snapshot then .returned w
    else .running w (.resolving snapshot purpose .looking)

/-- An error of `resolveActivePaths` that no recovery in place catches. At the
start of the server, `recover` goes on from there. -/
def throwResolve (w : World) (snapshot : Snapshot) : Purpose → Outcome
  | .startup => .running { w with resolvedPaths := none }
      (.recovering snapshot (.validating (.begin true)))
  | _ => .rejected w

/-- An error while the stored generation is verified. -/
def recoverResolve (w : World) (snapshot : Snapshot) : Purpose → Outcome
  | .request => .running w (.resolving snapshot .request (.validating (.begin false)))
  | purpose => throwResolve w snapshot purpose

def resolveStep (w : World) (snapshot : Snapshot) (purpose : Purpose) : ResolveStage → Outcome
  | .looking =>
    match get? w.generations snapshot with
    | some _ => .running w (.resolving snapshot purpose .readingMetadata)
    | none => .running w (.resolving snapshot purpose .legacy)
  | .legacy =>
    if w.legacy then .returned { w with resolvedPaths := some snapshot }
    else throwResolve w snapshot purpose
  | .readingMetadata =>
    match (get? w.generations snapshot).bind (·.metadata) with
    | some _ => .running w (.resolving snapshot purpose .lookingPointer)
    | none => throwResolve w snapshot purpose
  | .lookingPointer =>
    .running w (.resolving snapshot purpose (.lookingReceipt w.pointer.isSome))
  | .lookingReceipt pointerExists =>
    match (get? w.generations snapshot).bind (·.receipt) with
    | none => .running w (.resolving snapshot purpose (.validating (.begin false)))
    | some _ =>
      if pointerExists then .running w (.resolving snapshot purpose .verifyingPointer)
      else .running w (.resolving snapshot purpose .verifyingStored)
  | .verifyingPointer =>
    if w.pointer = some snapshot then .running w (.resolving snapshot purpose .verifyingStored)
    else recoverResolve w snapshot purpose
  | .verifyingStored =>
    match get? w.generations snapshot with
    | some directory =>
      if directory.passes snapshot .metadata && directory.passes snapshot .receipt then
        .running w (.resolving snapshot purpose .readingPointer)
      else recoverResolve w snapshot purpose
    | none => recoverResolve w snapshot purpose
  | .validating validation =>
    match validation.step w snapshot with
    | .continued w validation => .running w (.resolving snapshot purpose (.validating validation))
    | .passed => .running w (.resolving snapshot purpose .readingPointer)
    | .failed => throwResolve w snapshot purpose
  | .readingPointer =>
    if w.pointer = some snapshot then .running w (.resolving snapshot purpose .settling)
    else .running w (.resolving snapshot purpose .writingPointer)
  | .writingPointer =>
    .running { w with pointer := some snapshot } (.resolving snapshot purpose .settling)
  | .settling => .returned { w with resolvedPaths := some snapshot }

def recoverStep (w : World) (snapshot : Snapshot) : RecoverStage → Outcome
  | .validating validation =>
    match validation.step w snapshot with
    | .continued w validation => .running w (.recovering snapshot (.validating validation))
    | .passed => .running w (.recovering snapshot .readingPointer)
    | .failed => .rejected w
  | .readingPointer =>
    if w.pointer = some snapshot then beginResolve w .recovery
    else .running w (.recovering snapshot .writingPointer)
  | .writingPointer => beginResolve { w with pointer := some snapshot } .recovery

/-- A step of `activate`. The nonce is the one the clock gives at this step. -/
def activateStep (w : World) (artifact : Artifact) (clock : ℕ) : ActivateStage → Outcome
  | .preparing => .running w (.activating artifact (.creating clock))
  | .creating nonce =>
    match get? w.temporary (artifact.snapshot, nonce) with
    | some _ => .running w (.activating artifact (.cleaning nonce))
    | none => .running (w.setTemporary artifact.snapshot nonce {})
        (.activating artifact (.writing nonce artifact.files))
  | .writing nonce [] => .running w (.activating artifact (.looking nonce))
  | .writing nonce (file :: rest) =>
    match get? w.temporary (artifact.snapshot, nonce) with
    | some directory => .running
        (w.setTemporary artifact.snapshot nonce (directory.write artifact file))
        (.activating artifact (.writing nonce rest))
    | none => .running w (.activating artifact (.cleaning nonce))
  | .looking nonce =>
    match get? w.generations artifact.snapshot with
    | some _ => .running w (.activating artifact (.validating nonce (.begin false)))
    | none => .running w (.activating artifact (.installing nonce))
  | .validating nonce validation =>
    match validation.step w artifact.snapshot with
    | .continued w validation => .running w (.activating artifact (.validating nonce validation))
    | .passed =>
      if artifact.facets.isSome then .running w (.activating artifact (.comparing nonce))
      else .running w (.activating artifact (.discarding nonce))
    | .failed => .running w (.activating artifact (.evicting nonce))
  | .comparing nonce =>
    if (get? w.generations artifact.snapshot).bind (·.facets) = artifact.facets then
      .running w (.activating artifact (.discarding nonce))
    else .running w (.activating artifact (.evicting nonce))
  | .discarding nonce => .running (w.removeTemporary artifact.snapshot nonce)
      (.activating artifact .committing)
  | .evicting nonce =>
    match w.evict artifact.snapshot with
    | some w => .running w (.activating artifact (.installing nonce))
    | none => .running w (.activating artifact (.cleaning nonce))
  | .installing nonce =>
    match w.install artifact.snapshot nonce with
    | some w => .running w (.activating artifact .removing)
    | none => .running w (.activating artifact (.cleaning nonce))
  | .removing => .running w (.activating artifact .committing)
  | .committing => .running { w with store := some artifact.snapshot }
      (.activating artifact .flushing)
  | .cleaning nonce => .rejected (w.removeTemporary artifact.snapshot nonce)
  | .flushing => .running w (.activating artifact .readingPointer)
  | .readingPointer =>
    if w.pointer = some artifact.snapshot then .running w (.activating artifact .settling)
    else .running w (.activating artifact .writingPointer)
  | .writingPointer => .running { w with pointer := some artifact.snapshot }
      (.activating artifact .settling)
  -- the contribution hashes of the discovery that follows resolve the paths again
  | .settling => beginResolve { w with resolvedPaths := some artifact.snapshot } .request

def Call.step (w : World) (clock : ℕ) : Call → Outcome
  | .activating artifact stage => activateStep w artifact clock stage
  | .resolving snapshot purpose stage => resolveStep w snapshot purpose stage
  | .recovering snapshot stage => recoverStep w snapshot stage

/-! ## The service -/

/-- The files, the store and the calls in flight. -/
structure System where
  world : World := {}
  calls : List Call := []

inductive Update
  /-- `activate` is called with a verified artifact, and makes its checks. -/
  | activate (artifact : Artifact)
  /-- The paths are resolved for a request. -/
  | resolve
  /-- The next step of a call. -/
  | advance (index clock : ℕ)
  /-- The process ends and starts again, and warms the catalog. -/
  | crash

/-- What becomes of the call of an index. -/
def System.follow (s : System) (index : ℕ) : Outcome → System
  | .running world call => { world, calls := s.calls.set index call }
  | .returned world => { world, calls := s.calls.eraseIdx index }
  | .rejected world => { world, calls := s.calls.eraseIdx index }

/-- Begin a call. -/
def System.begin (s : System) : Outcome → System
  | .running world call => { world, calls := s.calls ++ [call] }
  | .returned world => { s with world }
  | .rejected world => { s with world }

/-- The call belongs to the start of the server, or to the recovery it leads to. -/
def Call.isStartup : Call → Bool
  | .activating _ _ => false
  | .resolving _ purpose _ => purpose ≠ .request
  | .recovering _ _ => true

/-- The server takes no activation before it has warmed the catalog, and an
activation waits for a recovery. -/
def System.step (s : System) : Update → Option System
  | .activate artifact =>
    if s.calls.any Call.isStartup then none
    else if acceptable s.world.store artifact.snapshot then
      some (s.begin (.running s.world (.activating artifact .preparing)))
    else some (s.begin (.rejected s.world))
  | .resolve => some (s.begin (beginResolve s.world .request))
  | .advance index clock =>
    (s.calls[index]?).map fun call => s.follow index (call.step s.world clock)
  | .crash =>
    let restarted : System := { world := { s.world with resolvedPaths := none } }
    some (restarted.begin (beginResolve restarted.world .startup))

end HomelabInventory.Catalog
