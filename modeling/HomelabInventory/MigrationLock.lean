import HomelabInventory.GuardedRuns
import Mathlib.Data.Fintype.Basic
import Mathlib.Tactic.Basic

/-!
# The migration lock

`acquireLock` of `server/persistence/migration/cutover.ts` and the `release` it returns: a
file in the data directory that several processes create, read and remove. Each file
operation is one step, and a process may crash at any of them.
-/

namespace HomelabInventory.MigrationLock

/-! ## The lock file -/

/-- What the lock file says. A field is there when it has a value that the reader can use. -/
structure Lock where
  token : Option ℕ
  pid : Option ℤ
  processStartedAtMs : Option ℤ
  startedAt : Option ℤ
deriving DecidableEq

/-- The contents of the lock file: nothing that `JSON.parse` reads, or a lock. -/
inductive Contents where
  | unreadable
  | lock (lock : Lock)
deriving DecidableEq

/-- A file at the path of the lock, with a number that no other file has. The number also
stands for the token of the process that creates it. -/
structure LockFile where
  id : ℕ
  contents : Contents
deriving DecidableEq

/-! ## Processes -/

/-- Where a process is in `acquireLock` or `release`. -/
inductive Point where
  /-- not in either, without the lock -/
  | idle
  /-- before `open(lockPath, 'wx')` -/
  | opening
  /-- the file is created, before `handle.writeFile` -/
  | writing (file : ℕ)
  /-- the file exists, before `readFile` -/
  | reading
  /-- the file is read, before its process is looked for -/
  | judging (file : ℕ) (existing : Lock)
  /-- the lock is stale, before `rm`; with the file that was read, if there was one -/
  | removing (file : Option ℕ)
  /-- `acquireLock` has returned -/
  | holding (file : ℕ)
  /-- `release` found its own token, before `rm` -/
  | releasing (file : ℕ)
deriving DecidableEq

/-- The number of the file with which a process holds the lock. -/
def Point.heldFile : Point → Option ℕ
  | .holding id | .releasing id => some id
  | _ => none

/-- The number of the file that a process has created in this call. -/
def Point.ownFile : Point → Option ℕ
  | .writing id | .holding id | .releasing id => some id
  | _ => none

/-- Whether a process runs. -/
inductive Life where
  | unborn
  | alive
  | dead
deriving DecidableEq

/-- A process, with the time of its call of `acquireLock`. -/
structure Process where
  pid : ℤ
  startedAtMs : ℤ
  life : Life
  now : ℤ
  point : Point
deriving DecidableEq

/-- `n` processes on one data directory. -/
structure System (n : ℕ) where
  processes : Fin n → Process
  file : Option LockFile
  /-- the number of the next file -/
  nextFile : ℕ
  /-- the process identifiers of other programs -/
  otherPids : List ℤ

variable {n : ℕ}

/-- `LOCK_MAX_AGE_MS` -/
def lockMaxAgeMs : ℤ := 30 * 60 * 1000

/-- The lock that a process writes. -/
def Process.lock (process : Process) (file : ℕ) : Lock where
  token := some file
  pid := some process.pid
  processStartedAtMs := some process.startedAtMs
  startedAt := some process.now

namespace System

/-- `processExists` -/
def processExists (s : System n) (pid : ℤ) : Bool :=
  s.otherPids.contains pid ||
    decide (∃ p, (s.processes p).life = .alive ∧ (s.processes p).pid = pid)

/-- `sameProcessInstance` -/
def sameProcessInstance (process : Process) (existing : Lock) : Bool :=
  existing.pid != some process.pid ||
    existing.processStartedAtMs.any fun started =>
      decide ((started - process.startedAtMs).natAbs < 1000)

/-- The condition under which an existing lock is stale. -/
def isStale (s : System n) (process : Process) (existing : Lock) : Bool :=
  match existing.pid, existing.startedAt with
  | some pid, some startedAt =>
    decide (process.now - startedAt > lockMaxAgeMs) || !s.processExists pid ||
      !sameProcessInstance process existing
  | _, _ => true

/-- A process changes. -/
def setProcess (s : System n) (p : Fin n) (process : Process) : System n :=
  { s with processes := Function.update s.processes p process }

/-- A process goes on to another point. -/
def move (s : System n) (p : Fin n) (point : Point) : System n :=
  s.setProcess p { s.processes p with point }

/-! ## Steps -/

/-- A step of a process. -/
inductive Action (n : ℕ) where
  /-- a process is started -/
  | spawn (p : Fin n)
  /-- `acquireLock` is called -/
  | acquire (p : Fin n) (now : ℤ)
  /-- `open(lockPath, 'wx')` -/
  | create (p : Fin n)
  /-- `handle.writeFile` -/
  | write (p : Fin n)
  /-- `open` or `handle.writeFile` fails -/
  | fail (p : Fin n)
  /-- `readFile` of an existing lock -/
  | read (p : Fin n)
  /-- the lock that was read is judged -/
  | judge (p : Fin n)
  /-- `rm` of a stale lock, and the call again -/
  | remove (p : Fin n)
  /-- `readFile` of `release` -/
  | release (p : Fin n)
  /-- `rm` of `release` -/
  | unlink (p : Fin n)
  | crash (p : Fin n)
deriving DecidableEq

/-- The process that takes a step. -/
def Action.process : Action n → Fin n
  | .spawn p | .acquire p _ | .create p | .write p | .fail p | .read p | .judge p | .remove p
  | .release p | .unlink p | .crash p => p

/-- What a live process does. -/
def act (s : System n) (p : Fin n) : Action n → Option (System n)
  | .spawn _ => none
  | .crash _ => some (s.setProcess p { s.processes p with life := .dead })
  | .acquire _ now =>
    if (s.processes p).point = .idle then
      some (s.setProcess p { s.processes p with now, point := .opening })
    else none
  | .create _ =>
    if (s.processes p).point = .opening then
      match s.file with
      | some _ => some (s.move p .reading)
      | none =>
        some { s.move p (.writing s.nextFile) with
          file := some ⟨s.nextFile, .unreadable⟩
          nextFile := s.nextFile + 1 }
    else none
  | .write _ =>
    match (s.processes p).point with
    | .writing id =>
      -- the handle still writes to its own file when another one is at the path
      some { s.move p (.holding id) with
        file := s.file.map fun file =>
          if file.id = id then { file with contents := .lock ((s.processes p).lock id) } else file }
    | _ => none
  | .fail _ =>
    match (s.processes p).point with
    | .opening | .writing _ => some (s.move p .idle)
    | _ => none
  | .read _ =>
    if (s.processes p).point = .reading then
      match s.file with
      | none => some (s.move p (.removing none))
      | some ⟨id, .unreadable⟩ => some (s.move p (.removing (some id)))
      | some ⟨id, .lock existing⟩ => some (s.move p (.judging id existing))
    else none
  | .judge _ =>
    match (s.processes p).point with
    | .judging id existing =>
      if s.isStale (s.processes p) existing then some (s.move p (.removing (some id)))
      else some (s.move p .idle)
    | _ => none
  | .remove _ =>
    match (s.processes p).point with
    | .removing _ => some { s.move p .opening with file := none }
    | _ => none
  | .release _ =>
    match (s.processes p).point with
    | .holding id =>
      match s.file with
      | some ⟨_, .lock existing⟩ =>
        if existing.token = some id then some (s.move p (.releasing id)) else some (s.move p .idle)
      | _ => some (s.move p .idle)
    | _ => none
  | .unlink _ =>
    match (s.processes p).point with
    | .releasing _ => some { s.move p .idle with file := none }
    | _ => none

/-- The state after a step, when the step is possible. The identifier of a process that is
started is not in use. -/
def step (s : System n) (action : Action n) : Option (System n) :=
  match action, (s.processes action.process).life with
  | .spawn p, .unborn =>
    if s.processExists (s.processes p).pid then none
    else some (s.setProcess p { s.processes p with life := .alive, point := .idle })
  | action, .alive => s.act action.process action
  | _, _ => none

/-! ## Runs -/

/-- Before any call: nobody is in `acquireLock` or `release`, and there may be a lock from
before. -/
structure Initial (s : System n) : Prop where
  idle : ∀ p, (s.processes p).point = .idle
  pids : ∀ p q, (s.processes p).life = .alive → (s.processes q).life = .alive →
    (s.processes p).pid = (s.processes q).pid → p = q
  fresh : ∀ file ∈ s.file, file.id < s.nextFile

/-- The states of the runs whose steps all meet a condition. -/
abbrev Reachable (condition : System n → Action n → Prop) : System n → Prop :=
  RunsTo System.step condition Initial

/-- A live process between the return of `acquireLock` and the end of its release. -/
def Holds (s : System n) (p : Fin n) : Prop :=
  (s.processes p).life = .alive ∧ (s.processes p).point.heldFile.isSome

/-- At most one live process holds the lock. -/
def Exclusive (s : System n) : Prop := ∀ p q, s.Holds p → s.Holds q → p = q

/-- The lock that a live process has created is in its place. -/
def LocksStay (s : System n) : Prop :=
  ∀ p id, (s.processes p).life = .alive → (s.processes p).point.ownFile = some id →
    ∃ file ∈ s.file, file.id = id

/-- The clock is within `LOCK_MAX_AGE_MS` of the start of every live holder. -/
def InTime (s : System n) (action : Action n) : Prop :=
  ∀ p, action = .judge p → ∀ q, s.Holds q →
    (s.processes p).now - (s.processes q).now ≤ lockMaxAgeMs

end System

end HomelabInventory.MigrationLock
