import HomelabInventory.MigrationLock

/-!
# When the migration lock is exclusive

At most one live process holds the lock in every run in which no contender reads a lock
between its creation and its writing, and no contender removes another file than the one
that it found stale.
-/

namespace HomelabInventory.MigrationLock

variable {n : ℕ}

/-! ## What is to hold of two processes -/

/-- The number of the file that a process has to do with. -/
def Point.fileNumber : Point → Option ℕ
  | .writing id | .judging id _ | .holding id | .releasing id => some id
  | .removing file => file
  | _ => none

/-- What a process knows of the lock of another one: a file that it found stale, or created
itself, is none that the other has created, and a lock that it read from the file of the other
is the lock of the other. -/
def Compatible (process owner : Process) : Prop :=
  ∀ id, process.point.fileNumber = some id → owner.point.ownFile = some id →
    owner.point.heldFile = some id ∧ process.point = .judging id (owner.lock id)

/-- The file that a process has created is in its place, with its lock when that is written. -/
structure InPlace (s : System n) (process : Process) : Prop where
  kept : ∀ id, process.point.ownFile = some id → ∃ contents, s.file = some ⟨id, contents⟩ ∧
    (process.point.heldFile = some id → contents = .lock (process.lock id))
  fresh : ∀ id, process.point.fileNumber = some id → id < s.nextFile

/-- **The invariant.** -/
structure Sound (s : System n) : Prop where
  pids : ∀ p q, p ≠ q → (s.processes p).life = .alive → (s.processes q).life = .alive →
    (s.processes p).pid ≠ (s.processes q).pid
  compatible : ∀ p q, p ≠ q → (s.processes p).life = .alive → (s.processes q).life = .alive →
    Compatible (s.processes p) (s.processes q)
  inPlace : ∀ p, (s.processes p).life = .alive → InPlace s (s.processes p)
  fresh : ∀ file ∈ s.file, file.id < s.nextFile

variable {point : Point}
variable {id : ℕ}

@[simp] theorem fileNumber_of_ownFile (h : point.ownFile = some id) :
    point.fileNumber = some id := by
  cases point <;> simp_all [Point.ownFile, Point.fileNumber]

theorem ownFile_of_heldFile (h : point.heldFile = some id) : point.ownFile = some id := by
  cases point <;> simp_all [Point.ownFile, Point.heldFile]

variable {owner process : Process}

/-- A process without a file of its own is no owner. -/
theorem compatible_of_none (h : owner.point.ownFile = none) : Compatible process owner := by
  intro id _ hown
  rw [h] at hown
  cases hown

/-- A process that has to do with no file is compatible with every owner. -/
theorem compatible_of_outside (h : process.point.fileNumber = none) : Compatible process owner := by
  intro id hfile
  rw [h] at hfile
  cases hfile

/-! ## Changing one process -/

namespace System

variable {s : System n} {p : Fin n}

@[simp] theorem setProcess_self (process : Process) :
    (s.setProcess p process).processes p = process := by
  simp [setProcess]

@[simp] theorem setProcess_of_ne {q : Fin n} (hne : q ≠ p) (process : Process) :
    (s.setProcess p process).processes q = s.processes q := by
  simp [setProcess, hne]

end System

variable {s : System n} {p : Fin n}

/-- **Changing one process and the file keeps the invariant** when the new process is
compatible with the others and nobody misses its file. -/
theorem Sound.set (h : Sound s) {file : Option LockFile} {nextFile : ℕ}
    (hpids : process.life = .alive → ∀ q, q ≠ p → (s.processes q).life = .alive →
      process.pid ≠ (s.processes q).pid)
    (hpairs : process.life = .alive → ∀ q, q ≠ p → (s.processes q).life = .alive →
      Compatible process (s.processes q) ∧ Compatible (s.processes q) process)
    (hself : process.life = .alive →
      InPlace { s.setProcess p process with file, nextFile } process)
    (hothers : ∀ q, q ≠ p → (s.processes q).life = .alive →
      InPlace { s.setProcess p process with file, nextFile } (s.processes q))
    (hfresh : ∀ f ∈ file, f.id < nextFile) :
    Sound { s.setProcess p process with file, nextFile } where
  pids q r hne hq hr := by
    dsimp only at hq hr ⊢
    by_cases hqp : q = p
    · subst hqp
      rw [System.setProcess_self] at hq ⊢
      rw [System.setProcess_of_ne hne.symm] at hr ⊢
      exact hpids hq r hne.symm hr
    · rw [System.setProcess_of_ne hqp] at hq ⊢
      by_cases hrp : r = p
      · subst hrp
        rw [System.setProcess_self] at hr ⊢
        exact (hpids hr q hqp hq).symm
      · rw [System.setProcess_of_ne hrp] at hr ⊢
        exact h.pids q r hne hq hr
  compatible q r hne hq hr := by
    dsimp only at hq hr ⊢
    by_cases hqp : q = p
    · subst hqp
      rw [System.setProcess_self] at hq ⊢
      rw [System.setProcess_of_ne hne.symm] at hr ⊢
      exact (hpairs hq r hne.symm hr).1
    · rw [System.setProcess_of_ne hqp] at hq ⊢
      by_cases hrp : r = p
      · subst hrp
        rw [System.setProcess_self] at hr ⊢
        exact (hpairs hr q hqp hq).2
      · rw [System.setProcess_of_ne hrp] at hr ⊢
        exact h.compatible q r hne hq hr
  inPlace q hq := by
    dsimp only at hq ⊢
    by_cases hqp : q = p
    · subst hqp
      rw [System.setProcess_self] at hq ⊢
      exact hself hq
    · rw [System.setProcess_of_ne hqp] at hq ⊢
      exact hothers q hqp hq
  fresh := hfresh

variable {t : System n}

/-- A file in its place stays there while the file does. -/
theorem InPlace.of_eq (h : InPlace s process) (hfile : t.file = s.file)
    (hnext : s.nextFile ≤ t.nextFile) : InPlace t process where
  kept := hfile ▸ h.kept
  fresh id hid := Nat.lt_of_lt_of_le (h.fresh id hid) hnext

/-- **A live process goes on to another point** and leaves the file alone. -/
theorem Sound.move (h : Sound s) (hlife : (s.processes p).life = .alive)
    (hpairs : ∀ q, q ≠ p → (s.processes q).life = .alive →
      Compatible { s.processes p with point } (s.processes q) ∧
        Compatible (s.processes q) { s.processes p with point })
    (hself : InPlace s { s.processes p with point }) : Sound (s.move p point) :=
  h.set (fun _ q hne hq => h.pids p q hne.symm hlife hq) (fun _ => hpairs)
    (fun _ => hself.of_eq rfl (Nat.le_refl _))
    (fun q _ hq => (h.inPlace q hq).of_eq rfl (Nat.le_refl _)) h.fresh

/-- A live process that gives up what it has to do with files. -/
theorem Sound.leave (h : Sound s) (hlife : (s.processes p).life = .alive)
    (hpoint : point.fileNumber = none) : Sound (s.move p point) := by
  have hown : point.ownFile = none := by
    cases point <;> simp_all [Point.ownFile, Point.fileNumber]
  refine h.move hlife (fun q _ _ => ⟨compatible_of_outside hpoint, compatible_of_none hown⟩)
    ⟨fun id hid => ?_, fun id hid => ?_⟩
  · change point.ownFile = some id at hid
    rw [hown] at hid
    cases hid
  · change point.fileNumber = some id at hid
    rw [hpoint] at hid
    cases hid

/-! ## The condition -/

/-- **The condition**: a lock is not read while the live process that created it has still to
write it, and the file that a contender removes is the one that it found stale. -/
def Undisturbed (s : System n) : System.Action n → Prop
  | .read _ => ∀ q id, (s.processes q).life = .alive → (s.processes q).point = .writing id →
    ∀ file ∈ s.file, file.id ≠ id
  | .remove p => ∀ file ∈ s.file, (s.processes p).point = .removing (some file.id)
  | _ => True

/-- The clock is in time, and the lock undisturbed. -/
def Careful (s : System n) (action : System.Action n) : Prop :=
  s.InTime action ∧ Undisturbed s action

/-! ## Steps -/

/-- The new file is created. -/
theorem Sound.create (h : Sound s) (hlife : (s.processes p).life = .alive) (hfile : s.file = none) :
    Sound { s.move p (.writing s.nextFile) with
      file := some ⟨s.nextFile, .unreadable⟩, nextFile := s.nextFile + 1 } := by
  have hnobody : ∀ q, (s.processes q).life = .alive → (s.processes q).point.ownFile = none := by
    intro q hq
    cases hown : (s.processes q).point.ownFile with
    | none => rfl
    | some id =>
      obtain ⟨contents, hkept, -⟩ := (h.inPlace q hq).kept id hown
      rw [hfile] at hkept
      cases hkept
  refine h.set (fun _ q hne hq => h.pids p q hne.symm hlife hq) (fun _ q hne hq => ⟨?_, ?_⟩)
    (fun _ => ⟨fun id hid => ?_, fun id hid => ?_⟩) (fun q hne hq => ⟨fun id hid => ?_, fun id hid => ?_⟩)
    ?_
  · exact compatible_of_none (hnobody q hq)
  · -- the number of the new file is one that nobody knows
    intro id hknown hown
    cases hown
    exact absurd ((h.inPlace q hq).fresh _ hknown) (Nat.lt_irrefl _)
  · cases hid
    exact ⟨.unreadable, rfl, fun hheld => by cases hheld⟩
  · cases hid
    exact Nat.lt_succ_self _
  · rw [hnobody q hq] at hid
    cases hid
  · exact Nat.lt_succ_of_lt ((h.inPlace q hq).fresh id hid)
  · intro file hmem
    cases hmem
    exact Nat.lt_succ_self _

theorem Sound.write (h : Sound s) (hlife : (s.processes p).life = .alive)
    (hpoint : (s.processes p).point = .writing id) :
    Sound { s.move p (.holding id) with
      file := s.file.map fun file =>
        if file.id = id then { file with contents := .lock ((s.processes p).lock id) }
        else file } := by
  have hown : (s.processes p).point.ownFile = some id := by
    rw [hpoint]
    rfl
  obtain ⟨contents, hkept, -⟩ := (h.inPlace p hlife).kept id hown
  rw [hkept]
  refine h.set (fun _ q hne hq => h.pids p q hne.symm hlife hq) (fun _ q hne hq => ⟨?_, ?_⟩)
    (fun _ => ⟨fun other hid => ?_, fun other hid => ?_⟩)
    (fun q hne hq => ⟨fun other hid => ?_, (h.inPlace q hq).fresh⟩) ?_
  · intro other hknown howner
    cases hknown
    have hboth := h.compatible p q hne.symm hlife hq id (by rw [hpoint]; rfl) howner
    rw [hpoint] at hboth
    cases hboth.2
  · -- nobody has read the lock before it was written
    intro other hknown howner
    cases howner
    have hboth := h.compatible q p hne hq hlife id hknown hown
    rw [hpoint] at hboth
    cases hboth.1
  · cases hid
    exact ⟨.lock ((s.processes p).lock id), by simp, fun _ => rfl⟩
  · cases hid
    exact (h.inPlace p hlife).fresh id (by rw [hpoint]; rfl)
  · obtain ⟨contents', hkept', -⟩ := (h.inPlace q hq).kept other hid
    rw [hkept] at hkept'
    cases hkept'
    have hboth := h.compatible p q hne.symm hlife hq id (by rw [hpoint]; rfl) hid
    rw [hpoint] at hboth
    cases hboth.2
  · intro file hmem
    have hnew : file = ⟨id, .lock ((s.processes p).lock id)⟩ := by simpa using hmem.symm
    rw [hnew]
    exact (h.inPlace p hlife).fresh id (by rw [hpoint]; rfl)

theorem Sound.read (h : Sound s) (hlife : (s.processes p).life = .alive)
    (hundisturbed : Undisturbed s (.read p)) {file : LockFile} (hfile : s.file = some file) :
    Sound (s.move p (match file.contents with
      | .unreadable => .removing (some file.id)
      | .lock existing => .judging file.id existing)) := by
  obtain ⟨number, contents⟩ := file
  have hwritten : ∀ q id, (s.processes q).life = .alive →
      (s.processes q).point.ownFile = some id → id = number →
      (s.processes q).point.heldFile = some id ∧ contents = .lock ((s.processes q).lock id) := by
    intro q id hq hown hid
    obtain ⟨contents', hkept, hlock⟩ := (h.inPlace q hq).kept id hown
    rw [hfile] at hkept
    have hheld : (s.processes q).point.heldFile = some id := by
      cases hpoint : (s.processes q).point with
      | writing other =>
        rw [hpoint] at hown
        cases hown
        exact absurd hid.symm (hundisturbed q id hq hpoint _ hfile)
      | holding other | releasing other =>
        rw [hpoint] at hown
        exact hown
      | _ =>
        rw [hpoint] at hown
        cases hown
    refine ⟨hheld, ?_⟩
    cases hkept
    exact hlock hheld
  cases contents with
  | unreadable =>
    refine h.move hlife (fun q _ hq => ⟨fun id hid hown => ?_, compatible_of_none rfl⟩)
      ⟨(fun id hid => by cases hid), fun id hid => ?_⟩
    · cases hid
      cases (hwritten q _ hq hown rfl).2
    · cases hid
      exact h.fresh _ hfile
  | lock existing =>
    refine h.move hlife (fun q _ hq => ⟨fun id hid hown => ?_, compatible_of_none rfl⟩)
      ⟨(fun id hid => by cases hid), fun id hid => ?_⟩
    · cases hid
      obtain ⟨hheld, heq⟩ := hwritten q number hq hown rfl
      exact ⟨hheld, congrArg (Point.judging number) (Contents.lock.inj heq)⟩
    · cases hid
      exact h.fresh _ hfile

/-- A live holder of the lock is not found stale while the clock is in time. -/
theorem not_isStale_of_holds (h : Sound s) {q : Fin n} (hne : p ≠ q)
    (hp : (s.processes p).life = .alive) (hq : s.Holds q)
    (htime : (s.processes p).now - (s.processes q).now ≤ lockMaxAgeMs) (id : ℕ) :
    s.isStale (s.processes p) ((s.processes q).lock id) = false := by
  have hexists : s.processExists (s.processes q).pid = true := by
    rw [System.processExists, Bool.or_eq_true, decide_eq_true_eq]
    exact Or.inr ⟨q, hq.1, rfl⟩
  have hpid : (s.processes q).pid ≠ (s.processes p).pid := (h.pids p q hne hp hq.1).symm
  have hsame : System.sameProcessInstance (s.processes p) ((s.processes q).lock id) = true := by
    simp [System.sameProcessInstance, Process.lock, hpid]
  simp only [System.isStale, Process.lock] at hsame ⊢
  simp only [hexists, hsame]
  simpa using htime

theorem Sound.judge (h : Sound s) (hlife : (s.processes p).life = .alive) {existing : Lock}
    (hpoint : (s.processes p).point = .judging id existing) (htime : s.InTime (.judge p))
    (hstale : s.isStale (s.processes p) existing = true) :
    Sound (s.move p (.removing (some id))) := by
  refine h.move hlife (fun q hne hq => ⟨fun other hid hown => ?_, compatible_of_none rfl⟩)
    ⟨(fun other hid => by cases hid), fun other hid => ?_⟩
  · cases hid
    obtain ⟨hheld, heq⟩ := h.compatible p q hne.symm hlife hq id (by rw [hpoint]; rfl) hown
    rw [hpoint] at heq
    cases heq
    have hholds : s.Holds q := ⟨hq, by rw [hheld]; rfl⟩
    rw [not_isStale_of_holds h hne.symm hlife hholds (htime p rfl q hholds)] at hstale
    cases hstale
  · cases hid
    exact (h.inPlace p hlife).fresh id (by rw [hpoint]; rfl)

/-- A file is removed that no other live process has created. -/
theorem Sound.remove (h : Sound s) (hlife : (s.processes p).life = .alive)
    (hpoint : point.fileNumber = none)
    (hnobody : ∀ q, q ≠ p → (s.processes q).life = .alive → ∀ file ∈ s.file,
      (s.processes q).point.ownFile ≠ some file.id) :
    Sound { s.move p point with file := none } := by
  have hown : point.ownFile = none := by
    cases point <;> simp_all [Point.ownFile, Point.fileNumber]
  refine h.set (fun _ q hne hq => h.pids p q hne.symm hlife hq)
    (fun _ q _ _ => ⟨compatible_of_outside hpoint, compatible_of_none hown⟩)
    (fun _ => ⟨fun id hid => ?_, fun id hid => ?_⟩)
    (fun q hne hq => ⟨fun id hid => ?_, (h.inPlace q hq).fresh⟩) (fun file hmem => by cases hmem)
  · change point.ownFile = some id at hid
    rw [hown] at hid
    cases hid
  · change point.fileNumber = some id at hid
    rw [hpoint] at hid
    cases hid
  · obtain ⟨contents, hkept, -⟩ := (h.inPlace q hq).kept id hid
    exact absurd hid (hnobody q hne hq _ hkept)

/-- A step starts a process whose identifier is not in use, or a live process takes it. -/
theorem step_cases {action : System.Action n} (h : s.step action = some t) :
    (∃ p, s.processExists (s.processes p).pid = false ∧
      t = s.setProcess p { s.processes p with life := .alive, point := .idle }) ∨
    ((s.processes action.process).life = .alive ∧ s.act action.process action = some t) := by
  unfold System.step at h
  split at h
  · next p _ =>
    split at h
    · cases h
    · next hunused =>
      cases h
      exact Or.inl ⟨p, by simpa using hunused, rfl⟩
  · next hlife => exact Or.inr ⟨hlife, h⟩
  · cases h

/-- **A careful step keeps the invariant.** -/
theorem Sound.step (h : Sound s) {action : System.Action n} (hcareful : Careful s action)
    (hstep : s.step action = some t) : Sound t := by
  obtain ⟨htime, hundisturbed⟩ := hcareful
  rcases step_cases hstep with ⟨p, hunused, rfl⟩ | ⟨hlife, hact⟩
  · rw [System.processExists, Bool.or_eq_false_iff, decide_eq_false_iff_not] at hunused
    refine h.set (fun _ q _ hq heq => hunused.2 ⟨q, hq, heq.symm⟩)
      (fun _ q _ _ => ⟨compatible_of_outside rfl, compatible_of_none rfl⟩)
      (fun _ => ⟨fun id hid => ?_, fun id hid => ?_⟩)
      (fun q _ hq => (h.inPlace q hq).of_eq rfl (Nat.le_refl _)) h.fresh
    · cases hid
    · cases hid
  · cases action with
    | spawn p => cases hact
    | crash p =>
      cases hact
      refine h.set (fun hdead => ?_) (fun hdead => ?_) (fun hdead => ?_)
        (fun q _ hq => (h.inPlace q hq).of_eq rfl (Nat.le_refl _)) h.fresh
      all_goals cases hdead
    | acquire p now =>
      simp only [System.act, System.Action.process] at hact hlife
      obtain ⟨-, hact⟩ := Option.ite_none_right_eq_some.mp hact
      cases hact
      refine h.set (fun _ q hne hq => h.pids p q hne.symm hlife hq)
        (fun _ q _ _ => ⟨compatible_of_outside rfl, compatible_of_none rfl⟩)
        (fun _ => ⟨fun id hid => ?_, fun id hid => ?_⟩)
        (fun q _ hq => (h.inPlace q hq).of_eq rfl (Nat.le_refl _)) h.fresh
      · cases hid
      · cases hid
    | create p =>
      simp only [System.act, System.Action.process] at hact hlife
      obtain ⟨-, hact⟩ := Option.ite_none_right_eq_some.mp hact
      split at hact
      · cases hact
        exact h.leave hlife rfl
      · next hnone =>
        cases hact
        exact h.create hlife hnone
    | write p =>
      simp only [System.act, System.Action.process] at hact hlife
      split at hact
      · next id hpoint =>
        cases hact
        exact h.write hlife hpoint
      · cases hact
    | fail p =>
      simp only [System.act, System.Action.process] at hact hlife
      split at hact
      · cases hact
        exact h.leave hlife rfl
      · cases hact
        exact h.leave hlife rfl
      · cases hact
    | read p =>
      simp only [System.act, System.Action.process] at hact hlife
      obtain ⟨-, hact⟩ := Option.ite_none_right_eq_some.mp hact
      split at hact
      · cases hact
        exact h.leave hlife rfl
      · next hfile =>
        cases hact
        exact h.read hlife hundisturbed hfile
      · next hfile =>
        cases hact
        exact h.read hlife hundisturbed hfile
    | judge p =>
      change (s.processes p).life = .alive at hlife
      change s.act p _ = some t at hact
      simp only [System.act] at hact
      split at hact
      · next id existing hpoint =>
        cases hstale : s.isStale (s.processes p) existing with
        | true =>
          rw [if_pos hstale] at hact
          cases hact
          exact h.judge hlife hpoint htime hstale
        | false =>
          rw [if_neg (by simp [hstale])] at hact
          cases hact
          exact h.leave hlife rfl
      · cases hact
    | remove p =>
      simp only [System.act, System.Action.process] at hact hlife
      split at hact
      · next found hpoint =>
        cases hact
        refine h.remove hlife rfl fun q hne hq file hfile hown => ?_
        -- the file that is there is the one that was found stale
        have hsame := hundisturbed file hfile
        have hboth := h.compatible p q hne.symm hlife hq file.id (by rw [hsame]; rfl) hown
        rw [hsame] at hboth
        cases hboth.2
      · cases hact
    | release p =>
      simp only [System.act, System.Action.process] at hact hlife
      split at hact
      · next id hpoint =>
        have hown : (s.processes p).point.ownFile = some id := by
          rw [hpoint]
          rfl
        obtain ⟨contents, hkept, hlock⟩ := (h.inPlace p hlife).kept id hown
        obtain rfl := hlock (by rw [hpoint]; rfl)
        rw [hkept] at hact
        simp only [Process.lock, if_true] at hact
        cases hact
        refine h.move hlife (fun q hne hq => ⟨fun other hid howner => ?_, fun other hid howner => ?_⟩)
          ⟨fun other hid => ?_, fun other hid => ?_⟩
        · cases hid
          have hboth := h.compatible p q hne.symm hlife hq id (by rw [hpoint]; rfl) howner
          rw [hpoint] at hboth
          cases hboth.2
        · cases howner
          have hboth := h.compatible q p hne hq hlife id hid hown
          exact ⟨rfl, hboth.2⟩
        · cases hid
          exact ⟨_, hkept, fun _ => rfl⟩
        · cases hid
          exact (h.inPlace p hlife).fresh id (by rw [hpoint]; rfl)
      · cases hact
    | unlink p =>
      simp only [System.act, System.Action.process] at hact hlife
      split at hact
      · next id hpoint =>
        cases hact
        refine h.remove hlife rfl fun q hne hq file hfile hown => ?_
        -- the file that is there is the own one
        obtain ⟨contents, hkept, -⟩ := (h.inPlace p hlife).kept id (by rw [hpoint]; rfl)
        rw [hkept] at hfile
        cases hfile
        have hboth := h.compatible p q hne.symm hlife hq id (by rw [hpoint]; rfl) hown
        rw [hpoint] at hboth
        cases hboth.2
      · cases hact

/-! ## Over whole runs -/

theorem Sound.initial (h : System.Initial s) : Sound s where
  pids p q hne hp hq heq := hne (h.pids p q hp hq heq)
  compatible p q _ _ _ := compatible_of_outside (by rw [h.idle]; rfl)
  inPlace p _ := by
    constructor
    · intro id hid
      rw [h.idle] at hid
      cases hid
    · intro id hid
      rw [h.idle] at hid
      cases hid
  fresh := h.fresh

theorem sound_of_reachable (h : System.Reachable Careful s) : Sound s :=
  RunsTo.invariant h (fun _ => Sound.initial) fun _ _ _ hs => hs.step

/-- **In every run of careful steps at most one live process holds the lock, and no lock of a
live process is removed by another one.** -/
theorem exclusive_of_reachable (s : System n) (h : System.Reachable Careful s) :
    s.Exclusive ∧ s.LocksStay := by
  have hsound := sound_of_reachable h
  refine ⟨fun p q hp hq => ?_, fun p id hlife hown => ?_⟩
  · by_contra hne
    obtain ⟨id, hid⟩ := Option.isSome_iff_exists.mp hp.2
    obtain ⟨id', hid'⟩ := Option.isSome_iff_exists.mp hq.2
    obtain ⟨_, hkept, -⟩ := (hsound.inPlace p hp.1).kept id (ownFile_of_heldFile hid)
    obtain ⟨_, hkept', -⟩ := (hsound.inPlace q hq.1).kept id' (ownFile_of_heldFile hid')
    rw [hkept] at hkept'
    cases hkept'
    have hboth := hsound.compatible p q hne hp.1 hq.1 id
      (fileNumber_of_ownFile (ownFile_of_heldFile hid)) (ownFile_of_heldFile hid')
    rw [hboth.2] at hid
    cases hid
  · obtain ⟨contents, hkept, -⟩ := (hsound.inPlace p hlife).kept id hown
    exact ⟨_, hkept, rfl⟩

/-! ## Examples -/

/-- Two processes, and no lock yet. -/
def twoProcesses : System 2 where
  processes p := ⟨if p = 0 then 101 else 102, 0, .alive, 0, .idle⟩
  file := none
  nextFile := 0
  otherPids := []

theorem initial_twoProcesses : System.Initial twoProcesses where
  idle _ := rfl
  pids := by decide
  fresh file hfile := by cases hfile

/-- The state after a run. -/
def after (actions : List (System.Action 2)) : System 2 :=
  (actions.foldlM System.step twoProcesses).getD twoProcesses

/-- The first process takes the lock, and the second one finds it and reads it. -/
def contending : List (System.Action 2) :=
  [.acquire 0 0, .create 0, .write 0, .acquire 1 0, .create 1]

/-- The first process crashes, and the second one calls again and finds its lock. -/
def recalled : List (System.Action 2) :=
  contending ++ [.read 1, .judge 1, .crash 0, .acquire 1 1, .create 1]

/-- Steps that neither read nor judge nor remove a lock are careful. -/
theorem careful_of_blind {action : System.Action n} (hread : ∀ p, action ≠ .read p)
    (hjudge : ∀ p, action ≠ .judge p) (hremove : ∀ p, action ≠ .remove p) (s : System n) :
    Careful s action := by
  refine ⟨fun p hp => absurd hp (hjudge p), ?_⟩
  cases action with
  | read p => exact absurd rfl (hread p)
  | remove p => exact absurd rfl (hremove p)
  | _ => trivial

/-- Reading is careful when every live file is written. -/
theorem careful_read (p : Fin n)
    (h : ∀ q, (s.processes q).point.ownFile = (s.processes q).point.heldFile) :
    Careful s (.read p) := by
  refine ⟨nofun, fun q id _ hq => ?_⟩
  have hwritten := h q
  rw [hq] at hwritten
  cases hwritten

/-- Judging is careful when no process has started long before. -/
theorem careful_judge (p : Fin n)
    (h : ∀ q, (s.processes p).now - (s.processes q).now ≤ lockMaxAgeMs) : Careful s (.judge p) := by
  refine ⟨fun p' hp q _ => ?_, trivial⟩
  cases hp
  exact h q

/-- **A contender gives up before a live lock and takes over a dead one**, and nobody else holds
the lock either time. -/
theorem exclusive_takeover :
    ((after (contending ++ [.read 1, .judge 1])).Holds 0 ∧
      ((after (contending ++ [.read 1, .judge 1])).processes 1).point = .idle ∧
      (after (contending ++ [.read 1, .judge 1])).Exclusive) ∧
    (after (recalled ++ [.read 1, .judge 1, .remove 1, .create 1, .write 1])).Holds 1 ∧
      (after (recalled ++ [.read 1, .judge 1, .remove 1, .create 1, .write 1])).Exclusive := by
  have hblind : ∀ action ∈ [.acquire 0 0, .create 0, .write 0, .acquire 1 0, .create 1, .crash 0,
      .acquire 1 1, .write 1], ∀ s t : System 2, s.step action = some t →
        ∃ action, Careful s action ∧ s.step action = some t := by
    intro action haction s t hstep
    refine ⟨action, careful_of_blind ?_ ?_ ?_ s, hstep⟩ <;> clear hstep <;> revert action <;> decide
  have hfound : System.Reachable Careful (after contending) :=
    RunsTo.run (.start initial_twoProcesses) (fun action h => hblind action (by revert action; decide))
      (show contending.foldlM System.step twoProcesses = some _ from rfl)
  have hread : System.Reachable Careful (after (contending ++ [.read 1])) :=
    hfound.step (.read 1) (careful_read 1 (by decide)) rfl
  have hgaveUp : System.Reachable Careful (after (contending ++ [.read 1, .judge 1])) :=
    hread.step (.judge 1) (careful_judge 1 (by decide)) rfl
  have hrecalled : System.Reachable Careful (after recalled) :=
    hgaveUp.run (fun action h => hblind action (by revert action; decide))
      (show [.crash 0, .acquire 1 1, .create 1].foldlM System.step _ = some _ from rfl)
  have hreread : System.Reachable Careful (after (recalled ++ [.read 1])) :=
    hrecalled.step (.read 1) (careful_read 1 (by decide)) rfl
  have hstale : System.Reachable Careful (after (recalled ++ [.read 1, .judge 1])) :=
    hreread.step (.judge 1) (careful_judge 1 (by decide)) rfl
  have hremoved : System.Reachable Careful (after (recalled ++ [.read 1, .judge 1, .remove 1])) :=
    hstale.step (.remove 1) ⟨nofun, fun _ hfile => Option.some.inj hfile ▸ rfl⟩ rfl
  have htaken : System.Reachable Careful
      (after (recalled ++ [.read 1, .judge 1, .remove 1, .create 1, .write 1])) :=
    hremoved.run (fun action h => hblind action (by revert action; decide))
      (show [.create 1, .write 1].foldlM System.step _ = some _ from rfl)
  exact ⟨⟨⟨rfl, rfl⟩, rfl, (exclusive_of_reachable _ hgaveUp).1⟩, ⟨rfl, rfl⟩,
    (exclusive_of_reachable _ htaken).1⟩
/-- The second process finds the lock of the first one while it is still empty. -/
def interleaved : List (System.Action 2) :=
  [.acquire 0 0, .create 0, .acquire 1 0, .create 1, .read 1, .remove 1, .create 1, .write 1,
    .write 0]

/-- **Two processes hold the lock**, when the second one reads it before it is written. -/
theorem not_exclusive_interleaved :
    ¬ ∀ (n : ℕ) (s : System n), System.Reachable System.InTime s → s.Exclusive ∧ s.LocksStay := by
  intro hclaim
  have hreach : System.Reachable System.InTime (after interleaved) := by
    refine RunsTo.run (.start initial_twoProcesses) ?_
      (show interleaved.foldlM System.step twoProcesses = some (after interleaved) from rfl)
    refine fun action haction s _ hstep => ⟨action, ?_, hstep⟩
    rintro p rfl
    simp [interleaved] at haction
  have hexclusive := (hclaim 2 _ hreach).1 0 1 ⟨by decide, by decide⟩ ⟨by decide, by decide⟩
  cases hexclusive

end HomelabInventory.MigrationLock
