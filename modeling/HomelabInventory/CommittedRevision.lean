import HomelabInventory.EngineClient
import Mathlib.Order.Basic
import Mathlib.Order.Nat

/-!
# No committed revision is lost

A client that comes to rest shows the greatest revision that was delivered to it,
unless a message came at the wrong time: an event while a recovery holds an older
snapshot, or the answer to a command of its own after the client has moved on.
-/

namespace HomelabInventory

open List Option

/-! ## Messages at the right time -/

/-- The snapshot that a recovery has read. -/
def Recovery.snapshot : Recovery → Option ℕ
  | .fetching => none
  | .fetched revision | .initializing revision => some revision

/-- **A message comes at the right time.** No event overtakes a recovery that holds an older snapshot,
since the worker would start from that snapshot and the event would be lost; and the answer to a
command finds the client at the revision the command was about, or at the one it committed. -/
def ClientRun.Timely (run : ClientRun) : ClientAction → Prop
  | .deliverEvent _ => ∀ event recovery snapshot, run.events.head? = some event →
    run.client.recovery = some recovery → recovery.snapshot = some snapshot →
      event.revision ≤ snapshot
  | .receiveAnswer => ∀ requestId optimisticRevision revision,
    run.client.mutation =
        some ⟨requestId, .answered optimisticRevision (.committed revision)⟩ →
      ∃ current, run.client.revision = some current ∧
        (revision = current ∨ revision = current + 1)
  | _ => True

/-! ## The invariant of the client -/

/-- The request tries a mutation out. -/
def WorkerRequest.isOptimistic : WorkerRequest → Bool
  | .replay _ _ => false
  | .optimistic _ _ => true

namespace DomainEngineClient

/-- The client shows at least the revision, and no request to replay an older
commit can succeed any more. -/
def Settled (client : DomainEngineClient) (delivered : ℕ) : Prop :=
  (∃ current, client.revision = some current ∧ delivered ≤ current) ∧
    ∀ base committed, .replay base committed ∈ client.pending →
      ∃ engine, client.worker = some engine ∧ committed ≤ engine

/-- The worker is asked to replay the commit of the revision. Until it answers the
client does not go past it, and neither a posted mutation nor one that the worker
tries before can bring it further. -/
def Expecting (client : DomainEngineClient) (delivered : ℕ) : Prop :=
  ∃ before base after current,
    client.pending = before ++ .replay base delivered :: after ∧
    client.revision = some current ∧
    (current < delivered ∨ current = delivered ∧
      (∀ mutation, client.mutation = some mutation → mutation.stage = .optimistic) ∧
      ∀ base requestId, .optimistic base requestId ∉ before)

/-- What holds of the client at any time. -/
structure Coherent (server : ℕ) (delivered : Option ℕ) (client : DomainEngineClient) : Prop where
  delivered_le : ∀ d, delivered = some d → d ≤ server
  revision_le : ∀ r, client.revision = some r → r ≤ server
  replay_le : ∀ base committed, .replay base committed ∈ client.pending →
    ∃ d, delivered = some d ∧ committed ≤ d
  snapshot_le : ∀ recovery s, client.recovery = some recovery → recovery.snapshot = some s →
    s ≤ server ∧ ∀ d, delivered = some d → d ≤ s
  initializing : ∀ s, client.recovery = some (.initializing s) → client.worker = some s
  answered_le : ∀ requestId optimisticRevision revision,
    client.mutation = some ⟨requestId, .answered optimisticRevision (.committed revision)⟩ →
      revision ≤ server
  optimistic : ∀ base requestId, .optimistic base requestId ∈ client.pending →
    ∃ requestId', client.mutation = some ⟨requestId', .optimistic⟩
  single : client.pending.countP (·.isOptimistic) ≤ 1
  active : ∀ requestId, client.activeMutationRequestId = some requestId →
    ∃ stage, client.mutation = some ⟨requestId, stage⟩ ∧ stage ≠ .optimistic
  failed : ∀ requestId, client.mutation = some ⟨requestId, .failed⟩ → client.recovery ≠ none

/-- What holds of the client at any time: unless a recovery is on its way, it shows
every delivered revision, or is about to. -/
structure Current (server : ℕ) (delivered : Option ℕ) (client : DomainEngineClient) : Prop
    extends client.Coherent server delivered where
  settled : client.recovery = none → ∀ d, delivered = some d →
    client.Settled d ∨ client.Expecting d

variable {server : ℕ} {delivered : Option ℕ} {client : DomainEngineClient}

/-! ## Recoveries -/

theorem recovery_recover (client : DomainEngineClient) (phase : DomainEnginePhase) :
    (client.recover phase).recovery ≠ none := by
  unfold recover
  split
  · rename_i h
    exact isSome_iff_ne_none.mp h
  · exact some_ne_none _

/-- While a recovery is on its way nothing more is asked of the client. -/
theorem Coherent.current (h : client.Coherent server delivered) (hrecovery : client.recovery ≠ none) :
    client.Current server delivered :=
  ⟨h, fun hnone => absurd hnone hrecovery⟩

theorem Coherent.recover (h : client.Coherent server delivered) (phase : DomainEnginePhase) :
    (client.recover phase).Current server delivered := by
  refine Coherent.current ?_ (recovery_recover client phase)
  unfold DomainEngineClient.recover
  split
  · exact h
  · exact {
      delivered_le := h.delivered_le
      revision_le := h.revision_le
      replay_le := h.replay_le
      snapshot_le := by
        intro recovery s hrecovery hs
        obtain rfl := Option.some.inj hrecovery
        cases hs
      initializing := by
        intro s hrecovery
        cases hrecovery
      answered_le := h.answered_le
      optimistic := h.optimistic
      single := h.single
      active := h.active
      failed := fun _ _ => some_ne_none _ }

theorem Coherent.rebuild (h : client.Coherent server delivered) :
    client.rebuild.Current server delivered :=
  h.recover .rebuilding

theorem Coherent.setPhase (h : client.Coherent server delivered) (phase : DomainEnginePhase) :
    (client.setState phase client.revision).Coherent server delivered :=
  ⟨h.delivered_le, h.revision_le, h.replay_le, h.snapshot_le, h.initializing, h.answered_le,
    h.optimistic, h.single, h.active, h.failed⟩

/-- The server reads its snapshot after everything it has delivered. -/
theorem Current.readSnapshot (h : client.Current server delivered) :
    { client with recovery := some (.fetched server) }.Current server delivered := by
  refine Coherent.current ?_ (some_ne_none _)
  exact {
    delivered_le := h.delivered_le
    revision_le := h.revision_le
    replay_le := h.replay_le
    snapshot_le := by
      intro recovery s hrecovery hs
      obtain rfl := Option.some.inj hrecovery
      obtain rfl := Option.some.inj hs
      exact ⟨le_refl _, h.delivered_le⟩
    initializing := by
      intro s hrecovery
      cases hrecovery
    answered_le := h.answered_le
    optimistic := h.optimistic
    single := h.single
    active := h.active
    failed := fun _ _ => some_ne_none _ }

variable {next : DomainEngineClient}

/-- Replacing the worker drops every request. -/
theorem Current.receiveSnapshot (h : client.Current server delivered)
    (hnext : client.receiveSnapshot = some next) : next.Current server delivered := by
  unfold DomainEngineClient.receiveSnapshot at hnext
  split at hnext
  · rename_i revision hrecovery
    cases hnext
    refine Coherent.current ?_ (some_ne_none _)
    exact {
      delivered_le := h.delivered_le
      revision_le := h.revision_le
      replay_le := by
        intro base committed hmem
        cases hmem
      snapshot_le := by
        intro recovery s hsome hs
        obtain rfl := Option.some.inj hsome
        exact h.snapshot_le (.fetched revision) s hrecovery hs
      initializing := by
        intro s hsome
        cases hsome
        rfl
      answered_le := by
        intro requestId optimisticRevision committed hmutation
        exact h.answered_le _ _ _ (filter_eq_some_iff.mp hmutation).1
      optimistic := by
        intro base requestId hmem
        cases hmem
      single := Nat.zero_le 1
      active := by
        intro requestId hactive
        cases hactive
      failed := fun _ _ => some_ne_none _ }
  · cases hnext

/-- When the new worker is ready, the client shows every delivered revision. -/
theorem Current.workerReady (h : client.Current server delivered)
    (hnext : client.workerReady = some next) : next.Current server delivered := by
  unfold DomainEngineClient.workerReady at hnext
  split at hnext
  · rename_i revision hrecovery
    obtain ⟨hle, hdelivered⟩ := h.snapshot_le _ revision hrecovery rfl
    have hworker := h.initializing revision hrecovery
    -- the parts that do not depend on the mutation
    have hsettled : ∀ d, delivered = some d →
        (∃ current, some revision = some current ∧ d ≤ current) ∧
          ∀ base committed, .replay base committed ∈ client.pending →
            ∃ engine, client.worker = some engine ∧ committed ≤ engine := by
      intro d hd
      refine ⟨⟨revision, rfl, hdelivered d hd⟩, ?_⟩
      intro base committed hmem
      obtain ⟨d', hd', hcommitted⟩ := h.replay_le base committed hmem
      exact ⟨revision, hworker, hcommitted.trans (hdelivered d' hd')⟩
    have hrevision : ∀ r, some revision = some r → r ≤ server := by
      rintro r ⟨⟩
      exact hle
    dsimp only at hnext
    split at hnext
    · rename_i requestId hmutation
      cases hnext
      refine ⟨⟨h.delivered_le, hrevision, h.replay_le, ?_, ?_, ?_, ?_, h.single, ?_, ?_⟩,
        fun _ d hd => Or.inl (hsettled d hd)⟩
      · intro recovery s hsome
        cases hsome
      · intro s hsome
        cases hsome
      · intro requestId optimisticRevision committed hsome
        cases hsome
      · intro base requestId' hmem
        obtain ⟨_, hoptimistic⟩ := h.optimistic base requestId' hmem
        rw [show client.mutation = some ⟨requestId, .failed⟩ from hmutation] at hoptimistic
        cases hoptimistic
      · intro requestId' hactive
        dsimp only [finishMutation, setState] at hactive
        split at hactive
        · cases hactive
        · rename_i hother
          obtain ⟨stage, hstage, -⟩ := h.active requestId' hactive
          rw [show client.mutation = some ⟨requestId, .failed⟩ from hmutation] at hstage
          cases hstage
          exact absurd hactive hother
      · intro requestId' hsome
        cases hsome
    · rename_i hmutation
      cases hnext
      refine ⟨⟨h.delivered_le, hrevision, h.replay_le, ?_, ?_, h.answered_le, h.optimistic, h.single,
        h.active, ?_⟩, fun _ d hd => Or.inl (hsettled d hd)⟩
      · intro recovery s hsome
        cases hsome
      · intro s hsome
        cases hsome
      · intro requestId hsome
        exact absurd hsome (hmutation requestId)
  · cases hnext

/-! ## Mutations -/

/-- Starting a mutation asks the worker behind everything else. -/
theorem Current.mutate (h : client.Current server delivered) (hnext : client.mutate = some next) :
    next.Current server delivered := by
  unfold DomainEngineClient.mutate at hnext
  split at hnext
  · cases hnext
  · rename_i revision hrevision
    split at hnext
    · rename_i hfree
      cases hnext
      have hinactive : client.activeMutationRequestId = none := by
        cases hactive : client.activeMutationRequestId with
        | none => rfl
        | some requestId =>
          obtain ⟨stage, hstage, -⟩ := h.active requestId hactive
          rw [hfree.2.2] at hstage
          cases hstage
      have hmem : ∀ base committed, .replay base committed ∈
          client.pending ++ [.optimistic revision client.nextRequestId] ↔
            .replay base committed ∈ client.pending := by
        intro base committed
        simp
      have hnone : client.pending.countP (·.isOptimistic) = 0 := by
        rw [countP_eq_zero]
        intro request hrequest hoptimistic
        cases request with
        | replay base committed => cases hoptimistic
        | optimistic base requestId =>
          obtain ⟨_, hmutation⟩ := h.optimistic base requestId hrequest
          rw [hfree.2.2] at hmutation
          cases hmutation
      refine ⟨⟨h.delivered_le, h.revision_le, ?_, h.snapshot_le, h.initializing, ?_, ?_, ?_, ?_, ?_⟩,
        ?_⟩
      · intro base committed hreplay
        exact h.replay_le base committed ((hmem base committed).mp hreplay)
      · intro requestId optimisticRevision committed hmutation
        cases hmutation
      · intro base requestId _
        exact ⟨_, rfl⟩
      · show (client.pending ++ _).countP _ ≤ 1
        rw [countP_append, hnone]
        exact le_refl _
      · intro requestId hactive
        rw [show client.activeMutationRequestId = some requestId from hactive] at hinactive
        cases hinactive
      · intro requestId hmutation
        cases hmutation
      · intro hrecovery d hd
        rcases h.settled hrecovery d hd with ⟨hcurrent, hreplays⟩ |
          ⟨before, base, after, current, hpending, hcurrent, hahead⟩
        · refine Or.inl ⟨hcurrent, ?_⟩
          intro base committed hreplay
          exact hreplays base committed ((hmem base committed).mp hreplay)
        · refine Or.inr ⟨before, base, after ++ [.optimistic revision client.nextRequestId], current,
            ?_, hcurrent, ?_⟩
          · show client.pending ++ _ = _
            rw [hpending, append_assoc, cons_append]
          · rcases hahead with hlt | ⟨heq, -, hbefore⟩
            · exact Or.inl hlt
            · refine Or.inr ⟨heq, ?_, hbefore⟩
              rintro mutation ⟨⟩
              rfl
    · cases hnext

variable {base engine requestId revision : ℕ}

/-- A failed mutation leaves a recovery on its way. -/
theorem Coherent.failMutation (h : client.Coherent server delivered) {stage : MutationStage}
    (hmutation : client.mutation = some ⟨requestId, stage⟩) (hstage : stage ≠ .optimistic) :
    (client.failMutation requestId).Current server delivered := by
  have hrebuild := h.rebuild
  have hkeep : client.rebuild.mutation = client.mutation ∧ client.rebuild.pending = client.pending ∧
      client.rebuild.activeMutationRequestId = client.activeMutationRequestId := by
    unfold DomainEngineClient.rebuild DomainEngineClient.recover
    split
    · exact ⟨rfl, rfl, rfl⟩
    · exact ⟨rfl, rfl, rfl⟩
  obtain ⟨hmutation', hpending, hactive⟩ := hkeep
  refine Coherent.current ?_ (recovery_recover client .rebuilding)
  refine ⟨hrebuild.delivered_le, hrebuild.revision_le, hrebuild.replay_le, hrebuild.snapshot_le,
    hrebuild.initializing, ?_, ?_, hrebuild.single, ?_, ?_⟩
  · intro requestId' optimisticRevision committed hsome
    cases hsome
  · intro base requestId' hmem
    obtain ⟨_, hoptimistic⟩ := hrebuild.optimistic base requestId' hmem
    rw [hmutation', hmutation] at hoptimistic
    cases hoptimistic
    exact absurd rfl hstage
  · intro requestId' hsome
    obtain ⟨stage', hstage', -⟩ := hrebuild.active requestId' hsome
    rw [hmutation', hmutation] at hstage'
    cases hstage'
    exact ⟨.failed, rfl, by decide⟩
  · intro requestId' _
    exact recovery_recover client .rebuilding

theorem Current.loseAnswer (h : client.Current server delivered)
    (hnext : client.loseAnswer = some next) : next.Current server delivered := by
  unfold DomainEngineClient.loseAnswer at hnext
  split at hnext
  · rename_i requestId base optimisticRevision hmutation
    cases hnext
    exact h.toCoherent.failMutation hmutation (by simp)
  · rename_i requestId optimisticRevision answer hmutation
    cases hnext
    exact h.toCoherent.failMutation hmutation (by simp)
  · cases hnext

/-- **The answer to a command that arrives at the right time** brings the client
to the committed revision, past no event that it waits for. -/
theorem Current.receiveAnswer (h : client.Current server delivered)
    (htimely : ∀ requestId optimisticRevision revision,
      client.mutation = some ⟨requestId, .answered optimisticRevision (.committed revision)⟩ →
        ∃ current, client.revision = some current ∧
          (revision = current ∨ revision = current + 1))
    (hnext : client.receiveAnswer = some next) :
    next.Current server delivered := by
  unfold DomainEngineClient.receiveAnswer at hnext
  split at hnext
  · rename_i requestId optimisticRevision revision hmutation
    split at hnext
    · cases hnext
      have hle := h.answered_le requestId optimisticRevision revision hmutation
      obtain ⟨current, hcurrent, hnear⟩ := htimely requestId optimisticRevision revision hmutation
      have hquiet : ∀ base requestId', WorkerRequest.optimistic base requestId' ∉ client.pending := by
        intro base requestId' hmem
        obtain ⟨_, hoptimistic⟩ := h.optimistic base requestId' hmem
        rw [hmutation] at hoptimistic
        cases hoptimistic
      refine ⟨⟨h.delivered_le, ?_, h.replay_le, h.snapshot_le, h.initializing, ?_, ?_, h.single, ?_,
        ?_⟩, ?_⟩
      · rintro r ⟨⟩
        exact hle
      · intro requestId' optimisticRevision' committed hsome
        cases hsome
      · intro base requestId' hmem
        exact absurd hmem (hquiet base requestId')
      · intro requestId' hactive
        dsimp only [finishMutation, setState] at hactive
        split at hactive
        · cases hactive
        · rename_i hother
          obtain ⟨stage, hstage, -⟩ := h.active requestId' hactive
          rw [hmutation] at hstage
          cases hstage
          exact absurd hactive hother
      · intro requestId' hsome
        cases hsome
      · intro hrecovery d hd
        rcases h.settled hrecovery d hd with ⟨⟨current', hcurrent', hdelivered⟩, hreplays⟩ |
          ⟨before, base, after, current', hpending, hcurrent', hahead⟩
        · obtain rfl := Option.some.inj (hcurrent.symm.trans hcurrent')
          refine Or.inl ⟨⟨revision, rfl, ?_⟩, hreplays⟩
          omega
        · obtain rfl := Option.some.inj (hcurrent.symm.trans hcurrent')
          refine Or.inr ⟨before, base, after, revision, hpending, rfl, ?_⟩
          -- a posted mutation finds the client before the awaited commit
          have hlt : current < d := by
            rcases hahead with hlt | ⟨-, hoptimistic, -⟩
            · exact hlt
            · have hstage := hoptimistic _ hmutation
              cases hstage
          by_cases hreached : revision = d
          · refine Or.inr ⟨hreached, ?_, ?_⟩
            · intro mutation hsome
              cases hsome
            · intro base' requestId' hmem
              apply hquiet base' requestId'
              rw [hpending]
              exact mem_append_left _ hmem
          · left
            omega
    · cases hnext
      exact h.toCoherent.failMutation hmutation (by simp)
  · rename_i requestId optimisticRevision hmutation
    cases hnext
    exact (h.toCoherent.setPhase .conflict).failMutation hmutation (by simp)
  · rename_i requestId optimisticRevision hmutation
    cases hnext
    exact h.toCoherent.failMutation hmutation (by simp)
  · cases hnext

/-! ## The worker -/

variable {pending : List WorkerRequest}

/-- The first request was answered without an effect on the engine. -/
theorem Coherent.dropRequest (h : client.Coherent server delivered) {request : WorkerRequest}
    (hpending : client.pending = request :: pending) :
    { client with pending := pending }.Coherent server delivered := by
  have hmem : ∀ other, other ∈ pending → other ∈ client.pending := by
    intro other hother
    rw [hpending]
    exact mem_cons_of_mem _ hother
  exact {
    delivered_le := h.delivered_le
    revision_le := h.revision_le
    replay_le := fun base committed hreplay => h.replay_le base committed (hmem _ hreplay)
    snapshot_le := h.snapshot_le
    initializing := h.initializing
    answered_le := h.answered_le
    optimistic := fun base requestId hrequest => h.optimistic base requestId (hmem _ hrequest)
    single := by
      have hsingle := h.single
      rw [hpending, countP_cons] at hsingle
      exact (Nat.le_add_right _ _).trans hsingle
    active := h.active
    failed := h.failed }

/-- Behind a mutation there is no other one. -/
theorem Coherent.quiet (h : client.Coherent server delivered)
    (hpending : client.pending = .optimistic base requestId :: pending) (base' requestId' : ℕ) :
    .optimistic base' requestId' ∉ pending := by
  have hsingle := h.single
  rw [hpending, countP_cons_of_pos rfl] at hsingle
  intro hmem
  have hpos : 0 < pending.countP (·.isOptimistic) := countP_pos_iff.mpr ⟨_, hmem, rfl⟩
  omega

theorem Current.replayed (h : client.Current server delivered)
    (hready : client.isInitializing = false) (hworker : client.worker = some engine)
    (hpending : client.pending = .replay base (engine + 1) :: pending) :
    ({ client with
        pending := pending
        worker := some (engine + 1)
        workerRevision := some (engine + 1) }.setState .ready
      (some (engine + 1))).Current server delivered := by
  have hdrop := h.toCoherent.dropRequest hpending
  obtain ⟨d, hd, hcommitted⟩ := h.replay_le base (engine + 1) (by rw [hpending]; simp)
  refine ⟨⟨h.delivered_le, ?_, hdrop.replay_le, h.snapshot_le, ?_, h.answered_le, hdrop.optimistic,
    hdrop.single, h.active, h.failed⟩, ?_⟩
  · rintro r ⟨⟩
    exact hcommitted.trans (h.delivered_le d hd)
  · intro s hrecovery
    rw [isInitializing, show client.recovery = some (.initializing s) from hrecovery] at hready
    cases hready
  · intro hrecovery d' hd'
    obtain rfl := Option.some.inj (hd.symm.trans hd')
    by_cases hlast : engine + 1 = d
    · -- the awaited commit: every other one is older
      refine Or.inl ⟨⟨engine + 1, rfl, hlast.ge⟩, ?_⟩
      intro base' committed hmem
      obtain ⟨d', hd', hle⟩ := hdrop.replay_le base' committed hmem
      obtain rfl := Option.some.inj (hd.symm.trans hd')
      exact ⟨engine + 1, rfl, hlast ▸ hle⟩
    · have hlt : engine + 1 < d := lt_of_le_of_ne hcommitted hlast
      rcases h.settled hrecovery d hd with ⟨-, hreplays⟩ |
        ⟨before, base', after, current, hsplit, -, -⟩
      · obtain ⟨engine', hengine', hle⟩ := hreplays base (engine + 1) (by rw [hpending]; simp)
        obtain rfl := Option.some.inj (hworker.symm.trans hengine')
        omega
      · cases before with
        | nil =>
          rw [hpending, nil_append, List.cons.injEq, WorkerRequest.replay.injEq] at hsplit
          exact absurd hsplit.1.2 hlast
        | cons first before =>
          rw [hpending, cons_append, List.cons.injEq] at hsplit
          exact Or.inr ⟨before, base', after, engine + 1, hsplit.2, rfl, Or.inl hlt⟩

/-- With the answer to a mutation the client stays settled, or goes on expecting a replay. -/
theorem Current.answered (h : client.Current server delivered)
    (hpending : client.pending = .optimistic base requestId :: pending)
    (hrecovery : client.recovery = none) {d : ℕ} (hd : delivered = some d)
    (hrest : next.pending = pending) (hrevision : next.revision = client.revision)
    (hworker : ∀ engine, client.worker = some engine →
      ∃ engine', next.worker = some engine' ∧ engine ≤ engine') :
    next.Settled d ∨ next.Expecting d := by
  rcases h.settled hrecovery d hd with ⟨hcurrent, hreplays⟩ |
    ⟨before, base', after, current, hsplit, hcurrent, hahead⟩
  · refine Or.inl ⟨hrevision ▸ hcurrent, fun base' committed hmem => ?_⟩
    rw [hrest] at hmem
    obtain ⟨engine, hengine, hle⟩ := hreplays base' committed (by rw [hpending]; simp [hmem])
    obtain ⟨engine', hengine', hlater⟩ := hworker engine hengine
    exact ⟨engine', hengine', hle.trans hlater⟩
  · cases before with
    | nil =>
      rw [hpending, nil_append, List.cons.injEq] at hsplit
      cases hsplit.1
    | cons first before =>
      rw [hpending, cons_append, List.cons.injEq] at hsplit
      obtain ⟨rfl, hsplit⟩ := hsplit
      refine Or.inr ⟨before, base', after, current, hrest.trans hsplit, hrevision ▸ hcurrent, ?_⟩
      rcases hahead with hlt | ⟨-, -, hbefore⟩
      · exact Or.inl hlt
      · exact absurd mem_cons_self (hbefore base requestId)

theorem Current.tried (h : client.Current server delivered) (hready : client.isInitializing = false)
    (hworker : client.worker = some engine)
    (hpending : client.pending = .optimistic base requestId :: pending) :
    { client with
        pending := pending
        worker := some (engine + 1)
        workerRevision := some (engine + 1)
        activeMutationRequestId := some requestId
        mutation := some
          ⟨requestId, .posted base (engine + 1)⟩ }.Current server delivered := by
  have hdrop := h.toCoherent.dropRequest hpending
  have hquiet := h.toCoherent.quiet hpending
  refine ⟨⟨h.delivered_le, h.revision_le, hdrop.replay_le, h.snapshot_le, ?_, ?_, ?_, hdrop.single,
    ?_, ?_⟩, ?_⟩
  · intro s hrecovery
    rw [isInitializing, show client.recovery = some (.initializing s) from hrecovery] at hready
    cases hready
  · intro requestId' optimisticRevision committed hsome
    cases hsome
  · intro base' requestId' hmem
    exact absurd hmem (hquiet base' requestId')
  · rintro requestId' ⟨⟩
    exact ⟨_, rfl, by simp⟩
  · intro requestId' hsome
    cases hsome
  · refine fun hrecovery d hd => h.answered hpending hrecovery hd rfl rfl fun engine' hengine' => ?_
    obtain rfl := Option.some.inj (hworker.symm.trans hengine')
    exact ⟨engine + 1, rfl, Nat.le_succ engine⟩

theorem Current.declined (h : client.Current server delivered)
    (hpending : client.pending = .optimistic base requestId :: pending) :
    { client with pending := pending, mutation := none }.Current server delivered := by
  have hdrop := h.toCoherent.dropRequest hpending
  have hquiet := h.toCoherent.quiet hpending
  obtain ⟨requestId', hmutation⟩ := h.optimistic base requestId (by rw [hpending]; simp)
  refine ⟨⟨h.delivered_le, h.revision_le, hdrop.replay_le, h.snapshot_le, h.initializing, ?_, ?_,
    hdrop.single, ?_, ?_⟩, ?_⟩
  · intro requestId' optimisticRevision committed hsome
    cases hsome
  · intro base' requestId' hmem
    exact absurd hmem (hquiet base' requestId')
  · intro requestId' hactive
    obtain ⟨stage, hstage, hother⟩ := h.active requestId' hactive
    rw [hmutation] at hstage
    cases hstage
    exact absurd rfl hother
  · intro requestId' hsome
    cases hsome
  · exact fun hrecovery d hd => h.answered hpending hrecovery hd rfl rfl fun engine hengine =>
      ⟨engine, hengine, le_refl engine⟩

theorem Current.workerAnswer (h : client.Current server delivered)
    (hready : client.isInitializing = false) {accepted : Bool}
    (hnext : client.workerAnswer accepted = some next) : next.Current server delivered := by
  unfold DomainEngineClient.workerAnswer at hnext
  split at hnext
  · rename_i engine base committed pending hworker hpending
    have hdrop := h.toCoherent.dropRequest hpending
    dsimp only at hnext
    split at hnext
    · split at hnext
      · rename_i hcommitted
        subst hcommitted
        cases hnext
        exact h.replayed hready hworker hpending
      · cases hnext
        apply Coherent.rebuild
        exact {
          delivered_le := h.delivered_le
          revision_le := h.revision_le
          replay_le := hdrop.replay_le
          snapshot_le := h.snapshot_le
          initializing := by
            intro s hrecovery
            rw [isInitializing, show client.recovery = some (.initializing s) from hrecovery]
              at hready
            cases hready
          answered_le := h.answered_le
          optimistic := hdrop.optimistic
          single := hdrop.single
          active := h.active
          failed := h.failed }
    · cases hnext
      exact hdrop.rebuild
  · rename_i engine base requestId pending hworker hpending
    dsimp only at hnext
    split at hnext
    · cases hnext
      exact h.tried hready hworker hpending
    · cases hnext
      exact h.declined hpending
  · cases hnext

/-! ## Committed revisions -/

theorem Coherent.deliver (h : client.Coherent server delivered)
    (hserver : revision ≤ server) (hnewest : ∀ d, delivered = some d → d ≤ revision)
    (htimely : ∀ recovery s, client.recovery = some recovery → recovery.snapshot = some s →
      revision ≤ s) : client.Coherent server (some revision) where
  delivered_le := by
    rintro d ⟨⟩
    exact hserver
  revision_le := h.revision_le
  replay_le := by
    intro base committed hmem
    obtain ⟨d, hd, hle⟩ := h.replay_le base committed hmem
    exact ⟨revision, rfl, hle.trans (hnewest d hd)⟩
  snapshot_le := by
    intro recovery s hrecovery hs
    refine ⟨(h.snapshot_le recovery s hrecovery hs).1, ?_⟩
    rintro d ⟨⟩
    exact htimely recovery s hrecovery hs
  initializing := h.initializing
  answered_le := h.answered_le
  optimistic := h.optimistic
  single := h.single
  active := h.active
  failed := h.failed

/-- The client goes to a revision that it knows to be committed. -/
theorem Coherent.setState (h : client.Coherent server delivered) (hserver : revision ≤ server)
    (phase : DomainEnginePhase) :
    (client.setState phase (some revision)).Coherent server delivered :=
  ⟨h.delivered_le, by rintro r ⟨⟩; exact hserver, h.replay_le, h.snapshot_le, h.initializing,
    h.answered_le, h.optimistic, h.single, h.active, h.failed⟩

/-- A client that still expects an older commit is before that commit, or reached
it without a posted mutation. -/
theorem Current.replays_of_next (h : client.Current server delivered)
    (hrecovery : client.recovery = none)
    (hnewest : ∀ d, delivered = some d → d < revision)
    (hreached : client.revision = some revision ∨
      client.revision = some (revision - 1) ∧ client.activeMutationRequestId ≠ none) :
    ∀ base committed, .replay base committed ∈ client.pending →
      ∃ engine, client.worker = some engine ∧ committed ≤ engine := by
  intro base committed hmem
  obtain ⟨d, hd, -⟩ := h.replay_le base committed hmem
  have hlt := hnewest d hd
  rcases h.settled hrecovery d hd with ⟨-, hreplays⟩ |
    ⟨_, _, _, current, _, hcurrent, hahead⟩
  · exact hreplays base committed hmem
  · rcases hreached with hrevision | ⟨hrevision, hactive⟩
    · obtain rfl := Option.some.inj (hcurrent.symm.trans hrevision)
      rcases hahead with hbelow | ⟨hat, -, -⟩ <;> omega
    · obtain rfl := Option.some.inj (hcurrent.symm.trans hrevision)
      rcases hahead with hbelow | ⟨-, hoptimistic, -⟩
      · omega
      · obtain ⟨requestId, hsome⟩ := ne_none_iff_exists'.mp hactive
        obtain ⟨stage, hstage, hother⟩ := h.active requestId hsome
        exact absurd (hoptimistic _ hstage) hother

/-- **The next committed revision**: the client shows it, is about to, or rebuilds. -/
theorem Current.applyCommittedResponse (h : client.Current server delivered)
    {supported : Bool} (hserver : base + 1 ≤ server)
    (hnewest : ∀ d, delivered = some d → d < base + 1)
    (htimely : ∀ recovery s, client.recovery = some recovery → recovery.snapshot = some s →
      base + 1 ≤ s) :
    (client.applyCommittedResponse base (base + 1) requestId supported).Current server
      (some (base + 1)) := by
  have hdeliver := h.toCoherent.deliver hserver (fun d hd => (hnewest d hd).le) htimely
  unfold DomainEngineClient.applyCommittedResponse
  split
  · rename_i hrevision
    refine ⟨hdeliver, ?_⟩
    rintro hrecovery d ⟨⟩
    exact Or.inl ⟨⟨_, hrevision, le_refl _⟩, h.replays_of_next hrecovery hnewest (Or.inl hrevision)⟩
  · split
    · rename_i hown
      refine ⟨hdeliver.setState hserver .ready, ?_⟩
      rintro hrecovery d ⟨⟩
      exact Or.inl ⟨⟨_, rfl, le_refl _⟩, h.replays_of_next hrecovery hnewest
        (Or.inr ⟨hown.2.1, by rw [hown.1]; exact some_ne_none _⟩)⟩
    · split
      · exact hdeliver.rebuild
      · rename_i hbase
        split
        · exact hdeliver.rebuild
        · unfold dispatchReplay
          split
          · exact hdeliver.rebuild
          · rename_i workerBase hworkerRevision
            have hmem : ∀ request, request ∈ client.pending ++ [.replay workerBase (base + 1)] ↔
                request ∈ client.pending ∨ request = .replay workerBase (base + 1) := by
              intro request
              rw [mem_append, mem_singleton]
            refine ⟨⟨hdeliver.delivered_le, hdeliver.revision_le, ?_, hdeliver.snapshot_le,
              hdeliver.initializing, hdeliver.answered_le, ?_, ?_, hdeliver.active,
              hdeliver.failed⟩, ?_⟩
            · intro base' committed hreplay
              rcases (hmem _).mp hreplay with hold | hnew
              · exact hdeliver.replay_le base' committed hold
              · cases hnew
                exact ⟨base + 1, rfl, le_refl _⟩
            · intro base' requestId' hoptimistic
              rcases (hmem _).mp hoptimistic with hold | hnew
              · exact hdeliver.optimistic base' requestId' hold
              · cases hnew
            · show (client.pending ++ _).countP _ ≤ 1
              rw [countP_append]
              exact hdeliver.single
            · rintro - d ⟨⟩
              refine Or.inr ⟨client.pending, workerBase, [], base, rfl, ?_, Or.inl ?_⟩
              · exact not_not.mp hbase
              · omega

end DomainEngineClient

/-! ## The stream of events -/

/-- The events carry the revisions from one revision to the server's. -/
def StreamFrom : ℕ → List CommitEvent → ℕ → Prop
  | position, [], server => position = server
  | position, event :: events, server =>
    event.baseRevision = position ∧ event.revision = position + 1 ∧
      StreamFrom (position + 1) events server

theorem StreamFrom.le {position server : ℕ} {events : List CommitEvent}
    (h : StreamFrom position events server) : position ≤ server := by
  induction events generalizing position with
  | nil => exact Nat.le_of_eq h
  | cons event events ih => exact (Nat.le_succ position).trans (ih h.2.2)

/-- The server announces the next revision at the end of the stream. -/
theorem StreamFrom.append {position server : ℕ} {events : List CommitEvent}
    (h : StreamFrom position events server) (requestId : ℕ) :
    StreamFrom position (events ++ [⟨server, server + 1, requestId⟩]) (server + 1) := by
  induction events generalizing position with
  | nil =>
    obtain rfl : position = server := h
    exact ⟨rfl, rfl, rfl⟩
  | cons event events ih => exact ⟨h.1, h.2.1, ih h.2.2⟩

/-! ## Runs -/

namespace ClientRun

/-- What holds in every state that is reached by messages at the right time. -/
structure Current (run : ClientRun) : Prop where
  stream : ∃ position, StreamFrom position run.events run.serverRevision ∧
    ∀ d, run.delivered = some d → d = position
  unconnected : run.connected = false → run.events = [] ∧ run.delivered = none
  client : run.client.Current run.serverRevision run.delivered

variable {run next : ClientRun}

/-- An action of the client alone. -/
theorem Current.ofClient (h : run.Current) {client : DomainEngineClient}
    (hclient : client.Current run.serverRevision run.delivered) :
    ({ run with client := client } : ClientRun).Current :=
  ⟨h.stream, h.unconnected, hclient⟩

theorem Current.commit (h : run.Current) (requestId : ℕ) : (run.commit requestId).Current := by
  refine ⟨?_, ?_, ?_⟩
  · unfold ClientRun.commit
    dsimp only
    split
    · obtain ⟨position, hstream, hdelivered⟩ := h.stream
      exact ⟨position, hstream.append requestId, hdelivered⟩
    · rename_i hconnected
      obtain ⟨hevents, hdelivered⟩ := h.unconnected (Bool.not_eq_true _ ▸ hconnected)
      refine ⟨run.serverRevision + 1, ?_, ?_⟩
      · rw [hevents]
        rfl
      · intro d hd
        rw [hdelivered] at hd
        cases hd
  · intro hconnected
    have hconnected' : run.connected = false := hconnected
    obtain ⟨hevents, hdelivered⟩ := h.unconnected hconnected'
    refine ⟨?_, hdelivered⟩
    unfold ClientRun.commit
    rw [hconnected', if_neg Bool.false_ne_true, hevents]
  · have hclient := h.client
    exact {
      delivered_le := fun d hd => Nat.le_succ_of_le (hclient.delivered_le d hd)
      revision_le := fun r hr => Nat.le_succ_of_le (hclient.revision_le r hr)
      replay_le := hclient.replay_le
      snapshot_le := fun recovery s hrecovery hs =>
        ⟨Nat.le_succ_of_le (hclient.snapshot_le recovery s hrecovery hs).1,
          (hclient.snapshot_le recovery s hrecovery hs).2⟩
      initializing := hclient.initializing
      answered_le := fun requestId optimisticRevision revision hmutation =>
        Nat.le_succ_of_le (hclient.answered_le requestId optimisticRevision revision hmutation)
      optimistic := hclient.optimistic
      single := hclient.single
      active := hclient.active
      failed := hclient.failed
      settled := hclient.settled }

/-- The answer of the server to a posted command is on its way. -/
theorem Current.answer (h : run.Current) {requestId base optimisticRevision : ℕ}
    (hmutation : run.client.mutation = some ⟨requestId, .posted base optimisticRevision⟩)
    {answer : CommandAnswer}
    (hanswer : ∀ revision, answer = .committed revision → revision ≤ run.serverRevision) :
    ({ run with client := { run.client with
        mutation := some ⟨requestId, .answered optimisticRevision answer⟩ } } :
      ClientRun).Current := by
  have hclient := h.client
  refine h.ofClient ⟨⟨hclient.delivered_le, hclient.revision_le, hclient.replay_le,
    hclient.snapshot_le, hclient.initializing, ?_, ?_, hclient.single, ?_, ?_⟩, ?_⟩
  · rintro requestId' optimisticRevision' revision hsome
    cases hsome
    exact hanswer revision rfl
  · intro base' requestId' hmem
    obtain ⟨_, hoptimistic⟩ := hclient.optimistic base' requestId' hmem
    rw [hmutation] at hoptimistic
    cases hoptimistic
  · intro requestId' hactive
    obtain ⟨stage, hstage, -⟩ := hclient.active requestId' hactive
    rw [hmutation] at hstage
    cases hstage
    exact ⟨_, rfl, by simp⟩
  · intro requestId' hsome
    cases hsome
  · intro hrecovery d hd
    rcases hclient.settled hrecovery d hd with hsettled |
      ⟨before, base', after, current, hsplit, hcurrent, hahead⟩
    · exact Or.inl hsettled
    · refine Or.inr ⟨before, base', after, current, hsplit, hcurrent, ?_⟩
      rcases hahead with hlt | ⟨-, hoptimistic, -⟩
      · exact Or.inl hlt
      · have hstage := hoptimistic _ hmutation
        cases hstage

theorem Current.handleCommand (h : run.Current) {accepted : Bool}
    (hnext : run.handleCommand accepted = some next) : next.Current := by
  unfold ClientRun.handleCommand at hnext
  split at hnext
  · rename_i requestId base optimisticRevision hmutation
    dsimp only at hnext
    split at hnext
    · cases hnext
      exact h.answer hmutation (by rintro revision ⟨⟩)
    · split at hnext
      · cases hnext
        exact h.answer hmutation (by rintro revision ⟨⟩)
      · cases hnext
        refine (h.commit requestId).answer hmutation ?_
        rintro revision ⟨⟩
        exact le_refl _
  · cases hnext

theorem Current.deliverEvent (h : run.Current) {event : CommitEvent} {events : List CommitEvent}
    (hevents : run.events = event :: events) {supported : Bool}
    (htimely : run.Timely (.deliverEvent supported)) :
    ({ run with
        events := events
        delivered := some (max (run.delivered.getD 0) event.revision)
        client := run.client.applyCommittedResponse event.baseRevision event.revision
          event.requestId supported } : ClientRun).Current := by
  obtain ⟨position, hstream, hdelivered⟩ := h.stream
  rw [hevents] at hstream
  obtain ⟨hbase, hrevision, hrest⟩ := hstream
  have hnewest : max (run.delivered.getD 0) event.revision = position + 1 := by
    rw [hrevision]
    cases hd : run.delivered with
    | none => simp
    | some d =>
      rw [hdelivered d hd]
      simp
  refine ⟨⟨position + 1, hrest, ?_⟩, ?_, ?_⟩
  · rintro d ⟨⟩
    exact hnewest
  · intro hconnected
    rw [(h.unconnected hconnected).1] at hevents
    cases hevents
  · dsimp only
    rw [hnewest, hbase, hrevision]
    refine h.client.applyCommittedResponse hrest.le ?_ ?_
    · intro d hd
      rw [hdelivered d hd]
      exact Nat.lt_succ_self position
    · intro recovery s hrecovery hs
      rw [← hrevision]
      exact htimely event recovery s (by rw [hevents]; rfl) hrecovery hs

/-- **One action.** A message at the right time keeps the client current. -/
theorem Current.step (h : run.Current) {action : ClientAction} (htimely : run.Timely action)
    (hnext : run.step action = some next) : next.Current := by
  cases action with
  | start =>
    cases hnext
    exact h.ofClient (h.client.toCoherent.recover .loading)
  | connect =>
    simp only [ClientRun.step] at hnext
    split at hnext
    · cases hnext
      exact ⟨h.stream, fun hconnected => Bool.noConfusion hconnected, h.client⟩
    · cases hnext
  | rebuild =>
    cases hnext
    exact h.ofClient h.client.toCoherent.rebuild
  | commit requestId =>
    cases hnext
    exact h.commit requestId
  | deliverEvent supported =>
    simp only [ClientRun.step] at hnext
    split at hnext
    · cases hnext
    · rename_i event events hevents
      cases hnext
      exact h.deliverEvent hevents htimely
  | readSnapshot =>
    simp only [ClientRun.step] at hnext
    split at hnext
    · cases hnext
      exact h.ofClient h.client.readSnapshot
    · cases hnext
  | receiveSnapshot =>
    obtain ⟨client, hclient, rfl⟩ := map_eq_some_iff.mp hnext
    exact h.ofClient (h.client.receiveSnapshot hclient)
  | workerReady =>
    obtain ⟨client, hclient, rfl⟩ := map_eq_some_iff.mp hnext
    exact h.ofClient (h.client.workerReady hclient)
  | mutate =>
    obtain ⟨client, hclient, rfl⟩ := map_eq_some_iff.mp hnext
    exact h.ofClient (h.client.mutate hclient)
  | workerAnswer accepted =>
    simp only [ClientRun.step] at hnext
    split at hnext
    · cases hnext
    · rename_i hready
      obtain ⟨client, hclient, rfl⟩ := map_eq_some_iff.mp hnext
      exact h.ofClient (h.client.workerAnswer (Bool.not_eq_true _ ▸ hready) hclient)
  | handleCommand accepted => exact h.handleCommand hnext
  | receiveAnswer =>
    obtain ⟨client, hclient, rfl⟩ := map_eq_some_iff.mp hnext
    exact h.ofClient (h.client.receiveAnswer htimely hclient)
  | loseAnswer =>
    obtain ⟨client, hclient, rfl⟩ := map_eq_some_iff.mp hnext
    exact h.ofClient (h.client.loseAnswer hclient)

/-- Every message of some actions comes at the right time. -/
def AllTimely : ClientRun → List ClientAction → Prop
  | _, [] => True
  | run, action :: actions => run.Timely action ∧
    ∀ next, run.step action = some next → next.AllTimely actions

/-- A server at some revision, and a client that was not started. -/
def initial (serverRevision : ℕ) : ClientRun := { serverRevision := serverRevision }

theorem current_initial (serverRevision : ℕ) : (initial serverRevision).Current := by
  refine ⟨⟨serverRevision, rfl, ?_⟩, fun _ => ⟨rfl, rfl⟩, ⟨⟨?_, ?_, ?_, ?_, ?_, ?_, ?_, ?_, ?_, ?_⟩, ?_⟩⟩
  · intro d hd
    cases hd
  · intro d hd
    cases hd
  · intro r hr
    cases hr
  · intro base committed hmem
    cases hmem
  · intro recovery s hrecovery
    cases hrecovery
  · intro s hrecovery
    cases hrecovery
  · intro requestId optimisticRevision revision hmutation
    cases hmutation
  · intro base requestId hmem
    cases hmem
  · exact Nat.zero_le 1
  · intro requestId hactive
    cases hactive
  · intro requestId hmutation
    cases hmutation
  · intro _ d hd
    cases hd

/-- Messages at the right time keep the client current over a whole run. -/
theorem Current.steps {actions : List ClientAction} (h : run.Current)
    (htimely : run.AllTimely actions) (hsteps : run.steps actions = some next) : next.Current := by
  induction actions generalizing run with
  | nil =>
    obtain rfl := Option.some.inj hsteps
    exact h
  | cons action actions ih =>
    obtain ⟨middle, hmiddle, hrest⟩ := bind_eq_some_iff.mp hsteps
    exact ih (h.step htimely.1 hmiddle) (htimely.2 middle hmiddle) hrest

/-- **No committed revision is lost**: when all messages came at the right time, a
client at rest shows the greatest revision that was delivered to it. -/
theorem revision_eq_delivered (serverRevision : ℕ) (actions : List ClientAction)
    (htimely : (initial serverRevision).AllTimely actions) (final : ClientRun)
    (hsteps : (initial serverRevision).steps actions = some final) (hquiescent : final.Quiescent)
    (revision : ℕ) (hdelivered : final.delivered = some revision) :
    final.client.revision = some revision := by
  have hcurrent := (current_initial serverRevision).steps htimely hsteps
  obtain ⟨position, hstream, hposition⟩ := hcurrent.stream
  rw [hquiescent.no_event] at hstream
  obtain rfl : position = final.serverRevision := hstream
  rcases hcurrent.client.settled hquiescent.no_recovery revision hdelivered with
    ⟨⟨current, hrevision, hle⟩, -⟩ | ⟨before, base, after, current, hpending, -, -⟩
  · have hserver := hcurrent.client.revision_le current hrevision
    rw [hposition revision hdelivered] at hle ⊢
    rw [hrevision, le_antisymm hserver hle]
  · rw [hquiescent.no_request] at hpending
    cases before with
    | nil => cases hpending
    | cons first before => cases hpending

/-- Actions that are about no event and no answer come at the right time in any state. -/
theorem allTimely_of_forall {actions : List ClientAction}
    (h : ∀ action ∈ actions, ∀ run : ClientRun, run.Timely action) (run : ClientRun) :
    run.AllTimely actions := by
  induction actions generalizing run with
  | nil => trivial
  | cons action actions ih =>
    refine ⟨h action mem_cons_self run, fun next _ => ih ?_ next⟩
    exact fun other hother => h other (mem_cons_of_mem _ hother)

theorem AllTimely.append {run next : ClientRun} {actions more : List ClientAction}
    (h : run.AllTimely actions) (hsteps : run.steps actions = some next)
    (hmore : next.AllTimely more) : run.AllTimely (actions ++ more) := by
  induction actions generalizing run with
  | nil =>
    cases hsteps
    exact hmore
  | cons action actions ih =>
    refine ⟨h.1, fun middle hmiddle => ih (h.2 middle hmiddle) ?_⟩
    simpa [steps, hmiddle] using hsteps

/-- A connected client rebuilds, and its snapshot has the commit whose event is on its way. -/
def recovering : List ClientAction :=
  [.start, .readSnapshot, .receiveSnapshot, .workerReady, .connect, .rebuild, .commit 7,
    .readSnapshot]

/-- The recovery ends, and a command of the client is committed. -/
def answering : List ClientAction :=
  [.receiveSnapshot, .workerReady, .mutate, .workerAnswer true, .handleCommand true]

/-- The event meets the recovery, and then the answer and its event arrive. -/
def recoveredActions : List ClientAction :=
  (recovering ++ [.deliverEvent true]) ++ (answering ++ [.receiveAnswer, .deliverEvent true])

/-- The event that meets a recovery with its snapshot and the client's own answer are followed. -/
theorem revision_eq_delivered_recovered :
    ((initial 1).steps recovering).map (fun run => (run.client.recovery,
      run.events.map (·.revision))) = some (some (.fetched 2), [2]) ∧
    ∃ final, (initial 1).steps recoveredActions = some final ∧ final.client.revision = some 3 := by
  have hrecovering : (initial 1).AllTimely (recovering ++ [.deliverEvent true]) := by
    refine (allTimely_of_forall (by simp [recovering, Timely]) _).append rfl ⟨?_, fun _ _ => trivial⟩
    rintro event recovery snapshot ⟨⟩ ⟨⟩ ⟨⟩
    decide
  refine ⟨rfl, _, rfl, revision_eq_delivered 1 recoveredActions (hrecovering.append rfl ?_) _ rfl
    ⟨rfl, rfl, rfl, rfl, rfl⟩ 3 rfl⟩
  refine (allTimely_of_forall (by simp [answering, Timely]) _).append rfl ⟨?_, ?_⟩
  · rintro _ _ _ ⟨⟩
    exact ⟨2, rfl, .inr rfl⟩
  · rintro _ ⟨⟩
    exact ⟨fun _ _ _ _ hrecovery => (nomatch hrecovery), fun _ _ => trivial⟩

/-- **A delivered revision can be lost**: revision two is committed after a rebuild
has read its snapshot and delivered before the new worker is ready. The replay is
dropped with the old worker, and the rebuild it asks for is taken to be the one on
its way. -/
theorem delivered_revision_lost :
    ¬∀ (serverRevision : ℕ) (actions : List ClientAction) (final : ClientRun),
      (initial serverRevision).steps actions = some final → final.Quiescent →
        ∀ revision, final.delivered = some revision → final.client.revision = some revision := by
  intro h
  have hrevision := h 1
    [.start, .readSnapshot, .receiveSnapshot, .workerReady, .connect, .rebuild, .readSnapshot,
      .commit 7, .deliverEvent true, .receiveSnapshot, .workerReady] _ rfl
    ⟨rfl, rfl, rfl, rfl, rfl⟩ 2 rfl
  exact absurd hrevision (by decide)

-- The answer to the client's own command, revision two, comes after revision three.
example : ((initial 1).steps
    [.start, .readSnapshot, .receiveSnapshot, .workerReady, .connect, .mutate, .workerAnswer true,
      .handleCommand true, .deliverEvent true, .commit 9, .deliverEvent true, .workerAnswer true,
      .receiveAnswer]).map (fun run => (run.delivered, run.client.revision)) =
    some (some 3, some 2) := by decide

end ClientRun

end HomelabInventory
