import HomelabInventory.RemoteProgress

/-!
# Runs that hear from the remote

Every step of a run that moves forward keeps what is said of the shares, and
what was taken up once, an event or a completed publication, changes nothing
when it comes again.
-/

namespace HomelabInventory.Sharing

open Repository List Option

/-! ## Completed publications -/

/-- The publication was completed with this input. -/
structure Done (r : Repository) (input : CompletionInput) (row : PublicationOperation) : Prop where
  mem : row ∈ r.operations
  completed : row.IsCompleted
  id : row.id = input.operationId
  shareId : row.shareId = input.shareId
  expected : row.expectedRemoteRevision.map (· + 1) = some input.resultingRemoteRevision
  remoteOperationId : row.remoteOperationId = some input.remoteOperationId
  activationRevisionId : row.activationRevisionId = some input.activationRevisionId
  manifest : (r.revisions.find? fun revision =>
    row.localRevisionId = some revision.id ∧ revision.shareId = input.shareId).map
      (·.manifestHash) = some input.manifestHash

variable {r r' : Repository}
variable {input : CompletionInput}

theorem Done.mono {row : PublicationOperation} (h : Done r input row)
    (hcompleted : ∀ operation ∈ r.operations, operation.IsCompleted → operation ∈ r'.operations)
    (hrevisions : r.revisions <+: r'.revisions) : Done r' input row where
  mem := hcompleted row h.mem h.completed
  completed := h.completed
  id := h.id
  shareId := h.shareId
  expected := h.expected
  remoteOperationId := h.remoteOperationId
  activationRevisionId := h.activationRevisionId
  manifest := by
    obtain ⟨added, hadded⟩ := hrevisions
    obtain ⟨revision, hfound, hhash⟩ := map_eq_some_iff.mp h.manifest
    rw [← hadded, find?_append, hfound, some_or, map_some, hhash]

/-- What `completePublication` checked when it did not throw, and what it did. -/
theorem completePublication_inv (h : r.completePublication input = .ok r') :
    ∃ operation share,
      (r.operations.find? fun operation => operation.id = input.operationId) = some operation ∧
      operation.shareId = input.shareId ∧ operation.kind = .publish ∧
      operation.expectedRemoteRevision.map (· + 1) = some input.resultingRemoteRevision ∧
      operation.remoteOperationId = some input.remoteOperationId ∧
      (r.revisions.find? fun revision =>
        operation.localRevisionId = some revision.id ∧ revision.shareId = input.shareId).map
          (·.manifestHash) = some input.manifestHash ∧
      r.getShare input.shareId = some share ∧
      (operation.state = .succeeded ∧ r' = r ∨
        operation.state ≠ .succeeded ∧
          r' = (r.setShare input.shareId fun share => share.advance input).setOperation
            input.operationId fun operation => operation.completed input.activationRevisionId) := by
  simp only [completePublication] at h
  split at h
  · cases h
  · rename_i operation hoperation
    obtain ⟨_, hkind, h⟩ := bind_eq_ok.mp h
    rw [failIf_eq_ok, not_or, not_not, not_not] at hkind
    obtain ⟨_, -, h⟩ := bind_eq_ok.mp h
    obtain ⟨_, hexpected, h⟩ := bind_eq_ok.mp h
    rw [failIf_eq_ok, not_not] at hexpected
    obtain ⟨_, hremote, h⟩ := bind_eq_ok.mp h
    rw [failIf_eq_ok, not_not] at hremote
    obtain ⟨_, hmanifest, h⟩ := bind_eq_ok.mp h
    rw [failIf_eq_ok, not_not] at hmanifest
    split at h
    · cases h
    · rename_i share hshare
      obtain ⟨_, -, h⟩ := bind_eq_ok.mp h
      refine ⟨operation, share, hoperation, hkind.1, hkind.2, hexpected, hremote, hmanifest,
        hshare, ?_⟩
      split at h
      · rename_i hstate
        obtain ⟨_, -, h⟩ := bind_eq_ok.mp h
        obtain ⟨_, -, h⟩ := bind_eq_ok.mp h
        exact .inl ⟨hstate, (pure_eq_ok.mp h).symm⟩
      · rename_i hstate
        exact .inr ⟨hstate, (pure_eq_ok.mp h).symm⟩

variable {id revision : ℕ}
variable {share : ShareRecord}

/-- **A publication that is completed again changes nothing.** -/
theorem completePublication_done (hc : r.outline.Coherent) {row : PublicationOperation}
    (hdone : Done r input row) (hshare : r.getShare input.shareId = some share)
    (hpublic : share.remotePublicId = some input.remotePublicId)
    (hrevision : share.remoteRevision = some revision)
    (hle : input.resultingRemoteRevision ≤ revision) : r.completePublication input = .ok r := by
  have hfound : (r.operations.find? fun operation => operation.id = input.operationId) =
      some row := by
    have hsome : (r.operations.find? fun operation =>
        operation.id = input.operationId).isSome := by
      rw [find?_isSome]
      exact ⟨row, hdone.mem, by simp [hdone.id]⟩
    obtain ⟨other, hother⟩ := isSome_iff_exists.mp hsome
    have hid : other.id = input.operationId := by simpa using find?_some hother
    rw [hother, operation_eq_of_id hc (mem_of_find?_eq_some hother) hdone.mem
      (hid.trans hdone.id.symm)]
  have hexact : row.revisionIntentProvenance = .exact :=
    (hc.requests _ (mem_requests hdone.mem)).exact
  have hbehind : share.remoteRevision.all (· < input.resultingRemoteRevision) ≠ true := by
    simpa [hrevision] using hle
  obtain ⟨stored, hstored, hhash⟩ := map_eq_some_iff.mp hdone.manifest
  simp only [Bool.decide_and] at hstored
  simp [completePublication, hfound, hdone.shareId, hdone.completed.1, hdone.completed.2,
    assertPublicationIntentReconciled, hexact, hdone.expected, hdone.remoteOperationId, hstored,
    hhash, hdone.activationRevisionId, hshare, hpublic, hbehind, failIf]

variable {s s' : System}
variable {event : Event}

/-- The publication that a step completes is the one that the coordinator holds. -/
theorem completion_held (h : s.completion event = some input) :
    ∃ operation, s.worker.held = some operation ∧ operation.id = input.operationId := by
  have hinput : ∀ {publication : Publication} {remotePublicId : String} {stage : RemoteStage},
      publication.completionInput remotePublicId stage = some input →
        publication.operation.id = input.operationId := by
    intro publication remotePublicId stage hsome
    simp only [Publication.completionInput] at hsome
    split at hsome
    · obtain rfl := Option.some.inj hsome
      rfl
    · cases hsome
  simp only [System.completion] at h
  split at h
  · split at h
    · rename_i publication hworker
      split at h
      · exact ⟨publication.operation, by rw [hworker]; rfl, hinput h⟩
      · cases h
    · cases h
  · split at h
    · rename_i publication hworker
      split at h
      · exact ⟨publication.operation, by rw [hworker]; rfl, hinput h⟩
      · cases h
    · cases h
  · split at h
    · rename_i publication stage hworker
      exact ⟨publication.operation, by rw [hworker]; rfl, hinput h⟩
    · cases h
  · cases h

/-! ## What every such run keeps -/

/-- **What holds in every run that moves forward.** -/
structure Record.Sound (remote : Remote) (r : Record) : Prop where
  coherent : r.installation.system.Coherent
  holdsOpen : r.installation.system.HoldsOpen
  shares : ∀ share ∈ r.installation.system.repository.shares, Tracks remote r.log share
  completions : ∀ input, .completion input ∈ r.log →
    input.remotePublicId = remote.publicId input.shareId ∧
    input.shareId ∈ r.installation.system.repository.outline.shareIds ∧
    ∃ row, Done r.installation.system.repository input row
  events : ∀ event, .applied event ∈ r.log →
    event.id ≠ 0 ∧ event.id ≤ r.installation.remoteEventCursor

theorem sound_start (remote : Remote) : Record.Sound remote {} where
  coherent := System.coherent_start
  holdsOpen _ h := nomatch h
  shares _ h := nomatch h
  completions _ h := nomatch h
  events _ h := nomatch h

variable {remote : Remote}
variable {log : List Notice}

/-- A share that is new has nothing to do with the remote yet. -/
theorem tracks_new (h : share.IsNew id)
    (hlog : ∀ input, .completion input ∈ log → input.shareId ≠ id) :
    Tracks remote log share where
  named _ hpublic := absurd (h.remotePublicId.symm.trans hpublic) (some_ne_none _).symm
  inForce _ hpublic := absurd (h.remotePublicId.symm.trans hpublic) (some_ne_none _).symm
  published hsome := absurd h.remotePublicId hsome
  unnamed _ := ⟨h.remoteRevision, fun input hinput => h.id ▸ hlog input hinput⟩
  manifest := .inl ⟨h.activeManifestHash, fun input hinput => h.id ▸ hlog input hinput⟩

/-- The publications that were completed stay so, when a step keeps the rows. -/
theorem completions_mono
    (h : ∀ input, .completion input ∈ log → input.remotePublicId = remote.publicId input.shareId ∧
      input.shareId ∈ r.outline.shareIds ∧ ∃ row, Done r input row)
    (hrows : r.outline.Advances r'.outline)
    (hcompleted : ∀ operation ∈ r.operations, operation.IsCompleted → operation ∈ r'.operations) :
    ∀ input, .completion input ∈ log → input.remotePublicId = remote.publicId input.shareId ∧
      input.shareId ∈ r'.outline.shareIds ∧ ∃ row, Done r' input row := by
  intro input hinput
  obtain ⟨hpublic, hshare, row, hdone⟩ := h input hinput
  exact ⟨hpublic, hrows.shareIds.subset hshare, row, hdone.mono hcompleted hrows.revisions⟩

/-- What the shares are after a step of this side. -/
theorem tracks_own {found : Option ℕ}
    (hc : s.Coherent) (h : ∀ share ∈ s.repository.shares, Tracks remote log share)
    (hlog : ∀ input, .completion input ∈ log → input.shareId ∈ s.repository.outline.shareIds)
    (hown : Own found s.repository s'.repository)
    (hfound : ∀ share publicId current, found = some share.id →
      s.repository.getShare share.id = some share → share.remotePublicId = some publicId →
      share.remoteRevision = some current → share.state ≠ .synced →
        remote.belongs publicId current .synced) :
    ∀ share' ∈ s'.repository.shares, Tracks remote (log ++ s.rewritten s') share' := by
  intro share' hmem'
  have hset : ∀ notice ∈ s.rewritten s', ∃ id state, notice = .set id state := by
    intro notice hnotice
    obtain ⟨share, -, rfl⟩ := mem_map.mp hnotice
    exact ⟨_, _, rfl⟩
  by_cases hkept : share' ∈ s.repository.shares
  · exact (h share' hkept).append_own hset
  · have hnotice : .set share'.id share'.state ∈ s.rewritten s' :=
      mem_map.mpr ⟨share', mem_filter.mpr ⟨hmem', by simpa using hkept⟩, rfl⟩
    rcases hown.shares share' hmem' with hold | hnew | ⟨share, hmem, hsame, hstate⟩
    · exact absurd hold hkept
    · -- its id is one that no share has had
      refine (tracks_new hnew fun input hinput hid => ?_).append_own hset
      exact Nat.lt_irrefl _ (hid ▸ hc.rows.shareIds.lt _ (hlog input hinput))
    · refine (h share hmem).set hsame hset hnotice fun publicId revision hpublic hrevision => ?_
      rcases hstate with hnone | hlocal | ⟨hthis, hne, hsynced⟩
      · exact absurd (hnone.symm.trans hrevision) (some_ne_none _).symm
      · exact .inl hlocal
      · rw [hsynced]
        exact .inr (hfound share publicId revision hthis (getShare_of_mem hc.rows hmem) hpublic
          hrevision hne)

variable {publicId : String}

/-- Two shares that the remote has are not the same there. -/
theorem Tracks.other (h : Tracks remote log share) (hpublic : share.remotePublicId = some publicId)
    (hid : share.id ≠ id) : publicId ≠ remote.publicId id := by
  rw [h.named publicId hpublic]
  exact fun hsame => hid (remote.injective hsame)

/-- What the shares are after a publication is completed. -/
theorem tracks_completed {shares : List ShareRecord} (h : ∀ share ∈ shares, Tracks remote log share)
    (hpublic : input.remotePublicId = remote.publicId input.shareId)
    (hcompletes : ∀ share ∈ shares, share.id = input.shareId →
      Completes remote log share input) :
    ∀ share' ∈ updateWhere (fun share : ShareRecord => share.id = input.shareId)
        (fun share => share.advance input) shares,
      Tracks remote (log ++ [.completion input]) share' := by
  intro share' hmem'
  obtain ⟨share, hmem, rfl⟩ := mem_updateWhere.mp hmem'
  by_cases hid : share.id = input.shareId
  · simp only [hid, decide_true, if_true]
    exact (h share hmem).completed (hcompletes share hmem hid)
  · simp only [hid, decide_false, Bool.false_eq_true, if_false]
    refine (h share hmem).append ?_ ?_
    · intro publicId revision other hshare _ hseen
      rw [seen_singleton] at hseen
      exact absurd (hseen.1.symm.trans hpublic) ((h share hmem).other hshare hid)
    · intro other hother hsame
      obtain rfl : other = input := by simpa using hother
      exact hid hsame.symm

theorem tracks_answered
    {answer : RemoteAnswer} (hc : r.outline.Coherent)
    (h : ∀ share ∈ r.shares, Tracks remote log share) (hanswers : Answers answer r r')
    {current : ℕ}
    (hshare : r.getShare answer.shareId = some share)
    (hpublic : share.remotePublicId = some publicId)
    (hcurrent : share.remoteRevision = some current) (hle : current ≤ answer.revision)
    (hstate : remote.belongs publicId answer.revision (answer.state.getD share.state) ∨
      current = answer.revision ∧ answer.state = none) :
    ∀ share' ∈ r'.shares, Tracks remote (log ++ [.answer publicId answer.revision]) share' := by
  obtain ⟨hmem, hid⟩ := getShare_eq_some hshare
  intro share' hmem'
  have hnews : ∀ input, .completion input ∉ [Notice.answer publicId answer.revision] := by
    intro input hinput
    simp at hinput
  rcases hanswers.shares share' hmem' with ⟨hold, hother⟩ | ⟨before, hbefore, hthis, hanswered⟩
  · refine (h share' hold).append ?_ fun input hinput => absurd hinput (hnews input)
    intro publicId' revision other hpublic' _ hseen
    rw [seen_singleton] at hseen
    -- the answer is for another share
    have hne := (h share' hold).other hpublic' hother
    rw [← hid, ← (h share hmem).named publicId hpublic] at hne
    exact absurd hseen.1.symm hne
  · obtain rfl := Option.some.inj ((hthis ▸ getShare_of_mem hc hbefore).symm.trans hshare)
    refine (h before hbefore).told hanswered.id hpublic (hanswered.remotePublicId.trans hpublic)
      hanswered.activeManifestHash hcurrent hanswered.remoteRevision hle ?_ hnews ?_
    · intro other
      rw [seen_singleton]
      exact ⟨fun hsees => hsees.2.symm, fun hsame => ⟨rfl, hsame.symm⟩⟩
    · rw [hanswered.state]
      refine hstate.imp_right fun ⟨hsame, hnone⟩ => ⟨hsame, ?_⟩
      rw [hnone]
      rfl

/-- What the shares are after an event about a share. -/
theorem tracks_event {event : RemoteEvent} {state : ShareState} (hc : r.outline.Coherent)
    (h : ∀ share ∈ r.shares, Tracks remote log share) (hkind : event.kind ≠ .recovery)
    (hrevision : 0 < event.payload.revision)
    (hbelongs : remote.belongs event.payload.sharePublicId event.payload.revision.toNat state) :
    ∀ share' ∈ (r.applyRemoteEvent event.payload.sharePublicId event.payload.revision.toNat
        state).shares, Tracks remote (log ++ [.applied event]) share' := by
  have hnews : ∀ input, .completion input ∉ [Notice.applied event] := by
    intro input hinput
    simp at hinput
  have hseen : ∀ publicId revision, Seen [.applied event] publicId revision ↔
      event.payload.sharePublicId = publicId ∧ revision = event.payload.revision.toNat := by
    intro publicId revision
    rw [seen_singleton]
    constructor
    · rintro ⟨-, hpublic, hsame⟩
      exact ⟨hpublic, by omega⟩
    · rintro ⟨hpublic, hsame⟩
      exact ⟨hkind, hpublic, by omega⟩
  intro share' hmem'
  simp only [applyRemoteEvent] at hmem'
  split at hmem'
  · -- no share has the id
    rename_i hnone
    refine (h share' hmem').append ?_ fun input hinput => absurd hinput (hnews input)
    intro publicId revision other hpublic _ hother
    rw [hseen] at hother
    refine absurd hpublic ?_
    simpa [hother.1] using find?_eq_none.mp hnone share' hmem'
  · rename_i found hfound
    have hfoundMem := mem_of_find?_eq_some hfound
    have hfoundPublic : found.remotePublicId = some event.payload.sharePublicId := by
      simpa using find?_some hfound
    obtain ⟨current, hcurrent, -⟩ := (h found hfoundMem).inForce _ hfoundPublic
    split at hmem'
    · rename_i hnewer
      have hlt : current < event.payload.revision.toNat := by simpa [hcurrent] using hnewer
      obtain ⟨share, hmem, rfl⟩ := mem_updateWhere.mp hmem'
      by_cases hid : share.id = found.id
      · obtain rfl := eq_of_key_eq hc.shareIds.nodup hmem hfoundMem hid
        simp only [decide_true, if_true]
        refine (h share hmem).told rfl hfoundPublic hfoundPublic rfl hcurrent rfl
          (Nat.le_of_lt hlt) (fun other => ?_) hnews (.inl hbelongs)
        rw [hseen]
        exact ⟨fun hsame => hsame.2, fun hsame => ⟨rfl, hsame⟩⟩
      · simp only [hid, decide_false, Bool.false_eq_true, if_false]
        refine (h share hmem).append ?_ fun input hinput => absurd hinput (hnews input)
        intro publicId revision other hpublic _ hother
        rw [hseen] at hother
        have hne := (h share hmem).other hpublic hid
        rw [← (h found hfoundMem).named _ hfoundPublic] at hne
        exact absurd hother.1.symm hne
    · -- the share is as new as the event
      rename_i hnewer
      have hle : event.payload.revision.toNat ≤ current := by simpa [hcurrent] using hnewer
      refine (h share' hmem').append ?_ fun input hinput => absurd hinput (hnews input)
      intro publicId revision other hpublic hrev hother
      rw [hseen] at hother
      by_cases hid : share'.id = found.id
      · obtain rfl := eq_of_key_eq hc.shareIds.nodup hmem' hfoundMem hid
        obtain rfl : revision = current := Option.some.inj (hrev.symm.trans hcurrent)
        omega
      · have hne := (h share' hmem').other hpublic hid
        rw [← (h found hfoundMem).named _ hfoundPublic] at hne
        exact absurd hother.1.symm hne

/-! ## Steps -/

theorem applyRemoteEvent_eq_ok {i i' : Installation} {event : RemoteEvent}
    (h : i.applyRemoteEvent event = .ok i') :
    event.id ≠ 0 ∧ ((event.id ≤ i.remoteEventCursor ∧ i' = i) ∨
      i.remoteEventCursor < event.id ∧ i'.remoteEventCursor = event.id ∧
      ((event.kind = .recovery ∧ i'.system = i.system) ∨
      ∃ state, event.kind ≠ .recovery ∧ 0 < event.payload.revision ∧
        remoteShareState event.payload.state = .ok state ∧
        i'.system = i.system.informed event.payload state)) := by
  obtain ⟨_, hid, h⟩ := bind_eq_ok.mp h
  refine ⟨failIf_eq_ok.mp hid, ?_⟩
  split at h
  · rename_i hread
    exact .inl ⟨hread, (pure_eq_ok.mp h).symm⟩
  · rename_i hread
    obtain ⟨changed, hchanged, h⟩ := bind_eq_ok.mp h
    obtain rfl := pure_eq_ok.mp h
    refine .inr ⟨Nat.lt_of_not_le hread, rfl, ?_⟩
    -- the kinds of events about shares are treated alike
    have hshare : event.kind ≠ .recovery → i.applyShareEvent event.payload = .ok changed →
        ∃ state, event.kind ≠ .recovery ∧ 0 < event.payload.revision ∧
          remoteShareState event.payload.state = .ok state ∧
          changed.system = i.system.informed event.payload state := by
      intro hkind happlied
      obtain ⟨state, hstate, happlied⟩ := bind_eq_ok.mp happlied
      obtain ⟨_, hrevision, happlied⟩ := bind_eq_ok.mp happlied
      obtain ⟨_, -, happlied⟩ := bind_eq_ok.mp happlied
      obtain rfl := pure_eq_ok.mp happlied
      exact ⟨state, hkind, Int.not_le.mp (failIf_eq_ok.mp hrevision), hstate, rfl⟩
    cases hkind : event.kind with
    | accountClaim =>
      rw [Installation.applyEventPayload, hkind] at hchanged
      cases hchanged
    | recovery =>
      rw [Installation.applyEventPayload, hkind] at hchanged
      obtain ⟨_, -, hchanged⟩ := bind_eq_ok.mp hchanged
      obtain rfl := pure_eq_ok.mp hchanged
      exact .inl ⟨rfl, rfl⟩
    | _ =>
      rw [Installation.applyEventPayload, hkind] at hchanged
      rw [hkind] at hshare
      exact .inr (hshare (by simp) hchanged)

variable {i : Installation}

/-- An event that was read before changes nothing. -/
theorem applyRemoteEvent_read {event : RemoteEvent} (hid : event.id ≠ 0)
    (hread : event.id ≤ i.remoteEventCursor) : i.applyRemoteEvent event = .ok i := by
  simp [Installation.applyRemoteEvent, failIf, hid, hread]

/-- No event changes what the coordinator does, and what was completed. -/
theorem applyRemoteEvent_own (publicId : String) (revision : ℕ) (state : ShareState) :
    (r.applyRemoteEvent publicId revision state).outline = r.outline ∧
      (r.applyRemoteEvent publicId revision state).operations = r.operations := by
  rcases applyRemoteEvent_eq r publicId revision state with hsame | ⟨id, hsame⟩
  · rw [hsame]
    exact ⟨rfl, rfl⟩
  · rw [hsame]
    exact ⟨setShare_outline fun _ => rfl, rfl⟩

/-- **An event keeps what holds of the run.** -/
theorem Record.Sound.remoteEvent {r : Record} (h : r.Sound remote) {event : RemoteEvent}
    (htruthful : remote.Truthful r (.remoteEvent event))
    (happlied : r.installation.applyRemoteEvent event = .ok i) :
    Record.Sound remote ⟨i, r.log ++ r.installation.notices (.remoteEvent event) i⟩ := by
  obtain ⟨hid, ⟨-, rfl⟩ | ⟨hlt, hcursor, hsystem⟩⟩ := applyRemoteEvent_eq_ok happlied
  · simpa [Installation.notices] using h
  have hnotices : r.installation.notices (.remoteEvent event) i = [.applied event] := by
    simp only [Installation.notices, hcursor]
    exact if_neg (Nat.ne_of_gt hlt)
  have hevents : ∀ other, .applied other ∈ r.log ++ [.applied event] →
      other.id ≠ 0 ∧ other.id ≤ i.remoteEventCursor := by
    intro other hother
    rw [hcursor]
    rcases mem_append.mp hother with hold | hnew
    · exact ⟨(h.events other hold).1, Nat.le_trans (h.events other hold).2 (Nat.le_of_lt hlt)⟩
    · obtain rfl : other = event := by simpa using hnew
      exact ⟨hid, Nat.le_refl _⟩
  have hlog : ∀ input, .completion input ∈ r.log ++ [.applied event] →
      .completion input ∈ r.log := by
    intro input hinput
    simpa using hinput
  rw [hnotices]
  rcases hsystem with ⟨hkind, hsystem⟩ | ⟨state, hkind, hrevision, hstate, hsystem⟩
  · refine ⟨hsystem ▸ h.coherent, hsystem ▸ h.holdsOpen, fun share hshare => ?_,
      fun input hinput => hsystem ▸ h.completions input (hlog input hinput), hevents⟩
    refine (h.shares share (hsystem ▸ hshare)).append ?_ fun input hinput => ?_
    · intro _ _ _ _ _ hseen
      rw [seen_singleton] at hseen
      exact absurd hkind hseen.1
    · simp at hinput
  · obtain ⟨houtline, hoperations⟩ := applyRemoteEvent_own
      (r := r.installation.system.repository) event.payload.sharePublicId
      event.payload.revision.toNat state
    have hstep : r.installation.system.step (.remoteEvent event.payload.sharePublicId
        event.payload.revision.toNat state) = some i.system := by
      rw [hsystem]
      rfl
    refine ⟨h.coherent.step hstep, ?_, ?_, ?_, hevents⟩
    · rw [hsystem]
      intro operation hheld row hrow
      exact h.holdsOpen operation hheld row (hoperations ▸ hrow)
    · rw [hsystem]
      exact tracks_event h.coherent.rows h.shares hkind hrevision (htruthful hkind state hstate)
    · intro input hinput
      rw [hsystem]
      exact completions_mono h.completions (.of_eq houtline)
        (fun operation hmem _ => hoperations.symm ▸ hmem) input (hlog input hinput)

/-- A publication is completed. -/
theorem Record.Sound.completed {r : Record} (h : r.Sound remote) {r₁ : Repository}
    (hallows : remote.Allows r (.service event)) (hcoherent : s'.Coherent) (hholds : s'.HoldsOpen)
    (hadvances : r.installation.system.repository.outline.Advances s'.repository.outline)
    (hcompletion : r.installation.system.completion event = some input)
    (hsame : OperationsOnly r.installation.system.repository r₁)
    (houtline : r₁.outline = r.installation.system.repository.outline)
    (hcompleted : r₁.completePublication input = .ok s'.repository) :
    Record.Sound remote
      ⟨{ r.installation with system := s' }, r.log ++ [.completion input]⟩ := by
  obtain ⟨htruthful, hforward⟩ := hallows
  simp only [Remote.Truthful, hcompletion] at htruthful
  simp only [Remote.MovesForward, hcompletion] at hforward
  have hc₁ : r₁.outline.Coherent := houtline ▸ h.coherent.rows
  obtain ⟨operation, share, hfound, hshareId, hkind, hexpected, hremote, hmanifest, hshare,
    hresult⟩ := completePublication_inv hcompleted
  have hoperation := mem_of_find?_eq_some hfound
  have hid : operation.id = input.operationId := by simpa using find?_some hfound
  -- the coordinator holds the operation, so it was not completed before
  obtain ⟨held, hheld, hheldId⟩ := completion_held hcompletion
  have hopen : ∀ row ∈ r₁.operations, row.id = input.operationId → ¬row.IsCompleted := by
    intro row hrow hrowId hdone
    exact h.holdsOpen held hheld row ((hsame.completed row hdone).mp hrow)
      (hrowId.trans hheldId.symm) hdone
  rcases hresult with ⟨hstate, -⟩ | ⟨-, hresult⟩
  · exact absurd ⟨hkind, hstate⟩ (hopen operation hoperation hid)
  have hget : r.installation.system.repository.getShare input.shareId = some share := by
    rw [← hshare, getShare, getShare, hsame.shares]
  have hkept : ∀ row ∈ r.installation.system.repository.operations, row.IsCompleted →
      row ∈ s'.repository.operations := by
    intro row hrow hdone
    have hmem := (hsame.completed row hdone).mpr hrow
    rw [hresult, mem_setOperation]
    exact ⟨row, hmem, if_neg fun hrowId => hopen row hmem hrowId hdone⟩
  refine ⟨hcoherent, hholds, ?_, fun other hother => ?_, fun event hevent => ?_⟩
  · have hshares : s'.repository.shares =
        updateWhere (fun share : ShareRecord => share.id = input.shareId)
          (fun share => share.advance input) r.installation.system.repository.shares := by
      rw [hresult, ← hsame.shares]
      rfl
    rw [hshares]
    refine tracks_completed h.shares htruthful.1 fun row hmem hrowId => ?_
    obtain rfl : share = row := Option.some.inj
      (hget.symm.trans (hrowId ▸ getShare_of_mem h.coherent.rows hmem))
    exact ⟨hrowId.symm, hrowId.symm ▸ htruthful.1, htruthful.2,
      fun other hother => (h.completions other hother).1, (hforward share hget).1,
      (hforward share hget).2⟩
  · rcases mem_append.mp hother with hold | hnew
    · exact completions_mono h.completions hadvances hkept other hold
    · obtain rfl : other = input := by simpa using hnew
      obtain ⟨hmem, hshareId'⟩ := getShare_eq_some hget
      refine ⟨htruthful.1, hadvances.shareIds.subset (hshareId' ▸ mem_map_of_mem hmem),
        operation.completed other.activationRevisionId, ?_, ⟨hkind, rfl⟩, hid, hshareId, hexpected,
        hremote, rfl, ?_⟩
      · rw [hresult, mem_setOperation]
        exact ⟨operation, hoperation, if_pos hid⟩
      · rw [hresult]
        exact hmanifest
  · exact h.events event (by simpa using hevent)

theorem Record.Sound.goesOn {r : Record} (h : r.Sound remote)
    {notices : List Notice} (hcoherent : s'.Coherent) (hholds : s'.HoldsOpen)
    (hadvances : r.installation.system.repository.outline.Advances s'.repository.outline)
    (hcompleted : ∀ operation : PublicationOperation, operation.IsCompleted →
      (operation ∈ s'.repository.operations ↔
        operation ∈ r.installation.system.repository.operations))
    (hshares : ∀ share ∈ s'.repository.shares, Tracks remote (r.log ++ notices) share)
    (hnotices : ∀ notice ∈ notices, (∀ input, notice ≠ .completion input) ∧
      ∀ event, notice ≠ .applied event) :
    Record.Sound remote ⟨{ r.installation with system := s' }, r.log ++ notices⟩ := by
  refine ⟨hcoherent, hholds, hshares, fun input hinput => ?_, fun event hevent => ?_⟩
  · refine completions_mono h.completions hadvances
      (fun row hrow hdone => (hcompleted row hdone).mpr hrow) input ?_
    rcases mem_append.mp hinput with hold | hnew
    · exact hold
    · exact absurd rfl ((hnotices _ hnew).1 input)
  · rcases mem_append.mp hevent with hold | hnew
    · exact h.events event hold
    · exact absurd rfl ((hnotices _ hnew).2 event)

/-- A step that leaves the shares notes nothing, unless it completes a publication. -/
theorem notices_of_shares (hshares : s'.repository.shares = s.repository.shares)
    (hcompletion : s.completion event = none ∨ s'.worker.held ≠ none) :
    s.notices event s' = [] := by
  simp only [System.notices]
  split
  · rename_i hsome
    refine if_neg ?_
    rcases hcompletion with hnone | hheld
    · exact absurd (hnone.symm.trans hsome) (some_ne_none _).symm
    · exact hheld
  · split
    · exact if_pos hshares
    · rfl
  · simp [System.rewritten, hshares]

/-- **A step of the service that moves forward keeps what holds of the run.** -/
theorem Record.Sound.service {r : Record} (h : r.Sound remote)
    (hallows : remote.Allows r (.service event)) (hevent : event.isRemoteEvent = false)
    (hstep : r.installation.system.step event = some s') :
    Record.Sound remote ⟨{ r.installation with system := s' },
      r.log ++ r.installation.system.notices event s'⟩ := by
  have hcoherent := h.coherent.step hstep
  have hholds := h.holdsOpen.step h.coherent hstep hevent
  have hadvances := (h.coherent.follows_step hstep).rows
  -- a step that leaves the shares
  have hsameShares : OperationsOnly r.installation.system.repository s'.repository →
      (r.installation.system.completion event = none ∨ s'.worker.held ≠ none) →
      Record.Sound remote ⟨{ r.installation with system := s' },
        r.log ++ r.installation.system.notices event s'⟩ := by
    intro hsame hcompletion
    rw [notices_of_shares hsame.shares hcompletion]
    refine h.goesOn hcoherent hholds hadvances hsame.completed (fun share hshare => ?_) (by simp)
    rw [append_nil]
    exact h.shares share (hsame.shares ▸ hshare)
  cases System.effect h.coherent h.holdsOpen hstep hevent with
  | own hcompletion hanswer hown =>
    have hforward := hallows.2
    simp only [Remote.MovesForward, hcompletion, hanswer] at hforward
    have hnotices : r.installation.system.notices event s' =
        r.installation.system.rewritten s' := by
      simp only [System.notices, hcompletion, hanswer]
    rw [hnotices]
    refine h.goesOn hcoherent hholds hadvances hown.completed
      (tracks_own h.coherent h.shares (fun input hinput => (h.completions input hinput).2.1) hown
        hforward) fun notice hnotice => ?_
    obtain ⟨share, -, rfl⟩ := mem_map.mp hnotice
    exact ⟨fun _ => Notice.noConfusion, fun _ => Notice.noConfusion⟩
  | goesOn hheld hanswer hsame => exact hsameShares hsame (.inr hheld)
  | @completes input r₁ hcompletion hidle hsame houtline hcompleted =>
    have hnotices : r.installation.system.notices event s' = [.completion input] := by
      simp only [System.notices, hcompletion, hidle]
      rfl
    rw [hnotices]
    exact h.completed hallows hcoherent hholds hadvances hcompletion hsame houtline hcompleted
  | @answers answer hcompletion hanswer heffect =>
    rcases heffect with hsame | hanswers
    · exact hsameShares hsame (.inl hcompletion)
    obtain ⟨htruthful, hforward⟩ := hallows
    simp only [Remote.Truthful, hcompletion, hanswer] at htruthful
    simp only [Remote.MovesForward, hcompletion, hanswer] at hforward
    obtain ⟨share, publicId, hshare, hpublic, state, hbelongs, hstate⟩ := htruthful
    obtain ⟨hmem, -⟩ := getShare_eq_some hshare
    obtain ⟨current, hcurrent, -⟩ := (h.shares share hmem).inForce publicId hpublic
    obtain ⟨hle, hstateless⟩ := hforward share publicId current hshare hpublic hcurrent
    by_cases hkept : s'.repository.shares = r.installation.system.repository.shares
    · rw [notices_of_shares hkept (.inl hcompletion)]
      refine h.goesOn hcoherent hholds hadvances hanswers.completed (fun row hrow => ?_) (by simp)
      rw [append_nil]
      exact h.shares row (hkept ▸ hrow)
    · have hnotices : r.installation.system.notices event s' =
          [.answer publicId answer.revision] := by
        simp only [System.notices, hcompletion, hanswer, hshare, bind_some, hpublic]
        exact if_neg hkept
      rw [hnotices]
      refine h.goesOn hcoherent hholds hadvances hanswers.completed
        (tracks_answered h.coherent.rows h.shares hanswers hshare hpublic hcurrent hle ?_) (by simp)
      cases hanswerState : answer.state with
      | none =>
        rcases Nat.lt_or_eq_of_le hle with hlt | heq
        · exact .inl (hstateless hanswerState hlt)
        · exact .inr ⟨heq, rfl⟩
      | some told =>
        obtain rfl : told = state := by simpa [hanswerState] using hstate
        exact .inl hbelongs

/-- A publication that is completed once more is left as it is. -/
theorem completePublication_isCompleted (hc : r.outline.Coherent)
    (hdone : r.isCompleted input.operationId = true) (h : r.completePublication input = .ok r') :
    r' = r := by
  obtain ⟨operation, share, hfound, -, -, -, -, -, -, hresult⟩ := completePublication_inv h
  obtain ⟨row, hrow, hrowDone⟩ := any_eq_true.mp hdone
  simp only [decide_eq_true_eq] at hrowDone
  have hid : operation.id = input.operationId := by simpa using find?_some hfound
  obtain rfl : operation = row :=
    operation_eq_of_id hc (mem_of_find?_eq_some hfound) hrow (hid.trans hrowDone.1.symm)
  rcases hresult with ⟨-, hsame⟩ | ⟨hstate, -⟩
  · exact hsame
  · exact absurd hrowDone.2.2 hstate

/-- **A step that moves forward keeps what holds of the run.** -/
theorem Record.Sound.step {r : Record} (h : r.Sound remote) {update : Update}
    (hallows : remote.Allows r update) (hstep : r.installation.step update = some i) :
    Record.Sound remote ⟨i, r.log ++ r.installation.notices update i⟩ := by
  cases update with
  | remoteEvent event =>
    obtain rfl := Option.some.inj hstep
    cases happlied : r.installation.applyRemoteEvent event with
    | error _ => simpa [Except.toOption, Installation.notices] using h
    | ok i => exact h.remoteEvent hallows.1 happlied
  | accountReconciled eventCursor =>
    obtain rfl := Option.some.inj hstep
    rw [Installation.notices, append_nil]
    refine ⟨h.coherent, h.holdsOpen, h.shares, h.completions, fun event hevent => ?_⟩
    obtain ⟨hid, hle⟩ := h.events event hevent
    exact ⟨hid, Nat.le_trans hle (Nat.le_max_left _ _)⟩
  | completionReplayed input =>
    simp only [Installation.step] at hstep
    split at hstep
    · rename_i hdone
      obtain rfl := Option.some.inj hstep
      rw [Installation.notices, append_nil]
      cases hresult : r.installation.system.repository.completePublication input with
      | error _ => exact h
      | ok r' =>
        obtain rfl := completePublication_isCompleted h.coherent.rows hdone hresult
        exact h
    · cases hstep
  | service event =>
    simp only [Installation.step] at hstep
    split at hstep
    · cases hstep
    · rename_i hevent
      obtain ⟨s', hsystem, rfl⟩ := map_eq_some_iff.mp hstep
      exact h.service hallows (by simpa using hevent) hsystem

theorem Record.Sound.run {remote : Remote} {now later : Record} (h : now.Sound remote)
    (hrun : Runs remote.Allows now later) : later.Sound remote := by
  induction hrun with
  | refl => exact h
  | step update _ hallows hstep ih => exact ih.step hallows hstep

/-- What a run adds to: the cursor, the record and the shares. -/
structure Record.Extends (now later : Record) : Prop where
  cursor : now.installation.remoteEventCursor ≤ later.installation.remoteEventCursor
  log : now.log <+: later.log
  shareIds : now.installation.system.repository.outline.shareIds <+:
    later.installation.system.repository.outline.shareIds

theorem Record.Sound.extends_step {r : Record} (h : r.Sound remote) {update : Update}
    (hstep : r.installation.step update = some i) :
    r.Extends ⟨i, r.log ++ r.installation.notices update i⟩ := by
  suffices hsame : r.installation.remoteEventCursor ≤ i.remoteEventCursor ∧
      r.installation.system.repository.outline.shareIds <+:
        i.system.repository.outline.shareIds from
    ⟨hsame.1, prefix_append _ _, hsame.2⟩
  cases update with
  | remoteEvent event =>
    obtain rfl := Option.some.inj hstep
    cases happlied : r.installation.applyRemoteEvent event with
    | error _ => exact ⟨Nat.le_refl _, prefix_refl _⟩
    | ok i =>
      obtain ⟨-, ⟨-, rfl⟩ | ⟨hlt, hcursor, hsystem⟩⟩ := applyRemoteEvent_eq_ok happlied
      · exact ⟨Nat.le_refl _, prefix_refl _⟩
      · refine ⟨hcursor ▸ Nat.le_of_lt hlt, ?_⟩
        rcases hsystem with ⟨-, hsystem⟩ | ⟨state, -, -, -, hsystem⟩
        · exact hsystem ▸ prefix_refl _
        · obtain ⟨houtline, -⟩ := applyRemoteEvent_own
            (r := r.installation.system.repository) event.payload.sharePublicId
            event.payload.revision.toNat state
          simp only [Except.toOption, getD_some, hsystem, System.informed]
          exact houtline.symm ▸ prefix_refl _
  | accountReconciled eventCursor =>
    obtain rfl := Option.some.inj hstep
    exact ⟨Nat.le_max_left _ _, prefix_refl _⟩
  | completionReplayed input =>
    simp only [Installation.step] at hstep
    split at hstep
    · rename_i hdone
      obtain rfl := Option.some.inj hstep
      refine ⟨Nat.le_refl _, ?_⟩
      cases hresult : r.installation.system.repository.completePublication input with
      | error _ => exact prefix_refl _
      | ok r' =>
        obtain rfl := completePublication_isCompleted h.coherent.rows hdone hresult
        exact prefix_refl _
    · cases hstep
  | service event =>
    simp only [Installation.step] at hstep
    split at hstep
    · cases hstep
    · obtain ⟨s', hsystem, rfl⟩ := map_eq_some_iff.mp hstep
      exact ⟨Nat.le_refl _, (h.coherent.follows_step hsystem).rows.shareIds⟩

theorem Record.Sound.extends_run {now later : Record} (h : now.Sound remote)
    (hrun : Runs remote.Allows now later) : now.Extends later := by
  induction hrun with
  | refl => exact ⟨Nat.le_refl _, prefix_refl _, prefix_refl _⟩
  | step update hbefore hallows hstep ih =>
    have hnext := (h.run hbefore).extends_step hstep
    exact ⟨Nat.le_trans ih.cursor hnext.cursor, ih.log.trans hnext.log,
      ih.shareIds.trans hnext.shareIds⟩

/-! ## The remote state only moves forward -/

/-- What a run does to what is known of the remote: nothing goes back, every share is at the
greatest revision that was heard of, and what was taken up once is taken up no more. -/
structure MovedForward (remote : Remote) (now later : Record) : Prop where
  cursor : now.installation.remoteEventCursor ≤ later.installation.remoteEventCursor
  revisions : ∀ share ∈ now.installation.system.repository.shares, ∃ share',
    later.installation.system.repository.getShare share.id = some share' ∧
    ∀ revision, share.remoteRevision = some revision →
      ∃ revision', share'.remoteRevision = some revision' ∧ revision ≤ revision'
  inForce : ∀ share ∈ later.installation.system.repository.shares, ∀ publicId,
    share.remotePublicId = some publicId → ∃ revision, share.remoteRevision = some revision ∧
      InForce remote later.log share publicId revision
  manifest : ∀ share ∈ later.installation.system.repository.shares,
    ActiveManifest later.log share
  events : ∀ event, .applied event ∈ now.log →
    later.installation.applyRemoteEvent event = .ok later.installation
  completions : ∀ input, .completion input ∈ now.log →
    later.installation.system.repository.completePublication input =
      .ok later.installation.system.repository

/-- **The remote state of the shares only moves forward** in every run of the service, the events
and the answers of the remote in which no step goes back. -/
theorem remote_state_moves_forward (remote : Remote) {now later : Record}
    (hnow : Runs remote.Allows {} now) (hlater : Runs remote.Allows now later) :
    MovedForward remote now later := by
  have hsound := (sound_start remote).run hnow
  have hlaterSound := hsound.run hlater
  obtain ⟨hcursor, ⟨news, hlog⟩, hids⟩ := hsound.extends_run hlater
  have hseen : ∀ publicId revision, Seen now.log publicId revision →
      Seen later.log publicId revision := fun _ _ h => hlog ▸ h.append news
  have hcompletion : ∀ input, .completion input ∈ now.log → .completion input ∈ later.log :=
    fun _ h => hlog ▸ mem_append_left news h
  refine ⟨hcursor, fun share hmem => ?_, fun share hmem => (hlaterSound.shares share hmem).inForce,
    fun share hmem => (hlaterSound.shares share hmem).manifest, fun event hevent => ?_,
    fun input hinput => ?_⟩
  · obtain ⟨share', hmem', hid⟩ := mem_map.mp (hids.subset (mem_map_of_mem hmem))
    refine ⟨share', hid ▸ getShare_of_mem hlaterSound.coherent.rows hmem', ?_⟩
    intro revision hrevision
    have htracks := hsound.shares share hmem
    have htracks' := hlaterSound.shares share' hmem'
    cases hpublic : share.remotePublicId with
    | none =>
      exact absurd ((htracks.unnamed hpublic).1.symm.trans hrevision) (some_ne_none _).symm
    | some publicId =>
      -- the share was published, and so it is now
      obtain ⟨input, hinput, hshare⟩ := htracks.published (by simp [hpublic])
      cases hpublic' : share'.remotePublicId with
      | none =>
        exact absurd (hshare.trans hid.symm)
          ((htracks'.unnamed hpublic').2 input (hcompletion input hinput))
      | some publicId' =>
        obtain ⟨revision', hrevision', hforce'⟩ := htracks'.inForce publicId' hpublic'
        obtain ⟨current, hcurrent, hforce⟩ := htracks.inForce publicId hpublic
        obtain rfl : current = revision := Option.some.inj (hcurrent.symm.trans hrevision)
        have hsame : publicId' = publicId := by
          rw [htracks'.named publicId' hpublic', htracks.named publicId hpublic, hid]
        refine ⟨revision', hrevision', hforce'.greatest current ?_⟩
        rw [hsame]
        exact hseen publicId current hforce.seen
  · obtain ⟨hid, hread⟩ := hsound.events event hevent
    exact applyRemoteEvent_read hid (Nat.le_trans hread hcursor)
  · obtain ⟨hpublic, hshare, row, hdone⟩ := hlaterSound.completions input (hcompletion input hinput)
    obtain ⟨share, hmem, hid⟩ := mem_map.mp hshare
    have htracks := hlaterSound.shares share hmem
    cases hsharePublic : share.remotePublicId with
    | none =>
      exact absurd hid.symm ((htracks.unnamed hsharePublic).2 input (hcompletion input hinput))
    | some publicId =>
      obtain ⟨revision, hrevision, hforce⟩ := htracks.inForce publicId hsharePublic
      have hsame : publicId = input.remotePublicId := by
        rw [htracks.named publicId hsharePublic, hid, hpublic]
      refine completePublication_done hlaterSound.coherent.rows hdone
        (hid ▸ getShare_of_mem hlaterSound.coherent.rows hmem) (hsame ▸ hsharePublic) hrevision ?_
      exact hforce.greatest _ ⟨_, hcompletion input hinput, hsame.symm, rfl⟩

/-! ## A share at the remote -/

/-- The ids of the shares there. -/
def plainId (id : ℕ) : String := String.ofList (List.replicate (id + 1) 'a')

theorem plainId_injective : Function.Injective plainId := by
  intro a b h
  have hlength := congrArg (fun text => text.toList.length) h
  simpa [plainId] using hlength

/-- A remote that publishes a share, publishes it again, and then takes it back. -/
def plainRemote : Remote where
  publicId := plainId
  injective := plainId_injective
  belongs _ revision state :=
    revision ≤ 2 ∧ state = .synced ∨ revision = 3 ∧ state = .unpublished

/-- The news that the share was taken back. -/
def takenBack : RemoteEvent where
  id := 5
  kind := .unpublish
  payload := { sharePublicId := plainId 1, revision := 3, state := "unpublished" }

/-- A step that hears nothing and finds nothing. -/
theorem Remote.Allows.of_silent {r : Record}
    (hcompletion : r.installation.system.completion event = none)
    (hanswer : r.installation.system.answer event = none)
    (hfound : r.installation.system.found event = none) : remote.Allows r (.service event) := by
  simp only [Remote.Allows, Remote.Truthful, Remote.MovesForward, hcompletion, hanswer, hfound]
  exact ⟨trivial, fun share publicId current h => absurd h (some_ne_none _).symm⟩

/-- The notice is of what this side has set. -/
def Notice.isSet : Notice → Bool
  | .set .. => true
  | _ => false

/-- A run that has only noted what this side has set has heard of nothing. -/
theorem not_seen_of_isSet (h : log.all Notice.isSet = true) : ¬Seen log publicId revision := by
  rintro ⟨notice, hmem, hsees⟩
  have hset := all_eq_true.mp h notice hmem
  cases notice with
  | set => exact hsees
  | _ => exact Bool.false_ne_true hset

/-- The first publication of a share, before anything was heard of. -/
theorem Remote.Allows.of_first {r : Record}
    (hcompletion : r.installation.system.completion event = some input)
    (hpublic : input.remotePublicId = remote.publicId input.shareId)
    (hbelongs : remote.belongs input.remotePublicId input.resultingRemoteRevision .synced)
    (hrevision : (r.installation.system.repository.getShare input.shareId).all
      (·.remoteRevision.isNone) = true)
    (hlog : r.log.all Notice.isSet = true) : remote.Allows r (.service event) := by
  simp only [Remote.Allows, Remote.Truthful, Remote.MovesForward, hcompletion]
  refine ⟨⟨hpublic, hbelongs⟩, fun share hshare => ⟨.inl ?_, fun _ revision hseen => ?_⟩⟩
  · rw [hshare, all_some, isNone_iff_eq_none] at hrevision
    rw [hrevision]
    rfl
  · exact absurd hseen (not_seen_of_isSet hlog)

/-- A share is published, and taken back at the remote. -/
theorem remote_state_moves_forward_taken_back : ∃ now later : Record,
    now.installation.system.repository.shares.map (·.remoteRevision) = [some 1] ∧
      later.installation.system.repository.shares.map (·.remoteRevision) = [some 3] ∧
      MovedForward plainRemote now later := by
  have hasked : Runs plainRemote.Allows {} _ :=
    (((Runs.refl {}).step (.service (.createShare .replaceable .manual))
      (.of_silent rfl rfl rfl) rfl).step
      (.service (.approvePreview 1 "A")) (.of_silent rfl rfl rfl) rfl).step
      (.service (.projected 0 (some ⟨"A", "{}"⟩))) (.of_silent rfl rfl rfl) rfl
  have hpreviewed : Runs plainRemote.Allows {} _ :=
    (hasked.step (.service (.enqueuePublish 1)) (.of_silent rfl rfl rfl) rfl).step
      (.service (.projected 0 (some ⟨"A", "{}"⟩))) (.of_silent rfl rfl rfl) rfl
  have hstaged : Runs plainRemote.Allows {} _ :=
    ((hpreviewed.step (.service (.proceed 0 0)) (.of_silent rfl rfl rfl) rfl).step
      (.service (.take 0)) (.of_silent rfl rfl rfl) rfl).step
      (.service (.staged (plainId 1) (some (readyStage 9)))) (.of_silent rfl rfl rfl) rfl
  have hpublished : Runs plainRemote.Allows {} _ :=
    hstaged.step (.service (.activated (plainId 1) (some ⟨9, 1⟩)))
      (.of_first rfl rfl (.inl ⟨by decide, rfl⟩) (by decide +kernel) (by decide +kernel)) rfl
  refine ⟨_, _, by decide +kernel, ?_, remote_state_moves_forward plainRemote hpublished
    ((Runs.refl _).step (.remoteEvent takenBack) ⟨?_, trivial⟩ rfl)⟩
  · decide +kernel
  · exact fun _ state hstate => .inr ⟨rfl, (Except.ok.inj hstate).symm⟩

/-- **An answer that comes late takes the share back to its revision.** The share is published
again at the remote, and then taken back; the news of the latter comes before the answer to the
former. -/
theorem remote_state_moves_back : ∃ now later : Record,
    Runs plainRemote.Truthful {} now ∧ Runs plainRemote.Truthful now later ∧
      now.installation.system.repository.shares.map
        (fun share => (share.remoteRevision, share.state)) = [(some 3, .unpublished)] ∧
      later.installation.system.repository.shares.map
        (fun share => (share.remoteRevision, share.state)) = [(some 2, .synced)] ∧
      ¬MovedForward plainRemote now later := by
  have hasked : Runs plainRemote.Truthful {} _ :=
    (((Runs.refl {}).step (.service (.createShare .replaceable .manual)) trivial rfl).step
      (.service (.approvePreview 1 "A")) trivial rfl).step
      (.service (.projected 0 (some ⟨"A", "{}"⟩))) trivial rfl
  have hstaged : Runs plainRemote.Truthful {} _ :=
    ((((hasked.step (.service (.enqueuePublish 1)) trivial rfl).step
      (.service (.projected 0 (some ⟨"A", "{}"⟩))) trivial rfl).step
      (.service (.proceed 0 0)) trivial rfl).step (.service (.take 0)) trivial rfl).step
      (.service (.staged (plainId 1) (some (readyStage 9)))) trivial rfl
  have htaken : Runs plainRemote.Truthful {} _ :=
    (hstaged.step (.service (.activated (plainId 1) (some ⟨9, 1⟩)))
      ⟨rfl, .inl ⟨by decide, rfl⟩⟩ rfl).step (.remoteEvent takenBack)
      (fun _ state hstate => .inr ⟨rfl, (Except.ok.inj hstate).symm⟩) rfl
  refine ⟨_, _, htaken, (Runs.refl _).step (.service (.remoteAnswer 1 2 (some .synced))) ?_ rfl,
    by decide +kernel, by decide +kernel, fun h => ?_⟩
  · exact ⟨_, plainId 1, rfl, rfl, .synced, .inl ⟨by decide, rfl⟩, rfl⟩
  · obtain ⟨share', hshare', hrevisions⟩ := h.revisions _ (mem_singleton_self _)
    obtain rfl := Option.some.inj hshare'
    obtain ⟨revision', hrevision', hle⟩ := hrevisions 3 rfl
    obtain rfl := Option.some.inj hrevision'
    exact absurd hle (by decide)

end HomelabInventory.Sharing
