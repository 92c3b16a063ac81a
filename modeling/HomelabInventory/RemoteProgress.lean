import HomelabInventory.RemoteWriters

/-!
# The remote state of the shares only moves forward

Three writers bring news of the remote to a share: the events, the completed
publications and the answers to direct requests. The events and the
publications compare the revision that they bring with that of the share, the
answers do not. A run in which no answer comes late keeps every share at the
greatest revision that was heard of.
-/

namespace HomelabInventory.Sharing

open Repository List Option

/-! ## The remote -/

/-- The remote, as far as the shares go: the id that each share has there, and the states that a
share had there at each of its revisions. -/
structure Remote where
  publicId : ℕ → String
  injective : Function.Injective publicId
  belongs : String → ℕ → ShareState → Prop

/-- The run has heard of a revision of a share. -/
def Seen (log : List Notice) (publicId : String) (revision : ℕ) : Prop :=
  ∃ notice ∈ log, notice.sees publicId revision

/-- This side has set the share to its state, after the revision was heard of. -/
def SetAfter (log : List Notice) (publicId : String) (revision : ℕ) (share : ShareRecord) : Prop :=
  share.state.isLocal = true ∧ ∃ before after,
    log = before ++ .set share.id share.state :: after ∧ Seen before publicId revision

/-- The share is at the greatest revision that was heard of, and in a state that belongs to it or
that this side has set since. -/
structure InForce (remote : Remote) (log : List Notice) (share : ShareRecord) (publicId : String)
    (revision : ℕ) : Prop where
  seen : Seen log publicId revision
  greatest : ∀ other, Seen log publicId other → other ≤ revision
  state : remote.belongs publicId revision share.state ∨ SetAfter log publicId revision share

/-- The share has the manifest of the completed publication of the greatest revision, or none
when none was completed. -/
def ActiveManifest (log : List Notice) (share : ShareRecord) : Prop :=
  (share.activeManifestHash = none ∧
    ∀ input, .completion input ∈ log → input.shareId ≠ share.id) ∨
  ∃ input, .completion input ∈ log ∧ input.shareId = share.id ∧
    share.activeManifestHash = some input.manifestHash ∧
    ∀ other, .completion other ∈ log → other.shareId = share.id →
      other.resultingRemoteRevision ≤ input.resultingRemoteRevision

/-! ## Conditions on a run -/

/-- What the remote says is true: a revision that it names is one that it assigned. -/
def Remote.Truthful (remote : Remote) (r : Record) : Update → Prop
  | .remoteEvent event => event.kind ≠ .recovery → ∀ state,
    remoteShareState event.payload.state = .ok state →
      remote.belongs event.payload.sharePublicId event.payload.revision.toNat state
  | .service event =>
    match r.installation.system.completion event, r.installation.system.answer event with
    | some input, _ =>
      input.remotePublicId = remote.publicId input.shareId ∧
        remote.belongs input.remotePublicId input.resultingRemoteRevision .synced
    | none, some answer => ∃ share publicId,
      r.installation.system.repository.getShare answer.shareId = some share ∧
        share.remotePublicId = some publicId ∧
        ∃ state, remote.belongs publicId answer.revision state ∧ answer.state.all (· = state)
    | none, none => True
  | _ => True

/-- **When the remote state moves forward.** No answer comes after news of a greater revision,
and one that has no state finds the share in a state of its revision. A publication that is
completed after news of a greater revision is older than one that was completed; and one that
gives the share its id was not overtaken by events. A share that is found to be published as it
is, is active at the remote. -/
def Remote.MovesForward (remote : Remote) (r : Record) : Update → Prop
  | .service event =>
    let s := r.installation.system
    match s.completion event, s.answer event with
    | some input, _ => ∀ share, s.repository.getShare input.shareId = some share →
      (share.remoteRevision.all (· ≤ input.resultingRemoteRevision) ∨
        ∃ other, .completion other ∈ r.log ∧ other.shareId = input.shareId ∧
          input.resultingRemoteRevision ≤ other.resultingRemoteRevision) ∧
      (share.remotePublicId = none → ∀ revision, Seen r.log input.remotePublicId revision →
        revision ≤ input.resultingRemoteRevision)
    | none, some answer => ∀ share publicId current,
      s.repository.getShare answer.shareId = some share → share.remotePublicId = some publicId →
      share.remoteRevision = some current →
        current ≤ answer.revision ∧
        (answer.state = none → current < answer.revision →
          remote.belongs publicId answer.revision share.state)
    | none, none => ∀ share publicId current, s.found event = some share.id →
      s.repository.getShare share.id = some share → share.remotePublicId = some publicId →
      share.remoteRevision = some current → share.state ≠ .synced →
        remote.belongs publicId current .synced
  | _ => True

/-- Both hold of an update. -/
def Remote.Allows (remote : Remote) (r : Record) (update : Update) : Prop :=
  remote.Truthful r update ∧ remote.MovesForward r update

/-! ## The record grows -/

variable {log notices : List Notice}
variable {publicId : String}
variable {revision : ℕ}

theorem Seen.append (h : Seen log publicId revision) (notices : List Notice) :
    Seen (log ++ notices) publicId revision := by
  obtain ⟨notice, hmem, hsees⟩ := h
  exact ⟨notice, mem_append_left notices hmem, hsees⟩

theorem seen_append :
    Seen (log ++ notices) publicId revision ↔
      Seen log publicId revision ∨ Seen notices publicId revision := by
  constructor
  · rintro ⟨notice, hmem, hsees⟩
    rcases mem_append.mp hmem with hold | hnew
    · exact .inl ⟨notice, hold, hsees⟩
    · exact .inr ⟨notice, hnew, hsees⟩
  · rintro (hold | ⟨notice, hmem, hsees⟩)
    · exact hold.append notices
    · exact ⟨notice, mem_append_right log hmem, hsees⟩

@[simp] theorem seen_singleton {notice : Notice} :
    Seen [notice] publicId revision ↔ notice.sees publicId revision := by
  simp [Seen]

variable {share share' : ShareRecord}

theorem SetAfter.append (h : SetAfter log publicId revision share) (notices : List Notice) :
    SetAfter (log ++ notices) publicId revision share := by
  obtain ⟨hlocal, before, after, rfl, hseen⟩ := h
  exact ⟨hlocal, before, after ++ notices, by simp, hseen⟩

variable {remote : Remote}

/-- News of no greater revision of the share leaves it in force. -/
theorem InForce.append (h : InForce remote log share publicId revision)
    (hnotices : ∀ other, Seen notices publicId other → other ≤ revision) :
    InForce remote (log ++ notices) share publicId revision where
  seen := h.seen.append notices
  greatest other hother := by
    rcases seen_append.mp hother with hold | hnew
    · exact h.greatest other hold
    · exact hnotices other hnew
  state := h.state.imp_right fun hset => hset.append notices

/-- Publications of other shares leave the manifest of the share. -/
theorem ActiveManifest.append (h : ActiveManifest log share)
    (hnotices : ∀ input, .completion input ∈ notices → input.shareId ≠ share.id) :
    ActiveManifest (log ++ notices) share := by
  rcases h with ⟨hnone, hothers⟩ | ⟨input, hmem, hshare, hactive, hgreatest⟩
  · refine .inl ⟨hnone, fun input hinput => ?_⟩
    rcases mem_append.mp hinput with hold | hnew
    · exact hothers input hold
    · exact hnotices input hnew
  · refine .inr ⟨input, mem_append_left notices hmem, hshare, hactive, fun other hother => ?_⟩
    rcases mem_append.mp hother with hold | hnew
    · exact hgreatest other hold
    · exact fun hsame => absurd hsame (hnotices other hnew)

/-! ## Shares -/

/-- What holds of a share in every run of these conditions. -/
structure Tracks (remote : Remote) (log : List Notice) (share : ShareRecord) : Prop where
  named : ∀ publicId, share.remotePublicId = some publicId → publicId = remote.publicId share.id
  inForce : ∀ publicId, share.remotePublicId = some publicId →
    ∃ revision, share.remoteRevision = some revision ∧
      InForce remote log share publicId revision
  published : share.remotePublicId ≠ none → ∃ input, .completion input ∈ log ∧
    input.shareId = share.id
  unnamed : share.remotePublicId = none → share.remoteRevision = none ∧
    ∀ input, .completion input ∈ log → input.shareId ≠ share.id
  manifest : ActiveManifest log share

variable (h : Tracks remote log share)
include h

/-- What does not concern the share leaves it as it is. -/
theorem Tracks.append
    (hseen : ∀ publicId revision other, share.remotePublicId = some publicId →
      share.remoteRevision = some revision → Seen notices publicId other → other ≤ revision)
    (hcompleted : ∀ input, .completion input ∈ notices → input.shareId ≠ share.id) :
    Tracks remote (log ++ notices) share where
  named := h.named
  inForce publicId hpublic := by
    obtain ⟨revision, hrevision, hforce⟩ := h.inForce publicId hpublic
    exact ⟨revision, hrevision, hforce.append fun other => hseen publicId revision other hpublic
      hrevision⟩
  published hsome := by
    obtain ⟨input, hinput, hshare⟩ := h.published hsome
    exact ⟨input, mem_append_left notices hinput, hshare⟩
  unnamed hnone := by
    refine ⟨(h.unnamed hnone).1, fun input hinput => ?_⟩
    rcases mem_append.mp hinput with hold | hnew
    · exact (h.unnamed hnone).2 input hold
    · exact hcompleted input hnew
  manifest := h.manifest.append hcompleted

/-- A step that hears nothing of the remote leaves the shares that it does not set. -/
theorem Tracks.append_own (hown : ∀ notice ∈ notices, ∃ id state, notice = .set id state) :
    Tracks remote (log ++ notices) share := by
  refine h.append ?_ ?_
  · rintro publicId revision other - - ⟨notice, hmem, hsees⟩
    obtain ⟨id, state, rfl⟩ := hown notice hmem
    exact hsees.elim
  · intro input hmem
    obtain ⟨id, state, heq⟩ := hown _ hmem
    cases heq

omit h in
theorem ActiveManifest.of_same (h : ActiveManifest log share) (hid : share'.id = share.id)
    (hactive : share'.activeManifestHash = share.activeManifestHash) :
    ActiveManifest log share' := by
  rw [ActiveManifest, hid, hactive]
  exact h

/-- This side sets the share to a state of its own, or to one that belongs to its revision. -/
theorem Tracks.set (hsame : share.SameRemote share')
    (hown : ∀ notice ∈ notices, ∃ id state, notice = .set id state)
    (hset : .set share'.id share'.state ∈ notices)
    (hstate : ∀ publicId revision, share.remotePublicId = some publicId →
      share.remoteRevision = some revision →
        share'.state.isLocal = true ∨ remote.belongs publicId revision share'.state) :
    Tracks remote (log ++ notices) share' := by
  have hkept := h.append_own hown
  refine ⟨fun publicId hpublic => ?_, fun publicId hpublic => ?_, fun hsome => ?_,
    fun hnone => ?_, hkept.manifest.of_same hsame.id hsame.activeManifestHash⟩
  · rw [hsame.id]
    exact h.named publicId (hsame.remotePublicId ▸ hpublic)
  · rw [hsame.remotePublicId] at hpublic
    obtain ⟨revision, hrevision, hforce⟩ := hkept.inForce publicId hpublic
    refine ⟨revision, hsame.remoteRevision.trans hrevision, hforce.seen, hforce.greatest, ?_⟩
    rcases hstate publicId revision hpublic hrevision with hlocal | hbelongs
    · -- the revision was heard of before this step, which has set the share
      obtain ⟨before, after, rfl⟩ := append_of_mem hset
      obtain ⟨old, hold, hforced⟩ := h.inForce publicId hpublic
      obtain rfl : old = revision := some.inj (hold.symm.trans hrevision)
      exact .inr ⟨hlocal, log ++ before, after, by simp, hforced.seen.append before⟩
    · exact .inl hbelongs
  · rw [hsame.id]
    exact hkept.published (hsame.remotePublicId ▸ hsome)
  · rw [hsame.id, hsame.remoteRevision]
    exact hkept.unnamed (hsame.remotePublicId ▸ hnone)

/-- The remote tells the share of a revision, which no other news of the share exceeds. -/
theorem Tracks.told
    {revision current : ℕ}
    (hid : share'.id = share.id) (hpublic : share.remotePublicId = some publicId)
    (hpublic' : share'.remotePublicId = some publicId)
    (hactive : share'.activeManifestHash = share.activeManifestHash)
    (hcurrent : share.remoteRevision = some current)
    (hrevision : share'.remoteRevision = some revision) (hle : current ≤ revision)
    (hseen : ∀ other, Seen notices publicId other ↔ other = revision)
    (hcompleted : ∀ input, .completion input ∉ notices)
    (hstate : remote.belongs publicId revision share'.state ∨
      current = revision ∧ share'.state = share.state) :
    Tracks remote (log ++ notices) share' := by
  obtain ⟨old, hold, hforce⟩ := h.inForce publicId hpublic
  obtain rfl : old = current := some.inj (hold.symm.trans hcurrent)
  refine ⟨fun other hother => ?_, fun other hother => ?_, fun _ => ?_, fun hnone => ?_, ?_⟩
  · obtain rfl : publicId = other := some.inj (hpublic'.symm.trans hother)
    rw [hid]
    exact h.named publicId hpublic
  · obtain rfl : publicId = other := some.inj (hpublic'.symm.trans hother)
    refine ⟨revision, hrevision, seen_append.mpr (.inr ((hseen revision).mpr rfl)), ?_, ?_⟩
    · intro news hnews
      rcases seen_append.mp hnews with hbefore | hnow
      · exact Nat.le_trans (hforce.greatest news hbefore) hle
      · exact Nat.le_of_eq ((hseen news).mp hnow)
    · rcases hstate with hbelongs | ⟨rfl, hkept⟩
      · exact .inl hbelongs
      · rcases hforce.state with hbelongs | hset
        · exact .inl (hkept ▸ hbelongs)
        · refine .inr ?_
          rw [SetAfter, hid, hkept]
          exact hset.append notices
  · obtain ⟨input, hinput, hshare⟩ := h.published (by simp [hpublic])
    exact ⟨input, mem_append_left notices hinput, hshare.trans hid.symm⟩
  · exact absurd (hnone.symm.trans hpublic') (some_ne_none _).symm
  · exact (h.manifest.append fun input hmem => absurd hmem (hcompleted input)).of_same hid hactive

/-- What is required of the completion of a publication of the share. -/
structure Completes (remote : Remote) (log : List Notice) (share : ShareRecord)
    (input : CompletionInput) : Prop where
  shareId : input.shareId = share.id
  remotePublicId : input.remotePublicId = remote.publicId share.id
  belongs : remote.belongs input.remotePublicId input.resultingRemoteRevision .synced
  named : ∀ other, .completion other ∈ log → other.remotePublicId = remote.publicId other.shareId
  newest : share.remoteRevision.all (· ≤ input.resultingRemoteRevision) ∨
    ∃ other, .completion other ∈ log ∧ other.shareId = input.shareId ∧
      input.resultingRemoteRevision ≤ other.resultingRemoteRevision
  first : share.remotePublicId = none → ∀ revision, Seen log input.remotePublicId revision →
    revision ≤ input.resultingRemoteRevision

omit h in
/-- A completed publication of the share is news of its revision. -/
theorem Completes.seen {input other : CompletionInput} (h : Completes remote log share input)
    (hother : .completion other ∈ log) (hsame : other.shareId = share.id) :
    Seen log input.remotePublicId other.resultingRemoteRevision := by
  refine ⟨_, hother, ?_, rfl⟩
  rw [h.named other hother, hsame, h.remotePublicId]

omit h in
/-- The manifest of the publication is the active one, since no news is of a greater revision. -/
theorem Completes.activeManifest
    {input : CompletionInput} (h : Completes remote log share input) (hid : share'.id = share.id)
    (hactive : share'.activeManifestHash = some input.manifestHash)
    (hgreatest : ∀ revision, Seen log input.remotePublicId revision →
      revision ≤ input.resultingRemoteRevision) :
    ActiveManifest (log ++ [.completion input]) share' := by
  refine .inr ⟨input, by simp, h.shareId.trans hid.symm, hactive, fun other hother hsame => ?_⟩
  rcases mem_append.mp hother with hold | hnew
  · exact hgreatest _ (h.seen hold (hsame.trans hid))
  · obtain rfl : other = input := by simpa using hnew
    exact Nat.le_refl _

theorem Tracks.completed {input : CompletionInput} (hcompletes : Completes remote log share input) :
    Tracks remote (log ++ [.completion input]) (share.advance input) := by
  have hnews : ∀ other, Seen [.completion input] input.remotePublicId other ↔
      other = input.resultingRemoteRevision := by
    intro other
    rw [seen_singleton]
    exact ⟨fun hsees => hsees.2.symm, fun hsame => ⟨rfl, hsame.symm⟩⟩
  -- the share at the revision of the publication, when nothing newer was heard of
  have harrived : ∀ share' : ShareRecord, share'.id = share.id →
      share'.remotePublicId = some input.remotePublicId →
      share'.remoteRevision = some input.resultingRemoteRevision →
      share'.activeManifestHash = some input.manifestHash →
      (∀ revision, Seen log input.remotePublicId revision →
        revision ≤ input.resultingRemoteRevision) →
      (remote.belongs input.remotePublicId input.resultingRemoteRevision share'.state ∨
        SetAfter log input.remotePublicId input.resultingRemoteRevision share') →
      Tracks remote (log ++ [.completion input]) share' := by
    intro share' hid hpublic hrevision hactive hgreatest hstate
    refine ⟨fun other hother => ?_, fun other hother => ?_,
      fun _ => ⟨input, by simp, hcompletes.shareId.trans hid.symm⟩, fun hnone => ?_,
      hcompletes.activeManifest hid hactive hgreatest⟩
    · rw [hid, ← hcompletes.remotePublicId]
      exact (some.inj (hpublic.symm.trans hother)).symm
    · obtain rfl : input.remotePublicId = other := some.inj (hpublic.symm.trans hother)
      refine ⟨_, hrevision, seen_append.mpr (.inr ((hnews _).mpr rfl)), fun news hseen => ?_, ?_⟩
      · rcases seen_append.mp hseen with hold | hnew
        · exact hgreatest news hold
        · exact Nat.le_of_eq ((hnews news).mp hnew)
      · exact hstate.imp_right fun hset => hset.append _
    · exact absurd (hnone.symm.trans hpublic) (some_ne_none _).symm
  cases hpublic : share.remotePublicId with
  | none =>
    -- the first publication of the share
    have hrevision := (h.unnamed hpublic).1
    have hadvance : share.advance input = { share with
        remotePublicId := some input.remotePublicId
        remoteRevision := some input.resultingRemoteRevision
        activeManifestHash := some input.manifestHash
        state := .synced
        localRevision := share.localRevision + 1 } := by
      rw [ShareRecord.advance, hrevision]
      rfl
    rw [hadvance]
    exact harrived _ rfl rfl rfl rfl (hcompletes.first hpublic) (.inl hcompletes.belongs)
  | some publicId =>
    obtain ⟨current, hcurrent, hforce⟩ := h.inForce publicId hpublic
    obtain rfl : publicId = input.remotePublicId :=
      (h.named publicId hpublic).trans hcompletes.remotePublicId.symm
    have hgreatest : current ≤ input.resultingRemoteRevision → ∀ revision,
        Seen log input.remotePublicId revision → revision ≤ input.resultingRemoteRevision :=
      fun hle revision hseen => Nat.le_trans (hforce.greatest revision hseen) hle
    rcases Nat.lt_trichotomy current input.resultingRemoteRevision with hlt | rfl | hgt
    · have hadvance : share.advance input = { share with
          remotePublicId := some input.remotePublicId
          remoteRevision := some input.resultingRemoteRevision
          activeManifestHash := some input.manifestHash
          state := .synced
          localRevision := share.localRevision + 1 } := by
        rw [ShareRecord.advance, hcurrent]
        simp [hlt]
      rw [hadvance]
      exact harrived _ rfl rfl rfl rfl (hgreatest (Nat.le_of_lt hlt)) (.inl hcompletes.belongs)
    · -- the events have told of the publication before
      have hadvance : share.advance input = { share with
          remotePublicId := some input.remotePublicId
          activeManifestHash := some input.manifestHash
          state := if share.state = .publishing ∨ share.state = .synced ∨ share.state = .failed
            then .synced else share.state
          localRevision := share.localRevision + 1 } := by
        rw [ShareRecord.advance, hcurrent]
        simp [hpublic]
      rw [hadvance]
      refine harrived _ rfl rfl hcurrent rfl (hgreatest (Nat.le_refl _)) ?_
      by_cases hstate : share.state = .publishing ∨ share.state = .synced ∨ share.state = .failed
      · rw [if_pos hstate]
        exact .inl hcompletes.belongs
      · rw [if_neg hstate]
        exact hforce.state.imp_right fun hset => by simpa only [SetAfter, if_neg hstate] using hset
    · -- the share is newer, and so is the publication that it shows
      have hadvance : share.advance input = share := by
        have hne : ¬current = input.resultingRemoteRevision := by omega
        have hnlt : ¬current < input.resultingRemoteRevision := by omega
        simp [ShareRecord.advance, hcurrent, hne, hnlt]
      rw [hadvance]
      obtain ⟨newer, hnewer, hshare, hle⟩ : ∃ other, .completion other ∈ log ∧
          other.shareId = input.shareId ∧
          input.resultingRemoteRevision ≤ other.resultingRemoteRevision := by
        refine hcompletes.newest.resolve_left ?_
        simpa [hcurrent] using hgt
      refine ⟨h.named, fun other hother => ?_, fun _ => ⟨input, by simp, hcompletes.shareId⟩,
        fun hnone => absurd (hnone.symm.trans hpublic) (some_ne_none _).symm, ?_⟩
      · obtain rfl : input.remotePublicId = other := some.inj (hpublic.symm.trans hother)
        refine ⟨current, hcurrent, hforce.append fun news hseen => ?_⟩
        rw [(hnews news).mp hseen]
        exact Nat.le_of_lt hgt
      · rcases h.manifest with ⟨-, hnone⟩ | ⟨shown, hshown, hsame, hactive, hgreater⟩
        · exact absurd (hshare.trans hcompletes.shareId) (hnone newer hnewer)
        · refine .inr ⟨shown, mem_append_left _ hshown, hsame, hactive, fun other hother => ?_⟩
          rcases mem_append.mp hother with hold | hnew
          · exact hgreater other hold
          · obtain rfl : other = input := by simpa using hnew
            exact fun _ => Nat.le_trans hle (hgreater newer hnewer (hshare.trans hcompletes.shareId))

end HomelabInventory.Sharing
