import HomelabInventory.LiveEvents

/-!
# No live update is missed

What a provider stores for a topic is the number of an event of the generation in which it was
stored, and every event of the topic that a subscription still waits for comes after it. A stream
carries all events after the numbers of its first message. So once a stream has been read to its
end, its subscriptions wait for nothing. The argument needs that the first message reports every
topic for which something was missed; it does not where the provider has no number of the topic,
or one from an earlier generation.
-/

namespace HomelabInventory.LiveEvents

open List

/-! ## Publishing -/

section Publishing

variable {bus next : ApplicationLiveEventBus} {eventScope : Option ℕ} {topics : List String}
  {kind payload : String} {event : ApplicationLiveEvent}

/-- An event concerns a scope. -/
def Concerns (eventScope : Option ℕ) (scope : ℕ) : Prop := eventScope = none ∨ eventScope = some scope

/-- What publishing does. -/
theorem publish_eq_some (scope : ℕ) (h : bus.publish eventScope topics kind payload = some (next, event)) :
    next.generationId = bus.generationId ∧ next.sequence = bus.sequence + 1 ∧
      event.generationId = bus.generationId ∧ event.sequence = bus.sequence + 1 ∧
      (∀ topic, bus.topicSequence scope topic ≤ bus.sequence →
        next.topicSequence scope topic ≤ bus.sequence + 1 ∧
          bus.topicSequence scope topic ≤ next.topicSequence scope topic) ∧
      (Concerns eventScope scope → ∀ topic ∈ event.topics,
        bus.sequence + 1 ≤ next.topicSequence scope topic) := by
  rw [ApplicationLiveEventBus.publish] at h
  split at h
  · cases h
  obtain ⟨rfl, rfl⟩ := Prod.mk.inj (Option.some.inj h)
  cases eventScope with
  | none =>
    refine ⟨rfl, rfl, rfl, rfl, ?_, ?_⟩
    · intro topic hle
      simp only [ApplicationLiveEventBus.topicSequence] at hle ⊢
      split <;> omega
    · intro _ topic htopic
      simp only [ApplicationLiveEventBus.topicSequence] at htopic ⊢
      rw [if_pos htopic]
      exact le_max_left ..
  | some other =>
    refine ⟨rfl, rfl, rfl, rfl, ?_, ?_⟩
    · intro topic hle
      by_cases hscope : scope = other
      · subst hscope
        simp only [ApplicationLiveEventBus.topicSequence, Function.update_self] at hle ⊢
        split <;> omega
      · simp only [ApplicationLiveEventBus.topicSequence, Function.update_of_ne hscope] at hle ⊢
        omega
    · intro hconcerns topic htopic
      obtain hnone | hsome := hconcerns
      · cases hnone
      obtain rfl := Option.some.inj hsome
      simp only [ApplicationLiveEventBus.topicSequence, Function.update_self] at htopic ⊢
      rw [if_pos htopic]
      exact le_max_right ..

end Publishing

/-! ## What a system keeps -/

/-- The number below which a stream has nothing more for a topic: the one that its first message
reports, or the one that the provider has stored since. -/
structure Serving (scope : ℕ) (s : System) (source : EventSource) (connection : Connection)
    (floor : String → ℕ) (events : List ApplicationLiveEvent) : Prop where
  generation_le : connection.generationId ≤ s.bus.generationId
  provider_le : ∀ generation, s.provider.generation = some generation →
    generation ≤ connection.generationId
  messages : (connection.messages = events.map .event ∧
      s.provider.generation = some connection.generationId ∧
      ∀ topic ∈ source.topics, s.provider.topicSequences topic = some (floor topic) ∧
        s.storedIn topic = some connection.generationId) ∨
    ∃ ready, connection.messages = .ready ready :: events.map .event ∧
      ready.generationId = connection.generationId ∧
      ∀ topic ∈ source.topics, ready.topicSequences topic = some (floor topic)
  floor_le : ∀ topic ∈ source.topics,
    toLex (connection.generationId, floor topic) ≤ s.bus.stamp
  sorted : events.Pairwise fun first second => first.sequence < second.sequence
  sent : ∀ event ∈ events, event.generationId = connection.generationId ∧
    event.stamp ≤ s.bus.stamp ∧
    ∀ topic ∈ event.topics, topic ∈ source.topics → floor topic < event.sequence
  complete : ∀ eventScope event, (eventScope, event) ∈ s.published → Concerns eventScope scope →
    event.generationId = connection.generationId → ∀ topic ∈ event.topics, topic ∈ source.topics →
      floor topic < event.sequence → event ∈ events
  fresh : ∀ subscription ∈ s.provider.subscriptions, ∀ handed ∈ subscription.events,
    ∀ event ∈ events, handed.stamp < event.stamp

/-- What every run keeps. -/
structure Consistent (scope : ℕ) (s : System) : Prop where
  history : ∀ eventScope event, (eventScope, event) ∈ s.published → event.stamp ≤ s.bus.stamp
  marked : ∀ eventScope event, (eventScope, event) ∈ s.published → Concerns eventScope scope →
    event.generationId = s.bus.generationId → ∀ topic ∈ event.topics,
      event.sequence ≤ s.bus.topicSequence scope topic
  marks_le : ∀ topic, s.bus.topicSequence scope topic ≤ s.bus.sequence
  generation_le : ∀ generation, s.provider.generation = some generation →
    generation ≤ s.bus.generationId
  stored : ∀ topic sequence, s.provider.topicSequences topic = some sequence →
    ∃ storedIn generation, s.storedIn topic = some storedIn ∧
      s.provider.generation = some generation ∧ storedIn ≤ generation ∧
      toLex (storedIn, sequence) ≤ s.bus.stamp
  handed : ∀ subscription ∈ s.provider.subscriptions, ∀ event ∈ subscription.events,
    event.stamp ≤ s.bus.stamp
  once : ∀ subscription ∈ s.provider.subscriptions, subscription.events.Nodup
  serving : ∀ source connection, s.connection? = some (source, connection) →
    ∃ floor events, Serving scope s source connection floor events

/-- The events that a subscription waits for: published after it was made, not handed to it, and
after its last call of `onResync`. -/
def Awaits (scope : ℕ) (s : System) (subscription : ApplicationLiveSubscription)
    (event : ApplicationLiveEvent) : Prop :=
  (∃ eventScope, (eventScope, event) ∈ s.published ∧ Concerns eventScope scope) ∧
    subscription.topic ∈ event.topics ∧ subscription.since < event.stamp ∧
    event ∉ subscription.events ∧ ∀ resync ∈ subscription.resyncs, resync < event.stamp

/-- A number that was stored in the generation of the provider. -/
def Baseline (s : System) (topic : String) (stamp : Stamp) : Prop :=
  ∃ generation sequence, s.provider.generation = some generation ∧
    s.storedIn topic = some generation ∧ s.provider.topicSequences topic = some sequence ∧
    stamp = toLex (generation, sequence)

/-- A subscription waits only for events after the number that is stored for its topic. -/
def Guarded (scope : ℕ) (s : System) : Prop :=
  ∀ subscription ∈ s.provider.subscriptions, ∀ event, Awaits scope s subscription event →
    ∀ stamp, Baseline s subscription.topic stamp → stamp < event.stamp

/-! ## Steps that hand nothing on -/

section Frames

variable {scope : ℕ} {s s' : System} {source : EventSource} {connection : Connection}

theorem connection?_eq_some : s.connection? = some (source, connection) ↔
    s.provider.source = some source ∧ source.connection = some connection := by
  rw [System.connection?, Option.bind_eq_some_iff]
  constructor
  · rintro ⟨other, hother, h⟩
    obtain ⟨c, hc, hpair⟩ := Option.map_eq_some_iff.mp h
    obtain ⟨rfl, rfl⟩ := Prod.mk.inj hpair
    exact ⟨hother, hc⟩
  · rintro ⟨hsource, hconnection⟩
    exact ⟨source, hsource, by rw [hconnection]; rfl⟩

/-- A step that changes nothing of what the provider has stored and published: subscriptions are
left or made now, and no stream is connected. -/
structure Frame (s s' : System) : Prop where
  generation : s'.provider.generation = s.provider.generation
  topicSequences : s'.provider.topicSequences = s.provider.topicSequences
  storedIn : s'.storedIn = s.storedIn
  published : s'.published = s.published
  subscriptions : ∀ subscription ∈ s'.provider.subscriptions,
    subscription ∈ s.provider.subscriptions ∨
      subscription.events = [] ∧ s.bus.stamp ≤ subscription.since
  connection : ∀ source connection, s'.connection? = some (source, connection) →
    s.connection? = some (source, connection)

/-- A later moment of the same or a later server. -/
structure Later (bus bus' : ApplicationLiveEventBus) : Prop where
  generation : bus.generationId ≤ bus'.generationId
  stamp : bus.stamp ≤ bus'.stamp

theorem Later.refl (bus : ApplicationLiveEventBus) : Later bus bus := ⟨le_rfl, le_rfl⟩

theorem Frame.handed (hframe : Frame s s') {subscription : ApplicationLiveSubscription}
    {event : ApplicationLiveEvent} (hsubscription : subscription ∈ s'.provider.subscriptions)
    (hevent : event ∈ subscription.events) : subscription ∈ s.provider.subscriptions := by
  obtain h | ⟨hempty, -⟩ := hframe.subscriptions subscription hsubscription
  · exact h
  · rw [hempty] at hevent
    cases hevent

theorem Serving.frame {floor : String → ℕ} {events : List ApplicationLiveEvent}
    (h : Serving scope s source connection floor events) (hframe : Frame s s')
    (hlater : Later s.bus s'.bus) : Serving scope s' source connection floor events where
  generation_le := h.generation_le.trans hlater.generation
  provider_le := by
    rw [hframe.generation]
    exact h.provider_le
  messages := by
    rw [hframe.generation, hframe.topicSequences, hframe.storedIn]
    exact h.messages
  floor_le topic htopic := (h.floor_le topic htopic).trans hlater.stamp
  sorted := h.sorted
  sent event hevent := by
    obtain ⟨hgeneration, hstamp, hfloor⟩ := h.sent event hevent
    exact ⟨hgeneration, hstamp.trans hlater.stamp, hfloor⟩
  complete := by
    rw [hframe.published]
    exact h.complete
  fresh subscription hsubscription handed hhanded :=
    h.fresh subscription (hframe.handed hsubscription hhanded) handed hhanded

/-- What a frame leaves of a consistent system. -/
theorem Consistent.frame (h : Consistent scope s) (hframe : Frame s s') (hlater : Later s.bus s'.bus)
    (hmarked : ∀ eventScope event, (eventScope, event) ∈ s'.published → Concerns eventScope scope →
      event.generationId = s'.bus.generationId → ∀ topic ∈ event.topics,
        event.sequence ≤ s'.bus.topicSequence scope topic)
    (hmarks : ∀ topic, s'.bus.topicSequence scope topic ≤ s'.bus.sequence) : Consistent scope s' where
  history := by
    rw [hframe.published]
    exact fun eventScope event hevent => (h.history eventScope event hevent).trans hlater.stamp
  marked := hmarked
  marks_le := hmarks
  generation_le := by
    rw [hframe.generation]
    exact fun generation hgeneration => (h.generation_le generation hgeneration).trans hlater.generation
  stored := by
    rw [hframe.topicSequences, hframe.storedIn, hframe.generation]
    intro topic sequence hsequence
    obtain ⟨storedIn, generation, hstoredIn, hgeneration, hle, hstamp⟩ := h.stored topic sequence hsequence
    exact ⟨storedIn, generation, hstoredIn, hgeneration, hle, hstamp.trans hlater.stamp⟩
  handed subscription hsubscription event hevent :=
    (h.handed subscription (hframe.handed hsubscription hevent) event hevent).trans hlater.stamp
  once subscription hsubscription := by
    obtain hold | ⟨hempty, -⟩ := hframe.subscriptions subscription hsubscription
    · exact h.once subscription hold
    · rw [hempty]
      exact nodup_nil
  serving source connection hconnection := by
    obtain ⟨floor, events, hserving⟩ := h.serving source connection (hframe.connection _ _ hconnection)
    exact ⟨floor, events, hserving.frame hframe hlater⟩

theorem Consistent.frame_of_bus (h : Consistent scope s) (hframe : Frame s s') (hbus : s'.bus = s.bus) :
    Consistent scope s' := by
  refine h.frame hframe (hbus ▸ .refl _) ?_ ?_
  · rw [hframe.published, hbus]
    exact h.marked
  · rw [hbus]
    exact h.marks_le

/-- A new server numbers its events from the start. -/
theorem Consistent.restart (h : Consistent scope s) :
    Consistent scope { s with bus := { generationId := s.bus.generationId + 1 } } := by
  have hframe : Frame s { s with bus := { generationId := s.bus.generationId + 1 } } :=
    ⟨rfl, rfl, rfl, rfl, fun _ h => .inl h, fun _ _ h => h⟩
  refine h.frame hframe ⟨Nat.le_succ _, ?_⟩ ?_ ?_
  · exact Prod.Lex.toLex_le_toLex.mpr (.inl (Nat.lt_succ_self _))
  · intro eventScope event hevent _ hgeneration
    -- no event of the new server has been published
    have hstamp := h.history eventScope event hevent
    rw [ApplicationLiveEvent.stamp, ApplicationLiveEventBus.stamp, Prod.Lex.toLex_le_toLex] at hstamp
    dsimp only at hgeneration hstamp
    omega
  · exact fun topic => (max_self 0).le

/-- A frame hands nothing on, so nobody waits for more. -/
theorem Guarded.frame (h : Guarded scope s) (hconsistent : Consistent scope s) (hframe : Frame s s') :
    Guarded scope s' := by
  intro subscription hsubscription event hawaits stamp hbaseline
  obtain ⟨⟨eventScope, hpublished, hconcerns⟩, htopic, hsince, hhanded, hresyncs⟩ := hawaits
  rw [hframe.published] at hpublished
  rw [Baseline, hframe.generation, hframe.storedIn, hframe.topicSequences] at hbaseline
  obtain hold | ⟨-, hnew⟩ := hframe.subscriptions subscription hsubscription
  · exact h subscription hold event
      ⟨⟨eventScope, hpublished, hconcerns⟩, htopic, hsince, hhanded, hresyncs⟩ stamp hbaseline
  · -- a subscription that is made now does not wait for earlier events
    exact absurd (hsince.trans_le (hconsistent.history eventScope event hpublished)) (not_lt.mpr hnew)

theorem frame_setVisible (s : System) (visible : Bool) :
    Frame s { s with provider := { s.provider with visible } } :=
  ⟨rfl, rfl, rfl, rfl, fun _ h => .inl h, fun _ _ h => h⟩

theorem frame_subscribe (s : System) (topic : String) :
    Frame s { s with provider := s.provider.subscribe topic s.bus.stamp } := by
  refine ⟨rfl, rfl, rfl, rfl, ?_, fun _ _ h => h⟩
  intro subscription hsubscription
  obtain hold | hnew := mem_append.mp hsubscription
  · exact .inl hold
  · obtain rfl := mem_singleton.mp hnew
    exact .inr ⟨rfl, le_rfl⟩

theorem frame_unsubscribe (s : System) (id : ℕ) :
    Frame s { s with provider := s.provider.unsubscribe id } := by
  rw [ApplicationLiveEventsProvider.unsubscribe]
  split
  · exact ⟨rfl, rfl, rfl, rfl, fun _ h => .inl (mem_of_mem_filter h), fun _ _ h => h⟩
  · exact ⟨rfl, rfl, rfl, rfl, fun _ h => .inl h, fun _ _ h => h⟩

theorem frame_render (s : System) : Frame s { s with provider := s.provider.render } :=
  ⟨rfl, rfl, rfl, rfl, fun _ h => .inl h, fun _ _ h => h⟩

/-- The effect of a rendering closes the stream, or leaves it. -/
theorem frame_commit (s : System) : Frame s { s with provider := s.provider.commit } := by
  rw [ApplicationLiveEventsProvider.commit]
  split
  · exact ⟨rfl, rfl, rfl, rfl, fun _ h => .inl h, fun _ _ h => h⟩
  split
  · exact ⟨rfl, rfl, rfl, rfl, fun _ h => .inl h, fun _ _ h => h⟩
  · refine ⟨rfl, rfl, rfl, rfl, fun _ h => .inl h, ?_⟩
    intro source connection hconnection
    obtain ⟨hsource, hopen⟩ := connection?_eq_some.mp hconnection
    dsimp only at hsource
    split at hsource
    · obtain rfl := Option.some.inj hsource
      cases hopen
    · cases hsource

theorem frame_lose (s : System) (source : EventSource) : Frame s (s.setConnection source none) := by
  refine ⟨rfl, rfl, rfl, rfl, fun _ h => .inl h, ?_⟩
  intro other connection hconnection
  obtain ⟨hsource, hopen⟩ := connection?_eq_some.mp hconnection
  obtain rfl := Option.some.inj hsource
  cases hopen

end Frames

/-! ## Publishing and connecting -/

section Publish

variable {scope : ℕ} {s s' : System} {eventScope : Option ℕ} {topics : List String}
  {kind payload : String}

theorem step_publish (h : s.step scope (.publish eventScope topics kind payload) = some s') :
    ∃ bus event, s.bus.publish eventScope topics kind payload = some (bus, event) ∧
      s' = { s with
        bus
        published := s.published ++ [(eventScope, event)]
        provider := { s.provider with
          source := s.provider.source.map fun source => source.receive scope eventScope event } } := by
  obtain ⟨⟨bus, event⟩, hpublish, rfl⟩ := Option.map_eq_some_iff.mp h
  exact ⟨bus, event, hpublish, rfl⟩

/-- An event is published after everything else, and now. -/
theorem publish_stamp {bus next : ApplicationLiveEventBus} {event : ApplicationLiveEvent}
    (h : bus.publish eventScope topics kind payload = some (next, event)) :
    bus.stamp < event.stamp ∧ next.stamp = event.stamp ∧ next.generationId = bus.generationId ∧
      event.generationId = bus.generationId := by
  obtain ⟨hgeneration, hsequence, heventGeneration, heventSequence, -, -⟩ := publish_eq_some 0 h
  refine ⟨?_, ?_, hgeneration, heventGeneration⟩
  · refine Prod.Lex.toLex_lt_toLex.mpr (.inr ⟨heventGeneration.symm, ?_⟩)
    rw [heventSequence]
    exact Nat.lt_succ_self _
  · rw [ApplicationLiveEventBus.stamp, ApplicationLiveEvent.stamp, hgeneration, hsequence,
      heventGeneration, heventSequence]

/-- The numbers of one generation are in the order of their moments. -/
theorem sequence_lt {generation first second : ℕ}
    (h : (toLex (generation, first) : Stamp) < toLex (generation, second)) : first < second := by
  rw [Prod.Lex.toLex_lt_toLex] at h
  dsimp only at h
  omega

/-- A stream that is served goes on to be served when an event is published. -/
theorem Serving.publish {bus : ApplicationLiveEventBus} {event : ApplicationLiveEvent}
    {source : EventSource} {connection : Connection} {floor : String → ℕ}
    {events : List ApplicationLiveEvent} (hconsistent : Consistent scope s)
    (h : Serving scope s source connection floor events) (hopen : source.connection = some connection)
    (hpublish : s.bus.publish eventScope topics kind payload = some (bus, event))
    (hs' : s' = { s with
      bus
      published := s.published ++ [(eventScope, event)]
      provider := { s.provider with
        source := s.provider.source.map fun source => source.receive scope eventScope event } }) :
    ∃ connection' events', (source.receive scope eventScope event).connection = some connection' ∧
      Serving scope s' (source.receive scope eventScope event) connection' floor events' := by
  obtain ⟨hafter, hnow, hgeneration, heventGeneration⟩ := publish_stamp hpublish
  subst hs'
  have hlater : s.bus.stamp ≤ bus.stamp := hnow ▸ hafter.le
  have hsent : ∀ sent ∈ events, sent.generationId = connection.generationId ∧
      sent.stamp ≤ bus.stamp ∧
      ∀ topic ∈ sent.topics, topic ∈ source.topics → floor topic < sent.sequence := by
    intro sent hsent
    obtain ⟨hgeneration, hstamp, hfloor⟩ := h.sent sent hsent
    exact ⟨hgeneration, hstamp.trans hlater, hfloor⟩
  have hcomplete : ∀ other sent, (other, sent) ∈ s.published ++ [(eventScope, event)] →
      Concerns other scope → sent.generationId = connection.generationId →
      ∀ topic ∈ sent.topics, topic ∈ source.topics → floor topic < sent.sequence →
      sent ∈ events ∨ connection.generationId = event.generationId ∧
        (eventScope = none ∨ eventScope = some scope) ∧
        event.topics.any (· ∈ source.topics) = true ∧ sent = event := by
    intro other sent hpublished hconcerns hsentGeneration topic htopic hsource hfloor
    obtain hold | hnew := mem_append.mp hpublished
    · exact .inl (h.complete other sent hold hconcerns hsentGeneration topic htopic hsource hfloor)
    · obtain ⟨rfl, rfl⟩ := Prod.mk.inj (mem_singleton.mp hnew)
      refine .inr ⟨hsentGeneration.symm, hconcerns, ?_, rfl⟩
      exact any_eq_true.mpr ⟨topic, htopic, decide_eq_true hsource⟩
  rw [EventSource.receive, hopen, Option.map_some]
  by_cases hreceives : connection.generationId = event.generationId ∧
      (eventScope = none ∨ eventScope = some scope) ∧ event.topics.any (· ∈ source.topics) = true
  · -- the event comes after all others of the stream
    have hlast : ∀ number, (toLex (connection.generationId, number) : Stamp) ≤ s.bus.stamp →
        number < event.sequence := by
      intro number hnumber
      have hlt := hnumber.trans_lt hafter
      rw [ApplicationLiveEvent.stamp, hreceives.1] at hlt
      exact sequence_lt hlt
    rw [if_pos hreceives]
    refine ⟨_, events ++ [event], rfl, ?_⟩
    refine ⟨?_, h.provider_le, ?_, fun topic htopic => (h.floor_le topic htopic).trans hlater, ?_, ?_,
      ?_, ?_⟩
    · exact h.generation_le.trans hgeneration.ge
    · rw [map_append]
      obtain ⟨hmessages, hstored⟩ | ⟨ready, hmessages, hready⟩ := h.messages
      · exact .inl ⟨by rw [hmessages]; rfl, hstored⟩
      · exact .inr ⟨ready, by rw [hmessages]; rfl, hready⟩
    · rw [pairwise_append]
      refine ⟨h.sorted, pairwise_singleton _ _, ?_⟩
      intro first hfirst second hsecond
      obtain rfl := mem_singleton.mp hsecond
      obtain ⟨hfirstGeneration, hstamp, -⟩ := h.sent first hfirst
      refine hlast _ ?_
      rw [← hfirstGeneration]
      exact hstamp
    · intro sent hmem
      obtain hold | hnew := mem_append.mp hmem
      · exact hsent sent hold
      · obtain rfl := mem_singleton.mp hnew
        exact ⟨hreceives.1.symm, hnow.ge, fun topic _ hsource => hlast _ (h.floor_le topic hsource)⟩
    · intro other sent hpublished hconcerns hsentGeneration topic htopic hsource hfloor
      obtain hold | ⟨-, -, -, rfl⟩ :=
        hcomplete other sent hpublished hconcerns hsentGeneration topic htopic hsource hfloor
      · exact mem_append_left _ hold
      · exact mem_append_right _ (mem_singleton_self _)
    · intro subscription hsubscription handed hhanded sent hmem
      obtain hold | hnew := mem_append.mp hmem
      · exact h.fresh subscription hsubscription handed hhanded sent hold
      · obtain rfl := mem_singleton.mp hnew
        exact (hconsistent.handed subscription hsubscription handed hhanded).trans_lt hafter
  · rw [if_neg hreceives]
    refine ⟨_, events, rfl, ?_⟩
    refine ⟨h.generation_le.trans hgeneration.ge, h.provider_le, h.messages,
      fun topic htopic => (h.floor_le topic htopic).trans hlater, h.sorted, hsent, ?_, h.fresh⟩
    intro other sent hpublished hconcerns hsentGeneration topic htopic hsource hfloor
    obtain hold | ⟨hsame, hconcerned, hany, -⟩ :=
      hcomplete other sent hpublished hconcerns hsentGeneration topic htopic hsource hfloor
    · exact hold
    · exact absurd ⟨hsame, hconcerned, hany⟩ hreceives

theorem Consistent.publish (h : Consistent scope s)
    (hstep : s.step scope (.publish eventScope topics kind payload) = some s') :
    Consistent scope s' := by
  obtain ⟨bus, event, hpublish, rfl⟩ := step_publish hstep
  obtain ⟨hafter, hnow, hgeneration, heventGeneration⟩ := publish_stamp hpublish
  obtain ⟨-, hsequence, -, heventSequence, hmarks, hmarked⟩ := publish_eq_some scope hpublish
  have hlater : s.bus.stamp ≤ bus.stamp := hnow ▸ hafter.le
  refine ⟨?_, ?_, ?_, ?_, ?_, ?_, h.once, ?_⟩
  · intro other sent hpublished
    obtain hold | hnew := mem_append.mp hpublished
    · exact (h.history other sent hold).trans hlater
    · obtain ⟨-, rfl⟩ := Prod.mk.inj (mem_singleton.mp hnew)
      exact hnow.ge
  · intro other sent hpublished hconcerns hsent topic htopic
    obtain hold | hnew := mem_append.mp hpublished
    · exact (h.marked other sent hold hconcerns (hsent.trans hgeneration) topic htopic).trans
        (hmarks topic (h.marks_le topic)).2
    · obtain ⟨rfl, rfl⟩ := Prod.mk.inj (mem_singleton.mp hnew)
      rw [heventSequence]
      exact hmarked hconcerns topic htopic
  · intro topic
    dsimp only
    rw [hsequence]
    exact (hmarks topic (h.marks_le topic)).1
  · intro generation hprovider
    exact (h.generation_le generation hprovider).trans hgeneration.ge
  · intro topic sequence hstored
    obtain ⟨storedIn, generation, hstoredIn, hprovider, hle, hstamp⟩ := h.stored topic sequence hstored
    exact ⟨storedIn, generation, hstoredIn, hprovider, hle, hstamp.trans hlater⟩
  · exact fun subscription hsubscription handed hhanded =>
      (h.handed subscription hsubscription handed hhanded).trans hlater
  · intro source' connection' hconnection
    obtain ⟨hsource', hopen'⟩ := connection?_eq_some.mp hconnection
    obtain ⟨source, hsource, rfl⟩ := Option.map_eq_some_iff.mp hsource'
    cases hopen : source.connection with
    | none =>
      rw [EventSource.receive, hopen] at hopen'
      cases hopen'
    | some connection =>
      obtain ⟨floor, events, hserving⟩ := h.serving source connection
        (connection?_eq_some.mpr ⟨hsource, hopen⟩)
      obtain ⟨received, events', hreceived, hserving'⟩ := hserving.publish h hopen hpublish rfl
      obtain rfl := Option.some.inj (hreceived.symm.trans hopen')
      exact ⟨floor, events', hserving'⟩

/-- An event that is published comes after every number that is stored. -/
theorem Guarded.publish (h : Guarded scope s) (hconsistent : Consistent scope s)
    (hstep : s.step scope (.publish eventScope topics kind payload) = some s') : Guarded scope s' := by
  obtain ⟨bus, event, hpublish, rfl⟩ := step_publish hstep
  obtain ⟨hafter, -⟩ := publish_stamp hpublish
  rintro subscription hsubscription awaited
    ⟨⟨other, hpublished, hconcerns⟩, htopic, hsince, hhanded, hresyncs⟩ stamp hbaseline
  obtain hold | hnew := mem_append.mp hpublished
  · exact h subscription hsubscription awaited
      ⟨⟨other, hold, hconcerns⟩, htopic, hsince, hhanded, hresyncs⟩ stamp hbaseline
  · obtain ⟨-, rfl⟩ := Prod.mk.inj (mem_singleton.mp hnew)
    obtain ⟨generation, sequence, hprovider, hstoredIn, hstored, rfl⟩ := hbaseline
    obtain ⟨storedIn, -, hstoredIn', -, -, hstamp⟩ := hconsistent.stored _ _ hstored
    obtain rfl := Option.some.inj (hstoredIn'.symm.trans hstoredIn)
    exact hstamp.trans_lt hafter

end Publish

section Connect

variable {scope : ℕ} {s : System} {source : EventSource}

/-- A new stream has all events after the numbers that its first message reports, because there
are none yet. -/
theorem Consistent.connect (h : Consistent scope s) (source : EventSource) :
    Consistent scope (s.setConnection source (some
      { generationId := s.bus.generationId
        messages := [.ready (s.bus.snapshot scope source.topics)] })) := by
  refine ⟨h.history, h.marked, h.marks_le, h.generation_le, h.stored, h.handed, h.once, ?_⟩
  intro source' connection hconnection
  obtain ⟨hsource', hopen⟩ := connection?_eq_some.mp hconnection
  obtain rfl := Option.some.inj hsource'
  obtain rfl := Option.some.inj hopen
  refine ⟨s.bus.topicSequence scope, [], le_rfl, h.generation_le, ?_, ?_, List.Pairwise.nil, ?_, ?_, ?_⟩
  · refine .inr ⟨_, rfl, rfl, ?_⟩
    intro topic htopic
    exact if_pos htopic
  · intro topic _
    exact Prod.Lex.toLex_le_toLex.mpr (.inr ⟨rfl, h.marks_le topic⟩)
  · intro event hevent
    cases hevent
  · intro eventScope event hpublished hconcerns hgeneration topic htopic _ hfloor
    exact absurd hfloor
      (not_lt.mpr (h.marked eventScope event hpublished hconcerns hgeneration topic htopic))
  · intro subscription _ handed _ event hevent
    cases hevent

theorem Guarded.connect (h : Guarded scope s) (connection : Option Connection) :
    Guarded scope (s.setConnection source connection) := h

end Connect

/-! ## Handing messages on -/

section Ready

variable {scope : ℕ} {s : System} {source : EventSource} {connection : Connection}
  {ready : ApplicationStreamReady} {messages : List Message}

/-- A topic that the first message of a stream does not report although something may have been
missed: it has no stored number, or one of an earlier generation that is not smaller. -/
def Unreported (s : System) (source : EventSource) (ready : ApplicationStreamReady)
    (topic : String) : Prop :=
  topic ∈ source.topics ∧ topic ∉ s.provider.staleTopics source.topics ready ∧
    ∀ stamp, ¬Baseline s topic stamp

/-- No event has been published between the subscriptions to a topic and the first message. -/
def Quiet (scope : ℕ) (s : System) (ready : ApplicationStreamReady) (topic : String) : Prop :=
  ∀ subscription ∈ s.provider.subscriptions, subscription.topic = topic →
    ∀ eventScope event, (eventScope, event) ∈ s.published → Concerns eventScope scope →
      topic ∈ event.topics → subscription.since < event.stamp →
      toLex (ready.generationId, (ready.topicSequences topic).getD 0) < event.stamp

/-- The subscriptions after a call of `onResync`. -/
theorem mem_resync {subscriptions : List ApplicationLiveSubscription} {topics : List String}
    {now : Stamp} {subscription : ApplicationLiveSubscription}
    (h : subscription ∈ ApplicationLiveEventsProvider.resync subscriptions topics now) :
    ∃ before ∈ subscriptions, subscription.topic = before.topic ∧
      subscription.since = before.since ∧ subscription.events = before.events ∧
      (subscription = before ∧ before.topic ∉ topics ∨
        before.topic ∈ topics ∧ subscription.resyncs = before.resyncs ++ [now]) := by
  obtain ⟨before, hbefore, rfl⟩ := mem_map.mp h
  refine ⟨before, hbefore, ?_⟩
  split
  · rename_i htopic
    exact ⟨rfl, rfl, rfl, .inr ⟨htopic, rfl⟩⟩
  · rename_i htopic
    exact ⟨rfl, rfl, rfl, .inl ⟨rfl, htopic⟩⟩

/-- The first message of a stream keeps a system consistent. -/
theorem Consistent.deliverReady (h : Consistent scope s)
    (hconnection : s.connection? = some (source, connection))
    (hmessages : connection.messages = .ready ready :: messages) :
    Consistent scope (s.deliver source connection (.ready ready) messages) := by
  obtain ⟨floor, events, hserving⟩ := h.serving source connection hconnection
  obtain ⟨hsame, -⟩ | ⟨ready', hsame, hgeneration, hreported⟩ := hserving.messages
  · rw [hmessages] at hsame
    cases events <;> cases hsame
  rw [hmessages] at hsame
  obtain ⟨hready, rfl⟩ := List.cons.inj hsame
  obtain rfl := Message.ready.inj hready
  have hstored : ∀ topic ∈ source.topics, (ready.topicSequences topic).getD 0 = floor topic := by
    intro topic htopic
    rw [hreported topic htopic]
    rfl
  refine ⟨h.history, h.marked, h.marks_le, ?_, ?_, ?_, ?_, ?_⟩
  · intro generation hprovider
    obtain rfl := Option.some.inj hprovider
    exact hgeneration ▸ hserving.generation_le
  · intro topic sequence hsequence
    by_cases htopic : topic ∈ source.topics
    · obtain rfl := Option.some.inj ((if_pos htopic).symm.trans hsequence)
      refine ⟨ready.generationId, ready.generationId, if_pos htopic, rfl, le_rfl, ?_⟩
      rw [hstored topic htopic, hgeneration]
      exact hserving.floor_le topic htopic
    · obtain ⟨storedIn, generation, hstoredIn, hprovider, hle, hstamp⟩ :=
        h.stored topic sequence ((if_neg htopic).symm.trans hsequence)
      refine ⟨storedIn, ready.generationId, (if_neg htopic).trans hstoredIn, rfl, ?_, hstamp⟩
      rw [hgeneration]
      exact hle.trans (hserving.provider_le generation hprovider)
  · intro subscription hsubscription event hevent
    obtain ⟨before, hbefore, -, -, hevents, -⟩ := mem_resync hsubscription
    rw [hevents] at hevent
    exact h.handed before hbefore event hevent
  · intro subscription hsubscription
    obtain ⟨before, hbefore, -, -, hevents, -⟩ := mem_resync hsubscription
    rw [hevents]
    exact h.once before hbefore
  · intro source' connection' hconnection'
    obtain ⟨hsource', hopen⟩ := connection?_eq_some.mp hconnection'
    obtain rfl := Option.some.inj hsource'
    obtain rfl := Option.some.inj hopen
    refine ⟨floor, events, hserving.generation_le, ?_, ?_, hserving.floor_le, hserving.sorted,
      hserving.sent, hserving.complete, ?_⟩
    · intro generation hprovider
      obtain rfl := Option.some.inj hprovider
      exact hgeneration.le
    · refine .inl ⟨rfl, congrArg some hgeneration, ?_⟩
      intro topic htopic
      refine ⟨(if_pos htopic).trans (congrArg some (hstored topic htopic)), ?_⟩
      exact (if_pos htopic).trans (congrArg some hgeneration)
    · intro subscription hsubscription handed hhanded event hevent
      obtain ⟨before, hbefore, -, -, hevents, -⟩ := mem_resync hsubscription
      rw [hevents] at hhanded
      exact hserving.fresh before hbefore handed hhanded event hevent

/-- A topic that the first message does not report although its number is of the generation of
the provider has no later number. -/
theorem baseline_of_not_stale {topic : String} {stamp : Stamp}
    (hstale : topic ∉ s.provider.staleTopics source.topics ready) (htopic : topic ∈ source.topics)
    (hbaseline : Baseline s topic stamp) :
    toLex (ready.generationId, (ready.topicSequences topic).getD 0) ≤ stamp := by
  obtain ⟨generation, sequence, hprovider, -, hsequence, rfl⟩ := hbaseline
  simp only [ApplicationLiveEventsProvider.staleTopics, mem_filter, htopic, true_and, hsequence,
    hprovider, Option.any_some, Bool.or_eq_true, decide_eq_true_eq, not_or, not_lt, not_not] at hstale
  exact Prod.Lex.toLex_le_toLex.mpr (.inr ⟨hstale.1.symm, hstale.2⟩)

/-- After the first message of a stream, subscriptions wait only for events that come after it. -/
theorem Guarded.deliverReady (h : Guarded scope s) (hconsistent : Consistent scope s)
    (hconnection : s.connection? = some (source, connection))
    (hmessages : connection.messages = .ready ready :: messages)
    (hquiet : ∀ topic, Unreported s source ready topic → Quiet scope s ready topic) :
    Guarded scope (s.deliver source connection (.ready ready) messages) := by
  obtain ⟨floor, events, hserving⟩ := hconsistent.serving source connection hconnection
  obtain ⟨hsame, -⟩ | ⟨ready', hsame, hgeneration, -⟩ := hserving.messages
  · rw [hmessages] at hsame
    cases events <;> cases hsame
  rw [hmessages] at hsame
  obtain rfl := Message.ready.inj (List.cons.inj hsame).1
  rintro subscription hsubscription event
    ⟨⟨eventScope, hpublished, hconcerns⟩, htopic, hsince, hhanded, hresyncs⟩ stamp hbaseline
  obtain ⟨before, hbefore, hsameTopic, hsameSince, hsameEvents, ⟨rfl, hstale⟩ | ⟨-, hcalled⟩⟩ :=
    mem_resync hsubscription
  · have hawaits : Awaits scope s subscription event :=
      ⟨⟨eventScope, hpublished, hconcerns⟩, htopic, hsince, hhanded, hresyncs⟩
    obtain ⟨generation, sequence, hprovider, hstoredIn, hsequence, rfl⟩ := hbaseline
    obtain rfl := Option.some.inj hprovider
    by_cases hcovered : subscription.topic ∈ source.topics
    · obtain rfl := Option.some.inj ((if_pos hcovered).symm.trans hsequence)
      by_cases hunreported : Unreported s source ready subscription.topic
      · exact hquiet _ hunreported subscription hbefore rfl eventScope event hpublished hconcerns
          htopic hsince
      · obtain ⟨old, hold⟩ : ∃ old, Baseline s subscription.topic old := by
          by_contra hnone
          exact hunreported ⟨hcovered, hstale, not_exists.mp hnone⟩
        exact (baseline_of_not_stale hstale hcovered hold).trans_lt (h _ hbefore event hawaits old hold)
    · -- the number of another topic has been stored in this generation before
      have hstoredIn' := (if_neg hcovered).symm.trans hstoredIn
      have hsequence' := (if_neg hcovered).symm.trans hsequence
      obtain ⟨storedIn, generation, hold, hprovider, hle, -⟩ := hconsistent.stored _ _ hsequence'
      obtain rfl := Option.some.inj (hold.symm.trans hstoredIn')
      have hgenerations := hserving.provider_le generation hprovider
      rw [← hgeneration] at hgenerations
      obtain rfl := Nat.le_antisymm hle hgenerations
      exact h _ hbefore event hawaits _ ⟨_, sequence, hprovider, hstoredIn', hsequence', rfl⟩
  · -- a subscription whose `onResync` has just been called waits for nothing
    have hnow := hresyncs s.bus.stamp (by rw [hcalled]; exact mem_append_right _ (mem_singleton_self _))
    exact absurd (hconsistent.history eventScope event hpublished) (not_le.mpr hnow)

end Ready

section Event

variable {scope : ℕ} {s : System} {source : EventSource} {connection : Connection}
  {event : ApplicationLiveEvent} {messages : List Message}

/-- A topic of an event that is on a stream. -/
def Matches (source : EventSource) (event : ApplicationLiveEvent) (topic : String) : Prop :=
  topic ∈ event.topics ∧ topic ∈ source.topics

instance (source : EventSource) (event : ApplicationLiveEvent) (topic : String) :
    Decidable (Matches source event topic) := inferInstanceAs (Decidable (_ ∧ _))

/-- An event of the generation of the provider, after the numbers of its topics, is handed to all
subscriptions to them. -/
theorem onEvent_fresh {provider : ApplicationLiveEventsProvider} {now : Stamp}
    (hgeneration : provider.generation = some event.generationId)
    (hfresh : ∀ topic, Matches source event topic →
      (provider.topicSequences topic).getD 0 < event.sequence) :
    provider.onEvent source.topics event now = { provider with
      topicSequences := fun topic =>
        if Matches source event topic then some event.sequence else provider.topicSequences topic
      subscriptions := provider.subscriptions.map fun subscription =>
        if Matches source event subscription.topic then
          { subscription with events := subscription.events ++ [event] }
        else subscription } := by
  have hmatching : ∀ topic, topic ∈ event.topics.filter (· ∈ source.topics) ↔
      Matches source event topic := by
    intro topic
    rw [mem_filter, decide_eq_true_eq]
    rfl
  rw [ApplicationLiveEventsProvider.onEvent]
  split
  · -- no topic of the event is on the stream
    rename_i hempty
    have hnone : ∀ topic, ¬Matches source event topic := by
      intro topic hmatches
      rw [← hmatching, hempty] at hmatches
      cases hmatches
    simp only [hnone, if_false, map_id']
  · have hsame : ¬(provider.generation.any fun generation => generation ≠ event.generationId) := by
      simp [hgeneration]
    have hfilter : ∀ topic, topic ∈ (event.topics.filter (· ∈ source.topics)).filter
        (fun topic => (provider.topicSequences topic).getD 0 < event.sequence) ↔
          Matches source event topic := by
      intro topic
      rw [mem_filter, hmatching, decide_eq_true_eq]
      exact and_iff_left_of_imp (hfresh topic)
    rw [if_neg hsame]
    simp only [hfilter, ← hgeneration]

/-- What a stream that has been started says about its next event. -/
theorem Serving.next {floor : String → ℕ} {events : List ApplicationLiveEvent}
    (h : Serving scope s source connection floor events)
    (hmessages : connection.messages = .event event :: messages) :
    ∃ rest, events = event :: rest ∧ messages = rest.map .event ∧
      s.provider.generation = some connection.generationId ∧
      event.generationId = connection.generationId ∧
      (∀ topic ∈ source.topics, s.provider.topicSequences topic = some (floor topic) ∧
        s.storedIn topic = some connection.generationId) ∧
      ∀ topic, Matches source event topic → floor topic < event.sequence := by
  obtain ⟨hsame, hprovider, hstored⟩ | ⟨ready, hsame, -⟩ := h.messages
  · rw [hmessages] at hsame
    cases events with
    | nil => cases hsame
    | cons first rest =>
      obtain ⟨hfirst, hrest⟩ := List.cons.inj hsame
      obtain rfl := Message.event.inj hfirst
      obtain ⟨hgeneration, -, hfloor⟩ := h.sent event mem_cons_self
      exact ⟨rest, rfl, hrest, hprovider, hgeneration, hstored, fun topic h => hfloor topic h.1 h.2⟩
  · rw [hmessages] at hsame
    cases (List.cons.inj hsame).1

/-- The system after an event of a stream has been handed on. -/
theorem deliver_event {floor : String → ℕ} {events : List ApplicationLiveEvent}
    (h : Serving scope s source connection floor events)
    (hmessages : connection.messages = .event event :: messages) :
    s.deliver source connection (.event event) messages = { s with
      provider := { s.provider with
        source := some { source with connection := some { connection with messages } }
        topicSequences := fun topic =>
          if Matches source event topic then some event.sequence else s.provider.topicSequences topic
        subscriptions := s.provider.subscriptions.map fun subscription =>
          if Matches source event subscription.topic then
            { subscription with events := subscription.events ++ [event] }
          else subscription }
      storedIn := fun topic =>
        if Matches source event topic then some event.generationId else s.storedIn topic } := by
  obtain ⟨rest, -, -, hprovider, hgeneration, hstored, hfloor⟩ := h.next hmessages
  simp only [System.deliver, System.setConnection]
  rw [onEvent_fresh]
  · rfl
  · rw [hprovider, hgeneration]
  · intro topic hmatches
    rw [(hstored topic hmatches.2).1]
    exact hfloor topic hmatches

/-- The subscriptions after an event has been handed on. -/
theorem mem_handed {subscriptions : List ApplicationLiveSubscription}
    {subscription : ApplicationLiveSubscription}
    (h : subscription ∈ subscriptions.map fun subscription =>
      if Matches source event subscription.topic then
        { subscription with events := subscription.events ++ [event] }
      else subscription) :
    ∃ before ∈ subscriptions, subscription.topic = before.topic ∧
      subscription.since = before.since ∧ subscription.resyncs = before.resyncs ∧
      (Matches source event before.topic ∧ subscription.events = before.events ++ [event] ∨
        ¬Matches source event before.topic ∧ subscription.events = before.events) := by
  obtain ⟨before, hbefore, rfl⟩ := mem_map.mp h
  refine ⟨before, hbefore, ?_⟩
  split
  · rename_i hmatches
    exact ⟨rfl, rfl, rfl, .inl ⟨hmatches, rfl⟩⟩
  · rename_i hmatches
    exact ⟨rfl, rfl, rfl, .inr ⟨hmatches, rfl⟩⟩

theorem Consistent.deliverEvent (h : Consistent scope s)
    (hconnection : s.connection? = some (source, connection))
    (hmessages : connection.messages = .event event :: messages) :
    Consistent scope (s.deliver source connection (.event event) messages) := by
  obtain ⟨floor, events, hserving⟩ := h.serving source connection hconnection
  obtain ⟨rest, rfl, rfl, hprovider, hgeneration, hstored, hfloor⟩ := hserving.next hmessages
  rw [deliver_event hserving hmessages]
  obtain ⟨hlater, hsorted⟩ := pairwise_cons.mp hserving.sorted
  obtain ⟨-, hstamp, -⟩ := hserving.sent event mem_cons_self
  refine ⟨h.history, h.marked, h.marks_le, h.generation_le, ?_, ?_, ?_, ?_⟩
  · intro topic sequence hsequence
    by_cases hmatches : Matches source event topic
    · obtain rfl := Option.some.inj ((if_pos hmatches).symm.trans hsequence)
      exact ⟨event.generationId, _, if_pos hmatches, hprovider, hgeneration.le, hstamp⟩
    · obtain ⟨storedIn, generation, hstoredIn, hrest⟩ :=
        h.stored topic sequence ((if_neg hmatches).symm.trans hsequence)
      exact ⟨storedIn, generation, (if_neg hmatches).trans hstoredIn, hrest⟩
  · intro subscription hsubscription handed hhanded
    obtain ⟨before, hbefore, -, -, -, ⟨-, hevents⟩ | ⟨-, hevents⟩⟩ := mem_handed hsubscription
    · rw [hevents] at hhanded
      obtain hold | hnew := mem_append.mp hhanded
      · exact h.handed before hbefore handed hold
      · obtain rfl := mem_singleton.mp hnew
        exact hstamp
    · rw [hevents] at hhanded
      exact h.handed before hbefore handed hhanded
  · intro subscription hsubscription
    obtain ⟨before, hbefore, -, -, -, ⟨-, hevents⟩ | ⟨-, hevents⟩⟩ := mem_handed hsubscription
    · rw [hevents]
      refine nodup_append.mpr ⟨h.once before hbefore, nodup_singleton _, ?_⟩
      -- an event on the stream is later than all that have been handed on
      rintro handed hhanded _ hnew rfl
      obtain rfl := mem_singleton.mp hnew
      exact lt_irrefl _ (hserving.fresh before hbefore handed hhanded handed mem_cons_self)
    · rw [hevents]
      exact h.once before hbefore
  · intro source' connection' hconnection'
    obtain ⟨hsource', hopen⟩ := connection?_eq_some.mp hconnection'
    obtain rfl := Option.some.inj hsource'
    obtain rfl := Option.some.inj hopen
    refine ⟨fun topic => if topic ∈ event.topics then event.sequence else floor topic, rest,
      hserving.generation_le, hserving.provider_le, ?_, ?_, hsorted, ?_, ?_, ?_⟩
    · refine .inl ⟨rfl, hprovider, ?_⟩
      intro topic htopic
      obtain ⟨hsequence, hstoredIn⟩ := hstored topic htopic
      by_cases hevent : topic ∈ event.topics
      · have hmatches : Matches source event topic := ⟨hevent, htopic⟩
        dsimp only
        rw [if_pos hmatches, if_pos hmatches, if_pos hevent]
        exact ⟨rfl, congrArg some hgeneration⟩
      · have hmatches : ¬Matches source event topic := fun h => hevent h.1
        dsimp only
        rw [if_neg hmatches, if_neg hmatches, if_neg hevent]
        exact ⟨hsequence, hstoredIn⟩
    · intro topic htopic
      dsimp only
      split
      · rw [← hgeneration]
        exact hstamp
      · exact hserving.floor_le topic htopic
    · intro sent hsent
      obtain ⟨hsentGeneration, hsentStamp, hsentFloor⟩ := hserving.sent sent (mem_cons_of_mem _ hsent)
      refine ⟨hsentGeneration, hsentStamp, ?_⟩
      intro topic htopic hsource
      split
      · exact hlater sent hsent
      · exact hsentFloor topic htopic hsource
    · intro eventScope sent hpublished hconcerns hsentGeneration topic htopic hsource hbelow
      have hmem : sent ≠ event ∧ floor topic < sent.sequence := by
        split at hbelow
        · rename_i hevent
          refine ⟨?_, (hfloor topic ⟨hevent, hsource⟩).trans hbelow⟩
          rintro rfl
          exact lt_irrefl _ hbelow
        · rename_i hevent
          refine ⟨?_, hbelow⟩
          rintro rfl
          exact hevent htopic
      have hcomplete := hserving.complete eventScope sent hpublished hconcerns hsentGeneration topic htopic
        hsource hmem.2
      exact (mem_cons.mp hcomplete).resolve_left hmem.1
    · intro subscription hsubscription handed hhanded sent hsent
      obtain ⟨before, hbefore, -, -, -, ⟨-, hevents⟩ | ⟨-, hevents⟩⟩ := mem_handed hsubscription
      · rw [hevents] at hhanded
        obtain hold | hnew := mem_append.mp hhanded
        · exact hserving.fresh before hbefore handed hold sent (mem_cons_of_mem _ hsent)
        · obtain rfl := mem_singleton.mp hnew
          obtain ⟨hsentGeneration, -⟩ := hserving.sent sent (mem_cons_of_mem _ hsent)
          exact Prod.Lex.toLex_lt_toLex.mpr
            (.inr ⟨hgeneration.trans hsentGeneration.symm, hlater sent hsent⟩)
      · rw [hevents] at hhanded
        exact hserving.fresh before hbefore handed hhanded sent (mem_cons_of_mem _ hsent)

/-- After an event has been handed on, subscriptions wait only for events that come after it. -/
theorem Guarded.deliverEvent (h : Guarded scope s) (hconsistent : Consistent scope s)
    (hconnection : s.connection? = some (source, connection))
    (hmessages : connection.messages = .event event :: messages) :
    Guarded scope (s.deliver source connection (.event event) messages) := by
  obtain ⟨floor, events, hserving⟩ := hconsistent.serving source connection hconnection
  obtain ⟨rest, rfl, rfl, hprovider, hgeneration, hstored, hfloor⟩ := hserving.next hmessages
  obtain ⟨hlater, -⟩ := pairwise_cons.mp hserving.sorted
  rw [deliver_event hserving hmessages]
  rintro subscription hsubscription awaited
    ⟨⟨eventScope, hpublished, hconcerns⟩, htopic, hsince, hhanded, hresyncs⟩ stamp hbaseline
  obtain ⟨before, hbefore, hsameTopic, hsameSince, hsameResyncs, hevents⟩ := mem_handed hsubscription
  have hawaits : Awaits scope s before awaited := by
    refine ⟨⟨eventScope, hpublished, hconcerns⟩, hsameTopic ▸ htopic, hsameSince ▸ hsince, ?_,
      hsameResyncs ▸ hresyncs⟩
    obtain ⟨-, hevents⟩ | ⟨-, hevents⟩ := hevents
    · rw [hevents] at hhanded
      exact fun hmem => hhanded (mem_append_left _ hmem)
    · exact hevents ▸ hhanded
  obtain ⟨generation, sequence, hprovider', hstoredIn, hsequence, rfl⟩ := hbaseline
  rw [hsameTopic] at hstoredIn hsequence
  obtain ⟨hmatches, hevents⟩ | ⟨hmatches, -⟩ := hevents
  · obtain rfl := Option.some.inj ((if_pos hmatches).symm.trans hsequence)
    obtain rfl := Option.some.inj ((if_pos hmatches).symm.trans hstoredIn)
    obtain ⟨hsequence', hstoredIn'⟩ := hstored _ hmatches.2
    have hbelow := h before hbefore awaited hawaits _
      ⟨_, _, hprovider, hstoredIn', hsequence', rfl⟩
    rw [ApplicationLiveEvent.stamp, Prod.Lex.toLex_lt_toLex] at hbelow ⊢
    obtain hnewer | ⟨hsame, hbelow⟩ := hbelow
    · exact .inl (hgeneration.trans_lt hnewer)
    · -- what comes after the number of the topic is on the stream, behind the event
      refine .inr ⟨hgeneration.trans hsame, ?_⟩
      have hcomplete := hserving.complete eventScope awaited hpublished hconcerns hsame.symm before.topic
        hawaits.2.1 hmatches.2 hbelow
      have hne : awaited ≠ event := by
        rintro rfl
        rw [hevents] at hhanded
        exact hhanded (mem_append_right _ (mem_singleton_self _))
      exact hlater awaited ((mem_cons.mp hcomplete).resolve_left hne)
  · refine h before hbefore awaited hawaits _ ⟨generation, sequence, hprovider', ?_, ?_, rfl⟩
    · exact (if_neg hmatches).symm.trans hstoredIn
    · exact (if_neg hmatches).symm.trans hsequence

end Event

/-! ## Runs -/

section Runs

variable {scope : ℕ} {s s' : System} {action : Action}

/-- A step is not one that handles the first message of a stream that fails to report a topic for
which an event has been published since a subscription to it was made. -/
def Reports (scope : ℕ) (s : System) (action : Action) : Prop :=
  match action with
  | .deliver => ∀ source connection ready messages, s.connection? = some (source, connection) →
      connection.messages = .ready ready :: messages →
      ∀ topic, Unreported s source ready topic → Quiet scope s ready topic
  | _ => True

/-- The message that a step hands on. -/
theorem step_deliver (h : s.step scope .deliver = some s') :
    ∃ source connection message messages, s.connection? = some (source, connection) ∧
      connection.messages = message :: messages ∧
      s' = s.deliver source connection message messages := by
  rw [System.step] at h
  split at h
  · cases h
  rename_i source connection hconnection
  split at h
  · cases h
  rename_i message messages hmessages
  exact ⟨source, connection, message, messages, hconnection, hmessages, (Option.some.inj h).symm⟩

theorem step_connect (h : s.step scope .connect = some s') :
    ∃ source, s' = s.setConnection source (some
      { generationId := s.bus.generationId
        messages := [.ready (s.bus.snapshot scope source.topics)] }) := by
  rw [System.step] at h
  split at h
  · cases h
  rename_i source _
  split at h
  · cases h
  · exact ⟨source, (Option.some.inj h).symm⟩

/-- Every step keeps a system consistent. -/
theorem Consistent.step (h : Consistent scope s) (hstep : s.step scope action = some s') :
    Consistent scope s' := by
  cases action with
  | publish eventScope topics kind payload => exact h.publish hstep
  | restart =>
    obtain rfl := Option.some.inj hstep
    exact h.restart
  | connect =>
    obtain ⟨source, rfl⟩ := step_connect hstep
    exact h.connect source
  | lose =>
    obtain ⟨⟨source, connection⟩, -, rfl⟩ := Option.map_eq_some_iff.mp hstep
    exact h.frame_of_bus (frame_lose s source) rfl
  | deliver =>
    obtain ⟨source, connection, message, messages, hconnection, hmessages, rfl⟩ := step_deliver hstep
    cases message with
    | ready ready => exact h.deliverReady hconnection hmessages
    | event event => exact h.deliverEvent hconnection hmessages
  | setVisible visible =>
    obtain rfl := Option.some.inj hstep
    exact h.frame_of_bus (frame_setVisible s visible) rfl
  | subscribe topic =>
    obtain rfl := Option.some.inj hstep
    exact h.frame_of_bus (frame_subscribe s topic) rfl
  | unsubscribe id =>
    obtain rfl := Option.some.inj hstep
    exact h.frame_of_bus (frame_unsubscribe s id) rfl
  | render =>
    obtain rfl := Option.some.inj hstep
    exact h.frame_of_bus (frame_render s) rfl
  | commit =>
    obtain rfl := Option.some.inj hstep
    exact h.frame_of_bus (frame_commit s) rfl

/-- A step that reports all topics keeps subscriptions from waiting for what has been passed. -/
theorem Guarded.step (h : Guarded scope s) (hconsistent : Consistent scope s)
    (hreports : Reports scope s action) (hstep : s.step scope action = some s') : Guarded scope s' := by
  cases action with
  | publish eventScope topics kind payload => exact h.publish hconsistent hstep
  | restart =>
    obtain rfl := Option.some.inj hstep
    exact h
  | connect =>
    obtain ⟨source, rfl⟩ := step_connect hstep
    exact h.connect _
  | lose =>
    obtain ⟨⟨source, connection⟩, -, rfl⟩ := Option.map_eq_some_iff.mp hstep
    exact h.frame hconsistent (frame_lose s source)
  | deliver =>
    obtain ⟨source, connection, message, messages, hconnection, hmessages, rfl⟩ := step_deliver hstep
    cases message with
    | ready ready =>
      exact h.deliverReady hconsistent hconnection hmessages
        (hreports source connection ready messages hconnection hmessages)
    | event event => exact h.deliverEvent hconsistent hconnection hmessages
  | setVisible visible =>
    obtain rfl := Option.some.inj hstep
    exact h.frame hconsistent (frame_setVisible s visible)
  | subscribe topic =>
    obtain rfl := Option.some.inj hstep
    exact h.frame hconsistent (frame_subscribe s topic)
  | unsubscribe id =>
    obtain rfl := Option.some.inj hstep
    exact h.frame hconsistent (frame_unsubscribe s id)
  | render =>
    obtain rfl := Option.some.inj hstep
    exact h.frame hconsistent (frame_render s)
  | commit =>
    obtain rfl := Option.some.inj hstep
    exact h.frame hconsistent (frame_commit s)

theorem Consistent.start : Consistent scope {} where
  history _ _ h := nomatch h
  marked _ _ h := nomatch h
  marks_le _ := (max_self 0).le
  generation_le _ h := nomatch h
  stored _ _ h := nomatch h
  handed _ h := nomatch h
  once _ h := nomatch h
  serving _ _ h := nomatch h

theorem Reachable.consistent {condition : System → Action → Prop}
    (h : Reachable scope condition s) : Consistent scope s :=
  RunsTo.invariant h (fun _ hs => hs ▸ .start) fun _ _ _ hs _ hstep => hs.step hstep

theorem Reachable.guarded (h : Reachable scope (Reports scope) s) : Guarded scope s := by
  induction h with
  | start h =>
    subst h
    exact fun _ h => nomatch h
  | step h action hreports hstep ih => exact ih.step (Reachable.consistent h) hreports hstep

/-- A subscription whose topic is on a stream that has been read to its end waits for nothing. -/
theorem Guarded.caught_up (h : Guarded scope s) (hconsistent : Consistent scope s)
    {source : EventSource} {connection : Connection}
    (hconnection : s.connection? = some (source, connection))
    (halive : connection.generationId = s.bus.generationId) (hread : connection.messages = [])
    {subscription : ApplicationLiveSubscription} (hsubscription : subscription ∈ s.provider.subscriptions)
    (hcovered : subscription.topic ∈ source.topics) (event : ApplicationLiveEvent) :
    ¬Awaits scope s subscription event := by
  intro hawaits
  obtain ⟨floor, events, hserving⟩ := hconsistent.serving source connection hconnection
  obtain ⟨hmessages, hprovider, hstored⟩ | ⟨ready, hmessages, -⟩ := hserving.messages
  · rw [hread] at hmessages
    obtain rfl := map_eq_nil_iff.mp hmessages.symm
    obtain ⟨hsequence, hstoredIn⟩ := hstored subscription.topic hcovered
    have hbelow := h subscription hsubscription event hawaits _ ⟨_, _, hprovider, hstoredIn, hsequence, rfl⟩
    obtain ⟨⟨eventScope, hpublished, hconcerns⟩, htopic, -⟩ := hawaits
    have hnow := hconsistent.history eventScope event hpublished
    rw [ApplicationLiveEvent.stamp, Prod.Lex.toLex_lt_toLex] at hbelow
    rw [ApplicationLiveEvent.stamp, ApplicationLiveEventBus.stamp, Prod.Lex.toLex_le_toLex] at hnow
    dsimp only at hbelow hnow
    -- the event is of the generation of the stream, so it would be on it
    have hcomplete := hserving.complete eventScope event hpublished hconcerns (by omega)
      subscription.topic htopic hcovered (by omega)
    cases hcomplete
  · rw [hread] at hmessages
    cases hmessages

/-- **No live update is missed.** In every run no event is handed to a subscription twice. In every
run in which the first messages of streams report the topics for which something was published, a
subscription whose topic is on a stream that has been read to its end has been handed every event
that was published since it was made, or its `onResync` has been called after the event. -/
theorem no_update_missed (scope : ℕ) :
    (∀ s, Reachable scope (fun _ _ => True) s →
      ∀ subscription ∈ s.provider.subscriptions, subscription.events.Nodup) ∧
    ∀ s, Reachable scope (Reports scope) s →
      ∀ source connection, s.connection? = some (source, connection) →
        connection.generationId = s.bus.generationId → connection.messages = [] →
        ∀ subscription ∈ s.provider.subscriptions, subscription.topic ∈ source.topics →
          ∀ eventScope event, (eventScope, event) ∈ s.published → Concerns eventScope scope →
            subscription.topic ∈ event.topics → subscription.since < event.stamp →
              event ∈ subscription.events ∨ ∃ resync ∈ subscription.resyncs, event.stamp ≤ resync := by
  refine ⟨fun s h => h.consistent.once, ?_⟩
  intro s h source connection hconnection halive hread subscription hsubscription hcovered
    eventScope event hpublished hconcerns htopic hsince
  by_contra hmissed
  rw [not_or, not_exists] at hmissed
  refine h.guarded.caught_up h.consistent hconnection halive hread hsubscription hcovered event
    ⟨⟨eventScope, hpublished, hconcerns⟩, htopic, hsince, hmissed.1, ?_⟩
  intro resync hresync
  exact not_le.mp fun hle => hmissed.2 resync ⟨hresync, hle⟩

/-- A run, when each of its steps can happen. -/
def System.run (scope : ℕ) (s : System) (actions : List Action) : Option System :=
  actions.foldlM (System.step scope) s

end Runs

/-! ## Streams that come late and in time -/

/-- A run that gives a topic up, follows a restarted server by another topic, and takes the first
one up again before an event is published to it. -/
def resumedActions : List Action :=
  [.subscribe "agents:fleet", .render, .commit, .connect,
    .publish none ["agents:fleet"] "agent.changed" "null", .deliver, .deliver,
    .subscribe "inventory:metadata", .unsubscribe 0, .render, .commit, .restart, .connect, .deliver,
    .subscribe "agents:fleet", .publish none ["agents:fleet"] "agent.changed" "null",
    .render, .commit, .connect]

/-- The system after it. -/
def resumedStream : System := (({} : System).run 0 resumedActions).getD {}

/-- **The event is missed.** The provider still has the number of the topic from the server before,
and the first message of the stream, whose number is no greater, is taken for one that reports
nothing new. -/
theorem update_missed : (resumedStream.provider.topicSequences "agents:fleet" = some 1 ∧
      resumedStream.storedIn "agents:fleet" = some 0 ∧
      resumedStream.provider.generation = some 1) ∧
    ∃ readStream, resumedStream.run 0 [.deliver] = some readStream ∧
      Reachable 0 (fun _ _ => True) readStream ∧
      ∃ source connection subscription event,
        readStream.connection? = some (source, connection) ∧
          connection.generationId = readStream.bus.generationId ∧ connection.messages = [] ∧
          subscription ∈ readStream.provider.subscriptions ∧ subscription.topic ∈ source.topics ∧
          (none, event) ∈ readStream.published ∧ Concerns none 0 ∧
          subscription.topic ∈ event.topics ∧ subscription.since < event.stamp ∧
          event ∉ subscription.events ∧ subscription.resyncs = [] := by
  have hrun : ({} : System).run 0 (resumedActions ++ [.deliver]) =
    some ((resumedStream.run 0 [.deliver]).getD {}) := rfl
  refine ⟨⟨rfl, rfl, rfl⟩, _, rfl, RunsTo.run (.start rfl)
    (fun action _ _ _ hstep => ⟨action, trivial, hstep⟩) hrun,
    { topics := ["agents:fleet", "inventory:metadata"], connection := some ⟨1, []⟩ }, ⟨1, []⟩,
    { id := 2, topic := "agents:fleet", since := toLex (1, 0) },
    { generationId := 1, sequence := 1, topics := ["agents:fleet"], kind := "agent.changed",
      payload := "null" }, rfl, rfl, rfl, mem_cons_of_mem _ mem_cons_self, mem_cons_self, ?_,
    .inl rfl, mem_cons_self, by decide, by decide, rfl⟩
  exact mem_cons_of_mem _ mem_cons_self

/-- A stream that is open in time: the state before its first message and the one after an event. -/
def openedStream : System :=
  (({} : System).run 0 [.subscribe "agents:fleet", .render, .commit, .connect]).getD {}

def readStream : System :=
  (openedStream.run 0 [.deliver, .publish none ["agents:fleet"] "agent.changed" "null", .deliver]).getD {}

/-- The event is handed on when the stream is open in time. -/
theorem no_update_missed_readStream :
    ∃ subscription ∈ readStream.provider.subscriptions, ∃ event,
      (none, event) ∈ readStream.published ∧
        (event ∈ subscription.events ∨ ∃ resync ∈ subscription.resyncs, event.stamp ≤ resync) := by
  have hstart : Reachable 0 (Reports 0) {} := .start rfl
  have hopened : Reachable 0 (Reports 0) openedStream :=
    ((((hstart.step (.subscribe "agents:fleet") trivial rfl).step .render trivial rfl).step
      .commit trivial rfl).step .connect trivial rfl)
  have hdelivered : Reachable 0 (Reports 0) ((openedStream.run 0 [.deliver]).getD {}) := by
    refine hopened.step .deliver ?_ rfl
    -- nothing has been published when the first message is read
    intro source connection ready messages _ _ topic _ subscription _ _ eventScope event hpublished
    exact absurd hpublished not_mem_nil
  have hpublished := hdelivered.step (.publish none ["agents:fleet"] "agent.changed" "null") trivial rfl
  have hread : Reachable 0 (Reports 0) readStream := by
    refine hpublished.step .deliver ?_ rfl
    intro source connection ready messages hconnection hmessages
    obtain ⟨-, rfl⟩ := Prod.mk.inj (Option.some.inj hconnection)
    cases hmessages
  refine ⟨_, mem_cons_self, _, mem_cons_self, ?_⟩
  exact (no_update_missed 0).2 readStream hread _ _ rfl rfl rfl _ mem_cons_self
    mem_cons_self _ _ mem_cons_self (.inl rfl) mem_cons_self (by decide)

end HomelabInventory.LiveEvents
