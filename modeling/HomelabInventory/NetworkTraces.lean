import HomelabInventory.NetworkLinks
import Mathlib.Data.List.Chain
import Mathlib.Data.List.Perm.Subperm

/-!
# Network traces

A trace follows the cables and crosses the patch panels from an endpoint towards a switch. It visits
no endpoint twice, so it ends; it ends at a switch, where no cable goes on, or where it has been
before. The cables that it follows lie in one component of the network, so they have one negotiated
speed.
-/

namespace HomelabInventory

open List Option

open Relation (ReflTransGen)

namespace TopologyIndex

variable {K : Type} [Scalar K] {index : TopologyIndex K}

/-! ## The way on -/

/-- From the endpoint of a step a trace looks for a cable: it is the start or the other side of a
port, or there is no other side. -/
def Turns (index : TopologyIndex K) (step : NetworkTraceStep) : Prop :=
  step.connectionId = none ∨ ∀ peer, ¬index.snapshot.Crosses step.endpoint peer

/-- What a trace may do after a step: follow a stored network cable, cross a port of a patch panel
from one side to the other, or find no cable. -/
inductive Follows (index : TopologyIndex K) (previous : NetworkTraceStep) :
    NetworkTraceStep → Prop
  | cable (connection : TopologyConnection K) (next : EndpointRef) (hturn : index.Turns previous)
    (hcables : index.Cables connection previous.endpoint next) :
    Follows index previous
      { endpoint := next, state := "connected", connectionId := some connection.id }
  | panel (peer : EndpointRef) (hcable : previous.connectionId ≠ none)
    (hcrosses : index.snapshot.Crosses previous.endpoint peer) :
    Follows index previous { endpoint := peer, state := "internal" }
  | openEnd (hturn : index.Turns previous)
    (hnone : ∀ connection next, ¬index.Cables connection previous.endpoint next) :
    Follows index previous { endpoint := previous.endpoint, state := "open" }

/-- Why a trace stops: it reached a switch, its last endpoint has no network cable, or the way on
leads to an endpoint that was visited already. -/
inductive Stops (index : TopologyIndex K) (steps : List NetworkTraceStep)
    (last : NetworkTraceStep) : Prop
  | switch (hswitch : last.endpoint.item.itemType = "switch") (hlater : last ∈ steps.tail)
  | openEnd (hopen : last.state = "open")
    (hnone : ∀ connection next, ¬index.Cables connection last.endpoint next)
  | visited (next : NetworkTraceStep) (hnext : index.Follows last next)
    (hclosed : next.state ≠ "open")
    (hvisited : ∃ step ∈ steps, step.state ≠ "open" ∧ step.endpoint = next.endpoint)

/-- **A path of the network**: every step follows the one before, no endpoint is visited twice, the
path goes on until it has to stop, and it is complete when it reaches a switch. -/
structure IsPath (index : TopologyIndex K) (trace : NetworkTrace) : Prop where
  first : ∃ first rest, trace.steps = first :: rest ∧ first.endpoint = trace.start ∧
    first.connectionId = none
  follows : trace.steps.IsChain index.Follows
  nodup : ((trace.steps.filter fun step => step.state ≠ "open").map (·.endpoint)).Nodup
  stops : ∃ last, trace.steps.getLast? = some last ∧ index.Stops trace.steps last
  complete_iff : trace.complete = true ↔
    ∃ step ∈ trace.steps.tail, step.endpoint.item.itemType = "switch"

/-! ## Walks -/

/-- **The invariant of a trace on its way.** -/
structure Walked (index : TopologyIndex K) (start : EndpointRef) (visited : BTreeSet EndpointRef)
    (steps : List NetworkTraceStep) (last : NetworkTraceStep) : Prop where
  first : ∃ first rest, steps = first :: rest ∧ first.endpoint = start ∧ first.connectionId = none
  last_eq : steps.getLast? = some last
  follows : steps.IsChain index.Follows
  closed : ∀ step ∈ steps, step.state ≠ "open"
  nodup : (steps.map (·.endpoint)).Nodup
  visited_iff : ∀ e, e ∈ visited ↔ ∃ step ∈ steps, step.endpoint = e
  network : ∀ step ∈ steps, index.IsNetwork step.endpoint

/-- No step after the first is at a switch. -/
def Underway (steps : List NetworkTraceStep) : Prop :=
  ∀ step ∈ steps.tail, step.endpoint.item.itemType ≠ "switch"

section Walks

variable {start : EndpointRef} {visited : BTreeSet EndpointRef} {steps : List NetworkTraceStep}
  {last next : NetworkTraceStep}

theorem Walked.mem_last (h : index.Walked start visited steps last) : last ∈ steps :=
  mem_of_getLast? h.last_eq

theorem Walked.tail_append (h : index.Walked start visited steps last)
    (more : List NetworkTraceStep) : (steps ++ more).tail = steps.tail ++ more := by
  obtain ⟨first, rest, rfl, -, -⟩ := h.first
  rfl

/-- Steps follow each other when one more follows the last. -/
theorem Walked.follows_append (h : index.Walked start visited steps last)
    (hnext : index.Follows last next) : (steps ++ [next]).IsChain index.Follows := by
  refine isChain_append.mpr ⟨h.follows, isChain_singleton next, ?_⟩
  intro previous hprevious other hother
  rw [h.last_eq, mem_some_iff] at hprevious
  rw [head?_cons, mem_some_iff] at hother
  exact hprevious ▸ hother ▸ hnext

/-- A step to an endpoint that was not visited keeps the invariant. -/
theorem Walked.step (h : index.Walked start visited steps last) (hnext : index.Follows last next)
    (hclosed : next.state ≠ "open") (hfresh : next.endpoint ∉ visited)
    (hnetwork : index.IsNetwork next.endpoint) :
    index.Walked start (visited.insert next.endpoint) (steps ++ [next]) next where
  first := by
    obtain ⟨first, rest, rfl, hfirst⟩ := h.first
    exact ⟨first, rest ++ [next], rfl, hfirst⟩
  last_eq := getLast?_concat
  follows := h.follows_append hnext
  closed := by
    intro step hstep
    obtain hold | hnew := mem_append.mp hstep
    · exact h.closed step hold
    · rw [mem_singleton.mp hnew]
      exact hclosed
  nodup := by
    rw [map_append, map_singleton]
    refine nodup_append.mpr ⟨h.nodup, nodup_singleton _, ?_⟩
    rintro e he _ hnew rfl
    obtain ⟨step, hstep, rfl⟩ := mem_map.mp he
    rw [mem_singleton] at hnew
    exact hfresh ((h.visited_iff _).mpr ⟨step, hstep, hnew⟩)
  visited_iff := by
    intro e
    rw [Std.ExtTreeSet.mem_insert, Std.LawfulEqOrd.compare_eq_iff_eq, h.visited_iff]
    simp only [mem_append, mem_singleton, or_and_right, exists_or, exists_eq_left]
    exact or_comm
  network := by
    intro step hstep
    obtain hold | hnew := mem_append.mp hstep
    · exact h.network step hold
    · rw [mem_singleton.mp hnew]
      exact hnetwork

theorem Walked.underway_append (h : index.Walked start visited steps last) (hpassed : Underway steps)
    (next : NetworkTraceStep) (hnext : next.endpoint.item.itemType ≠ "switch") :
    Underway (steps ++ [next]) := by
  rw [Underway, h.tail_append]
  intro step hstep
  obtain hold | hnew := mem_append.mp hstep
  · exact hpassed step hold
  · rw [mem_singleton.mp hnew]
    exact hnext

/-- Steps that are all on their way are all visits. -/
theorem Walked.filter_eq (h : index.Walked start visited steps last) :
    (steps.filter fun step => step.state ≠ "open") = steps :=
  filter_eq_self.mpr fun step hstep => decide_eq_true (h.closed step hstep)

/-- A trace that is still on its way is a path where it has to stop. -/
theorem Walked.isPath_of_visited (h : index.Walked start visited steps last)
    (hpassed : Underway steps) (hnext : index.Follows last next) (hclosed : next.state ≠ "open")
    (hknown : next.endpoint ∈ visited) :
    index.IsPath { start := start, steps := steps, complete := false } where
  first := h.first
  follows := h.follows
  nodup := by
    rw [h.filter_eq]
    exact h.nodup
  stops := by
    obtain ⟨step, hstep, hsame⟩ := (h.visited_iff _).mp hknown
    exact ⟨last, h.last_eq, .visited next hnext hclosed ⟨step, hstep, h.closed step hstep, hsame⟩⟩
  complete_iff :=
    ⟨fun hfalse => absurd hfalse Bool.false_ne_true,
      fun ⟨step, hstep, hswitch⟩ => absurd hswitch (hpassed step hstep)⟩

/-- A trace that reaches a switch is a path. -/
theorem Walked.isPath_of_switch (h : index.Walked start visited (steps ++ [next]) next)
    (hnonempty : steps ≠ []) (hswitch : next.endpoint.item.itemType = "switch") :
    index.IsPath { start := start, steps := steps ++ [next], complete := true } where
  first := h.first
  follows := h.follows
  nodup := by
    rw [h.filter_eq]
    exact h.nodup
  stops := by
    refine ⟨next, h.last_eq, .switch hswitch ?_⟩
    rw [tail_append_of_ne_nil hnonempty]
    exact mem_append_right _ (mem_singleton_self next)
  complete_iff := by
    refine ⟨fun _ => ⟨next, ?_, hswitch⟩, fun _ => rfl⟩
    rw [tail_append_of_ne_nil hnonempty]
    exact mem_append_right _ (mem_singleton_self next)

/-- A trace that finds no cable is a path. -/
theorem Walked.isPath_of_open (h : index.Walked start visited steps last)
    (hpassed : Underway steps) (hlast : last.endpoint.item.itemType ≠ "switch")
    (hturn : index.Turns last)
    (hnone : ∀ connection next, ¬index.Cables connection last.endpoint next) :
    index.IsPath
      { start := start
        steps := steps ++ [{ endpoint := last.endpoint, state := "open" }]
        complete := false } where
  first := by
    obtain ⟨first, rest, rfl, hfirst⟩ := h.first
    exact ⟨first, rest ++ [_], rfl, hfirst⟩
  follows := h.follows_append (.openEnd hturn hnone)
  nodup := by
    rw [filter_append, h.filter_eq]
    simpa using h.nodup
  stops := ⟨_, getLast?_concat, .openEnd rfl hnone⟩
  complete_iff := by
    refine ⟨fun hfalse => absurd hfalse Bool.false_ne_true, fun ⟨step, hstep, hswitch⟩ => ?_⟩
    exact absurd hswitch
      (h.underway_append hpassed { endpoint := last.endpoint, state := "open" } hlast step hstep)

/-- At most as many endpoints were visited as are known. -/
theorem Walked.size_le (h : index.Walked start visited steps last) :
    visited.size ≤ index.endpoints.size := by
  have hnodup : visited.toList.Nodup :=
    Std.ExtTreeSet.distinct_toList.imp fun hne heq => hne (by
      rw [heq]
      exact Std.ReflCmp.compare_self)
  have hsub : visited.toList ⊆ index.endpoints.keys := by
    intro e he
    obtain ⟨step, hstep, rfl⟩ := (h.visited_iff e).mp (Std.ExtTreeSet.mem_toList.mp he)
    obtain ⟨descriptor, hdescriptor, -⟩ := h.network step hstep
    rw [Std.ExtTreeMap.mem_keys, Std.ExtTreeMap.mem_iff_isSome_getElem?]
    exact isSome_iff_exists.mpr ⟨descriptor, hdescriptor⟩
  have hlength := (hnodup.subperm hsub).length_le
  rwa [Std.ExtTreeSet.length_toList, Std.ExtTreeMap.length_keys] at hlength

/-- A step that follows a cable. -/
def cableStep (connection : TopologyConnection K) (next : EndpointRef) : NetworkTraceStep :=
  { endpoint := next, state := "connected", connectionId := some connection.id }

omit [Scalar K] in
theorem cableStep_closed (connection : TopologyConnection K) (next : EndpointRef) :
    (cableStep connection next).state ≠ "open" := by
  show "connected" ≠ "open"
  decide

/-- A step through a panel. -/
def panelStep (peer : EndpointRef) : NetworkTraceStep := { endpoint := peer, state := "internal" }

theorem panelStep_closed (peer : EndpointRef) : (panelStep peer).state ≠ "open" := by
  show "internal" ≠ "open"
  decide

/-- A turn of a trace along a cable. -/
theorem followTrace_cable {connection : TopologyConnection K} {current : EndpointRef}
    (hsize : visited.size ≤ index.endpoints.size)
    (hconnection : index.networkConnectionForEndpoint current = some connection) (fuel : ℕ) :
    index.followTrace (fuel + 1) visited current steps =
      if otherEnd connection current ∈ visited then (steps, false)
      else if (otherEnd connection current).item.itemType = "switch" then
        (steps ++ [cableStep connection (otherEnd connection current)], true)
      else
        match index.patchPanelPeer (otherEnd connection current) with
        | none =>
          index.followTrace fuel (visited.insert (otherEnd connection current))
            (otherEnd connection current)
            (steps ++ [cableStep connection (otherEnd connection current)])
        | some peer =>
          if peer ∈ visited.insert (otherEnd connection current) then
            (steps ++ [cableStep connection (otherEnd connection current)], false)
          else
            index.followTrace fuel ((visited.insert (otherEnd connection current)).insert peer) peer
              (steps ++ [cableStep connection (otherEnd connection current)] ++ [panelStep peer]) := by
  rw [followTrace, if_neg (Nat.not_lt.mpr hsize), hconnection]
  rfl

theorem size_insert_of_not_mem {e : EndpointRef} (h : e ∉ visited) :
    (visited.insert e).size = visited.size + 1 := by
  rw [Std.ExtTreeSet.size_insert, if_neg]
  rwa [Std.ExtTreeSet.contains_iff_mem]

/-- **A trace on its way ends as a path**, and fuel for the endpoints that are left suffices. -/
theorem Walked.followTrace (hsides : index.snapshot.PanelsTwoSided) {fuel : ℕ}
    (h : index.Walked start visited steps last) (hturn : index.Turns last) (hpassed : Underway steps)
    (hlast : last.endpoint.item.itemType = "switch" →
      index.networkConnectionForEndpoint last.endpoint ≠ none)
    (hfuel : index.endpoints.size < fuel + visited.size) :
    index.IsPath
        { start := start
          steps := (TopologyIndex.followTrace index fuel visited last.endpoint steps).1
          complete := (TopologyIndex.followTrace index fuel visited last.endpoint steps).2 } ∧
      ∀ extra, TopologyIndex.followTrace index (fuel + extra) visited last.endpoint steps =
        TopologyIndex.followTrace index fuel visited last.endpoint steps := by
  induction fuel generalizing visited steps last with
  | zero =>
    have hsize := h.size_le
    omega
  | succ fuel ih =>
    simp only [Nat.add_right_comm fuel 1]
    cases hconnection : index.networkConnectionForEndpoint last.endpoint with
    | none =>
      have hrun : ∀ fuel, TopologyIndex.followTrace index (fuel + 1) visited last.endpoint steps =
          (steps ++ [{ endpoint := last.endpoint, state := "open" }], false) := by
        intro fuel
        rw [TopologyIndex.followTrace, if_neg (Nat.not_lt.mpr h.size_le), hconnection]
      simp only [hrun]
      exact ⟨h.isPath_of_open hpassed (fun hswitch => hlast hswitch hconnection) hturn
        (not_cables_of_none hconnection), fun _ => trivial⟩
    | some connection =>
      simp only [followTrace_cable h.size_le hconnection]
      have hcables := cables_of_networkConnection hconnection
      generalize otherEnd connection last.endpoint = next at *
      have hfollows : index.Follows last (cableStep connection next) :=
        .cable connection next hturn hcables
      by_cases hknown : next ∈ visited
      · -- the cable leads to an endpoint that was visited
        simp only [if_pos hknown]
        exact ⟨h.isPath_of_visited hpassed hfollows (cableStep_closed connection next) hknown,
          fun _ => trivial⟩
      have hwalked := h.step hfollows (cableStep_closed connection next) hknown hcables.isNetwork.2
      have hsize := size_insert_of_not_mem hknown
      simp only [if_neg hknown]
      by_cases hswitch : next.item.itemType = "switch"
      · simp only [if_pos hswitch]
        exact ⟨hwalked.isPath_of_switch (ne_nil_of_mem h.mem_last) hswitch, fun _ => trivial⟩
      have hunderway := h.underway_append hpassed (cableStep connection next) hswitch
      simp only [if_neg hswitch]
      cases hpeer : index.patchPanelPeer next with
      | none =>
        -- the trace turns back here, and finds the cable that it came along
        exact ih hwalked (.inr (patchPanelPeer_eq_none hsides hcables.isNetwork.2 hpeer)) hunderway
          (fun h => absurd h hswitch) (by rw [cableStep, hsize]; omega)
      | some peer =>
        have hcrosses := (patchPanelPeer_eq_some hsides hcables.isNetwork.2).mp hpeer
        have hacross : index.Follows (cableStep connection next) (panelStep peer) :=
          .panel peer (some_ne_none _) hcrosses
        dsimp only
        by_cases hvisited : peer ∈ visited.insert next
        · simp only [if_pos hvisited]
          exact ⟨hwalked.isPath_of_visited hunderway hacross (panelStep_closed peer) hvisited,
            fun _ => trivial⟩
        simp only [if_neg hvisited]
        have hpanel : peer.item.itemType ≠ "switch" := by
          obtain ⟨panel, -, htype, port, -, side, -, other, -, -, -, rfl⟩ := hcrosses
          show panel.item.itemType ≠ "switch"
          rw [htype]
          decide
        have hcrossed := hwalked.step hacross (panelStep_closed peer) hvisited
          (Crosses.isNetwork hcables.isNetwork.2 hcrosses)
        refine ih hcrossed (.inl rfl) (hwalked.underway_append hunderway (panelStep peer) hpanel)
          (fun h => absurd h hpanel) ?_
        have hsize' := size_insert_of_not_mem hvisited
        show index.endpoints.size < fuel + ((visited.insert next).insert peer).size
        omega

end Walks

/-! ## Traces -/

section Traces

variable {start : EndpointRef} {trace : NetworkTrace}

/-- A trace that takes at most a number of turns. -/
def traceWithin (index : TopologyIndex K) (turns : ℕ) (start : EndpointRef) :
    Option NetworkTrace :=
  match index.endpoint start with
  | none => none
  | some descriptor =>
    if !isNetworkPort descriptor.portType then none
    else if (index.networkConnectionForEndpoint start).isNone then
      some { start := start, steps := [{ endpoint := start, state := "open" }], complete := false }
    else
      let trace := index.followTrace turns ((∅ : BTreeSet EndpointRef).insert start) start
        [{ endpoint := start, state := "connected" }]
      some { start := start, steps := trace.1, complete := trace.2 }

theorem traceWithin_of_not_isNetwork (h : ¬index.IsNetwork start) (turns : ℕ) :
    index.traceWithin turns start = none := by
  unfold traceWithin
  split
  · rfl
  · rename_i descriptor hdescriptor
    refine if_pos ?_
    rw [Bool.not_eq_true', Bool.eq_false_iff]
    exact fun hnetwork => h ⟨descriptor, hdescriptor, hnetwork⟩

/-- The trace from an endpoint without a cable. -/
theorem traceWithin_open (hnetwork : index.IsNetwork start)
    (hconnection : index.networkConnectionForEndpoint start = none) (turns : ℕ) :
    index.traceWithin turns start = some
      { start := start, steps := [{ endpoint := start, state := "open" }], complete := false } := by
  obtain ⟨descriptor, hdescriptor, hport⟩ := hnetwork
  rw [traceWithin, hdescriptor, hconnection]
  exact if_neg (by rw [hport]; decide)

/-- The trace from an endpoint with a cable. -/
theorem traceWithin_connected (hnetwork : index.IsNetwork start)
    (hconnection : index.networkConnectionForEndpoint start ≠ none) (turns : ℕ) :
    index.traceWithin turns start = some
      { start := start
        steps := (index.followTrace turns ((∅ : BTreeSet EndpointRef).insert start) start
          [{ endpoint := start, state := "connected" }]).1
        complete := (index.followTrace turns ((∅ : BTreeSet EndpointRef).insert start) start
          [{ endpoint := start, state := "connected" }]).2 } := by
  obtain ⟨descriptor, hdescriptor, hport⟩ := hnetwork
  rw [traceWithin, hdescriptor]
  refine (if_neg (by rw [hport]; decide)).trans (if_neg ?_)
  rwa [isNone_iff_eq_none]

theorem walked_start (hnetwork : index.IsNetwork start) :
    index.Walked start ((∅ : BTreeSet EndpointRef).insert start)
      [{ endpoint := start, state := "connected" }] { endpoint := start, state := "connected" } where
  first := ⟨_, [], rfl, rfl, rfl⟩
  last_eq := rfl
  follows := isChain_singleton _
  closed := by simp
  nodup := nodup_singleton _
  visited_iff := by
    intro e
    rw [Std.ExtTreeSet.mem_insert, Std.LawfulEqOrd.compare_eq_iff_eq]
    simp
  network := by
    intro step hstep
    rw [mem_singleton.mp hstep]
    exact hnetwork

/-- **Every trace ends as a path**: there is one from every endpoint of a network port, and more
turns than there are endpoints change nothing. -/
theorem traceNetworkPath_isPath (hsides : index.snapshot.PanelsTwoSided)
    (hnetwork : index.IsNetwork start) : ∃ trace,
      trace.start = start ∧ index.IsPath trace ∧
        ∀ turns, index.endpoints.size < turns → index.traceWithin turns start = some trace := by
  by_cases hconnection : index.networkConnectionForEndpoint start = none
  · refine ⟨_, rfl, ?_, fun turns _ => traceWithin_open hnetwork hconnection turns⟩
    exact
      { first := ⟨_, [], rfl, rfl, rfl⟩
        follows := isChain_singleton _
        nodup := by simp
        stops := ⟨_, rfl, .openEnd rfl (not_cables_of_none hconnection)⟩
        complete_iff := by simp }
  · have hsize : index.endpoints.size <
        index.endpoints.size + 1 + ((∅ : BTreeSet EndpointRef).insert start).size := by
      omega
    obtain ⟨hpath, hmore⟩ := (walked_start hnetwork).followTrace hsides (.inl rfl)
      (fun step hstep => absurd hstep not_mem_nil) (fun _ => hconnection) hsize
    refine ⟨_, rfl, hpath, fun turns hturns => ?_⟩
    obtain ⟨extra, rfl⟩ := Nat.exists_eq_add_of_lt hturns
    rw [traceWithin_connected hnetwork hconnection,
      show index.endpoints.size + extra + 1 = index.endpoints.size + 1 + extra by omega, hmore extra]

/-! ## The cables of a trace -/

/-- What follows leads along a link, or stays. -/
theorem Follows.path {previous step : NetworkTraceStep} (h : index.Follows previous step) :
    ReflTransGen index.Linked previous.endpoint step.endpoint := by
  cases h with
  | cable connection next _ hcables => exact .single (.inl ⟨connection, hcables⟩)
  | panel peer _ hcrosses => exact .single (.inr hcrosses)
  | openEnd => exact .refl

variable {step : NetworkTraceStep}

/-- Links lead from the start to every step. -/
theorem IsPath.reached (h : index.IsPath trace) (hstep : step ∈ trace.steps) :
    ReflTransGen index.Linked trace.start step.endpoint := by
  obtain ⟨first, rest, hsteps, hfirst, -⟩ := h.first
  have hfollows := h.follows
  rw [hsteps] at hstep hfollows
  rw [← hfirst]
  clear hsteps hfirst
  induction rest generalizing first with
  | nil => rw [mem_singleton.mp hstep]
  | cons next rest ih =>
    rw [isChain_cons_cons] at hfollows
    obtain rfl | hlater := mem_cons.mp hstep
    · exact .refl
    · exact hfollows.1.path.trans (ih next hlater hfollows.2)

/-- A step that names a cable follows it. -/
theorem IsPath.cable (h : index.IsPath trace) (hstep : step ∈ trace.steps) {connectionId : ℕ}
    (hid : step.connectionId = some connectionId) :
    ∃ previous ∈ trace.steps, ∃ connection, connection.id = connectionId ∧
      index.Cables connection previous.endpoint step.endpoint := by
  obtain ⟨first, rest, hsteps, -, hnone⟩ := h.first
  have hfollows := h.follows
  rw [hsteps] at hstep hfollows ⊢
  have hlater : step ∈ rest := (mem_cons.mp hstep).resolve_left fun hsame => by
    rw [hsame, hnone] at hid
    cases hid
  clear hsteps hnone hstep
  induction rest generalizing first with
  | nil => cases hlater
  | cons next rest ih =>
    rw [isChain_cons_cons] at hfollows
    obtain rfl | hlater := mem_cons.mp hlater
    · have hnext := hfollows.1
      refine ⟨first, mem_cons_self, ?_⟩
      cases hnext with
      | cable connection next _ hcables => exact ⟨connection, Option.some.inj hid, hcables⟩
      | panel => cases hid
      | openEnd => cases hid
    · obtain ⟨previous, hprevious, hcable⟩ := ih next hfollows.2 hlater
      exact ⟨previous, mem_cons_of_mem first hprevious, hcable⟩

/-- The speeds that are advertised where links from a trace lead. -/
def traceSpeeds (index : TopologyIndex K) (trace : NetworkTrace) : Set ℕ :=
  { speed | ∃ step ∈ trace.steps, speed ∈ index.linkedSpeeds step.endpoint }

/-- The negotiated speed of a cable that a trace names. -/
theorem IsPath.negotiatedSpeed (hsides : index.snapshot.PanelsTwoSided) (h : index.IsPath trace)
    (hnetwork : index.IsNetwork trace.start) (hstep : step ∈ trace.steps) {connectionId : ℕ}
    (hid : step.connectionId = some connectionId) :
    (∃ state ∈ index.connectionDerivedStates, state.connectionId = connectionId) ∧
      ∀ state ∈ index.connectionDerivedStates, state.connectionId = connectionId →
        IsLowest (index.traceSpeeds trace) state.negotiatedSpeedBps := by
  obtain ⟨previous, hprevious, connection, hsame, hcables⟩ := h.cable hstep hid
  -- links lead to the same endpoints from every step
  have hspeeds : index.traceSpeeds trace = index.linkedSpeeds previous.endpoint := by
    have hall : ∀ other ∈ trace.steps,
        index.linkedSpeeds other.endpoint = index.linkedSpeeds trace.start := by
      intro other hother
      have hpath := h.reached hother
      exact linkedSpeeds_congr hsides hnetwork hpath
        (stays_of_path (fun _ _ hknown hlinked => hlinked.isNetwork hknown) hnetwork hpath)
    ext speed
    simp only [traceSpeeds, Set.mem_ofPred_eq]
    constructor
    · rintro ⟨other, hother, hspeed⟩
      rwa [hall previous hprevious, ← hall other hother]
    · exact fun hspeed => ⟨previous, hprevious, hspeed⟩
  rw [hspeeds, connectionDerivedStates_eq_map]
  refine ⟨⟨_, mem_map_of_mem hcables.mem, hsame⟩, fun state hstate hstateId => ?_⟩
  obtain ⟨other, hother, rfl⟩ := mem_map.mp hstate
  obtain rfl : other = connection := inj_on_of_nodup_map index.valid.connections_nodup hother
    hcables.mem (hstateId.trans hsame.symm)
  exact negotiatedSpeed_lowest hsides hcables

/-- **Traced paths and derived speeds agree**, whatever the number of cables at an endpoint. -/
theorem traceNetworkPath_agrees (snapshot : TopologySnapshot K) (index : TopologyIndex K)
    (hbuild : TopologyIndex.build snapshot = .ok index) (hsides : snapshot.PanelsTwoSided)
    (start : EndpointRef) :
    (∀ turns, index.endpoints.size < turns →
      index.traceWithin turns start = index.traceNetworkPath start) ∧
    ((index.traceNetworkPath start).isSome = true ↔ index.IsNetwork start) ∧
    ∀ trace, index.traceNetworkPath start = some trace →
      trace.start = start ∧ index.IsPath trace ∧
      ∀ step ∈ trace.steps, ∀ connectionId, step.connectionId = some connectionId →
        (∃ state ∈ index.connectionDerivedStates, state.connectionId = connectionId) ∧
          ∀ state ∈ index.connectionDerivedStates, state.connectionId = connectionId →
            IsLowest (index.traceSpeeds trace) state.negotiatedSpeedBps := by
  obtain rfl := TopologyIndex.build_eq_ok.mp hbuild
  by_cases hnetwork : index.IsNetwork start
  · obtain ⟨trace, hstart, hpath, hturns⟩ := traceNetworkPath_isPath hsides hnetwork
    have htrace : index.traceNetworkPath start = some trace :=
      hturns _ (Nat.lt_succ_self index.endpoints.size)
    refine ⟨fun turns hmore => (hturns turns hmore).trans htrace.symm, ?_, fun other hother => ?_⟩
    · rw [htrace]
      exact ⟨fun _ => hnetwork, fun _ => rfl⟩
    · rw [htrace, Option.some.injEq] at hother
      subst hother
      exact ⟨hstart, hpath, fun step hstep connectionId hid =>
        hpath.negotiatedSpeed hsides (hstart ▸ hnetwork) hstep hid⟩
  · have hnone := traceWithin_of_not_isNetwork hnetwork
    have htrace : index.traceNetworkPath start = none := hnone (index.endpoints.size + 1)
    refine ⟨fun turns _ => (hnone turns).trans htrace.symm, ?_, fun trace hsome => ?_⟩
    · rw [htrace]
      exact ⟨fun hfalse => absurd hfalse (by decide), fun h => absurd h hnetwork⟩
    · rw [htrace] at hsome
      cases hsome

end Traces

end TopologyIndex

/-! ## A patched server -/

/-- The trace from the server reaches the switch over two cables of one speed. -/
theorem traceNetworkPath_agrees_patched : ∃ index trace,
    TopologyIndex.build patchedServer = .ok index ∧
      index.traceNetworkPath { item := ⟨"server", 1⟩, portId := 1 } = some trace ∧
      trace.complete = true ∧ trace.steps.map (·.connectionId) = [none, some 1, none, some 2] ∧
      index.connectionDerivedStates.map (·.negotiatedSpeedBps) =
        [some 1000000000, some 1000000000] ∧ index.IsPath trace := by
  obtain ⟨index, hbuild, htrace, hspeeds⟩ : ∃ index, TopologyIndex.build patchedServer = .ok index ∧
      (index.traceNetworkPath { item := ⟨"server", 1⟩, portId := 1 }).map (fun trace =>
        (trace.complete, trace.steps.map (·.connectionId))) =
          some (true, [none, some 1, none, some 2]) ∧
      index.connectionDerivedStates.map (·.negotiatedSpeedBps) =
        [some 1000000000, some 1000000000] := exists_ok_of_any (by decide +kernel)
  obtain ⟨trace, htrace, hfound⟩ := map_eq_some_iff.mp htrace
  obtain ⟨hcomplete, hsteps⟩ := Prod.mk.inj hfound
  have hsides : patchedServer.PanelsTwoSided := by
    intro panel hpanel htype port hport
    simp only [patchedServer, mem_cons, not_mem_nil, or_false] at hpanel
    obtain rfl | rfl | rfl := hpanel
    · exact absurd htype (by decide)
    · rw [mem_singleton.mp hport]
      decide
    · exact absurd htype (by decide)
  obtain ⟨-, -, hagrees⟩ := TopologyIndex.traceNetworkPath_agrees patchedServer index hbuild hsides
    { item := ⟨"server", 1⟩, portId := 1 }
  exact ⟨index, trace, hbuild, htrace, hcomplete, hsteps, hspeeds, (hagrees trace htrace).2.1⟩

end HomelabInventory
