import Blackboard.Telemetry

/-!
# Reports are delivered in order, and the last one is not lost

A run of a publisher is any sequence of events that is possible: offers, the worker's
turns at the queue and at the sink, and the end, in any order. A `Publisher.Ledger` keeps
account of what becomes of the reports. Through all runs the accounts agree with the state
of the publisher (`Publisher.Ledger.Agrees`): what was handed over, followed by what would
be handed over next, is a part of what was taken from the queue, and ends with the report
that was taken last. A worker that stops has emptied the queue and has handed over what it
held, so the last report handed over is the last one accepted
(`Publisher.run_delivers_in_order`).
-/

namespace Blackboard

namespace Publisher

variable {α : Type}

namespace Event

/-- The report that an event offers, if it is an offer. -/
def report? : Event α → Option α
  | offer report => some report
  | _ => none

/-- The event, had the sink accepted what it was handed. -/
def blind : Event α → Event α
  | fire _ => fire true
  | finish _ => finish true
  | event => event

end Event

/-- The reports that a sequence of events offers. -/
def offers (events : List (Event α)) : List α := events.filterMap Event.report?

/-! ## Single events -/

section Step

variable {p q : Publisher α}

theorem step?_offer_iff (report : α) :
    p.step? (.offer report) = some q ↔ p.isOpen = true ∧ q = p.offer report := by
  rw [eq_comm (a := q)]
  simp [step?]

/-- An offer is dropped if the queue is full, and joins the queue otherwise. -/
theorem offer_eq (bounded : p.queue.length ≤ p.capacity) (report : α) :
    p.offer report =
      if p.queue.length = p.capacity then { p with dropped := p.dropped + 1 }
      else { p with queue := p.queue ++ [report] } := by
  rw [offer]
  by_cases full : p.queue.length = p.capacity
  · rw [if_pos full, if_neg (by omega)]
  · rw [if_neg full, if_pos (by omega)]

theorem step?_receive_iff :
    p.step? .receive = some q ↔ p.isStopped = false ∧
      ∃ report rest, p.queue = report :: rest ∧
        q = { p with queue := rest, latest := some report } := by
  cases queue : p.queue with
  | nil => simp [step?, queue]
  | cons report rest =>
      cases stopped : p.isStopped with
      | true => simp [step?, queue, stopped]
      | false =>
          simp only [step?, queue, stopped]
          constructor
          · rintro ⟨⟩
            exact ⟨trivial, report, rest, rfl, rfl⟩
          · rintro ⟨_, _, _, ⟨⟩, rfl⟩
            rfl

theorem step?_fire_iff (accepted : Bool) :
    p.step? (.fire accepted) = some q ↔ p.isStopped = false ∧ q = p.publish accepted := by
  cases stopped : p.isStopped <;> simp [step?, stopped, eq_comm]

theorem step?_close_iff :
    p.step? .close = some q ↔ p.isOpen = true ∧ q = { p with isOpen := false } := by
  rw [eq_comm (a := q)]
  simp [step?]

theorem step?_finish_iff (accepted : Bool) :
    p.step? (.finish accepted) = some q ↔
      p.isOpen = false ∧ p.queue = [] ∧ p.isStopped = false ∧
        q = { p.publish accepted with isStopped := true } := by
  cases isOpen : p.isOpen <;> cases stopped : p.isStopped <;> cases queue : p.queue <;>
    simp [step?, isOpen, stopped, queue, eq_comm]

end Step

/-! ## Handing over -/

/-- What the publisher would hand over next, with what the sink makes of it. -/
def handover (p : Publisher α) (accepted : Bool) : List (α × Bool) :=
  p.latest.toList.map fun report => (report, accepted)

@[simp]
theorem map_fst_handover (p : Publisher α) (accepted : Bool) :
    (p.handover accepted).map Prod.fst = p.latest.toList := by
  simp [handover, Function.comp_def]

/-- Handing over moves the latest report to those handed over, and counts it if the sink
accepts it. -/
theorem publish_eq (p : Publisher α) (accepted : Bool) :
    p.publish accepted =
      { p with
        latest := none
        handed := p.handed ++ p.latest.toList
        published := p.published + (p.handover accepted).countP Prod.snd } := by
  cases p with
  | mk capacity queue latest isOpen isStopped dropped published handed =>
      cases latest <;> cases accepted <;> simp [publish, handover]

/-! ## Runs -/

theorem run?_cons_eq_some_iff (p q : Publisher α) (event : Event α) (rest : List (Event α)) :
    p.run? (event :: rest) = some q ↔
      ∃ next, p.step? event = some next ∧ next.run? rest = some q :=
  Option.bind_eq_some_iff

theorem run?_append (p : Publisher α) (before after : List (Event α)) :
    p.run? (before ++ after) = (p.run? before).bind fun q => q.run? after := by
  induction before generalizing p with
  | nil => rfl
  | cons event before ih =>
      rw [List.cons_append, run?, run?, Option.bind_assoc]
      simp only [ih]

theorem run?_singleton (p : Publisher α) (event : Event α) : p.run? [event] = p.step? event := by
  cases stepped : p.step? event <;> simp [run?, stepped]

/-- What has become of the reports in a run, each list in the order of the events. -/
structure Ledger (α : Type) where
  /-- The offers that found room in the queue. -/
  accepted : List α := []
  /-- The offers that found the queue full. -/
  refused : List α := []
  /-- What the worker took from the queue. -/
  received : List α := []
  /-- What was handed to the sink, and whether the sink accepted it. -/
  handovers : List (α × Bool) := []

/-- Enters what an event does in a state of the publisher. -/
def Ledger.enter (ledger : Ledger α) (p : Publisher α) : Event α → Ledger α
  | .offer report =>
    if p.queue.length < p.capacity then
      { ledger with accepted := ledger.accepted ++ [report] }
    else
      { ledger with refused := ledger.refused ++ [report] }
  | .receive => { ledger with received := ledger.received ++ p.queue.head?.toList }
  | .fire accepted => { ledger with handovers := ledger.handovers ++ p.handover accepted }
  | .close => ledger
  | .finish accepted => { ledger with handovers := ledger.handovers ++ p.handover accepted }

/-- Carries a ledger on through a sequence of events, as far as they are possible. -/
def carryOn : Publisher α → Ledger α → List (Event α) → Ledger α
  | _, ledger, [] => ledger
  | p, ledger, event :: rest =>
    (p.step? event).elim ledger fun next => next.carryOn (ledger.enter p event) rest

/-- The ledger of a sequence of events. -/
def ledger (p : Publisher α) (events : List (Event α)) : Ledger α := p.carryOn {} events

/-- What holds at the outset and is kept by every event holds after every run, of its
events, its ledger and the state it leads to. -/
theorem invariant_of_run? {Invariant : List (Event α) → Ledger α → Publisher α → Prop}
    (step : ∀ before ledger p event q, Invariant before ledger p → p.step? event = some q →
      Invariant (before ++ [event]) (ledger.enter p event) q)
    {p q : Publisher α} {events : List (Event α)} (initial : Invariant [] {} p)
    (ran : p.run? events = some q) : Invariant events (p.ledger events) q := by
  suffices carried : ∀ before ledger p, Invariant before ledger p → p.run? events = some q →
      Invariant (before ++ events) (p.carryOn ledger events) q from
    carried [] {} p initial ran
  clear initial ran
  induction events with
  | nil =>
      intro before ledger p holds ran
      obtain rfl := Option.some.inj ran
      rwa [List.append_nil]
  | cons event rest ih =>
      intro before ledger p holds ran
      obtain ⟨next, stepped, further⟩ := (run?_cons_eq_some_iff ..).mp ran
      have carried := ih (before ++ [event]) _ next (step _ _ _ _ _ holds stepped) further
      rw [List.append_assoc, List.singleton_append] at carried
      rwa [carryOn, stepped]

/-- How the events of a run and its ledger go with the state that the run has led to. -/
structure Ledger.Agrees (capacity : Nat) (events : List (Event α)) (ledger : Ledger α)
    (p : Publisher α) : Prop where
  capacity : p.capacity = capacity
  bounded : p.queue.length ≤ p.capacity
  offered : ledger.accepted.Sublist (offers events)
  counted : (offers events).length = ledger.accepted.length + ledger.refused.length
  dropped : p.dropped = ledger.refused.length
  /-- The queue holds what was accepted and not taken yet. -/
  queued : ledger.accepted = ledger.received ++ p.queue
  handed : p.handed = ledger.handovers.map Prod.fst
  published : p.published = ledger.handovers.countP Prod.snd
  inOrder : (p.handed ++ p.latest.toList).Sublist ledger.received
  last : (p.handed ++ p.latest.toList).getLast? = ledger.received.getLast?
  stopped : p.isStopped = true → p.isOpen = false ∧ p.queue = [] ∧ p.latest = none

namespace Ledger.Agrees

variable {capacity : Nat} {events : List (Event α)} {ledger : Ledger α} {p : Publisher α}

theorem start (settings : TelemetrySettings) :
    Ledger.Agrees (max settings.queueCapacity.toNat 1) [] {} (start settings : Publisher α) where
  capacity := rfl
  bounded := Nat.zero_le _
  offered := List.Sublist.refl _
  counted := rfl
  dropped := rfl
  queued := rfl
  handed := rfl
  published := rfl
  inOrder := List.Sublist.refl _
  last := rfl
  stopped := nofun

/-- The worker does not stop before the publisher is closed. -/
theorem running (agrees : ledger.Agrees capacity events p) (isOpen : p.isOpen = true) :
    p.isStopped = false := by
  cases stopped : p.isStopped with
  | false => rfl
  | true =>
      rw [(agrees.stopped stopped).1] at isOpen
      cases isOpen

theorem offer (agrees : ledger.Agrees capacity events p) (isOpen : p.isOpen = true)
    (report : α) :
    (ledger.enter p (.offer report)).Agrees capacity (events ++ [.offer report])
      (p.offer report) := by
  have offeredEq : offers (events ++ [.offer report]) = offers events ++ [report] := by
    simp [offers, Event.report?]
  have running : p.isStopped ≠ true := by simp [agrees.running isOpen]
  unfold enter Publisher.offer
  dsimp only
  split
  · next room =>
      exact
        { agrees with
          bounded := by simpa [Nat.succ_le_iff] using room
          offered := by simpa only [offeredEq] using agrees.offered.append_right [report]
          counted := by simp [offeredEq, agrees.counted, Nat.add_right_comm]
          queued := by simp [agrees.queued]
          stopped := fun stopped => absurd stopped running }
  · exact
      { agrees with
        offered := by
          rw [offeredEq]
          exact agrees.offered.trans (List.sublist_append_left ..)
        counted := by simp [offeredEq, agrees.counted, Nat.add_assoc]
        dropped := by simp [agrees.dropped] }

theorem receive (agrees : ledger.Agrees capacity events p) {report : α} {rest : List α}
    (queue : p.queue = report :: rest) :
    (ledger.enter p .receive).Agrees capacity (events ++ [.receive])
      { p with queue := rest, latest := some report } := by
  have offeredEq : offers (events ++ [.receive]) = offers events := by
    simp [offers, Event.report?]
  have before : p.handed.Sublist ledger.received :=
    (List.sublist_append_left ..).trans agrees.inOrder
  unfold enter
  rw [queue]
  exact
    { agrees with
      bounded := by
        have bounded := agrees.bounded
        rw [queue] at bounded
        exact Nat.le_of_succ_le bounded
      offered := by rw [offeredEq]; exact agrees.offered
      counted := by rw [offeredEq]; exact agrees.counted
      queued := by simp [agrees.queued, queue]
      inOrder := before.append_right [report]
      last := by simp
      stopped := fun stopped => by
        rw [(agrees.stopped stopped).2.1] at queue
        cases queue }

/-- An event that hands over what there is to hand over. -/
theorem publish (agrees : ledger.Agrees capacity events p) (event : Event α)
    (silent : event.report? = none) (accepted : Bool) :
    Ledger.Agrees capacity (events ++ [event])
      { ledger with handovers := ledger.handovers ++ p.handover accepted }
      (p.publish accepted) := by
  have offeredEq : offers (events ++ [event]) = offers events := by
    simp [offers, silent]
  rw [publish_eq]
  exact
    { agrees with
      offered := by rw [offeredEq]; exact agrees.offered
      counted := by rw [offeredEq]; exact agrees.counted
      handed := by simp [agrees.handed]
      published := by simp [agrees.published]
      inOrder := by simpa using agrees.inOrder
      last := by simpa using agrees.last
      stopped := fun stopped => ⟨(agrees.stopped stopped).1, (agrees.stopped stopped).2.1, rfl⟩ }

/-- Every event keeps the accounts in agreement with the state. -/
theorem step (agrees : ledger.Agrees capacity events p) {event : Event α} {q : Publisher α}
    (stepped : p.step? event = some q) :
    (ledger.enter p event).Agrees capacity (events ++ [event]) q := by
  cases event with
  | offer report =>
      obtain ⟨isOpen, rfl⟩ := (step?_offer_iff report).mp stepped
      exact agrees.offer isOpen report
  | receive =>
      obtain ⟨_, report, rest, queue, rfl⟩ := step?_receive_iff.mp stepped
      exact agrees.receive queue
  | fire accepted =>
      obtain ⟨_, rfl⟩ := (step?_fire_iff accepted).mp stepped
      exact agrees.publish (.fire accepted) rfl accepted
  | close =>
      obtain ⟨_, rfl⟩ := step?_close_iff.mp stepped
      have offeredEq : offers (events ++ [.close]) = offers events := by
        simp [offers, Event.report?]
      exact
        { agrees with
          offered := by rw [offeredEq]; exact agrees.offered
          counted := by rw [offeredEq]; exact agrees.counted
          stopped := fun stopped => ⟨rfl, (agrees.stopped stopped).2⟩ }
  | finish accepted =>
      obtain ⟨closed, empty, _, rfl⟩ := (step?_finish_iff accepted).mp stepped
      have published := agrees.publish (.finish accepted) rfl accepted
      rw [publish_eq] at published ⊢
      exact { published with stopped := fun _ => ⟨closed, empty, rfl⟩ }

/-- Once the worker has stopped, the last report handed over is the last one accepted. -/
theorem flushed (agrees : ledger.Agrees capacity events p) (stopped : p.isStopped = true) :
    p.handed.getLast? = ledger.accepted.getLast? := by
  obtain ⟨_, empty, none⟩ := agrees.stopped stopped
  have last := agrees.last
  rw [none, Option.toList_none, List.append_nil] at last
  rw [agrees.queued, empty, List.append_nil, last]

end Ledger.Agrees

theorem ledger_agrees {settings : TelemetrySettings} {events : List (Event α)}
    {p : Publisher α} (ran : (start settings).run? events = some p) :
    ((start settings).ledger events).Agrees (max settings.queueCapacity.toNat 1) events p := by
  have step : ∀ before ledger p event q,
      Ledger.Agrees (max settings.queueCapacity.toNat 1) before ledger p →
      p.step? event = some q →
      Ledger.Agrees (max settings.queueCapacity.toNat 1) (before ++ [event])
        (ledger.enter p event) (q : Publisher α) :=
    fun _ _ _ _ _ agrees stepped => agrees.step stepped
  exact invariant_of_run? step (Ledger.Agrees.start settings) ran

/-! ## What the sink makes of reports -/

/-- The publisher without the count of what the sink accepted. -/
def uncounted (p : Publisher α) : Publisher α := { p with published := 0 }

/-- Whether the sink accepts what it is handed matters to the count alone. -/
theorem uncounted_publish (p : Publisher α) (accepted : Bool) :
    (p.publish accepted).uncounted = (p.uncounted.publish true).uncounted := by
  simp only [publish_eq, uncounted]

theorem step?_uncounted (p : Publisher α) (event : Event α) :
    (p.step? event).map uncounted = (p.uncounted.step? event.blind).map uncounted := by
  cases event with
  | offer report =>
      by_cases isOpen : p.isOpen = true <;> by_cases room : p.queue.length < p.capacity <;>
        simp [step?, offer, uncounted, Event.blind, isOpen, room]
  | receive =>
      cases queue : p.queue <;> cases stopped : p.isStopped <;>
        simp [step?, uncounted, Event.blind, queue, stopped]
  | fire accepted =>
      cases stopped : p.isStopped with
      | true => simp [step?, uncounted, Event.blind, stopped]
      | false =>
          have published := p.uncounted_publish accepted
          have running : p.uncounted.isStopped = false := stopped
          simpa [step?, Event.blind, stopped, running] using published
  | close =>
      by_cases isOpen : p.isOpen = true <;> simp [step?, uncounted, Event.blind, isOpen]
  | finish accepted =>
      have published := congrArg (fun q => { q with isStopped := true })
        (p.uncounted_publish accepted)
      change Option.map _ (if (p.isOpen || !p.queue.isEmpty || p.isStopped) = true then _ else _) =
        Option.map _ (if (p.isOpen || !p.queue.isEmpty || p.isStopped) = true then _ else _)
      split
      · rfl
      · exact congrArg some published

/-- Events that differ in what the sink makes of reports lead to the same state, but for
the count. -/
theorem run?_uncounted {p p' : Publisher α} (same : p.uncounted = p'.uncounted)
    {events events' : List (Event α)}
    (blind : events.map Event.blind = events'.map Event.blind) :
    (p.run? events).map uncounted = (p'.run? events').map uncounted := by
  induction events generalizing p p' events' with
  | nil =>
      obtain rfl := List.map_eq_nil_iff.mp blind.symm
      exact congrArg some same
  | cons event rest ih =>
      cases events' with
      | nil => cases blind
      | cons event' rest' =>
          obtain ⟨here, further⟩ := List.cons.inj blind
          have stepped : (p.step? event).map uncounted = (p'.step? event').map uncounted := by
            rw [step?_uncounted, step?_uncounted p', same, here]
          rw [run?, run?]
          cases next : p.step? event with
          | none =>
              rw [next, Option.map_none, eq_comm, Option.map_eq_none_iff] at stepped
              rw [stepped, Option.bind_none, Option.bind_none]
          | some q =>
              rw [next, Option.map_some, eq_comm, Option.map_eq_some_iff] at stepped
              obtain ⟨q', next', same'⟩ := stepped
              rw [next', Option.bind_some, Option.bind_some]
              exact ih same'.symm further

/-! ## Shutting down -/

/-- The worker can take everything that waits. -/
theorem run?_receiveAll {p : Publisher α} (running : p.isStopped = false) :
    p.run? (List.replicate p.queue.length .receive) = some p.receiveAll := by
  cases p with
  | mk capacity queue latest isOpen isStopped dropped published handed =>
      obtain rfl : isStopped = false := running
      induction queue generalizing latest with
      | nil => rfl
      | cons report rest ih =>
          refine (ih (some report)).trans ?_
          simp only [receiveAll, List.getLast?_cons, Option.some.injEq]
          cases rest.getLast? <;> rfl

/-- An open publisher can be shut down: it is closed, the worker takes what waits, and
finishes. -/
theorem run?_shutdown {p : Publisher α} (isOpen : p.isOpen = true)
    (running : p.isStopped = false) (accepts : α → Bool) :
    p.run? (.close :: (List.replicate p.queue.length .receive ++
        [.finish (p.receiveAll.latest.any accepts)])) =
      some (p.shutdown accepts) := by
  have closed : p.step? .close = some { p with isOpen := false } :=
    step?_close_iff.mpr ⟨isOpen, rfl⟩
  have taken : ({ p with isOpen := false } : Publisher α).run?
      (List.replicate p.queue.length .receive) =
        some ({ p with isOpen := false } : Publisher α).receiveAll :=
    run?_receiveAll running
  rw [run?, closed, Option.bind_some, run?_append, taken, Option.bind_some, run?_singleton]
  exact (step?_finish_iff _).mpr ⟨rfl, rfl, running, rfl⟩

/-! ## All runs -/

/-- What a run of a publisher that starts with given settings has come to. -/
structure Delivers (settings : TelemetrySettings) (events : List (Event α))
    (p : Publisher α) : Prop where
  handed : p.handed = ((start settings).ledger events).handovers.map Prod.fst
  /-- What is handed over is a part of what was accepted, in the same order. -/
  inOrder : p.handed.Sublist ((start settings).ledger events).accepted
  offered : ((start settings).ledger events).accepted.Sublist (offers events)
  /-- Offers are accepted, or dropped and counted. -/
  counted : (offers events).length =
    ((start settings).ledger events).accepted.length + p.dropped
  /-- An offer finds in the queue what was accepted and not taken before. If that fills
  the queue the offer is dropped, and otherwise it joins the queue. -/
  dropped : ∀ before report after, events = before ++ .offer report :: after →
    ∃ q, (start settings).run? before = some q ∧
      ((start settings).ledger before).accepted =
        ((start settings).ledger before).received ++ q.queue ∧
      q.queue.length ≤ max settings.queueCapacity.toNat 1 ∧
      (start settings).run? (before ++ [.offer report]) =
        some (if q.queue.length = max settings.queueCapacity.toNat 1 then
          { q with dropped := q.dropped + 1 }
        else
          { q with queue := q.queue ++ [report] })
  published : p.published = ((start settings).ledger events).handovers.countP Prod.snd
  /-- Had the sink accepted other reports, then the same would have happened, but for the
  count of those that it accepted. -/
  sink : ∀ events', events'.map Event.blind = events.map Event.blind →
    ∃ p', (start settings).run? events' = some p' ∧ p'.uncounted = p.uncounted
  /-- When the worker has stopped, the last report handed over is the last one accepted. -/
  flushed : p.isStopped = true →
    p.handed.getLast? = ((start settings).ledger events).accepted.getLast?
  /-- An open publisher can be shut down without another offer. -/
  closes : p.isOpen = true → ∀ accepts : α → Bool,
    (p.shutdown accepts).isStopped = true ∧
      ∃ further, offers further = [] ∧
        (start settings).run? (events ++ further) = some (p.shutdown accepts)

/-- However the offers, the turns of the worker and the end follow one another, reports
are handed over in the order in which they were accepted, none is handed over twice, and
none but those that find the queue full are dropped. A sink that fails changes the count of
published reports alone. When the worker has stopped, the last report accepted was the last
to be handed over. -/
theorem run_delivers_in_order (settings : TelemetrySettings) (events : List (Event α))
    (p : Publisher α) (ran : (start settings).run? events = some p) :
    Delivers settings events p := by
  have agrees := ledger_agrees ran
  exact
    { handed := agrees.handed
      inOrder := by
        rw [agrees.queued]
        exact ((List.sublist_append_left ..).trans agrees.inOrder).trans
          (List.sublist_append_left ..)
      offered := agrees.offered
      counted := by rw [agrees.dropped]; exact agrees.counted
      dropped := by
        rintro before report after rfl
        rw [run?_append, Option.bind_eq_some_iff] at ran
        obtain ⟨q, ranBefore, ranOn⟩ := ran
        obtain ⟨next, stepped, _⟩ := (run?_cons_eq_some_iff ..).mp ranOn
        have agreesBefore := ledger_agrees ranBefore
        refine ⟨q, ranBefore, agreesBefore.queued,
          agreesBefore.capacity ▸ agreesBefore.bounded, ?_⟩
        rw [run?_append, ranBefore, Option.bind_some, run?_singleton, stepped,
          ((step?_offer_iff report).mp stepped).2, offer_eq agreesBefore.bounded,
          agreesBefore.capacity]
      published := agrees.published
      sink := by
        intro events' blind
        have same := run?_uncounted (rfl : (start settings : Publisher α).uncounted = _) blind
        rw [ran, Option.map_some, Option.map_eq_some_iff] at same
        exact same
      flushed := agrees.flushed
      closes := by
        intro isOpen accepts
        refine ⟨rfl, .close :: (List.replicate p.queue.length .receive ++
          [.finish (p.receiveAll.latest.any accepts)]), ?_, ?_⟩
        · rw [offers, List.filterMap_cons_none rfl, List.filterMap_append,
            List.filterMap_replicate_of_none rfl]
          rfl
        · rw [run?_append, ran, Option.bind_some]
          exact run?_shutdown isOpen (agrees.running isOpen) accepts }

/-- Room for one report. The second offer finds it taken, the first is overtaken by the
third, the sink fails for the third, and the fourth is handed over when the worker stops. -/
theorem run_delivers_in_order_of_full_queue :
    let settings : TelemetrySettings := { queueCapacity := 0 }
    let events : List (Event Nat) :=
      [ .offer 1, .offer 2, .receive, .offer 3, .receive, .fire false, .fire true, .offer 4,
        .close, .receive, .finish true ]
    let p : Publisher Nat :=
      { capacity := 1, isOpen := false, isStopped := true, dropped := 1, published := 1,
        handed := [3, 4] }
    (start settings).run? events = some p ∧
      ((start settings).ledger events).accepted = [1, 3, 4] ∧
        Delivers settings events p :=
  ⟨rfl, rfl, run_delivers_in_order _ _ _ rfl⟩

end Publisher

end Blackboard
