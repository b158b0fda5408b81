import Blackboard.Settings

/-!
# Telemetry

A publisher takes reports off the scheduler's hands without ever making it wait.
Reports that are offered join a queue of limited length; one that finds it full
is dropped and counted. A worker takes them from the queue and keeps only the
latest, which it hands to a sink whenever its interval has passed. When the
publisher is closed the worker empties the queue and hands over the last report
before it stops.

The two sides run independently of each other, so that a run of the publisher is
any sequence of `Event`s that `step?` allows.
-/

namespace Blackboard

/-- The state of a publisher of reports of type `α`. -/
structure Publisher (α : Type) where
  /-- How many reports can wait. -/
  capacity : Nat
  /-- What waits, oldest first. -/
  queue : List α := []
  /-- What the worker would hand over next. -/
  latest : Option α := none
  isOpen : Bool := true
  /-- The worker has stopped. -/
  isStopped : Bool := false
  /-- How many offers were dropped. -/
  dropped : Nat := 0
  /-- How many of the reports handed over were accepted. -/
  published : Nat := 0
  /-- What was handed to the sink, oldest first. -/
  handed : List α := []

namespace Publisher

variable {α : Type}

/-- What can happen to a publisher. -/
inductive Event (α : Type) where
  /-- A report is offered. -/
  | offer (report : α)
  /-- The worker takes a report from the queue. -/
  | receive
  /-- The interval has passed; the sink accepts what it is handed, or not. -/
  | fire (accepted : Bool)
  /-- Nothing more will be offered. -/
  | close
  /-- The worker finds the queue closed and stops. -/
  | finish (accepted : Bool)
deriving DecidableEq, Repr

/-- At least one report can wait. -/
def start (settings : TelemetrySettings) : Publisher α :=
  { capacity := max settings.queueCapacity.toNat 1 }

/-- Adds a report to the queue, or drops it if the queue is full. -/
def offer (p : Publisher α) (report : α) : Publisher α :=
  if p.queue.length < p.capacity then
    { p with queue := p.queue ++ [report] }
  else
    { p with dropped := p.dropped + 1 }

/-- Hands the latest report to the sink, if there is one that was not handed over. -/
def publish (p : Publisher α) (accepted : Bool) : Publisher α :=
  match p.latest with
  | none => p
  | some report =>
    { p with
      latest := none
      handed := p.handed ++ [report]
      published := if accepted then p.published + 1 else p.published }

/-- The state after an event, if the event is possible. -/
def step? (p : Publisher α) : Event α → Option (Publisher α)
  | .offer report => if p.isOpen then some (p.offer report) else none
  | .receive =>
    match p.queue with
    | report :: rest =>
      if p.isStopped then none else some { p with queue := rest, latest := some report }
    | [] => none
  | .fire accepted => if p.isStopped then none else some (p.publish accepted)
  | .close => if p.isOpen then some { p with isOpen := false } else none
  | .finish accepted =>
    if p.isOpen || !p.queue.isEmpty || p.isStopped then
      none
    else
      some { p.publish accepted with isStopped := true }

/-- The state after a sequence of events, if each is possible. -/
def run? (p : Publisher α) : List (Event α) → Option (Publisher α)
  | [] => some p
  | event :: rest => (p.step? event).bind fun p => p.run? rest

/-- Lets the worker take everything that waits. -/
def receiveAll (p : Publisher α) : Publisher α :=
  { p with queue := [], latest := p.queue.getLast?.or p.latest }

/-- Lets the interval pass once; `accepts` says how the sink takes a report. -/
def fire (p : Publisher α) (accepts : α → Bool) : Publisher α := p.publish (p.latest.any accepts)

/-- Closes the publisher and waits until its worker has stopped. -/
def shutdown (p : Publisher α) (accepts : α → Bool) : Publisher α :=
  { ({ p with isOpen := false }.receiveAll).fire accepts with isStopped := true }

end Publisher

end Blackboard
