import Mips.Fault

/-!
What a simulator tells those who listen to it, and the channel on which it tells them.
Main statement: `inbox?_emit`, by which an event reaches every subscriber that listens.
-/

namespace Mips

/-- Where a simulator is with its program. -/
inductive ControlState where
  | idle
  | ready
  | running
  /-- The program has started and can go on. -/
  | paused
  | terminated
  deriving DecidableEq, Repr

def ControlState.name : ControlState → String
  | .idle => "idle"
  | .ready => "ready"
  | .running => "running"
  | .paused => "paused"
  | .terminated => "terminated"

/-- How a program ended. -/
inductive Termination where
  /-- It asked for its end, with this code. -/
  | exit (code : Int)
  /-- There was no instruction to execute. -/
  | droppedOffBottom
  | stopped
  | fault (report : FaultReport)
  deriving DecidableEq, Repr

/-- Something that happened in a simulator. -/
inductive Event where
  | stateChanged (state : ControlState)
  /-- The instruction at this address was executed. -/
  | stepped (pc : Address)
  /-- An instruction was undone, and this is the address of the next one to execute. -/
  | steppedBack (pc : Address)
  | breakpoint (address : Address)
  | fault (report : FaultReport)
  | terminated (termination : Termination)
  deriving DecidableEq, Repr

/-- Someone who was told of events. -/
structure Subscriber where
  number : Nat
  listening : Bool
  /-- The events that have not been taken yet, the newest one first. -/
  inbox : List Event
  deriving DecidableEq, Repr

/-- A channel that carries events to any number of subscribers. -/
structure EventChannel where
  /-- The subscribers, in the order of their subscriptions. -/
  subscribers : List Subscriber := []
  /-- How many subscriptions there have been. -/
  subscriptions : Nat := 0
  deriving DecidableEq, Repr

namespace EventChannel

/-- The channel with one more subscriber, whose number is that of the subscriptions before. -/
def subscribe (channel : EventChannel) : EventChannel where
  subscribers := channel.subscribers ++ [⟨channel.subscriptions, true, []⟩]
  subscriptions := channel.subscriptions + 1

/-- The channel after what a function does to the subscriber with this number. -/
def update (channel : EventChannel) (number : Nat) (change : Subscriber → Subscriber) :
    EventChannel :=
  { channel with
    subscribers := channel.subscribers.map fun subscriber =>
      if subscriber.number = number then change subscriber else subscriber }

/-- The channel after a subscriber stopped to listen; it is forgotten with the next event. -/
def unsubscribe (channel : EventChannel) (number : Nat) : EventChannel :=
  channel.update number fun subscriber => { subscriber with listening := false }

def hasSubscribers (channel : EventChannel) : Bool := !channel.subscribers.isEmpty

/-- The channel after an event was sent to all who listen; the others are forgotten. -/
def emit (channel : EventChannel) (event : Event) : EventChannel :=
  { channel with
    subscribers := (channel.subscribers.filter (·.listening)).map fun subscriber =>
      { subscriber with inbox := event :: subscriber.inbox } }

/-- The events that a subscriber who listens has not taken yet, the oldest one first. -/
def inbox? (channel : EventChannel) (number : Nat) : Option (List Event) :=
  (channel.subscribers.find? fun subscriber => subscriber.number = number && subscriber.listening).map
    fun subscriber => subscriber.inbox.reverse

def take (channel : EventChannel) (number : Nat) : EventChannel :=
  channel.update number fun subscriber => { subscriber with inbox := [] }

/-- An event reaches every subscriber that listens. -/
theorem inbox?_emit (channel : EventChannel) (event : Event) (number : Nat) :
    (channel.emit event).inbox? number = (channel.inbox? number).map (· ++ [event]) := by
  have same : (fun subscriber : Subscriber =>
      subscriber.listening && (subscriber.number = number && subscriber.listening)) =
        fun subscriber => subscriber.number = number && subscriber.listening := by
    funext subscriber
    cases subscriber.listening <;> simp
  simp [inbox?, emit, List.find?_map, List.find?_filter, Function.comp_def, same]

end EventChannel

end Mips
