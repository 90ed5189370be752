/-!
# Broadcast of the shutdown signal

Every subscriber gets each signal sent after it subscribed. The channel holds one signal only, so a
subscriber that waits too long loses all but the last one and is told how many it has lost. A signal
that nobody listens to is not sent.
-/
namespace Signpost

/-- The number of signals sent, and for each subscriber how many of them it is done with. A
subscriber that has left has no number. -/
structure Broadcast where
  sent : Nat
  subscribers : List (Option Nat)
  deriving DecidableEq, Repr

namespace Broadcast

inductive Received where
  | signal
  /-- No signal is waiting. -/
  | empty
  | lagged (lost : Nat)
  /-- The subscriber has left. -/
  | left
  deriving DecidableEq, Repr

def start : Broadcast := ⟨0, []⟩

/-- The number of subscribers that listen. -/
def listening (b : Broadcast) : Nat := b.subscribers.countP Option.isSome

/-- A new subscriber, numbered after the ones before. -/
def subscribe (b : Broadcast) : Broadcast :=
  { b with subscribers := b.subscribers ++ [some b.sent] }

def trigger (b : Broadcast) : Broadcast :=
  if b.listening = 0 then b else { b with sent := b.sent + 1 }

def leave (b : Broadcast) (i : Nat) : Broadcast :=
  { b with subscribers := b.subscribers.set i none }

/-- Record how many signals a subscriber is done with. -/
def advance (b : Broadcast) (i position : Nat) : Broadcast :=
  { b with subscribers := b.subscribers.set i (some position) }

/-- What a subscriber gets if it does not wait. -/
def receive (b : Broadcast) (i : Nat) : Received × Broadcast :=
  match b.subscribers[i]? with
  | some (some position) =>
    if position = b.sent then (.empty, b)
    else if position + 1 = b.sent then (.signal, b.advance i b.sent)
    else (.lagged (b.sent - 1 - position), b.advance i (b.sent - 1))
  | _ => (.left, b)

end Broadcast

end Signpost
