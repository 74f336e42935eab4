import DecodePipeline.Settings
import DecodePipeline.Stage.Hub

/-!
The attempts on one item: each waits for a decoder slot, calls the decoder while it holds the slot, and
is followed by a pause and the next attempt if the policy allows. Cancellation is noticed before a slot
is taken, by a call that heeds it, and during a pause.
-/

namespace DecodePipeline

namespace Attempts

/-- How the attempts on an item came out. -/
inductive Outcome where
  | transformed (set : ArtifactSet)
  | failed (item : WorkItem) (fault : Fault)
  | cancelled
  | panicked
  | aborted
  deriving Repr, DecidableEq

end Attempts

inductive Attempts where
  | waiting (item : WorkItem)
  | calling (item : WorkItem) (due : Option Nat) (heeds : Bool) (reply : Reply Fault Decoded)
  | pausing (item : WorkItem) (due : Nat)
  | ended (outcome : Attempts.Outcome)
  deriving Repr, DecidableEq

namespace Attempts

def begin (item : WorkItem) : Attempts := .waiting item.begun

/-- A call as the decoder makes it: one that heeds its time limit ends there at the latest. -/
def limited (timeout : Span) (b : DecoderBehaviour) : Behaviour Fault Decoded :=
  if b.heeds ∧ b.delay.all (timeout.millis < ·) then ⟨some timeout.millis, .fails (.timedOut timeout)⟩
  else b.toBehaviour

/-- What follows an attempt that ended with a fault. -/
def afterFault (policy : RetryPolicy) (now : Nat) (item : WorkItem) (fault : Fault) : Attempts :=
  if fault.isCancelled then .ended .cancelled
  else
    let item' := item.noted fault.message
    if fault.isRetryable && policy.shouldRetry item.attempt then
      .pausing item' (now + policy.delayMs item.attempt)
    else .ended (.failed (item'.failed fault.message) fault)

/-- What follows an attempt, by the decoder's reply. -/
def afterReply (policy : RetryPolicy) (hub : Hub) (item : WorkItem) :
    Reply Fault Decoded → Hub × Attempts
  | .panics => (hub, .ended .panicked)
  | .fails fault => (hub, afterFault policy hub.now item fault)
  | .gives out =>
    ({ hub with present := hub.present ++ out.created },
      .ended (.transformed (ArtifactSet.ofItem item.transformed out.files Instant.epoch)))

/-- One step, or nothing while the attempt is held up. -/
def step (w : World) (policy : RetryPolicy) (timeout : Span) (hub : Hub) :
    Attempts → Option (Hub × Attempts)
  | .waiting item =>
    if hub.cancelled then some (hub, .ended .cancelled)
    else if hub.slots = 0 then none
    else
      let behaviour := w.decoder item.id (hub.callsFor item.id)
      let b := limited timeout behaviour
      some (hub.beginCall item, .calling item (dueAt hub.now b.delay) behaviour.heeds b.reply)
  | .calling item due heeds reply =>
    if heeds && hub.cancelled then some (hub.endCall, .ended .cancelled)
    else if isDue hub.now due then some (afterReply policy hub.endCall item reply)
    else none
  | .pausing item due =>
    if hub.cancelled then some (hub, .ended .cancelled)
    else if due ≤ hub.now then some (hub, .waiting item.begun)
    else none
  | .ended _ => none

def nextDue : Attempts → Option Nat
  | .calling _ due _ _ => due
  | .pausing _ due => some due
  | _ => none

/-- The item, until its fate is decided. -/
def item? : Attempts → Option WorkItem
  | .waiting item | .calling item _ _ _ | .pausing item _ => some item
  | .ended _ => none

def outcome? : Attempts → Option Outcome
  | .ended outcome => some outcome
  | _ => none

def abort (hub : Hub) : Attempts → Hub × Attempts
  | .calling _ _ _ _ => (hub.endCall, .ended .aborted)
  | .ended outcome => (hub, .ended outcome)
  | _ => (hub, .ended .aborted)

end Attempts

end DecodePipeline
