import Iscp.Go.Sort
import Iscp.Go.Time

/-!
# The queue in memory

The messages a relay without a database keeps for devices that are not connected. Every
operation drops the messages that have expired; a message is refused when the envelopes
together would be longer than the queue allows, and taken out for its recipient in the order of
priority, the older one first. `sort.Slice` is not stable, so how messages of one priority and
one time are ordered is left open.
-/

namespace Iscp

open Go

namespace Queue

/-- **A message.** -/
structure Message where
  domainID : Str
  messageID : Str
  senderDeviceID : Str
  recipientDeviceID : Str
  envelope : Bytes
  priority : ℤ
  expiresAt : Time
  queuedAt : Time
  deriving DecidableEq

/-- A message without its envelope. -/
structure MessageMetadata where
  domainID : Str
  messageID : Str
  senderDeviceID : Str
  recipientDeviceID : Str
  priority : ℤ
  queuedAt : Time
  expiresAt : Time
  deriving DecidableEq

/-- What is shown of a message. -/
def Message.metadata (m : Message) : MessageMetadata :=
  ⟨m.domainID, m.messageID, m.senderDeviceID, m.recipientDeviceID, m.priority, m.queuedAt,
    m.expiresAt⟩

end Queue

/-- **The queue.** -/
structure Queue where
  messages : List Queue.Message
  maxBytes : ℤ
  currentBytes : ℕ

namespace Queue

/-- `New`. -/
def new (maxBytes : ℤ) : Queue := ⟨[], maxBytes, 0⟩

/-- The messages that have not expired, and the bytes they take. -/
def keep (q : Queue) (messages : List Message) : Queue :=
  { q with
    messages := messages
    -- `recalculateBytesLocked`
    currentBytes := (messages.map fun m => m.envelope.length).sum }

/-- The messages that have not expired. -/
def live (q : Queue) (now : Time) : List Message :=
  q.messages.filter fun m => !now.after m.expiresAt

/-- **`Enqueue`.** -/
def enqueue (q : Queue) (msg : Message) (now : Time) : Queue × Bool :=
  let q := q.keep (q.live now)
  if q.maxBytes < msg.envelope.length ∨ q.maxBytes < q.currentBytes + msg.envelope.length then
    (q, false)
  else
    let msg :=
      if msg.queuedAt.unixNano = Time.zero.unixNano then { msg with queuedAt := now } else msg
    ({ q with
      messages := q.messages ++ [msg]
      currentBytes := q.currentBytes + msg.envelope.length }, true)

/-- Whether a message goes out before another: its priority is higher, or it is older. -/
def before (priority priority' : ℤ) (queuedAt queuedAt' : Time) : Bool :=
  if priority = priority' then queuedAt.before queuedAt' else priority' < priority

/-- **`DequeueFor`**, for a way the ties of the sort fall. -/
def dequeueFor (q : Queue) (ties : ℕ → ℕ) (domainID recipient : Str) (now : Time)
    (limit : ℤ) : Queue × List Message :=
  let isFor := fun m : Message => m.domainID = domainID ∧ m.recipientDeviceID = recipient
  let matched := sortSlice (fun m m' => before m.priority m'.priority m.queuedAt m'.queuedAt) ties
    ((q.live now).filter fun m => isFor m)
  let kept := (q.live now).filter fun m => ¬isFor m
  (q.keep (kept ++ matched.drop limit.toNat), matched.take limit.toNat)

/-- **`SnapshotMetadata`.** -/
def snapshotMetadata (q : Queue) (ties : ℕ → ℕ) (now : Time) :
    Queue × List MessageMetadata :=
  (q.keep (q.live now), sortSlice
    (fun m m' => before m.priority m'.priority m.queuedAt m'.queuedAt) ties
    ((q.live now).map Message.metadata))

end Queue

end Iscp
