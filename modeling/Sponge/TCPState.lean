import Sponge.TCPReceiver
import Sponge.TCPSender

/-!
# Summaries of a connection's state

Embedding of `libsponge/tcp_helpers/tcp_state.{hh,cc}`.  The state of a connection
is summarised by the state of its sender, the state of its receiver, and the two
bits that belong to the connection itself; the twelve official states of the TCP
specification are twelve of these summaries.  The summaries are strings in the
source and constructors here; their texts are not modelled.

Two of the official states, `CLOSED` and `RESET`, are the inactive ones.  The summary is a
function of the connection and forgets most of it.  What can be concluded from it about the
connection's history is the subject of later modules: `TCPConnection.Machine` for the
official states, `TCPConnection.Summary` for the sender's part.
-/

namespace Sponge

/-- `TCPReceiverStateSummary`. -/
inductive TCPReceiverStateSummary where
  | error
  | listen
  | synRecv
  | finRecv
  deriving Repr, DecidableEq

/-- `TCPSenderStateSummary`. -/
inductive TCPSenderStateSummary where
  | error
  | closed
  | synSent
  | synAcked
  | finSent
  | finAcked
  deriving Repr, DecidableEq

/-- `TCPState`: what can be seen of a connection from outside.  The source keeps the summaries as
strings and compares these; here each is a value of its own. -/
structure TCPState where
  sender : TCPSenderStateSummary
  receiver : TCPReceiverStateSummary
  active : Bool := true
  lingerAfterStreamsFinish : Bool := true
  deriving Repr, DecidableEq

namespace TCPState

/-- The official state names. -/
inductive State where
  | listen
  | synRcvd
  | synSent
  | established
  | closeWait
  | lastAck
  | finWait1
  | finWait2
  | closing
  | timeWait
  | closed
  | reset
  deriving Repr, DecidableEq

/-- `TCPState(state)`: the summary of an official state. -/
def ofState : State → TCPState
  | .listen => { receiver := .listen, sender := .closed }
  | .synRcvd => { receiver := .synRecv, sender := .synSent }
  | .synSent => { receiver := .listen, sender := .synSent }
  | .established => { receiver := .synRecv, sender := .synAcked }
  | .closeWait => { receiver := .finRecv, sender := .synAcked, lingerAfterStreamsFinish := false }
  | .lastAck => { receiver := .finRecv, sender := .finSent, lingerAfterStreamsFinish := false }
  | .closing => { receiver := .finRecv, sender := .finSent }
  | .finWait1 => { receiver := .synRecv, sender := .finSent }
  | .finWait2 => { receiver := .synRecv, sender := .finAcked }
  | .timeWait => { receiver := .finRecv, sender := .finAcked }
  | .reset =>
      { receiver := .error, sender := .error, lingerAfterStreamsFinish := false, active := false }
  | .closed =>
      { receiver := .finRecv, sender := .finAcked, lingerAfterStreamsFinish := false,
        active := false }

def receiverSummary (receiver : TCPReceiver) : TCPReceiverStateSummary :=
  if receiver.streamOut.error then .error
  else if receiver.ackno.isNone then .listen
  else if receiver.streamOut.inputEnded then .finRecv
  else .synRecv

/-- A receiver listens until it has something to acknowledge. -/
theorem receiverSummary_eq_listen {receiver : TCPReceiver} :
    receiverSummary receiver = .listen ↔
      receiver.streamOut.error = false ∧ receiver.ackno = none := by
  unfold receiverSummary
  cases receiver.streamOut.error <;> cases receiver.ackno <;> simp
  split <;> simp

def senderSummary (sender : TCPSender) : TCPSenderStateSummary :=
  if sender.stream.error then .error
  else if sender.nextSeqno = 0 then .closed
  else if sender.nextSeqno = sender.bytesInFlight then .synSent
  else if !sender.stream.eof then .synAcked
  else if sender.nextSeqno < sender.stream.bytesWritten + 2 then .synAcked
  else if sender.bytesInFlight ≠ 0 then .finSent
  else .finAcked

/-- `TCPState(sender, receiver, active, linger)`. -/
def ofParts (sender : TCPSender) (receiver : TCPReceiver) (active linger : Bool) : TCPState :=
  { sender := senderSummary sender
    receiver := receiverSummary receiver
    active := active
    lingerAfterStreamsFinish := if active then linger else false }

end TCPState

end Sponge
