import SecondGear.Model.TcpConnection

/-!
# `SecondGear.Model.SharedConnection`: a connection that users keep after its removal

A user that holds a `TcpConnectionPtr` goes on with `send` and `shutdown` while the peer
closes and the server removes the connection. `sharedMachine` runs a connection with the
removal: `handleClose` comes from a dispatched `handleRead`, `removeConnection` queues
`connectDestroyed` at the end of the queue, and the loop runs it in its turn.

`connectDestroyed` stands in the same queue as the other functors. The model keeps its place:
the number of functors before it.
-/

set_option autoImplicit false

namespace SecondGear

open SecondGear.Lib

/-- How far the removal has come. -/
inductive Removal where
  /-- in `connections_` -/
  | listed
  /-- `connectDestroyed` waits behind this many functors -/
  | queued (ahead : Nat)
  /-- inside `connectDestroyed`, in `connectionCallback_` -/
  | callback
  /-- `removeChannel` has returned -/
  | removed
deriving DecidableEq, Repr

namespace Removal

/-- One functor less before `connectDestroyed`. -/
def next : Removal → Removal
  | .queued ahead => .queued (ahead - 1)
  | r => r

/-- The loop takes the next functor from the front, and this is not `connectDestroyed`. -/
def frontIsOther : Removal → Bool
  | .queued ahead => ahead != 0
  | .callback => false
  | _ => true

end Removal

/-- A connection in use with its removal. -/
structure SharedConnection where
  run : ConnectionRun
  removal : Removal

namespace SharedConnection

/-- `poll` can report the channel: it is in the table, and its entry is not switched off. -/
def Reported (s : SharedConnection) : Prop :=
  s.run.poller.channels.lookup (s.run.poller.channel s.run.conn.channel).fd
      = some s.run.conn.channel ∧
    ∃ pfd ∈ s.run.poller.pollfds[(s.run.poller.channel s.run.conn.channel).index.toNat]?,
      0 ≤ pfd.fd

instance (s : SharedConnection) : Decidable s.Reported := by
  unfold Reported
  infer_instance

/-- The private methods run from `handleEvent` and from the queue only, the functors in the
order of the queue, and no event or functor inside `connectDestroyed`. -/
def Legal (s : SharedConnection) : ConnectionAction → Prop
  | .connectEstablished | .handleRead _ | .handleWrite _ | .handleClose | .shutdownInLoop => False
  | .handleEvent revents readv write =>
      s.run.Legal (.handleEvent revents readv write) ∧ s.Reported ∧ s.removal ≠ .callback
  | .runFunctor result => s.run.Legal (.runFunctor result) ∧ s.removal.frontIsOther = true
  | .connectDestroyed => s.removal = .queued 0
  | .connectDestroyedRemove => s.removal = .callback
  | a => s.run.Legal a

instance (s : SharedConnection) : (a : ConnectionAction) → Decidable (s.Legal a)
  | .connectEstablished | .handleRead _ | .handleWrite _ | .handleClose | .shutdownInLoop =>
      isFalse id
  | .handleEvent _ _ _ => inferInstanceAs (Decidable (_ ∧ _ ∧ _))
  | .runFunctor _ => inferInstanceAs (Decidable (_ ∧ _))
  | .connectDestroyed | .connectDestroyedRemove => inferInstanceAs (Decidable (_ = _))
  | .send m r => inferInstanceAs (Decidable (s.run.Legal (.send m r)))
  | .shutdown => inferInstanceAs (Decidable (s.run.Legal .shutdown))
  | .sendFrom t m => inferInstanceAs (Decidable (s.run.Legal (.sendFrom t m)))
  | .shutdownFrom t => inferInstanceAs (Decidable (s.run.Legal (.shutdownFrom t)))
  | .resume t => inferInstanceAs (Decidable (s.run.Legal (.resume t)))
  | .input op => inferInstanceAs (Decidable (s.run.Legal (.input op)))
  | .other op => inferInstanceAs (Decidable (s.run.Legal (.other op)))

/-- `closeCallback_`: `removeConnection` erases the connection and queues
`connectDestroyed`. -/
def removeConnection (s : SharedConnection) : Option SharedConnection := do
  let n := if s.removal = .listed then 1 else 0
  assert (n = 1)
  return { s with removal := .queued s.run.pendingFunctors.length }

def step (s : SharedConnection) (a : ConnectionAction) : Option SharedConnection := do
  -- `closed` tells whether this step ends in `closeCallback_`
  let run ← { s.run with closed := false }.step a
  match a with
  | .handleEvent _ _ _ =>
      if run.closed then removeConnection { s with run := run } else some { s with run := run }
  | .runFunctor _ => some { run := run, removal := s.removal.next }
  | .connectDestroyed => some { run := run, removal := .callback }
  | .connectDestroyedRemove => some { run := run, removal := .removed }
  | _ => some { s with run := run }

end SharedConnection

def sharedMachine : Machine SharedConnection ConnectionAction where
  legal := SharedConnection.Legal
  step := SharedConnection.step

instance (s : SharedConnection) (a : ConnectionAction) : Decidable (sharedMachine.legal s a) :=
  inferInstanceAs (Decidable (s.Legal a))

end SecondGear
