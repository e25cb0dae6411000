import SecondGear.Model.LoopThread

/-!
# `SecondGear.Model.CrossThreadSend`: what the functors of `send` and `shutdown` refer to

Called from another thread than the one of the loop, `send` queues a lambda that captures
`this` and `&message`, and `shutdown` one that captures `this`. Neither holds a
`TcpConnectionPtr`. `crossSendMachine` puts one connection and the strings of the threads
beside the loop: a string is a cell that its thread can write and destroy, and the connection
is alive while `connections_`, a thread, or the functor of `removeConnection` holds it.

`sendMessageFun` carries what was in the string at the call. The code has no such copy: it is
there to say what the call was given. What `sendInLoop` and `shutdownInLoop` do to the
connection is in `SecondGear.Model.TcpConnection`.
-/

set_option autoImplicit false

namespace SecondGear

open SecondGear.Lib

/-- The functors in the queue of the loop. -/
inductive SendFunctor where
  /-- `[this, &message]`: the string `x` of thread `t`, and its contents at the call -/
  | sendMessageFun (t x : Nat) (message : List Byte)
  /-- `[this]` -/
  | shutdownWR
  /-- `[conn]` -/
  | connectedDestroyed
  /-- of other users of the loop -/
  | other
deriving DecidableEq, Repr

namespace SendFunctor

/-- The functor calls a method of the connection through the captured `this`. -/
def usesThis : SendFunctor → Bool
  | .sendMessageFun _ _ _ | .shutdownWR => true
  | .connectedDestroyed | .other => false

/-- What the functor was given in a string. -/
def messageIn (t x : Nat) : SendFunctor → Option (List Byte)
  | .sendMessageFun t' x' message => if t' = t ∧ x' = x then some message else none
  | _ => none

end SendFunctor

/-- Where a thread is, inside `send` or `shutdown`, after the test of `state_`. -/
inductive SendPc where
  /-- `setState(kDisconnecting)` comes next -/
  | setDisconnecting
  /-- `queueInLoop` comes next -/
  | queueInLoop (f : SendFunctor)
deriving DecidableEq, Repr

/-- A connection, the threads that use it, and the loop. -/
structure CrossSend where
  loop : LoopThread SendFunctor
  state : StateE
  /-- the connection is in `connections_` -/
  listed : Bool
  /-- the threads that hold a `TcpConnectionPtr`, once for each that they hold -/
  holders : List ThreadId
  /-- the strings of the threads -/
  strings : Nat → Nat → Option (List Byte)
  /-- the threads that are inside `send` or `shutdown` -/
  threads : Nat → Option SendPc

namespace CrossSend

/-- The connection object exists: someone holds a `TcpConnectionPtr`. -/
def alive (s : CrossSend) : Bool :=
  s.listed || !s.holders.isEmpty || decide (.connectedDestroyed ∈ s.loop.held)

def setThread (s : CrossSend) (t : Nat) (pc : Option SendPc) : CrossSend :=
  { s with threads := Function.update s.threads t pc }

/-- `state_` after a step of the loop, which may call `connectDestroyed`. -/
def stateAfter (s : CrossSend) (a : LoopThreadAction SendFunctor) : Option StateE :=
  match s.loop.calledBy a with
  | some .connectedDestroyed => do
      assert (s.state = .kConnected ∨ s.state = .kDisconnecting)
      return .kDisconnected
  | _ => some s.state

end CrossSend

inductive CrossSendAction where
  /-- a step of the loop or of a thread that uses it for something else -/
  | loop (a : LoopThreadAction SendFunctor)
  /-- another thread calls `send` with one of its strings, and tests `state_` -/
  | send (t x : Nat)
  /-- another thread calls `shutdown`, and tests `state_` -/
  | shutdown (t : Nat)
  /-- another thread goes on with its call -/
  | resume (t : Nat)
  /-- another thread writes one of its strings, or destroys it -/
  | setString (t x : Nat) (contents : Option (List Byte))
  /-- a thread copies a `TcpConnectionPtr` -/
  | hold (u : ThreadId)
  /-- a thread destroys a `TcpConnectionPtr` -/
  | drop (u : ThreadId)
  /-- the loop thread calls `shutdown` -/
  | shutdownInThread
  /-- the loop dispatches a close: `handleClose` and `removeConnection` -/
  | handleClose

namespace CrossSend

/-- Another thread is inside no call of the connection or of the loop. -/
def Idle (s : CrossSend) : ThreadId → Prop
  | .loop => True
  | .other t => s.threads t = none ∧ s.loop.calls (.other t) = none

instance (s : CrossSend) : (u : ThreadId) → Decidable (s.Idle u)
  | .loop => isTrue trivial
  | .other _ => inferInstanceAs (Decidable (_ ∧ _))

/-- A thread inside `send` or `shutdown` makes no other call of the loop, and nobody else
queues the functors of the connection. -/
def LoopLegal (s : CrossSend) : LoopThreadAction SendFunctor → Prop
  | .queueInLoop u f => s.Idle u ∧ f = .other
  | .loop u | .quit u => s.Idle u
  | _ => True

instance (s : CrossSend) : (a : LoopThreadAction SendFunctor) → Decidable (s.LoopLegal a)
  | .queueInLoop _ _ => inferInstanceAs (Decidable (_ ∧ _))
  | .loop u | .quit u => inferInstanceAs (Decidable (s.Idle u))
  | .advance | .handleRead | .finish _ | .startLoop => isTrue trivial

/-- A thread calls the connection through a `TcpConnectionPtr` that it keeps for the time of
the call, with a string that exists. -/
def Legal (s : CrossSend) : CrossSendAction → Prop
  | .loop a => s.loop.Legal a ∧ s.LoopLegal a
  | .send t x => s.Idle (.other t) ∧ .other t ∈ s.holders ∧ (s.strings t x).isSome = true
  | .shutdown t => s.Idle (.other t) ∧ .other t ∈ s.holders
  | .resume t => s.threads t ≠ none ∧ s.loop.CanCall (.other t)
  | .setString t _ _ => s.Idle (.other t)
  | .hold u => s.Idle u ∧ s.alive = true
  | .drop u => s.Idle u ∧ u ∈ s.holders
  | .shutdownInThread => s.alive = true ∧ s.loop.pc.inCallback = true
  | .handleClose => s.listed = true ∧ s.loop.pc.inPass = false ∧ s.loop.pc.inCallback = true ∧
      s.loop.CanCall .loop

instance (s : CrossSend) : (a : CrossSendAction) → Decidable (s.Legal a)
  | .loop a => inferInstanceAs (Decidable (s.loop.Legal a ∧ s.LoopLegal a))
  | .send _ _ => inferInstanceAs (Decidable (_ ∧ _ ∧ _ = true))
  | .shutdown _ | .resume _ | .drop _ => inferInstanceAs (Decidable (_ ∧ _))
  | .setString t _ _ => inferInstanceAs (Decidable (s.Idle (.other t)))
  | .hold _ | .shutdownInThread => inferInstanceAs (Decidable (_ ∧ _ = true))
  | .handleClose => inferInstanceAs (Decidable (_ = true ∧ _ = false ∧ _ = true ∧ _))

def step (s : CrossSend) : CrossSendAction → Option CrossSend
  | .loop a => do
      let state ← s.stateAfter a
      let loop ← s.loop.step a
      return { s with loop, state }
  | .send t x =>
      match s.strings t x with
      | none => some s
      | some message =>
          if s.state = .kConnected then
            some (s.setThread t (some (.queueInLoop (.sendMessageFun t x message))))
          else some s
  | .shutdown t =>
      if s.state = .kConnected then some (s.setThread t (some .setDisconnecting)) else some s
  | .resume t =>
      match s.threads t with
      | none => some s
      | some .setDisconnecting =>
          some ({ s with state := .kDisconnecting }.setThread t (some (.queueInLoop .shutdownWR)))
      | some (.queueInLoop f) => do
          let loop ← s.loop.step (.queueInLoop (.other t) f)
          return { s.setThread t none with loop }
  | .setString t x contents =>
      some { s with
        strings := Function.update s.strings t (Function.update (s.strings t) x contents) }
  | .hold u => some { s with holders := u :: s.holders }
  | .drop u => some { s with holders := s.holders.erase u }
  | .shutdownInThread =>
      some { s with state := if s.state = .kConnected then .kDisconnecting else s.state }
  | .handleClose => do
      assert (s.state = .kConnected ∨ s.state = .kDisconnecting)
      let n := if s.listed then 1 else 0
      assert (n = 1)
      let loop ← s.loop.step (.queueInLoop .loop .connectedDestroyed)
      return { s with loop, listed := false }

end CrossSend

def crossSendMachine : Machine CrossSend CrossSendAction where
  legal := CrossSend.Legal
  step := CrossSend.step

instance (s : CrossSend) (a : CrossSendAction) : Decidable (crossSendMachine.legal s a) :=
  inferInstanceAs (Decidable (s.Legal a))

end SecondGear
