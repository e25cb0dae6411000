import SecondGear.Model.EventLoop

/-!
# `SecondGear.Model.Main`: the program of `main.cpp`

One server on one loop. Its connection callback, `onConnection`, sends two messages to a
connection that is up, and its message callback, `onMessage`, throws away what it is given.
Nothing else uses the connections.

A callback is the list of the calls that it makes. `Program.todo` is what the callback that
runs still has to do, and `mainMachine` is the loop with the user code of `main.cpp` in the
place of arbitrary user code.
-/

set_option autoImplicit false

namespace SecondGear

open SecondGear.Lib

/-- A call of the user code. -/
inductive UserCall where
  | send (conn : TcpConnectionPtr) (message : List Byte)
  | retrieveAll (conn : TcpConnectionPtr)
deriving DecidableEq, Repr

/-- The program between two steps. -/
structure Program where
  loop : EventLoop
  /-- what the callback still has to do -/
  todo : List UserCall

section

variable (message1 message2 : List Byte)

def onConnection (loop : EventLoop) (conn : TcpConnectionPtr) : List UserCall :=
  if (loop.conns[conn]?).any (·.conn.connected) then
    [.send conn message1, .send conn message2]
  else []

def onMessage (conn : TcpConnectionPtr) : List UserCall := [.retrieveAll conn]

/-- The body of the callback that starts. No timer and no functor of the user is there. -/
def callbackBody (loop : EventLoop) : List UserCall :=
  match loop.frame with
  | some (.connectEstablished conn) | some (.connectDestroyed conn) =>
      onConnection message1 message2 loop conn
  | some (.message conn) => onMessage conn
  | some .timer | some .functor | none => []

namespace Program

/-- The server is started before the loop runs. -/
def main (timerfd wakeupFd acceptSocket : Int) : Option Program := do
  let loop ← EventLoop.new timerfd wakeupFd
  let loop ← loop.startServer "TcpServer" acceptSocket
  return { loop, todo := [] }

/-- The user code does what its callback says next, and returns at its end. -/
def Follows (s : Program) : LoopAction → Prop
  | .send conn message _ => s.todo.head? = some (.send conn message)
  | .input conn op => s.todo.head? = some (.retrieveAll conn) ∧ op = .retrieveAll
  | .callbackReturns => s.todo = []
  | .shutdown _ | .addRef _ | .dropRef _ | .queueInLoop | .startServer _ _ => False
  | _ => True

instance (s : Program) : (a : LoopAction) → Decidable (s.Follows a)
  | .send _ _ _ => inferInstanceAs (Decidable (_ = _))
  | .input _ _ => inferInstanceAs (Decidable (_ ∧ _))
  | .callbackReturns => inferInstanceAs (Decidable (_ = _))
  | .shutdown _ | .addRef _ | .dropRef _ | .queueInLoop | .startServer _ _ => isFalse id
  | .poll _ _ | .handleEvent | .runHandler _ _ _ | .doPendingFunctors | .runFunctor
  | .endFunctors => isTrue trivial

/-- The calls after a step: a callback goes on, or the next one starts. -/
def nextTodo (s : Program) (loop : EventLoop) : LoopAction → List UserCall
  | .send _ _ _ | .input _ _ => s.todo.tail
  | _ => callbackBody message1 message2 loop

def step (s : Program) (a : LoopAction) : Option Program :=
  (s.loop.step a).map fun loop => { loop, todo := s.nextTodo message1 message2 loop a }

end Program

def mainMachine : Machine Program LoopAction where
  legal s a := s.loop.Legal a ∧ s.Follows a
  step := Program.step message1 message2

instance (s : Program) (a : LoopAction) : Decidable ((mainMachine message1 message2).legal s a) :=
  inferInstanceAs (Decidable (s.loop.Legal a ∧ s.Follows a))

end

end SecondGear
