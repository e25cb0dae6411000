import Mathlib.Data.BitVec

/-!
# `SecondGear.Model.Channel`: interest, results and callbacks of one descriptor

A `Channel` (`Channel.h`, `Channel.cpp`) holds the events its owner asks for, the events
the last poll reported, its place in the poller's table, and the callbacks its owner
installed. The event masks are the `int` masks of `sys/poll.h`.
-/

set_option autoImplicit false

namespace SecondGear

/-- An `int` event mask. -/
abbrev Events := BitVec 32

def POLLIN : Events := 0x001#32
def POLLPRI : Events := 0x002#32
def POLLOUT : Events := 0x004#32
def POLLERR : Events := 0x008#32
def POLLHUP : Events := 0x010#32
def POLLNVAL : Events := 0x020#32
def POLLRDHUP : Events := 0x2000#32

/-- A `shared_ptr<Channel>`: the name of a channel on the heap. -/
abbrev ChannelPtr := Nat

/-- A callback: the member function of the channel's owner that it is bound to. -/
inductive Handler where
  | handleRead
  | handleWrite
  | handleClose
  | handleError
deriving DecidableEq, Repr

structure Channel where
  fd : Int
  events : Events
  revents : Events
  index : Int
  readCallback : Option Handler
  writeCallback : Option Handler
  errorCallback : Option Handler
  closeCallback : Option Handler
deriving DecidableEq

namespace Channel

def kNoneEvent : Events := 0#32

def kReadEvent : Events := POLLIN ||| POLLPRI

def kWriteEvent : Events := POLLOUT

/-- The constructor. No callback is installed yet. -/
def new (fd : Int) : Channel where
  fd := fd
  events := 0#32
  revents := 0#32
  index := -1
  readCallback := none
  writeCallback := none
  errorCallback := none
  closeCallback := none

def setReadCallBack (ch : Channel) (cb : Handler) : Channel := { ch with readCallback := some cb }

def isNoneEvent (ch : Channel) : Bool := ch.events == kNoneEvent

def isWriting (ch : Channel) : Bool := ch.events &&& kWriteEvent != 0#32

/-- The callbacks that `handleEvent` runs, in order. Each `if` reads only `revents` and
the installed callbacks, and no callback changes these. -/
def handleEvent (ch : Channel) : List Handler :=
  let has (mask : Events) : Bool := ch.revents &&& mask != 0#32
  (if has POLLHUP && !has POLLIN then ch.closeCallback.toList else []) ++
  (if has (POLLERR ||| POLLNVAL) then ch.errorCallback.toList else []) ++
  (if has (POLLIN ||| POLLPRI ||| POLLRDHUP) then ch.readCallback.toList else []) ++
  (if has POLLOUT then ch.writeCallback.toList else [])

end Channel

end SecondGear
