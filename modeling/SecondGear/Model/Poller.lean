import Mathlib.Data.List.AList
import Mathlib.Logic.Function.Basic
import SecondGear.Lib.Assert
import SecondGear.Lib.SwapRemove
import SecondGear.Model.Channel

/-!
# `SecondGear.Model.Poller`: the table handed to `poll(2)`

`Poller` (`Poller.h`, `Poller.cpp`) keeps the vector `pollfds_` for the system call and the
map `channels_` from descriptors to channels. A channel holds its position in the vector.
A negative descriptor in the vector is ignored by the kernel, so `-fd-1` switches the
entry of `fd` off.

The channels are objects on the heap that several parts of the program share. The model
keeps the heap beside the table, since `updateChannel` and `removeChannel` write the
`index_` of channels. `none` is a failed `assert`.

The `enable`/`disable` methods of `Channel` set the events and call `updateChannel` through
the loop. They are here because they need the table.
-/

set_option autoImplicit false

namespace SecondGear

open SecondGear.Lib

/-- `struct pollfd`. The events are `short`. -/
structure PollFd where
  fd : Int
  events : BitVec 16
  revents : BitVec 16
deriving DecidableEq

/-- The table, with the heap of channels beside it. -/
structure Poller where
  /-- the `Channel` objects -/
  channel : ChannelPtr → Channel
  /-- `pollfds_` -/
  pollfds : List PollFd
  /-- `channels_`, a `std::map<int, ChannelPtr>` -/
  channels : AList (fun _ : Int => ChannelPtr)

namespace Poller

/-- An empty table over a heap of channels. -/
def new (heap : ChannelPtr → Channel) : Poller where
  channel := heap
  pollfds := []
  channels := ∅

/-- Write one channel of the heap. -/
def setChannel (p : Poller) (c : ChannelPtr) (ch : Channel) : Poller :=
  { p with channel := Function.update p.channel c ch }

/-- `channel->set_index(idx)` -/
def setIndex (p : Poller) (c : ChannelPtr) (idx : Int) : Poller :=
  p.setChannel c { p.channel c with index := idx }

/-- `channel->events_ = events` -/
def setEvents (p : Poller) (c : ChannelPtr) (events : Events) : Poller :=
  p.setChannel c { p.channel c with events := events }

/-- `channel->set_revents(revents)` -/
def setRevents (p : Poller) (c : ChannelPtr) (revents : Events) : Poller :=
  p.setChannel c { p.channel c with revents := revents }

def updateChannel (p : Poller) (channel : ChannelPtr) : Option Poller :=
  let ch := p.channel channel
  if ch.index < 0 then
    -- a new one
    let pfd : PollFd := { fd := ch.fd, events := ch.events.setWidth 16, revents := 0 }
    let pollfds := p.pollfds ++ [pfd]
    let idx : Int := pollfds.length - 1
    some ({ p with pollfds := pollfds, channels := p.channels.insert pfd.fd channel }.setIndex
      channel idx)
  else do
    -- existing one
    assert (p.channels.lookup ch.fd).isSome
    assert (p.channels.lookup ch.fd = some channel)
    let idx := ch.index
    assert (idx ≥ 0 ∧ idx < p.pollfds.length)
    let pfd ← p.pollfds[idx.toNat]?
    assert (pfd.fd = ch.fd ∨ pfd.fd = -ch.fd - 1)
    let pfd := { pfd with events := ch.events.setWidth 16, revents := 0 }
    let pfd := if ch.isNoneEvent then { pfd with fd := -ch.fd - 1 } else pfd
    return { p with pollfds := p.pollfds.set idx.toNat pfd }

def removeChannel (p : Poller) (channel : ChannelPtr) : Option Poller := do
  let ch := p.channel channel
  assert (p.channels.lookup ch.fd).isSome
  assert (p.channels.lookup ch.fd = some channel)
  assert ch.isNoneEvent
  let idx := ch.index
  assert (0 ≤ idx ∧ idx < p.pollfds.length)
  let pfd ← p.pollfds[idx.toNat]?
  assert (pfd.fd = -ch.fd - 1 ∧ pfd.events.signExtend 32 = ch.events)
  let n := if ch.fd ∈ p.channels then 1 else 0
  let channels := p.channels.erase ch.fd
  assert (n = 1)
  if idx = (p.pollfds.length : Int) - 1 then
    return { p with channels := channels, pollfds := p.pollfds.dropLast }
  else
    let back ← p.pollfds.getLast?
    let channelAtEnd := if back.fd < 0 then -back.fd - 1 else back.fd
    -- `channels_[channelAtEnd]->set_index(idx)`: a missing key is a null pointer
    let moved ← channels.lookup channelAtEnd
    return { p with
      channels := channels
      pollfds := swapRemove p.pollfds idx.toNat }.setIndex moved idx

/-- The loop of `getActiveChannels` over the entries from one iterator on. -/
def getActiveChannelsFrom (p : Poller) : List PollFd → Int → Option (Poller × List ChannelPtr)
  | [], _ => some (p, [])
  | pfd :: pfds, numEvents =>
      if 0 < numEvents then
        if pfd.revents.toInt > 0 then do
          let ch ← p.channels.lookup pfd.fd
          let (p', chs) ← (p.setRevents ch (pfd.revents.signExtend 32)).getActiveChannelsFrom
            pfds (numEvents - 1)
          return (p', ch :: chs)
        else p.getActiveChannelsFrom pfds numEvents
      else some (p, [])

def getActiveChannels (p : Poller) (numEvents : Int) : Option (Poller × List ChannelPtr) :=
  p.getActiveChannelsFrom p.pollfds numEvents

/-- The kernel writes its answer into the `revents` fields of the table. -/
def setAnswer (p : Poller) (answer : List (BitVec 16)) : Poller :=
  { p with pollfds := List.zipWith (fun pfd revents => { pfd with revents }) p.pollfds answer }

/-- `poll`, for one return of the system call: `numEvents` and the `revents` fields. -/
def poll (p : Poller) (answer : List (BitVec 16)) (numEvents : Int) :
    Option (Poller × List ChannelPtr) :=
  let p := p.setAnswer answer
  if numEvents > 0 then p.getActiveChannels numEvents else some (p, [])

/-! ### `enable*`, `disable*` of `Channel` -/

def enableReading (p : Poller) (c : ChannelPtr) : Option Poller :=
  (p.setEvents c Channel.kReadEvent).updateChannel c

def enableWriting (p : Poller) (c : ChannelPtr) : Option Poller :=
  (p.setEvents c Channel.kWriteEvent).updateChannel c

def disableWriting (p : Poller) (c : ChannelPtr) : Option Poller :=
  (p.setEvents c ((p.channel c).events &&& ~~~Channel.kWriteEvent)).updateChannel c

def disableAll (p : Poller) (c : ChannelPtr) : Option Poller :=
  (p.setEvents c Channel.kNoneEvent).updateChannel c

end Poller

/-! ### Calls on the table -/

/-- One call on a channel that reaches the table. -/
inductive PollerOp where
  | enableReading (c : ChannelPtr)
  | enableWriting (c : ChannelPtr)
  | disableWriting (c : ChannelPtr)
  | disableAll (c : ChannelPtr)
  | removeChannel (c : ChannelPtr)
deriving DecidableEq, Repr

namespace PollerOp

/-- The channel that the call is about. -/
def target : PollerOp → ChannelPtr
  | .enableReading c | .enableWriting c | .disableWriting c | .disableAll c
  | .removeChannel c => c

/-- The events that an update leaves the channel with. -/
def newEvents (ch : Channel) : PollerOp → Events
  | .enableReading _ => Channel.kReadEvent
  | .enableWriting _ => Channel.kWriteEvent
  | .disableWriting _ => ch.events &&& ~~~Channel.kWriteEvent
  | .disableAll _ => Channel.kNoneEvent
  | .removeChannel _ => ch.events

def apply (p : Poller) : PollerOp → Option Poller
  | .enableReading c => p.enableReading c
  | .enableWriting c => p.enableWriting c
  | .disableWriting c => p.disableWriting c
  | .disableAll c => p.disableAll c
  | .removeChannel c => p.removeChannel c

end PollerOp

end SecondGear
