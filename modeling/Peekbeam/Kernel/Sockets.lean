import Peekbeam.Kernel.Context

/-!
# The socket programs

`inet_sock_set_state` reports TCP state transitions and decides which sockets belong to the
target; `tcp_retransmit_skb` reports retransmissions of sockets already known to.  Both read a
socket identity from their record at offsets that differ (`SockLayout`) but are otherwise the
same decoder, `readNetEvent`.

A socket is known by its kernel address.  `tryNetState` starts tracking it at the first
transition that fires while the current task matches the target, and stops at the transition to
`TCP_CLOSE` — after the record of that transition was output.
-/

namespace Peekbeam

/-! ## The record layouts -/

/-- The offsets of the fields of a socket tracepoint record. -/
structure SockLayout where
  skaddr : ℕ
  state : ℕ
  sport : ℕ
  dport : ℕ
  family : ℕ
  saddr : ℕ
  daddr : ℕ
  saddrV6 : ℕ
  daddrV6 : ℕ

/-- `sock:inet_sock_set_state`; `state` is the new state. -/
def inetSockSetStateLayout : SockLayout where
  skaddr := 8
  state := 20
  sport := 24
  dport := 26
  family := 28
  saddr := 32
  daddr := 36
  saddrV6 := 40
  daddrV6 := 56

/-- `tcp:tcp_retransmit_skb`. -/
def tcpRetransmitSkbLayout : SockLayout where
  skaddr := 16
  state := 24
  sport := 28
  dport := 30
  family := 32
  saddr := 34
  daddr := 38
  saddrV6 := 42
  daddrV6 := 58

/-- The layout of the tracepoint that yields events of a kind. -/
def NetEventKind.layout : NetEventKind → SockLayout
  | .StateChange => inetSockSetStateLayout
  | .Retransmit => tcpRetransmitSkbLayout

/-- An IPv4 address in the first four bytes of a zeroed 16-byte field. -/
def padV4 (addr : Vector UInt8 4) : Vector UInt8 16 := Vector.ofFn fun i => addr.toList.getD i 0

/-- The reads shared by `try_net_state` and `try_net_retransmit`, from the state to the
addresses.  Any of them may fail. -/
def readNetEvent (kind : NetEventKind) (h : Helpers) (ctx : TracePointContext) :
    Except Int32 NetEvent := do
  let state ← ctx.readAt Int32 kind.layout.state
  let sport ← ctx.readAt UInt16 kind.layout.sport
  let dport ← ctx.readAt UInt16 kind.layout.dport
  let family ← ctx.readAt UInt16 kind.layout.family
  let (saddr, daddr) ←
    if family = AF_INET6 then do
      let saddr ← ctx.readAt (Vector UInt8 16) kind.layout.saddrV6
      let daddr ← ctx.readAt (Vector UInt8 16) kind.layout.daddrV6
      pure (saddr, daddr)
    else do
      let s4 ← ctx.readAt (Vector UInt8 4) kind.layout.saddr
      let d4 ← ctx.readAt (Vector UInt8 4) kind.layout.daddr
      pure (padV4 s4, padV4 d4)
  return {
    kind, family, state := state.toUInt32.toUInt16, sport, dport, saddr, daddr
    timestampNs := h.ktimeNs }

/-! ## The programs -/

/-- `try_net_state`. -/
def tryNetState (h : Helpers) (ctx : TracePointContext) (k : Kernel) :
    Kernel × Except UInt32 UInt32 :=
  match ctx.readAt UInt64 inetSockSetStateLayout.skaddr with
  | .error _ => (k, .error 1)
  | .ok skaddr =>
    let alreadyTracked := (k.trackedSocks.get skaddr).isSome
    if !alreadyTracked && !k.matchesTarget h ctx.tgid then (k, .ok 0)
    else
      let k :=
        if !alreadyTracked then
          { k with trackedSocks := BpfHashMap.tryInsert k.trackedSocks skaddr 1 h.insertError }
        else k
      match readNetEvent .StateChange h ctx with
      | .error _ => (k, .error 1)
      | .ok event =>
        match k.netEvents.output event h.netEventsError with
        | .error _ => (k, .error 1)
        | .ok netEvents =>
          let k := { k with netEvents }
          let k :=
            if event.state = TCP_CLOSE then
              { k with trackedSocks := k.trackedSocks.remove skaddr }
            else k
          (k, .ok 0)

/-- `try_net_retransmit`. -/
def tryNetRetransmit (h : Helpers) (ctx : TracePointContext) (k : Kernel) :
    Kernel × Except UInt32 UInt32 :=
  match ctx.readAt UInt64 tcpRetransmitSkbLayout.skaddr with
  | .error _ => (k, .error 1)
  | .ok skaddr =>
    if (k.trackedSocks.get skaddr).isNone then (k, .ok 0)
    else
      match readNetEvent .Retransmit h ctx with
      | .error _ => (k, .error 1)
      | .ok event =>
        match k.netEvents.output event h.netEventsError with
        | .error _ => (k, .error 1)
        | .ok netEvents => ({ k with netEvents }, .ok 0)

end Peekbeam
