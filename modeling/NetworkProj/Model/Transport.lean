import NetworkProj.Model.Tcpd

set_option autoImplicit false

/-!
# Two daemons and the network between them

The network keeps every frame and ack ever sent and delivers any of them, any
number of times, in any order or never. It may also damage what it delivers, which
the checksum then shows.
-/

namespace NetworkProj

structure Transport where
  client : Sender
  server : Receiver
  frames : List TrollMessage
  acks : List TrollAck

inductive TransportEvent where
  | client (event : SenderEvent)
  | server (event : ReceiverEvent)

inductive TransportEffect where
  | client (effect : SenderEffect)
  | server (effect : ReceiverEffect)

def Transport.clientEffect : TransportEffect → Option SenderEffect
  | .client effect => some effect
  | .server _ => none

def Transport.serverEffect : TransportEffect → Option ReceiverEffect
  | .server effect => some effect
  | .client _ => none

def Transport.initial : Transport where
  client := .initial
  server := .initial
  frames := []
  acks := []

def ReceiverEffect.ack? : ReceiverEffect → Option TrollAck
  | .ack _ reply => some reply
  | _ => none

-- The troll writes the header anew, so only what the checksum covers is as it was sent.
def TrollAck.SameNames (left right : TrollAck) : Prop :=
  left.session = right.session ∧ left.seqNum = right.seqNum

instance (left right : TrollAck) : Decidable (left.SameNames right) :=
  inferInstanceAs (Decidable (_ ∧ _))

-- The network can bring about the event: what arrives intact was sent.
def Transport.Delivers (state : Transport) : TransportEvent → Prop
  | .client (.ack _ ack _) => ack.Intact → ∃ sent ∈ state.acks, ack.SameNames sent
  | .server (.data _ message _ _) =>
    message.Intact → ∃ sent ∈ state.frames, message.content = sent.content
  | _ => True

instance Transport.decidableDelivers (state : Transport) :
    (event : TransportEvent) → Decidable (state.Delivers event)
  | .client (.ack _ ack _) =>
    inferInstanceAs (Decidable (ack.Intact → ∃ sent ∈ state.acks, ack.SameNames sent))
  | .server (.data _ message _ _) =>
    inferInstanceAs
      (Decidable (message.Intact → ∃ sent ∈ state.frames, message.content = sent.content))
  | .client (.connect ..) | .client (.send ..) | .client (.expired _) | .client (.solveSend _)
  | .server (.bind ..) | .server (.accept ..) | .server (.recv ..) | .server .solveAccept
  | .server .solveRecv => .isTrue trivial

def Transport.step (order : TcpdOrder) :
    Machine.Step Transport TransportEvent TransportEffect Stop := fun state event =>
  if state.Delivers event then
    match event with
    | .client event =>
      match Sender.step order.connected state.client event with
      | .error stop => .error stop
      | .ok (client, emitted) =>
        .ok ({ state with client, frames := state.frames ++ emitted.filterMap SenderEffect.frame? },
          emitted.map .client)
    | .server event =>
      match Receiver.step order.accepted state.server event with
      | .error stop => .error stop
      | .ok (server, emitted) =>
        .ok ({ state with server, acks := state.acks ++ emitted.filterMap ReceiverEffect.ack? },
          emitted.map .server)
  else
    .error .blocked

end NetworkProj
