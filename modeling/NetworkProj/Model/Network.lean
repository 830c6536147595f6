import NetworkProj.Model.TimedSender
import NetworkProj.Model.Transport

set_option autoImplicit false

namespace NetworkProj

structure Connection (κ : Type) where
  client : κ
  sockfd : Int32
  session : UInt32

structure Network (κ : Type) where
  clients : κ → TimedSender
  server : Receiver
  frames : List (Nat × TrollMessage)
  acks : List TrollAck
  -- What no daemon knows: the connections in the order of their CONNECTs, the one to which the
  -- record of a socket belongs, and what was given to SEND on each. Frames carry it along.
  connections : List (Connection κ)
  current : κ → Int32 → Nat
  sends : List (Nat × List UInt8)

inductive NetworkEvent (κ : Type) where
  | client (client : κ) (event : TimedEvent)
  -- A frame that arrives belongs to the connection `origin`.
  | server (origin : Nat) (event : ReceiverEvent)

inductive NetworkEffect (κ : Type) where
  | client (client : κ) (effect : TimedEffect)
  | server (effect : ReceiverEffect)

def Network.serverEffect {κ : Type} : NetworkEffect κ → Option ReceiverEffect
  | .server effect => some effect
  | .client _ _ => none

def Network.initial (κ : Type) : Network κ where
  clients _ := .initial
  server := .initial
  frames := []
  acks := []
  connections := []
  current _ _ := 0
  sends := []

-- `TimedSender.step` without the rule on which socket an ack comes in.
def TimedSender.act (order : IterOrder Int32) (driver : SockAddr) :
    Machine.Step TimedSender TimedEvent TimedEffect Stop := fun state event =>
  match event with
  | .sender event =>
    match Sender.step order state.sender event with
    | .error stop => .error stop
    | .ok (sender, emitted) =>
      .ok ({ state with
          sender
          requests := state.requests ++ emitted.filterMap SenderEffect.request?
          notifications := remainingNotifications state.notifications event },
        emitted.map .sender)
  | .timer elapsedSeconds ready =>
    let request := if ready then state.requests.head? else none
    let (timerList, sent) := timerRound state.timerList
      { elapsedSeconds, request := request.map fun request => (request, driver) }
    .ok ({ state with
        requests := if ready then state.requests.tail else state.requests
        timerList
        notifications := state.notifications ++ notificationsTo driver sent },
      sent.map fun notification => .timer notification.1 notification.2)

def Network.Delivers {κ : Type} (state : Network κ) : NetworkEvent κ → Prop
  | .client _ (.sender (.ack _ ack _)) => ack.Intact → ∃ sent ∈ state.acks, ack.SameNames sent
  | .client client (.sender (.expired expired)) =>
    (state.clients client).notifications.head? = some expired
  | .client client (.timer _ true) => (state.clients client).requests ≠ []
  | .server origin (.data _ message _ _) => message.Intact →
    ∃ sent ∈ state.frames, sent.1 = origin ∧ message.content = sent.2.content
  | _ => True

instance Network.decidableDelivers {κ : Type} (state : Network κ) :
    (event : NetworkEvent κ) → Decidable (state.Delivers event)
  | .client _ (.sender (.ack _ ack _)) =>
    inferInstanceAs (Decidable (ack.Intact → ∃ sent ∈ state.acks, ack.SameNames sent))
  | .client _ (.sender (.expired expired)) => inferInstanceAs (Decidable (_ = some expired))
  | .client client (.timer _ true) =>
    inferInstanceAs (Decidable ((state.clients client).requests ≠ []))
  | .server origin (.data _ message _ _) => inferInstanceAs (Decidable (message.Intact →
      ∃ sent ∈ state.frames, sent.1 = origin ∧ message.content = sent.2.content))
  | .client _ (.sender (.connect ..)) | .client _ (.sender (.send ..))
  | .client _ (.sender (.solveSend _)) | .client _ (.timer _ false)
  | .server _ (.bind ..) | .server _ (.accept ..) | .server _ (.recv ..) | .server _ .solveAccept
  | .server _ .solveRecv => .isTrue trivial

variable {κ : Type}

def opening (client : κ) : TimedEvent → Option (Connection κ)
  | .sender (.connect _ sockfd _ rand) => some ⟨client, sockfd, rand⟩
  | _ => none

def supply (current : Int32 → Nat) : TimedEvent → Option (Nat × List UInt8)
  | .sender (.send _ sockfd len buf _) => some (current sockfd, buf.take len.toNat)
  | _ => none

def originated (current : Int32 → Nat) : TimedEffect → Option (Nat × TrollMessage)
  | .sender (.data sockfd message) => some (current sockfd, message)
  | _ => none

variable [DecidableEq κ]

def Network.succeed (state : Network κ) (client : κ) : TimedEvent → κ → Int32 → Nat
  | .sender (.connect _ sockfd _ _) =>
    Function.update state.current client
      (Function.update (state.current client) sockfd state.connections.length)
  | _ => state.current

def Network.acted (state : Network κ) (client : κ) (event : TimedEvent) (next : TimedSender)
    (emitted : List TimedEffect) : Network κ :=
  { state with
    clients := Function.update state.clients client next
    frames := state.frames ++ emitted.filterMap (originated (state.current client))
    connections := state.connections ++ (opening client event).toList
    current := state.succeed client event
    sends := state.sends ++ (supply (state.current client) event).toList }

@[simp] theorem Network.acted_self (state : Network κ) (client : κ) (event : TimedEvent)
    (next : TimedSender) (emitted : List TimedEffect) :
    (state.acted client event next emitted).clients client = next :=
  Function.update_self ..

theorem Network.acted_other (state : Network κ) {client other : κ} (different : other ≠ client)
    (event : TimedEvent) (next : TimedSender) (emitted : List TimedEffect) :
    (state.acted client event next emitted).clients other = state.clients other :=
  Function.update_of_ne different ..

def Network.step (order : TcpdOrder) (driver : κ → SockAddr) :
    Machine.Step (Network κ) (NetworkEvent κ) (NetworkEffect κ) Stop := fun state event =>
  if state.Delivers event then
    match event with
    | .client client event =>
      match TimedSender.act order.connected (driver client) (state.clients client) event with
      | .error stop => .error stop
      | .ok (next, emitted) =>
        .ok (state.acted client event next emitted, emitted.map (.client client))
    | .server _ event =>
      match Receiver.step order.accepted state.server event with
      | .error stop => .error stop
      | .ok (server, emitted) =>
        .ok ({ state with server, acks := state.acks ++ emitted.filterMap ReceiverEffect.ack? },
          emitted.map .server)
  else
    .error .blocked

end NetworkProj
