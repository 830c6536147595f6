import NetworkProj.Model.Sender
import NetworkProj.Model.Timer

set_option autoImplicit false

/-!
# The sending half and the timer process

The two channels between them keep the order of their datagrams and lose none.
-/

namespace NetworkProj

structure TimedSender where
  sender : Sender
  requests : List TimerRequest
  timerList : List TimerNode
  notifications : List TimerExpired

inductive TimedEvent where
  | sender (event : SenderEvent)
  -- One iteration of the main loop of the timer, which may read one request.
  | timer (elapsedSeconds : Rat) (ready : Bool)

inductive TimedEffect where
  | sender (effect : SenderEffect)
  | timer (requestAddr : SockAddr) (expired : TimerExpired)

def TimedSender.initial : TimedSender where
  sender := .initial
  requests := []
  timerList := []
  notifications := []

/-- An ack comes in on the socket of its session, if there is one; a notification is read from the
channel, and a request only when there is one. -/
def TimedSender.Delivers (state : TimedSender) : TimedEvent → Prop
  | .sender (.ack sockfd ack _) =>
    ack.Intact → ∀ other ∈ state.sender.connectedSockets.keys,
      ∀ sock ∈ state.sender.connectedSockets.find other, sock.session = ack.session → other = sockfd
  | .sender (.expired expired) => state.notifications.head? = some expired
  | .timer _ true => state.requests ≠ []
  | _ => True

instance TimedSender.decidableDelivers (state : TimedSender) :
    (event : TimedEvent) → Decidable (state.Delivers event)
  | .sender (.ack sockfd ack _) =>
    inferInstanceAs (Decidable (ack.Intact → ∀ other ∈ state.sender.connectedSockets.keys,
      ∀ sock ∈ state.sender.connectedSockets.find other, sock.session = ack.session → other = sockfd))
  | .sender (.expired expired) => inferInstanceAs (Decidable (_ = some expired))
  | .timer _ true => inferInstanceAs (Decidable (state.requests ≠ []))
  | .timer _ false | .sender (.connect ..) | .sender (.send ..) | .sender (.solveSend _) =>
    .isTrue trivial

def remainingNotifications (notifications : List TimerExpired) : SenderEvent → List TimerExpired
  | .expired _ => notifications.tail
  | _ => notifications

-- What the timer sends to the daemon at `driver`.
def notificationsTo (driver : SockAddr) (sent : List (SockAddr × TimerExpired)) :
    List TimerExpired :=
  (sent.filter fun notification => notification.1 == driver).map Prod.snd

-- The daemon's socket for the timer is bound to the address `driver`.
def TimedSender.step (order : IterOrder Int32) (driver : SockAddr) :
    Machine.Step TimedSender TimedEvent TimedEffect Stop := fun state event =>
  if state.Delivers event then
    match event with
    | .sender event =>
      match Sender.step order state.sender event with
      | .error stop => .error stop
      | .ok (sender, emitted) =>
        .ok ({ state with
            sender
            requests := state.requests ++ emitted.filterMap SenderEffect.request?
            notifications := remainingNotifications state.notifications event },
          emitted.map .sender)
    | .timer elapsedSeconds ready =>
      let request := if ready then state.requests.head? else none
      let (timerList, sent) := timerRound state.timerList
        { elapsedSeconds, request := request.map fun request => (request, driver) }
      .ok ({ state with
          requests := if ready then state.requests.tail else state.requests
          timerList
          notifications := state.notifications ++ notificationsTo driver sent },
        sent.map fun notification => .timer notification.1 notification.2)
  else
    .error .blocked

end NetworkProj
