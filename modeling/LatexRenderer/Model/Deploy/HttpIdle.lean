import LatexRenderer.Machine.Table
import LatexRenderer.Model.Deploy.LanAddress

/-! # The idle exit of an HTTP service

`startHttpService` counts connections without a request, unfinished exchanges and, through `createHttpActivity`, handlers
that are still running. When there are none a timer is armed, and the service closes itself when it fires late enough.
The clock, the wall clock and `busyUntil` are read anew each time.
-/

namespace LatexRenderer

open Machine

/-- What a service is configured with: whether it may exit at all, and after which time. -/
structure HttpIdleConfiguration where
  idle : Bool
  timeoutMs : Nat
  pathname : Text → Option Text

/-- What `busyUntil` gives: a number, positive infinity, or another value that is no finite number. -/
inductive LeaseReading where
  | finite (value : Rat)
  | infinite
  | other
deriving DecidableEq

/-- `busyUntil() > Date.now()`. -/
def LeaseReading.after (date : Rat) : LeaseReading → Bool
  | .finite value => decide (date < value)
  | .infinite => true
  | .other => false

/-- What `arm` reads. -/
structure ArmReadings where
  lease : LeaseReading
  now : Rat
  date : Rat
deriving DecidableEq

/-- A connection and its state. -/
structure HttpSocket where
  id : Nat
  seen : Bool
deriving DecidableEq

/-- A request with its response, as its listeners see it. -/
structure HttpExchange where
  id : Nat
  passive : Bool
  completed : Bool
  responseDone : Bool
  requestDone : Bool
deriving DecidableEq

/-- A tracked handler that is running. -/
structure TrackedHandler where
  id : Nat
  passive : Bool
deriving DecidableEq

/-- What counts for the idle time, and the closing of the server, kept for the specification. -/
inductive HttpIdleEntry where
  | started (now : Rat)
  | exchange (passive : Bool) (now : Rat)
  | handler (passive : Bool) (now : Rat)
  | closes (now : Rat) (lease : LeaseReading) (date : Rat)
deriving DecidableEq

/-- The variables of `startHttpService` and `createHttpActivity`, and the timers that have not fired; `tracked` is
`activity.pending`. The counters are integers, so that nothing keeps them from being negative. -/
structure HttpIdle where
  timer : Option Nat
  timers : List (Nat × Int)
  created : Nat
  active : Int
  pending : Int
  closing : Bool
  lastCompleted : Rat
  sockets : List HttpSocket
  exchanges : List HttpExchange
  tracked : Int
  handlers : List TrackedHandler
  subscribed : Bool
  listening : Bool
  threw : Bool
  log : List HttpIdleEntry
deriving DecidableEq

/-- The service before it listens, with the handlers that are running already. -/
def HttpIdle.new (now : Rat) (handlers : List TrackedHandler) : HttpIdle where
  timer := none
  timers := []
  created := 0
  active := 0
  pending := 0
  closing := false
  lastCompleted := now
  sockets := []
  exchanges := []
  tracked := handlers.length
  handlers
  subscribed := true
  listening := false
  threw := false
  log := [.started now]

namespace HttpIdle

variable (c : HttpIdleConfiguration)

def passiveRequest (method url : Option Text) : Bool :=
  (method == some "GET".toList || method == some "HEAD".toList) &&
    match c.pathname (url.getD "/".toList) with
    | some path => path == "/health".toList || path == "/health/rendering".toList
    | none => false

/-- `clearTimeout(timer)`. -/
def clear (s : HttpIdle) : HttpIdle := { s with timers := s.timers.filter fun timer => decide (some timer.1 ≠ s.timer) }

def arm (r : ArmReadings) (s : HttpIdle) : HttpIdle :=
  let s := s.clear
  if c.idle = false ∨ s.closing = true ∨ s.active ≠ 0 ∨ s.pending ≠ 0 ∨ s.tracked ≠ 0 then s
  else match r.lease with
    | .finite lease =>
      if lease < 0 then { s with threw := true }
      else
        let remaining := max (c.timeoutMs - (r.now - s.lastCompleted)) (lease - r.date)
        { s with
          timer := some s.created
          timers := (s.created, max 1 remaining.ceil) :: s.timers
          created := s.created + 1 }
    | _ => { s with threw := true }

/-- The callback of a timer. -/
def fire (id : Nat) (now : Rat) (lease : LeaseReading) (date : Rat) (r : ArmReadings) (s : HttpIdle) : HttpIdle :=
  let s := { s with timers := s.timers.filter fun timer => decide (timer.1 ≠ id) }
  if s.active ≠ 0 ∨ s.pending ≠ 0 ∨ s.tracked ≠ 0 ∨ s.closing = true then s
  else if now - s.lastCompleted < c.timeoutMs ∨ lease.after date = true then s.arm c r
  else { s with closing := true, log := .closes now lease date :: s.log }

/-- A new connection. -/
def connection (id : Nat) (s : HttpIdle) : HttpIdle :=
  clear { s with sockets := s.sockets ++ [⟨id, false⟩], pending := s.pending + 1 }

/-- The end of a connection. -/
def socketClose (id : Nat) (r : ArmReadings) (s : HttpIdle) : HttpIdle :=
  let unseen := (s.sockets.find? fun socket => socket.id == id).any fun socket => !socket.seen
  arm c r { s with
    sockets := s.sockets.eraseP fun socket => socket.id == id
    pending := if unseen then s.pending - 1 else s.pending }

/-- The first request of a connection. -/
def see (socket : Nat) (s : HttpIdle) : HttpIdle :=
  match update? (fun row => row.id == socket) (fun row : HttpSocket => if row.seen then none else some { row with seen := true })
      s.sockets with
  | some sockets => { s with sockets, pending := s.pending - 1 }
  | none => s

/-- A request with its response; it may be complete already. -/
def request (socket exchange : Nat) (method url : Option Text) (complete : Bool) (s : HttpIdle) : HttpIdle :=
  let s := s.see socket
  clear { s with
    active := s.active + 1
    exchanges := s.exchanges ++ [⟨exchange, passiveRequest c method url, false, false, complete⟩] }

/-- An exchange of which something is done; it is completed with the other thing. -/
def after (done : HttpExchange → HttpExchange) (row : HttpExchange) : HttpExchange :=
  { done row with completed := (done row).responseDone && (done row).requestDone }

/-- The listeners of an exchange, which are removed when it is completed. -/
def finish (done : HttpExchange → HttpExchange) (exchange : Nat) (now : Rat) (r : ArmReadings) (s : HttpIdle) : HttpIdle :=
  let listens (row : HttpExchange) : Bool := row.id == exchange && !row.completed
  match s.exchanges.find? listens with
  | none => s
  | some row =>
    let exchanges := (update? listens (fun row => some (after done row)) s.exchanges).getD s.exchanges
    if (after done row).completed = true then
      arm c r { s with
        exchanges
        active := s.active - 1
        lastCompleted := if row.passive then s.lastCompleted else now
        log := .exchange row.passive now :: s.log }
    else { s with exchanges }

def finishResponse : Nat → Rat → ArmReadings → HttpIdle → HttpIdle := finish c fun row => { row with responseDone := true }

def finishRequest : Nat → Rat → ArmReadings → HttpIdle → HttpIdle := finish c fun row => { row with requestDone := true }

/-- The listener of the activity. -/
def notice (completed : Bool) (now : Rat) (r : ArmReadings) (s : HttpIdle) : HttpIdle :=
  if s.subscribed = true then
    arm c r (clear { s with lastCompleted := if completed then now else s.lastCompleted })
  else s

/-- `track`, when its handler is called. -/
def trackBegin (id : Nat) (method url : Option Text) (now : Rat) (r : ArmReadings) (s : HttpIdle) : HttpIdle :=
  notice c false now r { s with
    tracked := s.tracked + 1
    handlers := s.handlers ++ [⟨id, passiveRequest c method url⟩] }

/-- `track`, when its handler has ended. -/
def trackEnd (handler : TrackedHandler) (now : Rat) (r : ArmReadings) (s : HttpIdle) : HttpIdle :=
  notice c (!handler.passive) now r { s with
    tracked := s.tracked - 1
    handlers := s.handlers.erase handler
    log := .handler handler.passive now :: s.log }

/-- The service begins to listen. -/
def listens (now : Rat) (r : ArmReadings) (s : HttpIdle) : HttpIdle :=
  arm c r { s with listening := true, lastCompleted := now, log := .started now :: s.log }

/-- The server has closed. -/
def serverClose (s : HttpIdle) : HttpIdle := { s.clear with subscribed := false }

end HttpIdle

/-- What happens to a service. -/
inductive HttpIdleEvent where
  | listening (now : Rat) (r : ArmReadings)
  | connection (socket : Nat)
  | socketClose (socket : Nat) (r : ArmReadings)
  | request (socket exchange : Nat) (method url : Option Text) (complete : Bool)
  | responseFinish (exchange : Nat) (now : Rat) (r : ArmReadings)
  | responseClose (exchange : Nat) (now : Rat) (r : ArmReadings)
  | requestEnd (exchange : Nat) (now : Rat) (r : ArmReadings)
  | requestClose (exchange : Nat) (now : Rat) (r : ArmReadings)
  | trackBegin (handler : Nat) (method url : Option Text) (now : Rat) (r : ArmReadings)
  | trackEnd (handler : TrackedHandler) (now : Rat) (r : ArmReadings)
  | fires (timer : Nat) (now : Rat) (lease : LeaseReading) (date : Rat) (r : ArmReadings)
  | serverClose
deriving DecidableEq

/-- A step of the service. Connections and exchanges are objects of their own, only armed timers fire, and the server is
closed by its idle exit. -/
def httpIdleStep (c : HttpIdleConfiguration) (s : HttpIdle) : HttpIdleEvent → Option HttpIdle
  | .listening now r => some (s.listens c now r)
  | .connection socket => if socket ∈ s.sockets.map HttpSocket.id then none else some (s.connection socket)
  | .socketClose socket r => if socket ∈ s.sockets.map HttpSocket.id then some (s.socketClose c socket r) else none
  | .request socket exchange method url complete =>
    if exchange ∈ s.exchanges.map HttpExchange.id then none else some (s.request c socket exchange method url complete)
  | .responseFinish exchange now r | .responseClose exchange now r => some (s.finishResponse c exchange now r)
  | .requestEnd exchange now r | .requestClose exchange now r => some (s.finishRequest c exchange now r)
  | .trackBegin handler method url now r => some (s.trackBegin c handler method url now r)
  | .trackEnd handler now r => if handler ∈ s.handlers then some (s.trackEnd c handler now r) else none
  | .fires timer now lease date r => if timer ∈ s.timers.map Prod.fst then some (s.fire c timer now lease date r) else none
  | .serverClose => if s.closing = true then some s.serverClose else none

/-- The runs of a service. -/
def httpIdleMachine (c : HttpIdleConfiguration) : LabeledMachine HttpIdle HttpIdleEvent :=
  ofPartial (fun s => ∃ now handlers, s = HttpIdle.new now handlers) (httpIdleStep c)

end LatexRenderer
