import Clerkenwell.Foundation.Machine

/-!
# One JSON-RPC connection to a server

An `RpcSocket` opens one WebSocket after another.  Every listener it puts on a
WebSocket stays there for good, so an event of any of them, a timer, a call and
a disconnect come in any order, and each is one step here.

A WebSocket fires its open event while it is connecting, never after an error,
and nothing after its close event; its ready state changes ahead of its events.
An awaited promise goes on in a step of its own.  The promise `disconnect`
returns is left out, as nothing awaits it here.
-/

namespace Clerkenwell.Client

open Clerkenwell.Foundation

/-! ## WebSockets -/

/-- `WebSocket.readyState`. -/
inductive ReadyState where
  | connecting
  | open
  | closing
  | closed
deriving DecidableEq, Repr

/-- Whether a ready state comes later than another. -/
def ReadyState.after : ReadyState → ReadyState → Bool
  | .closing, .connecting | .closing, .open => true
  | .closed, .connecting | .closed, .open | .closed, .closing => true
  | _, _ => false

/-- How far a promise is. -/
inductive Promise where
  | pending
  | resolved
  | rejected
deriving DecidableEq, Repr

/-- A promise once it is resolved: one already settled stays as it is. -/
def Promise.resolve : Promise → Promise
  | .pending => .resolved
  | settled => settled

def Promise.reject : Promise → Promise
  | .pending => .rejected
  | settled => settled

/--
A WebSocket that was opened: its ready state, which of its events it fired,
what its listeners keep, and the promise of the attempt that opened it.
-/
structure OpenedSocket where
  readyState : ReadyState
  firedError : Bool
  firedClose : Bool
  opened : Bool
  settled : Bool
  attempt : Promise
deriving DecidableEq, Repr

/-- A WebSocket as `open` answers with it. -/
def OpenedSocket.new : OpenedSocket where
  readyState := .connecting
  firedError := false
  firedClose := false
  opened := false
  settled := false
  attempt := .pending

/-! ## What an RPC socket holds -/

inductive RpcSocketStatus where
  | disconnected
  | connecting
  | connected
  | retryWait
deriving DecidableEq, Repr

structure RpcSocketState where
  status : RpcSocketStatus
  retryAt : Option Nat
deriving DecidableEq, Repr

structure RpcSocketOptions where
  reconnectOnClose : Bool
  initialMs : Nat
  maxMs : Nat
deriving DecidableEq, Repr

/-- The promise `connect` returns: resolved, or that of an attempt. -/
inductive Awaited where
  | resolved
  | attempt (socket : Nat)
deriving DecidableEq, Repr

/-- How far a call is. -/
inductive CallPhase where
  | waiting (awaited : Awaited)
  | requested
  | settled
deriving DecidableEq, Repr

/-- What a call's promise is settled with. -/
inductive Outcome where
  | result
  | refused
  | closed
  | unreachable
  /-- `send` threw. -/
  | unsent
deriving DecidableEq, Repr

/-- A pending request, the call it is of, and the WebSocket it was sent on. -/
structure PendingRequest where
  id : Nat
  call : Nat
  sentOn : Nat
deriving DecidableEq, Repr

/-- What a listener or a hook is told. -/
inductive Told where
  | connection (connected : Bool)
  | state (state : RpcSocketState)
  | notification
  | reopened
  | closed
deriving DecidableEq, Repr

/--
An RPC socket with every WebSocket it opened, the timers it scheduled, the
calls made on it, and what it told and settled, in order.
-/
structure RpcSocket where
  sockets : List OpenedSocket
  socket : Option Nat
  opening : Option Nat
  timers : List Nat
  scheduled : Nat
  reconnectTimer : Option Nat
  reconnectDelayMs : Nat
  hasOpened : Bool
  allowReconnect : Bool
  state : RpcSocketState
  nextRequestId : Nat
  pending : List PendingRequest
  /-- The attempts a reconnect timer's callback awaits. -/
  reconnects : List Nat
  calls : List CallPhase
  settlements : List (Nat × Outcome)
  told : List Told
  now : Nat
deriving DecidableEq

/-- A frame a WebSocket receives. -/
inductive Frame where
  | notification
  /-- The answer of the request its id spells, if it spells one. -/
  | response (id : Option Nat) (refused : Bool)
  /-- Text that is not JSON, which `receive` throws on. -/
  | malformed
deriving DecidableEq, Repr

/-- What may happen next. -/
inductive SocketStep where
  | connect
  | call
  /-- A call goes on from its await, its `send` throwing or not. -/
  | proceed (call : Nat) (sends : Bool)
  /-- `disconnect`, whose `close` throws or not. -/
  | disconnect (closes : Bool)
  | opened (socket : Nat)
  | message (socket : Nat) (frame : Frame)
  | error (socket : Nat)
  | close (socket : Nat)
  /-- A ready state changes ahead of the event that tells of it. -/
  | readyState (socket : Nat) (next : ReadyState)
  | timer (handle : Nat)
  /-- A reconnect's handler of its attempt's rejection runs. -/
  | unreachable (attempt : Nat)
  | elapse (ms : Nat)
deriving DecidableEq, Repr

namespace RpcSocket

variable (options : RpcSocketOptions)

def new : RpcSocket where
  sockets := []
  socket := none
  opening := none
  timers := []
  scheduled := 0
  reconnectTimer := none
  reconnectDelayMs := options.initialMs
  hasOpened := false
  allowReconnect := options.reconnectOnClose
  state := ⟨.disconnected, none⟩
  nextRequestId := 1
  pending := []
  reconnects := []
  calls := []
  settlements := []
  told := []
  now := 0

/-! ## The private operations -/

/-- The ready state of the WebSocket it holds. -/
def readyState (rpc : RpcSocket) : Option ReadyState :=
  (rpc.socket.bind fun socket => rpc.sockets[socket]?).map
    OpenedSocket.readyState

def modifySocket (rpc : RpcSocket) (socket : Nat)
    (change : OpenedSocket → OpenedSocket) : RpcSocket :=
  { rpc with sockets := rpc.sockets.modify socket change }

def tell (rpc : RpcSocket) (told : Told) : RpcSocket :=
  { rpc with told := rpc.told ++ [told] }

def setState (rpc : RpcSocket) (next : RpcSocketState) : RpcSocket :=
  if rpc.state = next then rpc
  else { rpc with state := next }.tell (.state next)

/-- Settles a call's promise. -/
def settle (rpc : RpcSocket) (call : Nat) (outcome : Outcome) : RpcSocket :=
  { rpc with
    calls := rpc.calls.set call .settled
    settlements := rpc.settlements ++ [(call, outcome)] }

def rejectPending (rpc : RpcSocket) : RpcSocket :=
  { rpc.pending.foldl (fun rpc request => rpc.settle request.call .closed) rpc
    with pending := [] }

def scheduleReconnect (rpc : RpcSocket) : RpcSocket :=
  if !rpc.allowReconnect || rpc.reconnectTimer.isSome then rpc
  else
    let waiting :=
      rpc.setState ⟨.retryWait, some (rpc.now + rpc.reconnectDelayMs)⟩
    { waiting with
      timers := waiting.timers ++ [waiting.scheduled]
      scheduled := waiting.scheduled + 1
      reconnectTimer := some waiting.scheduled }

/-- Sends a call's request on the WebSocket it holds. -/
def request (rpc : RpcSocket) (call : Nat) (sends : Bool) : RpcSocket :=
  let id := rpc.nextRequestId
  let rpc := { rpc with nextRequestId := id + 1 }
  match rpc.socket with
  | some socket =>
      if rpc.readyState ≠ some .open then rpc.settle call .closed
      else if sends then
        { rpc with
          pending := rpc.pending ++ [⟨id, call, socket⟩]
          calls := rpc.calls.set call .requested }
      else rpc.settle call .unsent
  | none => rpc.settle call .closed

def receive (rpc : RpcSocket) : Frame → RpcSocket
  | .malformed => rpc
  | .notification => rpc.tell .notification
  | .response id refused =>
      match rpc.pending.find? fun request => some request.id = id with
      | none => rpc
      | some request =>
          { rpc with
            pending := rpc.pending.filter fun other =>
              other.id ≠ request.id }.settle request.call
            (if refused then .refused else .result)

/-! ## The public operations -/

/-- Opens a WebSocket, or waits for the attempt already under way. -/
def connect (rpc : RpcSocket) : Awaited × RpcSocket :=
  if rpc.readyState = some .open then (.resolved, rpc)
  else
    match rpc.opening with
    | some attempt => (.attempt attempt, rpc)
    | none =>
        let connecting :=
          { rpc with
            allowReconnect := options.reconnectOnClose }.setState
              ⟨.connecting, none⟩
        let socket := connecting.sockets.length
        (.attempt socket,
          { connecting with
            sockets := connecting.sockets ++ [.new]
            socket := some socket
            opening := some socket })

/-- Begins a call, which awaits the connection before it sends its request. -/
def call (rpc : RpcSocket) : RpcSocket :=
  let (awaited, rpc) := rpc.connect options
  { rpc with calls := rpc.calls ++ [.waiting awaited] }

/-- What an awaited promise has come to. -/
def promise (rpc : RpcSocket) : Awaited → Promise
  | .resolved => .resolved
  | .attempt socket =>
      (rpc.sockets[socket]?.map OpenedSocket.attempt).getD .pending

def proceed (rpc : RpcSocket) (call : Nat) (sends : Bool) : RpcSocket :=
  match rpc.calls[call]? with
  | some (.waiting awaited) =>
      match rpc.promise awaited with
      | .pending => rpc
      | .rejected => rpc.settle call .unreachable
      | .resolved => rpc.request call sends
  | _ => rpc

def disconnect (rpc : RpcSocket) (closes : Bool) : RpcSocket :=
  let stopped :=
    { rpc with
      allowReconnect := false
      timers := rpc.timers.filter fun handle =>
        some handle ≠ rpc.reconnectTimer
      reconnectTimer := none }.setState ⟨.disconnected, none⟩
  match stopped.socket with
  | none => stopped
  | some socket =>
      if stopped.readyState = some .closed then { stopped with socket := none }
      else if closes then
        stopped.modifySocket socket fun opened =>
          { opened with readyState := .closing }
      else stopped

/-! ## The listeners of a WebSocket -/

def onOpen (rpc : RpcSocket) (socket : Nat) : RpcSocket :=
  let opened :=
    ({ rpc with
        hasOpened := true
        reconnectDelayMs := options.initialMs
        opening := none }.modifySocket socket fun opened =>
      { opened with
        opened := true
        settled := true
        attempt := opened.attempt.resolve }).tell (.connection true)
  let connected := opened.setState ⟨.connected, none⟩
  if rpc.hasOpened then connected.tell .reopened else connected

/-- Rejects the attempt that opened a WebSocket. -/
def rejectAttempt (rpc : RpcSocket) (socket : Nat) : RpcSocket :=
  { rpc with opening := none }.modifySocket socket fun opened =>
    { opened with settled := true, attempt := opened.attempt.reject }

def onError (rpc : RpcSocket) (socket : Nat) (held : OpenedSocket) :
    RpcSocket :=
  if !held.settled && rpc.opening.isSome then rpc.rejectAttempt socket
  else rpc

def onClose (rpc : RpcSocket) (socket : Nat) (held : OpenedSocket) :
    RpcSocket :=
  let lost :=
    ({ rpc with socket := none }.tell (.connection false)).tell .closed
  let settled :=
    if !held.opened && !held.settled then lost.rejectAttempt socket else lost
  let rejected := settled.rejectPending
  if !rejected.allowReconnect then
    rejected.setState ⟨.disconnected, none⟩
  else rejected.scheduleReconnect

/-! ## The steps -/

/-- Whether a WebSocket's close event is still to come. -/
def closes (rpc : RpcSocket) (socket : Nat) : Bool :=
  match rpc.sockets[socket]? with
  | some held => !held.firedClose
  | none => false

def next (rpc : RpcSocket) : SocketStep → RpcSocket
  | .connect => (rpc.connect options).2
  | .call => rpc.call options
  | .proceed call sends => rpc.proceed call sends
  | .disconnect closes => rpc.disconnect closes
  | .opened socket =>
      match rpc.sockets[socket]? with
      | some held =>
          if held.readyState = .connecting && !held.firedError
              && !held.firedClose then
            (rpc.modifySocket socket fun opened =>
              { opened with readyState := .open }).onOpen options socket
          else rpc
      | none => rpc
  | .message socket frame =>
      match rpc.sockets[socket]? with
      | some held =>
          if held.opened && !held.firedClose then rpc.receive frame else rpc
      | none => rpc
  | .error socket =>
      match rpc.sockets[socket]? with
      | some held =>
          if held.firedClose then rpc
          else
            (rpc.modifySocket socket fun opened =>
              { opened with firedError := true }).onError socket held
      | none => rpc
  | .close socket =>
      match rpc.sockets[socket]? with
      | some held =>
          if held.firedClose then rpc
          else
            (rpc.modifySocket socket fun opened =>
              { opened with
                readyState := .closed
                firedClose := true }).onClose socket held
      | none => rpc
  | .readyState socket next =>
      rpc.modifySocket socket fun opened =>
        if next.after opened.readyState then
          { opened with readyState := next }
        else opened
  | .timer handle =>
      if handle ∈ rpc.timers then
        let (awaited, connecting) :=
          { rpc with
            timers := rpc.timers.filter fun other => other ≠ handle
            reconnectTimer := none }.connect options
        match awaited with
        | .resolved => connecting
        | .attempt attempt =>
            { connecting with reconnects := connecting.reconnects ++ [attempt] }
      else rpc
  | .unreachable attempt =>
      if attempt ∈ rpc.reconnects
          && rpc.promise (.attempt attempt) = .rejected then
        { rpc with
          reconnects := rpc.reconnects.erase attempt
          reconnectDelayMs :=
            min (rpc.reconnectDelayMs * 2) options.maxMs }.scheduleReconnect
      else rpc
  | .elapse ms => { rpc with now := rpc.now + ms }

end RpcSocket

end Clerkenwell.Client
