import Clerkenwell.Foundation.Machine

/-!
# A server's commands and its shutdown

A connection starts a command and goes on with its other requests.  The
command's outcome is published to every connection, and its own connection
answers it at its place among the publications, or from what ran when the
connection fell behind.  The server counts what it waits for when it shuts down.

Every lock, permit and channel is taken in a step of its own, so any other task
may come between two of them.
-/

namespace Clerkenwell.Axum

variable {Id Outcome : Type}

/-! ## Publications -/

/-- The origin of a change no connection made. -/
def noConnection : Nat :=
  0

inductive Publication (Outcome : Type) where
  | served (origin : Nat)
  /-- A command one connection ran, once its host returned. -/
  | ran (origin ticket : Nat) (outcome : Outcome)
  | announced
  | stored
  | closing
deriving DecidableEq

/-- A publication and its place in the order every connection takes them in. -/
structure Sent (Outcome : Type) where
  sequence : Nat
  publication : Publication Outcome
deriving DecidableEq

/-- Whether a publication answers a ticket of a connection. -/
def Sent.answers (origin ticket : Nat) (sent : Sent Outcome) : Bool :=
  match sent.publication with
  | .ran from_ answered _ => from_ == origin && answered == ticket
  | _ => false

/-! ## Connections -/

/-- A frame a connection sends, with the ticket a response is for. -/
inductive Frame (Id Outcome : Type) where
  | response (ticket : Nat) (id : Id) (outcome : Outcome)
  | refusal (id : Id)
  | close
deriving DecidableEq

/-- Where a connection's loop is. -/
inductive Loop where
  /-- Subscribed to the publications and not counted yet. -/
  | subscribed
  | serving
  /-- In `start`, with a ticket. -/
  | starting (ticket : Nat)
  /-- It fell behind, and receives what is sent after `through`. -/
  | behind (through : Nat)
  /-- It answered the commands it skipped. -/
  | caughtUp (through : Nat)
  /-- Out of its loop, and still counted. -/
  | closed
  | ended
deriving DecidableEq

structure Connection (Id Outcome : Type) where
  loop : Loop
  tickets : Nat
  /-- The id each running command's response answers, by its ticket. -/
  running : List (Nat × Option Id)
  /-- Each command that ran and is not answered yet, by its ticket. -/
  ran : List (Nat × Sent Outcome)
  unread : List (Sent Outcome)
  frames : List (Frame Id Outcome)

namespace Connection

/-- A connection that just subscribed to the publications. -/
def new : Connection Id Outcome where
  loop := .subscribed
  tickets := 0
  running := []
  ran := []
  unread := []
  frames := []

/-- Whether the server counts a connection among those it serves. -/
def counted (connection : Connection Id Outcome) : Bool :=
  match connection.loop with
  | .subscribed | .ended => false
  | _ => true

def receive (sent : Sent Outcome) (connection : Connection Id Outcome) :
    Connection Id Outcome :=
  { connection with unread := connection.unread ++ [sent] }

/-- `running.remove(ticket).flatten()`: the id of a command's response. -/
def idOf (connection : Connection Id Outcome) (ticket : Nat) : Option Id :=
  (connection.running.find? fun entry => entry.1 == ticket).bind Prod.snd

/-- The frames that answer a command: its response, when it has an id. -/
def answer (ticket : Nat) (id : Option Id) (outcome : Outcome) :
    List (Frame Id Outcome) :=
  (id.map fun id => .response ticket id outcome).toList

/-- Answers a command of its own, which it then no longer waits for. -/
def answerCommand (ticket : Nat) (outcome : Outcome)
    (connection : Connection Id Outcome) : Connection Id Outcome :=
  { connection with
    running := connection.running.filter fun entry => entry.1 != ticket
    frames :=
      connection.frames ++ answer ticket (connection.idOf ticket) outcome }

def removeRan (ticket : Nat) (connection : Connection Id Outcome) :
    Connection Id Outcome :=
  { connection with
    ran := connection.ran.filter fun entry => entry.1 != ticket }

def goTo (loop : Loop) (connection : Connection Id Outcome) :
    Connection Id Outcome :=
  { connection with loop := loop }

/-- Waits for a command it started, and goes on with its loop. -/
def waitFor (ticket : Nat) (id : Option Id)
    (connection : Connection Id Outcome) : Connection Id Outcome :=
  { connection with
    loop := .serving
    running :=
      connection.running.filter (fun entry => entry.1 != ticket)
        ++ [(ticket, id)] }

/-- Keeps a command's outcome, as its publication is numbered. -/
def keepRan (ticket : Nat) (sent : Sent Outcome)
    (connection : Connection Id Outcome) : Connection Id Outcome :=
  { connection with
    ran :=
      connection.ran.filter (fun entry => entry.1 != ticket)
        ++ [(ticket, sent)] }

/-- Refuses a command, when its request has an id. -/
def refuse (id : Option Id) (connection : Connection Id Outcome) :
    Connection Id Outcome :=
  { connection with
    frames := connection.frames ++ (id.map .refusal).toList }

/-- Sends a Close frame and leaves the loop. -/
def close (connection : Connection Id Outcome) : Connection Id Outcome :=
  { connection with
    loop := .closed
    frames := connection.frames ++ [.close] }

/-- What one publication sends a connection, its subscriptions' updates apart. -/
def take (origin : Nat) (sent : Sent Outcome)
    (connection : Connection Id Outcome) : Connection Id Outcome :=
  match sent.publication with
  | .ran from_ ticket outcome =>
      if from_ = origin then
        (connection.removeRan ticket).answerCommand ticket outcome
      else connection
  | .closing => connection.close
  | .served _ | .announced | .stored => connection

/-- The commands that ran and whose publications a connection skipped. -/
def skipped (through : Nat) (connection : Connection Id Outcome) :
    List (Sent Outcome) :=
  ((connection.ran.filter fun entry => decide (entry.2.sequence ≤ through)).map
    Prod.snd).mergeSort fun left right => decide (left.sequence ≤ right.sequence)

def answerSent (connection : Connection Id Outcome) (sent : Sent Outcome) :
    Connection Id Outcome :=
  match sent.publication with
  | .ran _ ticket outcome => connection.answerCommand ticket outcome
  | _ => connection

/-- The responses to the commands whose publications a connection skipped. -/
def answerSkipped (through : Nat) (connection : Connection Id Outcome) :
    Connection Id Outcome :=
  (connection.skipped through).foldl answerSent
    { connection with
      ran :=
        connection.ran.filter fun entry =>
          !decide (entry.2.sequence ≤ through) }

end Connection

/-! ## Commands -/

/-- How far a command that took a place has come. -/
inductive Stage (Outcome : Type) where
  | starting
  /-- Refused its permit, its place not given back yet. -/
  | refused
  | running
  /-- Its host returned and its permit is given back. -/
  | finished (outcome : Outcome)
  /--
  Numbered, its place not given back yet; `none` when it could not be sent.
  -/
  | published (sent : Option (Nat × Outcome))
  /-- Its place given back; `none` too when it was refused. -/
  | ended (sent : Option (Nat × Outcome))
deriving DecidableEq

/-- One call of `start` that took a place among the running commands. -/
structure Command (Id Outcome : Type) where
  origin : Nat
  ticket : Nat
  id : Option Id
  stage : Stage Outcome

namespace Command

/-- Whether a command holds a place among the running ones. -/
def holdsPlace (command : Command Id Outcome) : Bool :=
  match command.stage with
  | .ended _ => false
  | _ => true

def holdsPermit (command : Command Id Outcome) : Bool :=
  match command.stage with
  | .running => true
  | _ => false

/-- Whether `start` accepted a command. -/
def accepted (command : Command Id Outcome) : Bool :=
  match command.stage with
  | .starting | .refused | .ended none => false
  | _ => true

/-- What a command's publication was numbered and said, once it was sent. -/
def sent (command : Command Id Outcome) : Option (Nat × Outcome) :=
  match command.stage with
  | .published sent | .ended sent => sent
  | _ => none

end Command

/-! ## The server -/

structure Lifecycle where
  stopping : Bool
  /-- The commands started and not yet published. -/
  running : Nat
  /-- The connections admitted and not yet ended. -/
  serving : Nat
deriving DecidableEq, Repr

/-- How far a shutdown has come. -/
inductive Closer where
  | none
  | waiting
  /-- It saw no command running. -/
  | ready
  | done
deriving DecidableEq, Repr

structure ProjectionServer (Id Outcome : Type) where
  lifecycle : Lifecycle
  /-- The command permits that are free. -/
  permits : Nat
  /-- The number of the last publication sent. -/
  last : Nat
  /-- The number of the closing publication; 0 until the server shuts down. -/
  closingAt : Nat
  closer : Closer
  commands : List (Command Id Outcome)
  connections : List (Connection Id Outcome)

/-- What a task of the server does next. -/
inductive ServerStep (Id Outcome : Type) where
  /-- A connection subscribes to the publications, before it is counted. -/
  | subscribe
  | count (connection : Nat)
  /-- A connection receives a command and takes a place for it. -/
  | request (connection : Nat) (id : Option Id)
  /-- The application runs a command, which takes a place. -/
  | command
  | acquire (command : Nat)
  /-- A command's host returns, or panics. -/
  | finish (command : Nat) (returned : Option Outcome)
  /-- A command's outcome is published; the application's encoder may panic. -/
  | publish (command : Nat) (panics : Bool)
  | giveBack (command : Nat)
  /-- A mutation, an announcement or a store's change is published. -/
  | publishOther (publication : Publication Outcome)
  /-- A connection takes its next publication. -/
  | receive (connection : Nat)
  /-- A connection falls behind and receives what is sent from now on. -/
  | lag (connection : Nat)
  | answerSkipped (connection : Nat)
  | decideClosing (connection : Nat)
  /-- A connection's client closes it, or it fails. -/
  | disconnect (connection : Nat)
  | leave (connection : Nat)
  | shutDown
  | seeNoneRunning
  | sendClosing

namespace ProjectionServer

/-- A server that runs at most `limit` commands at once. -/
def new (limit : Nat) : ProjectionServer Id Outcome where
  lifecycle := { stopping := false, running := 0, serving := 0 }
  permits := limit
  last := 0
  closingAt := 0
  closer := .none
  commands := []
  connections := []

/-- Numbers a publication and sends it to every connection. -/
def send (server : ProjectionServer Id Outcome)
    (publication : Publication Outcome) : ProjectionServer Id Outcome :=
  { server with
    last := server.last + 1
    connections :=
      server.connections.map
        (.receive { sequence := server.last + 1, publication := publication }) }

def modifyConnection (server : ProjectionServer Id Outcome) (index : Nat)
    (change : Connection Id Outcome → Connection Id Outcome) :
    ProjectionServer Id Outcome :=
  { server with connections := server.connections.modify index change }

def atConnection (server : ProjectionServer Id Outcome) (index : Nat)
    (go : Connection Id Outcome → ProjectionServer Id Outcome) :
    ProjectionServer Id Outcome :=
  match server.connections[index]? with
  | some connection => go connection
  | none => server

def atCommand (server : ProjectionServer Id Outcome) (index : Nat)
    (go : Command Id Outcome → ProjectionServer Id Outcome) :
    ProjectionServer Id Outcome :=
  match server.commands[index]? with
  | some command => go command
  | none => server

def setServing (server : ProjectionServer Id Outcome) (serving : Nat) :
    ProjectionServer Id Outcome :=
  { server with
    lifecycle := { server.lifecycle with serving := serving } }

/-- A command at a further stage. -/
def setStage (server : ProjectionServer Id Outcome) (index : Nat)
    (stage : Stage Outcome) : ProjectionServer Id Outcome :=
  { server with
    commands :=
      server.commands.modify index fun command =>
        { command with stage := stage } }

/-- `Counted::take` among the running commands, for a command that may start. -/
def takePlace (server : ProjectionServer Id Outcome)
    (command : Command Id Outcome) : ProjectionServer Id Outcome :=
  { server with
    lifecycle :=
      { server.lifecycle with running := server.lifecycle.running + 1 }
    commands := server.commands ++ [command] }

/-- `Drop for Counted` of a command's place. -/
def dropPlace (server : ProjectionServer Id Outcome) :
    ProjectionServer Id Outcome :=
  { server with
    lifecycle :=
      { server.lifecycle with running := server.lifecycle.running - 1 } }

/-- Publishes a command's outcome, handed to its connection as it is numbered. -/
def publishCommand (server : ProjectionServer Id Outcome) (index : Nat)
    (command : Command Id Outcome) (outcome : Outcome) (panics : Bool) :
    ProjectionServer Id Outcome :=
  let sequence := server.last + 1
  if command.origin = noConnection then
    if panics then
      { server with last := sequence }.setStage index (.published none)
    else
      (server.send (.ran command.origin command.ticket outcome)).setStage index
        (.published (some (sequence, outcome)))
  else
    let publication : Publication Outcome :=
      .ran command.origin command.ticket outcome
    let handed :=
      server.modifyConnection (command.origin - 1)
        (·.keepRan command.ticket
          { sequence := sequence, publication := publication })
    (handed.send publication).setStage index
      (.published (some (sequence, outcome)))

/-- The server after one more step; one that cannot happen changes nothing. -/
def next (withoutResult : Outcome) (server : ProjectionServer Id Outcome) :
    ServerStep Id Outcome → ProjectionServer Id Outcome
  | .subscribe =>
      { server with connections := server.connections ++ [.new] }
  | .count index =>
      server.atConnection index fun connection =>
        match connection.loop with
        | .subscribed =>
            if server.lifecycle.stopping then
              server.modifyConnection index (·.goTo .ended)
            else
              (server.setServing (server.lifecycle.serving + 1)).modifyConnection
                index (·.goTo .serving)
        | _ => server
  | .request index id =>
      server.atConnection index fun connection =>
        match connection.loop with
        | .serving =>
            let ticket := connection.tickets + 1
            if server.lifecycle.stopping then
              server.modifyConnection index fun connection =>
                { connection.refuse id with tickets := ticket }
            else
              (server.takePlace
                { origin := index + 1
                  ticket := ticket
                  id := id
                  stage := .starting }).modifyConnection index
                fun connection =>
                  { connection with
                    tickets := ticket
                    loop := .starting ticket }
        | _ => server
  | .command =>
      if server.lifecycle.stopping then server
      else
        server.takePlace
          { origin := noConnection, ticket := 0, id := none
            stage := .starting }
  | .acquire index =>
      server.atCommand index fun command =>
        match command.stage with
        | .starting =>
            if 0 < server.permits then
              let acquired :=
                { server with permits := server.permits - 1 }.setStage index
                  .running
              if command.origin = noConnection then acquired
              else
                acquired.modifyConnection (command.origin - 1)
                  (·.waitFor command.ticket command.id)
            else server.setStage index .refused
        | _ => server
  | .finish index returned =>
      server.atCommand index fun command =>
        match command.stage with
        | .running =>
            { server with permits := server.permits + 1 }.setStage index
              (.finished (returned.getD withoutResult))
        | _ => server
  | .publish index panics =>
      server.atCommand index fun command =>
        match command.stage with
        | .finished outcome =>
            server.publishCommand index command outcome panics
        | _ => server
  | .giveBack index =>
      server.atCommand index fun command =>
        match command.stage with
        | .refused =>
            let dropped := server.dropPlace.setStage index (.ended none)
            if command.origin = noConnection then dropped
            else
              dropped.modifyConnection (command.origin - 1) fun connection =>
                (connection.refuse command.id).goTo .serving
        | .published sent => server.dropPlace.setStage index (.ended sent)
        | _ => server
  | .publishOther publication =>
      match publication with
      | .served _ | .announced | .stored => server.send publication
      | .ran _ _ _ | .closing => server
  | .receive index =>
      server.atConnection index fun connection =>
        match connection.loop, connection.unread with
        | .serving, sent :: rest =>
            server.modifyConnection index fun connection =>
              { connection with unread := rest }.take (index + 1) sent
        | _, _ => server
  | .lag index =>
      server.atConnection index fun connection =>
        match connection.loop, connection.unread with
        | .serving, _ :: _ =>
            server.modifyConnection index fun connection =>
              { connection with loop := .behind server.last, unread := [] }
        | _, _ => server
  | .answerSkipped index =>
      server.atConnection index fun connection =>
        match connection.loop with
        | .behind through =>
            server.modifyConnection index fun connection =>
              (connection.answerSkipped through).goTo (.caughtUp through)
        | _ => server
  | .decideClosing index =>
      server.atConnection index fun connection =>
        match connection.loop with
        | .caughtUp through =>
            server.modifyConnection index fun connection =>
              if server.closingAt ≠ 0 ∧ server.closingAt ≤ through then
                connection.close
              else connection.goTo .serving
        | _ => server
  | .disconnect index =>
      server.atConnection index fun connection =>
        match connection.loop with
        | .serving | .behind _ | .caughtUp _ =>
            server.modifyConnection index (·.goTo .closed)
        | _ => server
  | .leave index =>
      server.atConnection index fun connection =>
        match connection.loop with
        | .closed =>
            (server.setServing (server.lifecycle.serving - 1)).modifyConnection
              index (·.goTo .ended)
        | _ => server
  | .shutDown =>
      { server with
        lifecycle := { server.lifecycle with stopping := true }
        closer :=
          if server.lifecycle.stopping then server.closer else .waiting }
  | .seeNoneRunning =>
      if server.closer = .waiting ∧ server.lifecycle.running = 0 then
        { server with closer := .ready }
      else server
  | .sendClosing =>
      if server.closer = .ready then
        { server.send .closing with
          closingAt := server.last + 1
          closer := .done }
      else server

end ProjectionServer

end Clerkenwell.Axum
