import Clerkenwell.Client.RpcSocket
import Mathlib.Data.List.Nodup

/-!
# One live socket

Which runs of an RPC socket keep to one WebSocket: those that deliver a close
event only of the WebSocket the object holds, or while it holds none, and none
while it is connected with a reconnect still scheduled.
-/

namespace Clerkenwell.Client

open Clerkenwell.Foundation

namespace RpcSocket

variable (options : RpcSocketOptions)

/-! ## The property -/

/-- A WebSocket that fired its open event and has yet to fire its close event. -/
def Open (rpc : RpcSocket) (socket : Nat) : Prop :=
  ∃ held, rpc.sockets[socket]? = some held ∧ held.opened = true
    ∧ held.firedClose = false

/-- A WebSocket that has yet to fire its close event. -/
def Unclosed (rpc : RpcSocket) (socket : Nat) : Prop :=
  ∃ held, rpc.sockets[socket]? = some held ∧ held.firedClose = false

/-- An attempt that is neither made nor failed. -/
def UnderWay (rpc : RpcSocket) (socket : Nat) : Prop :=
  ∃ held, rpc.sockets[socket]? = some held ∧ held.attempt = .pending

/--
A call is settled; or it can go on; or it awaits an attempt, or the answer to
its request, and the close of that WebSocket, which settles it, is to come.
-/
def Accounted (rpc : RpcSocket) (call : Nat) : CallPhase → Prop
  | .settled => call ∈ rpc.settlements.map Prod.fst
  | .waiting awaited =>
      rpc.promise awaited = .pending →
        ∃ socket, awaited = .attempt socket ∧ rpc.Unclosed socket
  | .requested =>
      ∃ request ∈ rpc.pending, request.call = call
        ∧ rpc.Unclosed request.sentOn

/-- One live socket: what the object keeps to in every state. -/
structure OneLive (rpc : RpcSocket) : Prop where
  once : (rpc.settlements.map Prod.fst).Nodup
  accounted : ∀ (call : Nat) (phase : CallPhase),
    rpc.calls[call]? = some phase → rpc.Accounted call phase
  connected : rpc.state.status = .connected →
    ∃ socket, rpc.socket = some socket ∧ rpc.Open socket
  oneTimer : rpc.timers.length ≤ 1
  oneAttempt : ∀ first second,
    rpc.UnderWay first → rpc.UnderWay second → first = second

/--
A close or error of a WebSocket the object does not hold changes neither the
one it holds, nor its state, nor the requests pending on it.
-/
def Unmoved (rpc : RpcSocket) (step : SocketStep) : Prop :=
  match step with
  | .close socket | .error socket =>
      rpc.socket ≠ some socket →
        (rpc.next options step).socket = rpc.socket
          ∧ (rpc.next options step).state = rpc.state
          ∧ ∀ request ∈ rpc.pending, rpc.socket = some request.sentOn →
              request ∈ (rpc.next options step).pending
  | _ => True

/-- One live socket, throughout a run. -/
def OneLiveSocket (steps : List SocketStep) : Prop :=
  Machine.Throughout (next options) OneLive (new options) steps
    ∧ Machine.EveryStep (next options) (Unmoved options) (new options) steps

/--
A close event is of the WebSocket the object holds, or the object holds none;
and the object is not connected while a reconnect is scheduled.
-/
def Timely (rpc : RpcSocket) (step : SocketStep) : Prop :=
  match step with
  | .close socket =>
      rpc.closes socket = true →
        (rpc.socket = none ∨ rpc.socket = some socket)
          ∧ ¬(rpc.state.status = .connected ∧ rpc.reconnectTimer.isSome = true)
  | _ => True

instance (rpc : RpcSocket) (step : SocketStep) : Decidable (rpc.Timely step) := by
  cases step <;> unfold Timely <;> infer_instance

/-! ## What the parts of an RPC socket stay in step with -/

/-- What holds of a WebSocket, whose attempt is the one under way or not. -/
structure Kept (held : OpenedSocket) (underWay : Prop) : Prop where
  unsettled : held.settled = false ↔ underWay
  promised : held.attempt = .pending ↔ held.settled = false
  finished : held.opened = true ∨ held.firedClose = true → held.settled = true
  awaiting : held.readyState = .connecting → held.firedError = false →
    held.firedClose = false → held.settled = false

/-- The attempts and the WebSockets they opened. -/
structure Attempts (rpc : RpcSocket) : Prop where
  kept : ∀ (index : Nat) (held : OpenedSocket),
    rpc.sockets[index]? = some held → Kept held (rpc.opening = some index)
  opening : ∀ index, rpc.opening = some index → index < rpc.sockets.length
  current : ∀ index, rpc.socket = some index → rpc.Unclosed index

/-- The calls and the requests they wait on. -/
structure Calls (rpc : RpcSocket) : Prop where
  once : (rpc.settlements.map Prod.fst).Nodup
  settled : ∀ call, call ∈ rpc.settlements.map Prod.fst
    ↔ rpc.calls[call]? = some .settled
  requested : ∀ call, call ∈ rpc.pending.map PendingRequest.call
    ↔ rpc.calls[call]? = some .requested
  calledOnce : (rpc.pending.map PendingRequest.call).Nodup
  named : (rpc.pending.map PendingRequest.id).Nodup
  numbered : ∀ request ∈ rpc.pending, request.id < rpc.nextRequestId
  waits : ∀ (call socket : Nat),
    rpc.calls[call]? = some (.waiting (.attempt socket)) →
      socket < rpc.sockets.length

/-- The reconnect timer. -/
structure Timers (rpc : RpcSocket) : Prop where
  scheduled : rpc.timers = rpc.reconnectTimer.toList
  allowed : rpc.reconnectTimer.isSome = true → rpc.allowReconnect = true
  configured : rpc.allowReconnect = true → options.reconnectOnClose = true

/-- The state reported, and the WebSocket requests are sent on. -/
structure Steady (rpc : RpcSocket) : Prop where
  connected : rpc.state.status = .connected →
    ∃ socket, rpc.socket = some socket ∧ rpc.Open socket
  opening : ∀ index, rpc.opening = some index →
    rpc.socket = some index
      ∨ (rpc.socket = none ∧ rpc.allowReconnect = false
          ∧ ∃ held, rpc.sockets[index]? = some held
            ∧ held.readyState = .closed)
  retrying : rpc.socket = none → rpc.allowReconnect = true →
    rpc.sockets = [] ∨ rpc.reconnectTimer.isSome = true
  stopped : rpc.socket = none → rpc.allowReconnect = false →
    rpc.state = ⟨.disconnected, none⟩

/-- What holds of an RPC socket through a timely run. -/
structure Sound (rpc : RpcSocket) : Prop where
  attempts : rpc.Attempts
  calls : rpc.Calls
  sent : ∀ request ∈ rpc.pending, rpc.Unclosed request.sentOn
  timers : rpc.Timers options
  steady : rpc.Steady

theorem sound_new : (new options).Sound options := by
  constructor
  · constructor <;> simp [new]
  · constructor <;> simp [new]
  · simp [new]
  · constructor <;> simp [new]
  · constructor <;> simp [new]

variable {options}

theorem Sound.oneLive {rpc : RpcSocket} (sound : rpc.Sound options) :
    rpc.OneLive where
  once := sound.calls.once
  accounted := by
    intro call phase held
    cases phase with
    | settled => exact (sound.calls.settled call).mpr held
    | requested =>
        obtain ⟨request, pending, same⟩ :=
          List.mem_map.mp ((sound.calls.requested call).mpr held)
        exact ⟨request, pending, same, sound.sent request pending⟩
    | waiting awaited =>
        intro undecided
        cases awaited with
        | resolved => simp [promise] at undecided
        | attempt socket =>
            have within := sound.calls.waits call socket held
            have found := List.getElem?_eq_getElem within
            have kept := sound.attempts.kept socket _ found
            refine ⟨socket, rfl, _, found, ?_⟩
            have pending : rpc.sockets[socket].attempt = .pending := by
              simpa [promise, found] using undecided
            have unsettled := kept.promised.mp pending
            cases closed : rpc.sockets[socket].firedClose with
            | false => rfl
            | true =>
                have settled := kept.finished (Or.inr closed)
                simp [unsettled] at settled
  connected := sound.steady.connected
  oneTimer := by
    rw [sound.timers.scheduled]
    cases rpc.reconnectTimer <;> simp
  oneAttempt := by
    rintro first second ⟨one, one_held, one_pending⟩
      ⟨other, other_held, other_pending⟩
    have one_kept := sound.attempts.kept first one one_held
    have other_kept := sound.attempts.kept second other other_held
    have one_opening :=
      one_kept.unsettled.mp (one_kept.promised.mp one_pending)
    have other_opening :=
      other_kept.unsettled.mp (other_kept.promised.mp other_pending)
    exact Option.some.inj (one_opening.symm.trans other_opening)

/-! ## The parts each operation leaves alone -/

section Frames

variable (rpc : RpcSocket)

@[simp]
theorem setState_fields (next : RpcSocketState) :
    (rpc.setState next).sockets = rpc.sockets
      ∧ (rpc.setState next).socket = rpc.socket
      ∧ (rpc.setState next).opening = rpc.opening
      ∧ (rpc.setState next).timers = rpc.timers
      ∧ (rpc.setState next).reconnectTimer = rpc.reconnectTimer
      ∧ (rpc.setState next).allowReconnect = rpc.allowReconnect
      ∧ (rpc.setState next).state = next
      ∧ (rpc.setState next).nextRequestId = rpc.nextRequestId
      ∧ (rpc.setState next).pending = rpc.pending
      ∧ (rpc.setState next).calls = rpc.calls
      ∧ (rpc.setState next).settlements = rpc.settlements := by
  unfold setState
  split_ifs with same <;> simp [tell, same]

@[simp]
theorem scheduleReconnect_fields :
    rpc.scheduleReconnect.sockets = rpc.sockets
      ∧ rpc.scheduleReconnect.socket = rpc.socket
      ∧ rpc.scheduleReconnect.opening = rpc.opening
      ∧ rpc.scheduleReconnect.allowReconnect = rpc.allowReconnect
      ∧ rpc.scheduleReconnect.nextRequestId = rpc.nextRequestId
      ∧ rpc.scheduleReconnect.pending = rpc.pending
      ∧ rpc.scheduleReconnect.calls = rpc.calls
      ∧ rpc.scheduleReconnect.settlements = rpc.settlements := by
  unfold scheduleReconnect
  split_ifs <;> simp

@[simp]
theorem tell_fields (told : Told) :
    (rpc.tell told).sockets = rpc.sockets
      ∧ (rpc.tell told).socket = rpc.socket
      ∧ (rpc.tell told).opening = rpc.opening
      ∧ (rpc.tell told).timers = rpc.timers
      ∧ (rpc.tell told).reconnectTimer = rpc.reconnectTimer
      ∧ (rpc.tell told).allowReconnect = rpc.allowReconnect
      ∧ (rpc.tell told).state = rpc.state
      ∧ (rpc.tell told).nextRequestId = rpc.nextRequestId
      ∧ (rpc.tell told).pending = rpc.pending
      ∧ (rpc.tell told).calls = rpc.calls
      ∧ (rpc.tell told).settlements = rpc.settlements := by
  simp [tell]

@[simp]
theorem modifySocket_fields (socket : Nat)
    (change : OpenedSocket → OpenedSocket) :
    (rpc.modifySocket socket change).sockets = rpc.sockets.modify socket change
      ∧ (rpc.modifySocket socket change).socket = rpc.socket
      ∧ (rpc.modifySocket socket change).opening = rpc.opening
      ∧ (rpc.modifySocket socket change).timers = rpc.timers
      ∧ (rpc.modifySocket socket change).reconnectTimer = rpc.reconnectTimer
      ∧ (rpc.modifySocket socket change).allowReconnect = rpc.allowReconnect
      ∧ (rpc.modifySocket socket change).state = rpc.state
      ∧ (rpc.modifySocket socket change).nextRequestId = rpc.nextRequestId
      ∧ (rpc.modifySocket socket change).pending = rpc.pending
      ∧ (rpc.modifySocket socket change).calls = rpc.calls
      ∧ (rpc.modifySocket socket change).settlements = rpc.settlements := by
  simp [modifySocket]

/-- An object one of whose WebSockets opens. -/
def openedSocket (options : RpcSocketOptions) (socket : Nat) : RpcSocket :=
  (rpc.modifySocket socket fun opened =>
    { opened with readyState := .open }).onOpen options socket

/-- What the open event comes to. -/
theorem openedSocket_fields (options : RpcSocketOptions) (socket : Nat) :
    (rpc.openedSocket options socket).sockets
        = rpc.sockets.modify socket (fun opened =>
            { opened with
              readyState := .open
              opened := true
              settled := true
              attempt := opened.attempt.resolve })
      ∧ (rpc.openedSocket options socket).socket = rpc.socket
      ∧ (rpc.openedSocket options socket).opening = none
      ∧ (rpc.openedSocket options socket).timers = rpc.timers
      ∧ (rpc.openedSocket options socket).reconnectTimer = rpc.reconnectTimer
      ∧ (rpc.openedSocket options socket).allowReconnect = rpc.allowReconnect
      ∧ (rpc.openedSocket options socket).nextRequestId = rpc.nextRequestId
      ∧ (rpc.openedSocket options socket).pending = rpc.pending
      ∧ (rpc.openedSocket options socket).calls = rpc.calls
      ∧ (rpc.openedSocket options socket).settlements = rpc.settlements := by
  unfold openedSocket onOpen
  split_ifs <;> simp [List.modify_modify_eq, Function.comp_def]

@[simp]
theorem rejectAttempt_fields (socket : Nat) :
    (rpc.rejectAttempt socket).sockets
        = rpc.sockets.modify socket (fun opened =>
            { opened with
              settled := true
              attempt := opened.attempt.reject })
      ∧ (rpc.rejectAttempt socket).socket = rpc.socket
      ∧ (rpc.rejectAttempt socket).opening = none
      ∧ (rpc.rejectAttempt socket).timers = rpc.timers
      ∧ (rpc.rejectAttempt socket).reconnectTimer = rpc.reconnectTimer
      ∧ (rpc.rejectAttempt socket).allowReconnect = rpc.allowReconnect
      ∧ (rpc.rejectAttempt socket).state = rpc.state
      ∧ (rpc.rejectAttempt socket).nextRequestId = rpc.nextRequestId
      ∧ (rpc.rejectAttempt socket).pending = rpc.pending
      ∧ (rpc.rejectAttempt socket).calls = rpc.calls
      ∧ (rpc.rejectAttempt socket).settlements = rpc.settlements := by
  simp [rejectAttempt]

theorem foldl_settle (requests : List PendingRequest) :
    requests.foldl (fun rpc request => rpc.settle request.call .closed) rpc
      = { rpc with
          calls := requests.foldl
            (fun calls request => calls.set request.call .settled) rpc.calls
          settlements := rpc.settlements
            ++ requests.map fun request => (request.call, .closed) } := by
  induction requests generalizing rpc with
  | nil => simp
  | cons request rest inductionHypothesis =>
      rw [List.foldl_cons, inductionHypothesis]
      simp [settle]

@[simp]
theorem rejectPending_fields :
    rpc.rejectPending.sockets = rpc.sockets
      ∧ rpc.rejectPending.socket = rpc.socket
      ∧ rpc.rejectPending.opening = rpc.opening
      ∧ rpc.rejectPending.timers = rpc.timers
      ∧ rpc.rejectPending.reconnectTimer = rpc.reconnectTimer
      ∧ rpc.rejectPending.allowReconnect = rpc.allowReconnect
      ∧ rpc.rejectPending.state = rpc.state
      ∧ rpc.rejectPending.nextRequestId = rpc.nextRequestId
      ∧ rpc.rejectPending.pending = [] := by
  simp [rejectPending, foldl_settle]

end Frames

/-! ## Parts that stay as they are -/

section Same

variable {rpc next : RpcSocket}

theorem Attempts.of_same (attempts : rpc.Attempts)
    (sockets : next.sockets = rpc.sockets)
    (opening : next.opening = rpc.opening)
    (socket : next.socket = rpc.socket) : next.Attempts where
  kept := by
    rw [sockets, opening]
    exact attempts.kept
  opening := by
    rw [sockets, opening]
    exact attempts.opening
  current := by
    unfold Unclosed
    rw [sockets, socket]
    exact attempts.current

theorem Calls.of_same (calls : rpc.Calls)
    (settlements : next.settlements = rpc.settlements)
    (phases : next.calls = rpc.calls) (pending : next.pending = rpc.pending)
    (numbers : next.nextRequestId = rpc.nextRequestId)
    (sockets : rpc.sockets.length ≤ next.sockets.length) : next.Calls where
  once := settlements ▸ calls.once
  settled := by
    rw [settlements, phases]
    exact calls.settled
  requested := by
    rw [pending, phases]
    exact calls.requested
  calledOnce := pending ▸ calls.calledOnce
  named := pending ▸ calls.named
  numbered := by
    rw [pending, numbers]
    exact calls.numbered
  waits := by
    rw [phases]
    exact fun call socket held =>
      (calls.waits call socket held).trans_le sockets

theorem Timers.of_same (timers : rpc.Timers options)
    (scheduled : next.timers = rpc.timers)
    (timer : next.reconnectTimer = rpc.reconnectTimer)
    (allow : next.allowReconnect = rpc.allowReconnect) :
    next.Timers options where
  scheduled := by
    rw [scheduled, timer]
    exact timers.scheduled
  allowed := by
    rw [timer, allow]
    exact timers.allowed
  configured := by
    rw [allow]
    exact timers.configured

/-- Scheduling a reconnect keeps to the one timer. -/
theorem Timers.scheduleReconnect (timers : rpc.Timers options) :
    rpc.scheduleReconnect.Timers options := by
  unfold RpcSocket.scheduleReconnect
  split_ifs with refused
  · exact timers
  · obtain ⟨allowed, unscheduled⟩ :
        rpc.allowReconnect = true ∧ rpc.reconnectTimer = none := by
      simpa using refused
    constructor
    · simp [timers.scheduled, unscheduled]
    · simp [allowed]
    · simpa using timers.configured

end Same

/-! ## Settling calls -/

section Settling

variable {rpc : RpcSocket}

/--
A call that is not settled is settled once, and takes its request, when it has
one, out of those that are pending.
-/
theorem Calls.settle (calls : rpc.Calls) {call : Nat} {phase : CallPhase}
    {kept : List PendingRequest} (held : rpc.calls[call]? = some phase)
    (unsettled : phase ≠ .settled) (within : kept.Sublist rpc.pending)
    (left : ∀ other, other ∈ kept.map PendingRequest.call
      ↔ other ∈ rpc.pending.map PendingRequest.call ∧ other ≠ call)
    (outcome : Outcome) :
    ({ rpc with pending := kept }.settle call outcome).Calls := by
  have bound : call < rpc.calls.length :=
    (List.getElem?_eq_some_iff.mp held).1
  have fresh : call ∉ rpc.settlements.map Prod.fst := by
    rw [calls.settled call, held]
    simpa using unsettled
  constructor
  · simp only [RpcSocket.settle, List.map_append, List.map_cons, List.map_nil]
    rw [List.nodup_append]
    refine ⟨calls.once, by simp, ?_⟩
    rintro other before last after rfl
    obtain rfl : other = call := by simpa using after
    exact fresh before
  · intro other
    simp only [RpcSocket.settle, List.map_append, List.map_cons, List.map_nil,
      List.mem_append, List.mem_singleton, List.getElem?_set]
    by_cases same : call = other
    · subst same
      simp [bound]
    · simp [same, Ne.symm same, calls.settled other]
  · intro other
    simp only [RpcSocket.settle, left other, List.getElem?_set]
    by_cases same : call = other
    · subst same
      simp [bound]
    · simp [same, Ne.symm same, calls.requested other]
  · exact (within.map _).nodup calls.calledOnce
  · exact (within.map _).nodup calls.named
  · exact fun request member => calls.numbered request (within.subset member)
  · intro other socket waiting
    simp only [RpcSocket.settle, List.getElem?_set] at waiting
    split_ifs at waiting
    · simp at waiting
    · exact calls.waits other socket waiting

theorem Calls.settle_request (calls : rpc.Calls) {request : PendingRequest}
    (pending : request ∈ rpc.pending) (outcome : Outcome) :
    ({ rpc with
        pending := rpc.pending.filter fun other =>
          other.id ≠ request.id }.settle request.call outcome).Calls := by
  have held : rpc.calls[request.call]? = some .requested :=
    (calls.requested _).mp (List.mem_map_of_mem pending)
  refine calls.settle held (by simp) List.filter_sublist ?_ outcome
  intro other
  constructor
  · intro member
    obtain ⟨found, kept, rfl⟩ := List.mem_map.mp member
    obtain ⟨within, different⟩ := List.mem_filter.mp kept
    refine ⟨List.mem_map_of_mem within, fun same => ?_⟩
    have equal : found = request :=
      List.inj_on_of_nodup_map calls.calledOnce within pending same
    simp [equal] at different
  · rintro ⟨member, different⟩
    obtain ⟨found, within, rfl⟩ := List.mem_map.mp member
    refine List.mem_map_of_mem (List.mem_filter.mpr ⟨within, ?_⟩)
    have other_id : found.id ≠ request.id := fun same =>
      different (congrArg _
        (List.inj_on_of_nodup_map calls.named within pending same))
    simpa using other_id

/-- A call that waits is settled, and no request is. -/
theorem Calls.settle_waiting (calls : rpc.Calls) {call : Nat}
    {awaited : Awaited} (held : rpc.calls[call]? = some (.waiting awaited))
    (outcome : Outcome) : (rpc.settle call outcome).Calls := by
  refine calls.settle held (by simp) (List.Sublist.refl _) ?_ outcome
  intro other
  refine ⟨fun member => ⟨member, ?_⟩, And.left⟩
  rintro rfl
  have requested := (calls.requested other).mp member
  simp [held] at requested

theorem Calls.rejectPending (calls : rpc.Calls) : rpc.rejectPending.Calls := by
  have general : ∀ (requests : List PendingRequest) (rpc : RpcSocket),
      { rpc with pending := requests }.Calls →
        { requests.foldl
            (fun (rpc : RpcSocket) (request : PendingRequest) =>
              rpc.settle request.call .closed)
            rpc with pending := [] }.Calls := by
    intro requests
    induction requests with
    | nil => exact fun _ calls => calls
    | cons request rest inductionHypothesis =>
        intro rpc calls
        refine inductionHypothesis _ ?_
        have removed :
            (request :: rest).filter (fun other => other.id ≠ request.id)
              = rest := by
          have absent : ∀ other ∈ rest, other.id ≠ request.id := by
            intro other member same
            have nodup := calls.named
            simp only [List.map_cons, List.nodup_cons] at nodup
            exact nodup.1 (same ▸ List.mem_map_of_mem member)
          rw [List.filter_cons_of_neg (by simp),
            List.filter_eq_self.mpr fun other member => by
              simpa using absent other member]
        have settled := calls.settle_request List.mem_cons_self .closed
        rwa [removed] at settled
  exact general rpc.pending rpc calls

end Settling

/-! ## A WebSocket whose attempt stands -/

/-- A WebSocket changes, and fires neither its open nor its close event. -/
structure Quiet (held changed : OpenedSocket) : Prop where
  settled : changed.settled = held.settled
  attempt : changed.attempt = held.attempt
  opened : changed.opened = held.opened
  firedClose : changed.firedClose = held.firedClose
  firedError : changed.firedError = false → held.firedError = false
  connecting : changed.readyState = .connecting → held.readyState = .connecting
  closed : held.readyState = .closed → changed.readyState = .closed

theorem Quiet.refl (held : OpenedSocket) : Quiet held held where
  settled := rfl
  attempt := rfl
  opened := rfl
  firedClose := rfl
  firedError := id
  connecting := id
  closed := id

theorem Quiet.kept {held changed : OpenedSocket} (quiet : Quiet held changed)
    {underWay : Prop} (kept : Kept held underWay) : Kept changed underWay where
  unsettled := by rw [quiet.settled, kept.unsettled]
  promised := by rw [quiet.settled, quiet.attempt, kept.promised]
  finished := by
    rw [quiet.settled, quiet.opened, quiet.firedClose]
    exact kept.finished
  awaiting := by
    rw [quiet.settled, quiet.firedClose]
    exact fun connecting erred unclosed =>
      kept.awaiting (quiet.connecting connecting) (quiet.firedError erred)
        unclosed

section Quietly

variable {rpc : RpcSocket} {socket : Nat} {change : OpenedSocket → OpenedSocket}

/-- A WebSocket after one of them changed quietly. -/
theorem exists_modified
    (quiet : ∀ held, rpc.sockets[socket]? = some held →
      Quiet held (change held))
    {index : Nat} {held : OpenedSocket}
    (found : rpc.sockets[index]? = some held) :
    ∃ changed, (rpc.modifySocket socket change).sockets[index]? = some changed
      ∧ Quiet held changed := by
  unfold modifySocket
  by_cases same : socket = index
  · subst same
    exact ⟨change held, by simp [found], quiet held found⟩
  · exact ⟨held, by simp [same, found], .refl held⟩

theorem exists_unmodified
    (quiet : ∀ held, rpc.sockets[socket]? = some held →
      Quiet held (change held))
    {index : Nat} {changed : OpenedSocket}
    (found : (rpc.modifySocket socket change).sockets[index]? = some changed) :
    ∃ held, rpc.sockets[index]? = some held ∧ Quiet held changed := by
  simp only [modifySocket, List.getElem?_modify] at found
  obtain ⟨held, before, rfl⟩ := Option.map_eq_some_iff.mp found
  refine ⟨held, before, ?_⟩
  by_cases same : socket = index
  · subst same
    simpa using quiet held before
  · simpa [same] using Quiet.refl held

theorem Unclosed.modifySocket
    (quiet : ∀ held, rpc.sockets[socket]? = some held →
      Quiet held (change held))
    {index : Nat} (unclosed : rpc.Unclosed index) :
    (rpc.modifySocket socket change).Unclosed index := by
  obtain ⟨held, found, open_yet⟩ := unclosed
  obtain ⟨changed, now, same⟩ := exists_modified quiet found
  exact ⟨changed, now, same.firedClose.trans open_yet⟩

/-- A quiet change of a WebSocket moves nothing. -/
theorem Sound.modifySocket (sound : rpc.Sound options)
    (quiet : ∀ held, rpc.sockets[socket]? = some held →
      Quiet held (change held)) :
    (rpc.modifySocket socket change).Sound options where
  attempts := by
    constructor
    · intro index changed found
      obtain ⟨held, before, same⟩ := exists_unmodified quiet found
      exact same.kept (sound.attempts.kept index held before)
    · simpa [RpcSocket.modifySocket] using sound.attempts.opening
    · exact fun index current =>
        (sound.attempts.current index current).modifySocket quiet
  calls := sound.calls.of_same rfl rfl rfl rfl
    (by simp [RpcSocket.modifySocket])
  sent := fun request pending =>
    (sound.sent request pending).modifySocket quiet
  timers := sound.timers.of_same rfl rfl rfl
  steady := by
    constructor
    · intro connected
      obtain ⟨index, current, held, found, opened, unclosed⟩ :=
        sound.steady.connected connected
      obtain ⟨changed, now, same⟩ := exists_modified quiet found
      exact ⟨index, current, changed, now, same.opened.trans opened,
        same.firedClose.trans unclosed⟩
    · intro index opening
      rcases sound.steady.opening index opening with
        current | ⟨lost, stopped, held, found, closed⟩
      · exact Or.inl current
      · obtain ⟨changed, now, same⟩ := exists_modified quiet found
        exact Or.inr ⟨lost, stopped, changed, now, same.closed closed⟩
    · intro lost allowed
      rcases sound.steady.retrying lost allowed with none | scheduled
      · exact Or.inl (by simp [RpcSocket.modifySocket, none])
      · exact Or.inr scheduled
    · exact sound.steady.stopped

end Quietly

/-! ## The steps of the object -/

section Operations

variable {rpc : RpcSocket}

/-- Where nothing but calls, requests and what was told changes. -/
theorem Sound.of_same {next : RpcSocket} (sound : rpc.Sound options)
    (calls : next.Calls)
    (sent : ∀ request ∈ next.pending, rpc.Unclosed request.sentOn)
    (sockets : next.sockets = rpc.sockets) (socket : next.socket = rpc.socket)
    (opening : next.opening = rpc.opening)
    (timers : next.timers = rpc.timers)
    (timer : next.reconnectTimer = rpc.reconnectTimer)
    (allow : next.allowReconnect = rpc.allowReconnect)
    (state : next.state = rpc.state) : next.Sound options where
  attempts := sound.attempts.of_same sockets opening socket
  calls := calls
  sent := by
    unfold Unclosed
    rw [sockets]
    exact sent
  timers := sound.timers.of_same timers timer allow
  steady := by
    constructor
    · unfold Open
      rw [state, socket, sockets]
      exact sound.steady.connected
    · rw [opening, socket, allow, sockets]
      exact sound.steady.opening
    · rw [socket, allow, sockets, timer]
      exact sound.steady.retrying
    · rw [socket, allow, state]
      exact sound.steady.stopped

theorem Sound.settle_waiting (sound : rpc.Sound options) {call : Nat}
    {awaited : Awaited} (held : rpc.calls[call]? = some (.waiting awaited))
    (outcome : Outcome) : (rpc.settle call outcome).Sound options :=
  sound.of_same (sound.calls.settle_waiting held outcome) sound.sent
    rfl rfl rfl rfl rfl rfl rfl

/-- What opening a WebSocket comes to. -/
theorem connect_fields (ready : rpc.readyState ≠ some .open)
    (opening : rpc.opening = none) :
    (rpc.connect options).2.sockets = rpc.sockets ++ [.new]
      ∧ (rpc.connect options).2.socket = some rpc.sockets.length
      ∧ (rpc.connect options).2.opening = some rpc.sockets.length
      ∧ (rpc.connect options).2.timers = rpc.timers
      ∧ (rpc.connect options).2.reconnectTimer = rpc.reconnectTimer
      ∧ (rpc.connect options).2.allowReconnect = options.reconnectOnClose
      ∧ (rpc.connect options).2.state = ⟨.connecting, none⟩
      ∧ (rpc.connect options).2.nextRequestId = rpc.nextRequestId
      ∧ (rpc.connect options).2.pending = rpc.pending
      ∧ (rpc.connect options).2.calls = rpc.calls
      ∧ (rpc.connect options).2.settlements = rpc.settlements := by
  rw [RpcSocket.connect, if_neg ready, opening]
  simp

/-- A new attempt, made while none is under way, is the one under way. -/
theorem sound_connect (attempts : rpc.Attempts) (calls : rpc.Calls)
    (sent : ∀ request ∈ rpc.pending, rpc.Unclosed request.sentOn)
    (timers : rpc.Timers options) (ready : rpc.readyState ≠ some .open)
    (opening : rpc.opening = none) :
    (rpc.connect options).2.Sound options := by
  obtain ⟨sockets, socket, attempt, scheduled, timer, allow, state, numbers,
    pending, phases, settlements⟩ := @connect_fields options rpc ready opening
  have unclosed : ∀ index, rpc.Unclosed index →
      (rpc.connect options).2.Unclosed index := by
    rintro index ⟨held, found, open_yet⟩
    have within := (List.getElem?_eq_some_iff.mp found).1
    exact ⟨held, by rw [sockets, List.getElem?_append_left within, found],
      open_yet⟩
  constructor
  · constructor
    · intro index held found
      rw [sockets, List.getElem?_append] at found
      rw [attempt]
      split_ifs at found with within
      · have kept := attempts.kept index held found
        rw [opening] at kept
        have earlier : ¬(some rpc.sockets.length = some index) := by
          simpa using (Nat.ne_of_lt within).symm
        exact ⟨by simp [kept.unsettled, earlier], kept.promised, kept.finished,
          kept.awaiting⟩
      · obtain ⟨last, rfl⟩ : index - rpc.sockets.length = 0 ∧ held = .new := by
          rcases List.getElem?_eq_some_iff.mp found with ⟨bound, same⟩
          simp only [List.length_singleton, Nat.lt_one_iff] at bound
          simp only [bound, List.getElem_cons_zero] at same
          exact ⟨bound, same.symm⟩
        obtain rfl : index = rpc.sockets.length := by omega
        constructor <;> simp [OpenedSocket.new]
    · intro index same
      rw [attempt, Option.some.injEq] at same
      rw [sockets, ← same]
      simp
    · intro index same
      rw [socket, Option.some.injEq] at same
      exact ⟨.new, by simp [sockets, ← same], rfl⟩
  · exact calls.of_same settlements phases pending numbers (by simp [sockets])
  · rw [pending]
    exact fun request member => unclosed _ (sent request member)
  · constructor
    · rw [scheduled, timer]
      exact timers.scheduled
    · rw [timer, allow]
      exact fun waiting => timers.configured (timers.allowed waiting)
    · rw [allow]
      exact id
  · constructor
    · simp [state]
    · rw [attempt, socket]
      exact fun index same => Or.inl same
    · simp [socket]
    · simp [socket]

theorem Sound.connect (sound : rpc.Sound options) :
    (rpc.connect options).2.Sound options := by
  by_cases ready : rpc.readyState = some .open
  · rw [RpcSocket.connect, if_pos ready]
    exact sound
  · cases opening : rpc.opening with
    | none =>
        exact sound_connect sound.attempts sound.calls sound.sent sound.timers
          ready opening
    | some attempt =>
        rw [RpcSocket.connect, if_neg ready, opening]
        exact sound

/-- An attempt a connect awaits is one that was made. -/
theorem Sound.awaited (sound : rpc.Sound options) {socket : Nat}
    (awaited : (rpc.connect options).1 = .attempt socket) :
    socket < (rpc.connect options).2.sockets.length := by
  unfold RpcSocket.connect at awaited ⊢
  split_ifs at awaited ⊢ with ready
  cases opening : rpc.opening with
  | none =>
      simp only [opening, Awaited.attempt.injEq] at awaited ⊢
      simp [← awaited]
  | some attempt =>
      simp only [opening, Awaited.attempt.injEq] at awaited ⊢
      exact awaited ▸ sound.attempts.opening attempt opening

theorem Sound.call (sound : rpc.Sound options) :
    (rpc.call options).Sound options := by
  have connected := sound.connect
  refine connected.of_same ?_ connected.sent rfl rfl rfl rfl rfl rfl rfl
  have calls := connected.calls
  have old : ∀ (call : Nat) (phase : CallPhase),
      phase ≠ .waiting (rpc.connect options).1 →
        (((rpc.connect options).2.calls
            ++ [.waiting (rpc.connect options).1])[call]? = some phase
          ↔ (rpc.connect options).2.calls[call]? = some phase) := by
    intro call phase different
    rw [List.getElem?_append]
    split_ifs with within
    · rfl
    · rw [List.getElem?_eq_none (Nat.le_of_not_lt within)]
      simp only [reduceCtorEq, iff_false]
      intro last
      obtain ⟨bound, same⟩ := List.getElem?_eq_some_iff.mp last
      simp only [List.length_singleton, Nat.lt_one_iff] at bound
      simp only [bound, List.getElem_cons_zero] at same
      exact different same.symm
  constructor
  · exact calls.once
  · intro call
    exact (calls.settled call).trans (old call .settled (by simp)).symm
  · intro call
    exact (calls.requested call).trans (old call .requested (by simp)).symm
  · exact calls.calledOnce
  · exact calls.named
  · exact calls.numbered
  · intro call socket waiting
    by_cases same : CallPhase.waiting (.attempt socket)
        = .waiting (rpc.connect options).1
    · exact sound.awaited (by simpa using same.symm)
    · exact calls.waits call socket ((old call _ same).mp waiting)

/-- Sending a request makes its call a pending one. -/
theorem Calls.request (calls : rpc.Calls) {call : Nat} {awaited : Awaited}
    (held : rpc.calls[call]? = some (.waiting awaited)) (socket : Nat) :
    { rpc with
      nextRequestId := rpc.nextRequestId + 1
      pending := rpc.pending
        ++ [PendingRequest.mk rpc.nextRequestId call socket]
      calls := rpc.calls.set call .requested }.Calls := by
  have bound : call < rpc.calls.length :=
    (List.getElem?_eq_some_iff.mp held).1
  have fresh : call ∉ rpc.pending.map PendingRequest.call := by
    rw [calls.requested call, held]
    simp
  constructor
  · exact calls.once
  · intro other
    simp only [List.getElem?_set]
    by_cases same : call = other
    · subst same
      simp only [if_true, bound, calls.settled call, held]
      simp
    · simp [same, calls.settled other]
  · intro other
    simp only [List.map_append, List.map_cons, List.map_nil, List.mem_append,
      List.mem_singleton, List.getElem?_set]
    by_cases same : call = other
    · subst same
      simp [bound]
    · simp [same, Ne.symm same, calls.requested other]
  · simp only [List.map_append, List.map_cons, List.map_nil]
    rw [List.nodup_append]
    refine ⟨calls.calledOnce, by simp, ?_⟩
    rintro other before last after rfl
    obtain rfl : other = call := by simpa using after
    exact fresh before
  · simp only [List.map_append, List.map_cons, List.map_nil]
    rw [List.nodup_append]
    refine ⟨calls.named, by simp, ?_⟩
    rintro id before last after rfl
    obtain rfl : id = rpc.nextRequestId := by simpa using after
    obtain ⟨request, member, same⟩ := List.mem_map.mp before
    exact absurd same (Nat.ne_of_lt (calls.numbered request member))
  · intro request member
    rcases List.mem_append.mp member with old | new
    · exact (calls.numbered request old).trans (Nat.lt_succ_self _)
    · obtain rfl := List.mem_singleton.mp new
      exact Nat.lt_succ_self _
  · intro other index waiting
    simp only [List.getElem?_set] at waiting
    split_ifs at waiting
    · simp at waiting
    · exact calls.waits other index waiting

theorem Sound.request (sound : rpc.Sound options) {call : Nat}
    {awaited : Awaited} (held : rpc.calls[call]? = some (.waiting awaited))
    (sends : Bool) : (rpc.request call sends).Sound options := by
  have numbered :
      { rpc with nextRequestId := rpc.nextRequestId + 1 }.Sound options := by
    refine sound.of_same ?_ sound.sent rfl rfl rfl rfl rfl rfl rfl
    constructor
    · exact sound.calls.once
    · exact sound.calls.settled
    · exact sound.calls.requested
    · exact sound.calls.calledOnce
    · exact sound.calls.named
    · exact fun request member =>
        (sound.calls.numbered request member).trans (Nat.lt_succ_self _)
    · exact sound.calls.waits
  simp only [RpcSocket.request]
  split
  next socket current =>
    split_ifs
    · exact numbered.settle_waiting held .closed
    · refine sound.of_same (sound.calls.request held socket) ?_ rfl rfl rfl rfl
        rfl rfl rfl
      intro request member
      rcases List.mem_append.mp member with old | new
      · exact sound.sent request old
      · obtain rfl := List.mem_singleton.mp new
        exact sound.attempts.current socket current
    · exact numbered.settle_waiting held .unsent
  · exact numbered.settle_waiting held .closed

theorem Sound.proceed (sound : rpc.Sound options) (call : Nat) (sends : Bool) :
    (rpc.proceed call sends).Sound options := by
  unfold RpcSocket.proceed
  split
  next awaited held =>
    split
    · exact sound
    · exact sound.settle_waiting held .unreachable
    · exact sound.request held sends
  · exact sound

/-- With its timer cancelled, a stopped object is disconnected. -/
theorem Sound.stop (sound : rpc.Sound options) :
    ({ rpc with
        allowReconnect := false
        timers := rpc.timers.filter fun handle =>
          some handle ≠ rpc.reconnectTimer
        reconnectTimer := none }.setState ⟨.disconnected, none⟩).Sound
      options where
  attempts := sound.attempts.of_same (by simp) (by simp) (by simp)
  calls := sound.calls.of_same (by simp) (by simp) (by simp) (by simp)
    (by simp)
  sent := by simpa [Unclosed] using sound.sent
  timers := by
    constructor
    · cases timer : rpc.reconnectTimer <;>
        simp [sound.timers.scheduled, timer]
    · simp
    · simp
  steady := by
    constructor
    · simp
    · intro index opening
      rcases sound.steady.opening index (by simpa using opening) with
        current | ⟨lost, -, closed⟩
      · exact Or.inl (by simpa using current)
      · exact Or.inr ⟨by simpa using lost, by simp, by simpa using closed⟩
    · simp
    · simp

theorem Sound.disconnect (sound : rpc.Sound options) (closes : Bool) :
    (rpc.disconnect closes).Sound options := by
  have stopped := sound.stop
  unfold RpcSocket.disconnect
  set stop := ({ rpc with
      allowReconnect := false
      timers := rpc.timers.filter fun handle =>
        some handle ≠ rpc.reconnectTimer
      reconnectTimer := none }.setState ⟨.disconnected, none⟩) with same
  have disconnected : stop.state = ⟨.disconnected, none⟩ := by simp [same]
  have refused : stop.allowReconnect = false := by simp [same]
  clear_value stop
  simp only
  split
  · exact stopped
  next socket current =>
    split_ifs with closed
    · -- The WebSocket is closed ahead of its close event, and is let go.
      constructor
      · exact ⟨stopped.attempts.kept, stopped.attempts.opening, by simp⟩
      · exact stopped.calls.of_same rfl rfl rfl rfl (Nat.le_refl _)
      · exact stopped.sent
      · exact stopped.timers.of_same rfl rfl rfl
      · constructor
        · simp [disconnected]
        · intro index opening
          rcases stopped.steady.opening index opening with held | lost
          · obtain rfl : socket = index := by
              simpa [current] using held
            obtain ⟨opened, found, shut⟩ :
                ∃ opened, stop.sockets[socket]? = some opened
                  ∧ opened.readyState = .closed := by
              simpa [readyState, current] using closed
            exact Or.inr ⟨rfl, refused, opened, found, shut⟩
          · exact absurd lost.1 (by simp [current])
        · simp [refused]
        · simp [disconnected]
    · refine stopped.modifySocket fun held found => ?_
      have shut : held.readyState ≠ .closed := by
        simpa [readyState, current, found] using closed
      exact ⟨rfl, rfl, rfl, rfl, id, by simp, fun same => absurd same shut⟩
    · exact stopped

theorem Sound.receive (sound : rpc.Sound options) (frame : Frame) :
    (rpc.receive frame).Sound options := by
  cases frame with
  | malformed => exact sound
  | notification =>
      exact sound.of_same (sound.calls.of_same rfl rfl rfl rfl (Nat.le_refl _))
        sound.sent rfl rfl rfl rfl rfl rfl rfl
  | response id refused =>
      simp only [RpcSocket.receive]
      split
      · exact sound
      next request found =>
        have pending := List.mem_of_find?_eq_some found
        refine sound.of_same (sound.calls.settle_request pending _) ?_
          rfl rfl rfl rfl rfl rfl rfl
        exact fun other kept =>
          sound.sent other (List.mem_of_mem_filter kept)

theorem Sound.scheduleReconnect (sound : rpc.Sound options) :
    rpc.scheduleReconnect.Sound options := by
  by_cases idle : (!rpc.allowReconnect || rpc.reconnectTimer.isSome) = true
  · rw [RpcSocket.scheduleReconnect, if_pos idle]
    exact sound
  · obtain ⟨allowed, unscheduled⟩ :
        rpc.allowReconnect = true ∧ rpc.reconnectTimer = none := by
      simpa using idle
    refine ⟨sound.attempts.of_same (by simp) (by simp) (by simp),
      sound.calls.of_same (by simp) (by simp) (by simp) (by simp) (by simp),
      by simpa [Unclosed] using sound.sent, sound.timers.scheduleReconnect, ?_⟩
    constructor
    · simp [RpcSocket.scheduleReconnect, allowed, unscheduled]
    · simpa using sound.steady.opening
    · simp [RpcSocket.scheduleReconnect, allowed, unscheduled]
    · simp [allowed]

theorem Sound.unreachable (sound : rpc.Sound options) (attempt : Nat) :
    (rpc.next options (.unreachable attempt)).Sound options := by
  simp only [RpcSocket.next]
  split_ifs
  · refine Sound.scheduleReconnect (sound.of_same ?_ sound.sent rfl rfl rfl rfl
      rfl rfl rfl)
    exact sound.calls.of_same rfl rfl rfl rfl (Nat.le_refl _)
  · exact sound

/-- With its timer fired, an object that holds a WebSocket stays sound. -/
theorem Sound.fire (sound : rpc.Sound options) {handle : Nat}
    (fired : rpc.timers = [handle]) (held : rpc.socket ≠ none) :
    { rpc with
      timers := rpc.timers.filter fun other => other ≠ handle
      reconnectTimer := none }.Sound options where
  attempts := sound.attempts.of_same rfl rfl rfl
  calls := sound.calls.of_same rfl rfl rfl rfl (Nat.le_refl _)
  sent := sound.sent
  timers := ⟨by simp [fired], by simp, sound.timers.configured⟩
  steady := ⟨sound.steady.connected, sound.steady.opening,
    fun lost => absurd lost held, fun lost => absurd lost held⟩

theorem Sound.timer (sound : rpc.Sound options) (handle : Nat) :
    (rpc.next options (.timer handle)).Sound options := by
  simp only [RpcSocket.next]
  split_ifs with scheduled
  · obtain ⟨timer, fired⟩ :
        rpc.reconnectTimer.isSome = true ∧ rpc.timers = [handle] := by
      rw [sound.timers.scheduled] at scheduled ⊢
      cases timer : rpc.reconnectTimer <;> simp_all
    set due :=
      { rpc with
        timers := rpc.timers.filter fun other => other ≠ handle
        reconnectTimer := none } with due_eq
    have connected : (due.connect options).2.Sound options := by
      by_cases held : rpc.socket = none
      · cases opening : rpc.opening with
        | none =>
            refine sound_connect (sound.attempts.of_same rfl rfl rfl)
              (sound.calls.of_same rfl rfl rfl rfl (Nat.le_refl _)) sound.sent
              ⟨by simp [due_eq, fired], by simp [due_eq],
                sound.timers.configured⟩ ?_ opening
            simp [due_eq, readyState, held]
        | some attempt =>
            -- An attempt goes on with no WebSocket only once disconnected.
            exfalso
            have allowed := sound.timers.allowed timer
            rcases sound.steady.opening attempt opening with current | lost
            · simp [held] at current
            · simp [allowed] at lost
      · exact (sound.fire fired held).connect
    split
    · exact connected
    · refine connected.of_same ?_ connected.sent rfl rfl rfl rfl rfl rfl rfl
      exact connected.calls.of_same rfl rfl rfl rfl (Nat.le_refl _)
  · exact sound

end Operations

/-! ## The events of a WebSocket -/

section Events

variable {rpc next : RpcSocket} {socket : Nat} {held changed : OpenedSocket}

/-- One WebSocket changes, and the attempt under way is told apart from it. -/
theorem Attempts.replace (attempts : rpc.Attempts)
    (elsewhere : ∀ index, index ≠ socket →
      next.sockets[index]? = rpc.sockets[index]?)
    (here : next.sockets[socket]? = some changed)
    (kept : Kept changed (next.opening = some socket))
    (others : ∀ index, index ≠ socket →
      (next.opening = some index ↔ rpc.opening = some index))
    (current : ∀ index, next.socket = some index → next.Unclosed index) :
    next.Attempts where
  kept := by
    intro index found same
    by_cases at_socket : index = socket
    · subst at_socket
      rw [here, Option.some.injEq] at same
      exact same ▸ kept
    · rw [elsewhere index at_socket] at same
      have before := attempts.kept index found same
      exact ⟨before.unsettled.trans (others index at_socket).symm,
        before.promised, before.finished, before.awaiting⟩
  opening := by
    intro index opening
    by_cases at_socket : index = socket
    · exact (List.getElem?_eq_some_iff.mp (at_socket ▸ here)).1
    · have within :=
        attempts.opening index ((others index at_socket).mp opening)
      have found := List.getElem?_eq_getElem within
      rw [← elsewhere index at_socket] at found
      exact (List.getElem?_eq_some_iff.mp found).1
  current := current

theorem Unclosed.elsewhere {index : Nat}
    (elsewhere : ∀ index, index ≠ socket →
      next.sockets[index]? = rpc.sockets[index]?)
    (here : next.sockets[socket]? = some changed)
    (found : rpc.sockets[socket]? = some held)
    (stays : changed.firedClose = held.firedClose)
    (unclosed : rpc.Unclosed index) : next.Unclosed index := by
  obtain ⟨opened, before, open_yet⟩ := unclosed
  by_cases at_socket : index = socket
  · subst at_socket
    rw [found, Option.some.injEq] at before
    subst before
    exact ⟨changed, here, stays.trans open_yet⟩
  · exact ⟨opened, (elsewhere index at_socket).trans before, open_yet⟩

/-- A WebSocket that opens is the one the object holds. -/
theorem Sound.opened (sound : rpc.Sound options) (socket : Nat) :
    (rpc.next options (.opened socket)).Sound options := by
  simp only [RpcSocket.next]
  split
  next held found =>
    split_ifs with fires
    · simp only [Bool.and_eq_true, decide_eq_true_eq, Bool.not_eq_true']
        at fires
      obtain ⟨⟨connecting, erred⟩, unclosed⟩ := fires
      have kept := sound.attempts.kept socket held found
      have opening :=
        kept.unsettled.mp (kept.awaiting connecting erred unclosed)
      have current : rpc.socket = some socket := by
        rcases sound.steady.opening socket opening with current | lost
        · exact current
        · obtain ⟨-, -, other, same, closed⟩ := lost
          rw [found, Option.some.injEq] at same
          simp [← same, connecting] at closed
      obtain ⟨sockets, same_socket, no_attempt, timers, timer, allow, numbers,
        pending, calls, settlements⟩ := rpc.openedSocket_fields options socket
      change (rpc.openedSocket options socket).Sound options
      generalize rpc.openedSocket options socket = after at *
      have elsewhere : ∀ index, index ≠ socket →
          after.sockets[index]? = rpc.sockets[index]? := by
        intro index different
        rw [sockets]
        simp [Ne.symm different]
      have here : after.sockets[socket]? = some
          { held with
            readyState := .open
            opened := true
            settled := true
            attempt := held.attempt.resolve } := by
        rw [sockets]
        simp [found]
      have length : after.sockets.length = rpc.sockets.length := by
        rw [sockets]
        simp
      constructor
      · refine sound.attempts.replace elsewhere here ?_ ?_ ?_
        · constructor
          · simp [no_attempt]
          · cases held.attempt <;> simp [Promise.resolve]
          · simp
          · simp
        · intro index different
          simp [no_attempt, opening, Ne.symm different]
        · intro index holds
          exact (sound.attempts.current index (same_socket ▸ holds)).elsewhere
            elsewhere here found rfl
      · exact sound.calls.of_same settlements calls pending numbers
          (Nat.le_of_eq length.symm)
      · intro request member
        rw [pending] at member
        exact (sound.sent request member).elsewhere elsewhere here found rfl
      · exact sound.timers.of_same timers timer allow
      · constructor
        · intro _
          exact ⟨socket, same_socket.trans current, _, here, rfl, unclosed⟩
        · simp [no_attempt]
        · simp [same_socket, current]
        · simp [same_socket, current]
    · exact sound
  · exact sound

/-- An error fails the attempt under way, if it is of its WebSocket. -/
theorem Sound.error (sound : rpc.Sound options) (socket : Nat) :
    (rpc.next options (.error socket)).Sound options := by
  simp only [RpcSocket.next]
  split
  next held found =>
    split_ifs with fired
    · exact sound
    have erred : (rpc.modifySocket socket fun opened =>
        { opened with firedError := true }).Sound options :=
      sound.modifySocket fun opened _ =>
        ⟨rfl, rfl, rfl, rfl, by simp, id, id⟩
    unfold onError
    split_ifs with fails
    · have unsettled : held.settled = false := by
        simp only [Bool.and_eq_true, Bool.not_eq_true'] at fails
        exact fails.1
      have kept := sound.attempts.kept socket held found
      have opening : rpc.opening = some socket := kept.unsettled.mp unsettled
      set after := (rpc.modifySocket socket fun opened =>
        { opened with firedError := true }).rejectAttempt socket with same
      have elsewhere : ∀ index, index ≠ socket →
          after.sockets[index]? = rpc.sockets[index]? := by
        intro index different
        simp [same, Ne.symm different]
      have here : after.sockets[socket]? = some
          { held with
            firedError := true
            settled := true
            attempt := held.attempt.reject } := by
        simp [same, found]
      have unopened : rpc.Open socket → False := by
        rintro ⟨opened, before, is_open, -⟩
        rw [found, Option.some.injEq] at before
        have settled := kept.finished (Or.inl (before ▸ is_open))
        simp [unsettled] at settled
      constructor
      · refine sound.attempts.replace elsewhere here ?_ ?_ ?_
        · constructor
          · simp [same]
          · cases held.attempt <;> simp [Promise.reject]
          · simp
          · simp
        · intro index different
          simp [same, opening, Ne.symm different]
        · intro index holds
          exact (sound.attempts.current index holds).elsewhere elsewhere here found
            rfl
      · exact sound.calls.of_same rfl rfl rfl rfl (by simp [same])
      · exact fun request member =>
          (sound.sent request member).elsewhere elsewhere here found rfl
      · exact sound.timers.of_same rfl rfl rfl
      · constructor
        · intro connected
          obtain ⟨index, current, opened⟩ := sound.steady.connected connected
          have different : index ≠ socket := fun is_same =>
            unopened (is_same ▸ opened)
          obtain ⟨other, before, open_now⟩ := opened
          exact ⟨index, current, other,
            (elsewhere index different).trans before, open_now⟩
        · simp [same]
        · intro lost allowed
          rcases sound.steady.retrying lost allowed with none | scheduled
          · simp [none] at found
          · exact Or.inr scheduled
        · exact sound.steady.stopped
    · exact erred
  · exact sound

/-- What is left of a WebSocket whose close event fires. -/
def closedSocket (held : OpenedSocket) : OpenedSocket :=
  { held with
    readyState := .closed
    firedClose := true
    settled := true
    attempt := if held.settled then held.attempt else held.attempt.reject }

/-- An object that lost a WebSocket, before it decides whether to reconnect. -/
def lostSocket (rpc : RpcSocket) (socket : Nat) (held : OpenedSocket) :
    RpcSocket :=
  let lost :=
    ({ rpc.modifySocket socket fun opened =>
          { opened with readyState := .closed, firedClose := true }
        with socket := none }.tell (.connection false)).tell .closed
  (if !held.opened && !held.settled then lost.rejectAttempt socket
    else lost).rejectPending

/-- What a close event comes to, before the object decides on a reconnect. -/
theorem lostSocket_fields (sound : rpc.Sound options)
    (found : rpc.sockets[socket]? = some held) :
    (∀ index, index ≠ socket →
        (rpc.lostSocket socket held).sockets[index]? = rpc.sockets[index]?)
      ∧ (rpc.lostSocket socket held).sockets[socket]?
          = some (closedSocket held)
      ∧ (rpc.lostSocket socket held).opening ≠ some socket
      ∧ (∀ index, index ≠ socket →
          ((rpc.lostSocket socket held).opening = some index
            ↔ rpc.opening = some index))
      ∧ (rpc.lostSocket socket held).socket = none
      ∧ (rpc.lostSocket socket held).timers = rpc.timers
      ∧ (rpc.lostSocket socket held).reconnectTimer = rpc.reconnectTimer
      ∧ (rpc.lostSocket socket held).allowReconnect = rpc.allowReconnect
      ∧ (rpc.lostSocket socket held).state = rpc.state
      ∧ (rpc.lostSocket socket held).pending = []
      ∧ (rpc.lostSocket socket held).Calls := by
  have kept := sound.attempts.kept socket held found
  have calls : (rpc.lostSocket socket held).Calls := by
    refine Calls.rejectPending ?_
    split_ifs
    · exact sound.calls.of_same rfl rfl rfl rfl (by simp)
    · exact sound.calls.of_same rfl rfl rfl rfl (by simp)
  cases settled : held.settled with
  | true =>
      have standing : rpc.opening ≠ some socket := fun opening => by
        simp [kept.unsettled.mpr opening] at settled
      refine ⟨?_, ?_, ?_, ?_, ?_, ?_, ?_, ?_, ?_, ?_, calls⟩
        <;> simp only [lostSocket, settled]
      · intro index different
        simp [Ne.symm different]
      · simp [found, closedSocket, settled]
      · simpa using standing
      · simp
      all_goals simp
  | false =>
      have opening : rpc.opening = some socket := kept.unsettled.mp settled
      have unopened : held.opened = false := by
        cases opened : held.opened with
        | false => rfl
        | true => simp [kept.finished (Or.inl opened)] at settled
      refine ⟨?_, ?_, ?_, ?_, ?_, ?_, ?_, ?_, ?_, ?_, calls⟩
        <;> simp only [lostSocket, settled, unopened]
      · intro index different
        simp [Ne.symm different]
      · simp [found, closedSocket, settled]
      · simp
      · intro index different
        simp [opening, Ne.symm different]
      all_goals simp

theorem Kept.closed (kept : Kept held (rpc.opening = some socket))
    {underWay : Prop} (ended : ¬underWay) :
    Kept (closedSocket held) underWay where
  unsettled := by simp [closedSocket, ended]
  promised := by
    cases settled : held.settled with
    | true =>
        have decided : held.attempt ≠ .pending := fun pending => by
          simp [kept.promised.mp pending] at settled
        simp [closedSocket, settled, decided]
    | false =>
        have pending := kept.promised.mpr settled
        simp [closedSocket, settled, pending, Promise.reject]
  finished := by simp [closedSocket]
  awaiting := by simp [closedSocket]

/--
A timely close event is of the WebSocket the object holds, or the object holds
none, so that whatever was under way on it is over.
-/
theorem Sound.close (sound : rpc.Sound options) (socket : Nat)
    (timely : rpc.Timely (.close socket)) :
    (rpc.next options (.close socket)).Sound options := by
  simp only [RpcSocket.next]
  split
  next held found =>
    split_ifs with fired
    · exact sound
    have unfired : rpc.closes socket = true := by simp [closes, found, fired]
    obtain ⟨current, due⟩ := timely unfired
    have kept := sound.attempts.kept socket held found
    obtain ⟨elsewhere, here, ended, others, none_held, timers, timer, allow,
      state, pending, calls⟩ := lostSocket_fields sound found
    have closed : ∀ {index : Nat},
        (rpc.lostSocket socket held).opening = some index →
          rpc.allowReconnect = false
            ∧ ∃ opened, (rpc.lostSocket socket held).sockets[index]?
                = some opened ∧ opened.readyState = .closed := by
      intro index opening
      have different : index ≠ socket := fun same => ended (same ▸ opening)
      rcases sound.steady.opening index ((others index different).mp opening)
        with holds | ⟨-, refused, opened, before, shut⟩
      · rcases current with lost | holds_this
        · simp [lost] at holds
        · exact absurd (Option.some.inj (holds.symm.trans holds_this)) different
      · exact ⟨refused, opened, (elsewhere index different).trans before, shut⟩
    have attempts : (rpc.lostSocket socket held).Attempts :=
      sound.attempts.replace elsewhere here (kept.closed ended) others
        (by simp [none_held])
    change (if !(rpc.lostSocket socket held).allowReconnect then
        (rpc.lostSocket socket held).setState ⟨.disconnected, none⟩
      else (rpc.lostSocket socket held).scheduleReconnect).Sound options
    generalize rpc.lostSocket socket held = after at *
    cases allowed : after.allowReconnect with
    | false =>
        refine ⟨attempts.of_same (by simp) (by simp) (by simp),
          calls.of_same (by simp) (by simp) (by simp) (by simp) (by simp),
          by simp [pending], sound.timers.of_same (by simp [timers])
            (by simp [timer]) (by simp [allow]), ?_⟩
        constructor
        · simp
        · intro index opening
          obtain ⟨-, shut⟩ := closed (by simpa using opening)
          exact Or.inr ⟨by simp [none_held], by simp [allowed],
            by simpa using shut⟩
        · simp [allowed]
        · simp
    | true =>
        have scheduled : (after.scheduleReconnect).Timers options :=
          (sound.timers.of_same timers timer allow).scheduleReconnect
        refine ⟨attempts.of_same (by simp) (by simp) (by simp),
          calls.of_same (by simp) (by simp) (by simp) (by simp) (by simp),
          by simp [pending], by simpa using scheduled, ?_⟩
        constructor
        · intro connected
          exfalso
          cases waiting : rpc.reconnectTimer with
          | none =>
              simp [RpcSocket.scheduleReconnect, allowed, timer, waiting] at connected
          | some handle =>
              refine due ⟨?_, by simp [waiting]⟩
              simpa [RpcSocket.scheduleReconnect, allowed, timer, waiting, state]
                using connected
        · intro index opening
          obtain ⟨refused, -⟩ := closed (by simpa using opening)
          simp [← allow, allowed] at refused
        · intro _ _
          cases waiting : rpc.reconnectTimer <;>
            simp [RpcSocket.scheduleReconnect, allowed, timer, waiting]
        · simp [allowed]
  · exact sound

/-- What a close event to come does. -/
theorem next_close (found : rpc.sockets[socket]? = some held)
    (unfired : held.firedClose = false) :
    rpc.next options (.close socket)
      = if !(rpc.lostSocket socket held).allowReconnect then
          (rpc.lostSocket socket held).setState ⟨.disconnected, none⟩
        else (rpc.lostSocket socket held).scheduleReconnect := by
  simp only [RpcSocket.next, found, unfired]
  rfl

theorem closes_iff :
    rpc.closes socket = true
      ↔ ∃ held, rpc.sockets[socket]? = some held ∧ held.firedClose = false := by
  unfold closes
  cases rpc.sockets[socket]? <;> simp

/-- A close event leaves the object with no WebSocket. -/
theorem Sound.close_socket (sound : rpc.Sound options)
    (closes : rpc.closes socket = true) :
    (rpc.next options (.close socket)).socket = none := by
  obtain ⟨held, found, unfired⟩ := closes_iff.mp closes
  obtain ⟨-, -, -, -, none_held, -⟩ := lostSocket_fields sound found
  rw [next_close found unfired]
  split_ifs <;> simp [none_held]

/-- With a reconnect scheduled already, a close event changes no state. -/
theorem Sound.close_state (sound : rpc.Sound options)
    (closes : rpc.closes socket = true)
    (scheduled : rpc.reconnectTimer.isSome = true) :
    (rpc.next options (.close socket)).state = rpc.state := by
  obtain ⟨held, found, unfired⟩ := closes_iff.mp closes
  obtain ⟨-, -, -, -, -, -, timer, allow, state, -⟩ :=
    lostSocket_fields sound found
  have allowed := sound.timers.allowed scheduled
  rw [next_close found unfired]
  simp [RpcSocket.scheduleReconnect, timer, allow, state, allowed, scheduled]

theorem Sound.unmoved (sound : rpc.Sound options) {step : SocketStep}
    (timely : rpc.Timely step) : rpc.Unmoved options step := by
  unfold Unmoved
  split
  · next socket =>
      intro elsewhere
      cases closes : rpc.closes socket with
      | false =>
          have same : rpc.next options (.close socket) = rpc := by
            unfold RpcSocket.closes at closes
            simp only [RpcSocket.next]
            split at closes
            next held found => simp_all
            · simp_all
          rw [same]
          exact ⟨rfl, rfl, fun _ pending _ => pending⟩
      | true =>
          obtain ⟨current, -⟩ := timely closes
          have lost : rpc.socket = none := by
            rcases current with lost | current
            · exact lost
            · exact absurd current elsewhere
          refine ⟨(sound.close_socket closes).trans lost.symm, ?_, by
            simp [lost]⟩
          obtain ⟨held, found, unfired⟩ := closes_iff.mp closes
          cases allowed : rpc.allowReconnect with
          | false =>
              obtain ⟨-, -, -, -, -, -, -, allow, -⟩ :=
                lostSocket_fields sound found
              rw [next_close found unfired, allow, allowed,
                sound.steady.stopped lost allowed]
              simp
          | true =>
              rcases sound.steady.retrying lost allowed with empty | scheduled
              · simp [empty] at found
              · exact sound.close_state closes scheduled
  · next socket =>
      intro _
      simp only [RpcSocket.next]
      split
      next held found =>
        split_ifs
        · exact ⟨rfl, rfl, fun _ pending _ => pending⟩
        · unfold onError
          split_ifs <;> exact ⟨rfl, rfl, fun _ pending _ => pending⟩
      · exact ⟨rfl, rfl, fun _ pending _ => pending⟩
  · trivial

/-- A close event that leaves the object as it should be is timely. -/
theorem Sound.timely (sound : rpc.Sound options) {step : SocketStep}
    (after : (rpc.next options step).OneLive)
    (unmoved : rpc.Unmoved options step) : rpc.Timely step := by
  unfold Timely
  split
  · next socket =>
      intro closes
      have none_held := sound.close_socket closes
      constructor
      · by_contra elsewhere
        rw [not_or] at elsewhere
        obtain ⟨held, other⟩ := elsewhere
        obtain ⟨same, -⟩ := unmoved other
        exact held (same.symm.trans none_held)
      · rintro ⟨connected, scheduled⟩
        have same := sound.close_state closes scheduled
        obtain ⟨_, holds, -⟩ := after.connected (same ▸ connected)
        simp [none_held] at holds
  · trivial

end Events

/-! ## Whole runs -/

/-- A timely step keeps an RPC socket sound. -/
theorem Sound.next {rpc : RpcSocket} (sound : rpc.Sound options)
    (step : SocketStep) (timely : rpc.Timely step) :
    (rpc.next options step).Sound options := by
  cases step with
  | connect => exact sound.connect
  | call => exact sound.call
  | proceed call sends => exact sound.proceed call sends
  | disconnect closes => exact sound.disconnect closes
  | opened socket => exact sound.opened socket
  | message socket frame =>
      simp only [RpcSocket.next]
      split
      · split_ifs
        · exact sound.receive frame
        · exact sound
      · exact sound
  | error socket => exact sound.error socket
  | close socket => exact sound.close socket timely
  | readyState socket next =>
      refine sound.modifySocket fun held _ => ?_
      split_ifs with later
      · refine ⟨rfl, rfl, rfl, rfl, id, fun same => ?_, fun closed => ?_⟩
        · rw [show next = .connecting from same] at later
          cases held.readyState <;> simp [ReadyState.after] at later
        · cases next <;> simp [closed, ReadyState.after] at later
      · exact .refl held
  | timer handle => exact sound.timer handle
  | unreachable attempt => exact sound.unreachable attempt
  | elapse ms =>
      exact sound.of_same
        (sound.calls.of_same rfl rfl rfl rfl (Nat.le_refl _)) sound.sent
        rfl rfl rfl rfl rfl rfl rfl

/--
An RPC socket keeps to one live WebSocket in a run exactly when every close
event of the run is timely.
-/
theorem oneLiveSocket_iff (options : RpcSocketOptions)
    (steps : List SocketStep) :
    OneLiveSocket options steps
      ↔ Machine.EveryStep (next options) Timely (new options) steps :=
  Machine.throughout_and_everyStep_iff (fun rpc => rpc.Sound options)
    (fun _ sound => sound.oneLive)
    (fun _ _ sound =>
      ⟨fun ⟨after, unmoved⟩ => sound.timely after unmoved,
        fun timely => ⟨(sound.next _ timely).oneLive, sound.unmoved timely⟩⟩)
    (fun _ step sound timely => sound.next step timely) (sound_new options)

/--
The close event of a WebSocket whose attempt failed, delivered once the next
WebSocket is being opened, takes that one from the object, which is connected
over it afterwards without holding it.
-/
theorem late_close_drops_socket :
    ¬OneLiveSocket ⟨true, 1, 1⟩
      [.connect, .error 0, .connect, .close 0, .opened 1] := by
  rintro ⟨throughout, -⟩
  have after := throughout _ (List.prefix_refl _)
  obtain ⟨socket, held, -⟩ := after.connected (by decide)
  have lost : (Machine.run (next ⟨true, 1, 1⟩) (new ⟨true, 1, 1⟩)
      [.connect, .error 0, .connect, .close 0, .opened 1]).socket = none := by
    decide
  simp [lost] at held

end RpcSocket

end Clerkenwell.Client
