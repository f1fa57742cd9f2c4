import Clerkenwell.Axum.Slots

/-!
# What every command is waited for by

Every command holds its place and its permit as far as it has come, and its
connection waits for it, has its publication to read or answered it.  Each step
of the server keeps this.
-/

namespace Clerkenwell.Axum

variable {Id Outcome : Type}

/-! ## Where a command is -/

/-- A command's connection waits for it. -/
def Command.awaited (command : Command Id Outcome) : Bool :=
  match command.stage with
  | .running | .finished _ => true
  | _ => false

/-- What a connection holds of a command of its own. -/
def Connection.Stands (origin : Nat) (connection : Connection Id Outcome)
    (command : Command Id Outcome) : Prop :=
  match command.sent with
  | none =>
      connection.slot origin command.ticket
        = if command.awaited then .waitingFor command.id else .empty
  | some (sequence, outcome) =>
      let sent : Sent Outcome :=
        { sequence := sequence
          publication := .ran origin command.ticket outcome }
      connection.slot origin command.ticket
          = .answeredWith command.id outcome
        ∨ connection.slot origin command.ticket = .unreadOf command.id sent
        ∨ connection.slot origin command.ticket = .skippedOf command.id sent
          ∧ ((∃ through, connection.loop = .behind through
              ∧ sequence ≤ through)
            ∨ connection.loop = .closed ∨ connection.loop = .ended)

/-- A command is in `start`. -/
def Command.inStart (command : Command Id Outcome) : Bool :=
  match command.stage with
  | .starting | .refused => true
  | _ => false

/-- The connection a command is of, and its ticket. -/
def Command.name (command : Command Id Outcome) : Nat × Nat :=
  (command.origin, command.ticket)

/-- Two commands of one connection have different tickets. -/
def Command.Apart (left right : Nat × Nat) : Prop :=
  left.1 ≠ noConnection → left.1 = right.1 → left.2 ≠ right.2

namespace ProjectionServer

/-- What a connection reads, and the commands it waits for. -/
structure Follows (server : ProjectionServer Id Outcome) (index : Nat)
    (connection : Connection Id Outcome) : Prop where
  ordered : (connection.unread.map Sent.sequence).Pairwise (· < ·)
  sent : ∀ sent ∈ connection.unread, sent.sequence ≤ server.last
  behind : ∀ through, connection.loop = .behind through
      ∨ connection.loop = .caughtUp through →
    through ≤ server.last
      ∧ ∀ sent ∈ connection.unread, through < sent.sequence
  closing : ∀ sent ∈ connection.unread, sent.publication = .closing →
    server.closer = .done ∧ sent.sequence = server.closingAt
  keyed : connection.Keyed (index + 1)
  fresh : ∀ ticket, connection.tickets < ticket →
    connection.slot (index + 1) ticket = .empty
  tickets : ∀ command ∈ server.commands, command.origin = index + 1 →
    command.ticket ≤ connection.tickets
  starting : ∀ command ∈ server.commands, command.origin = index + 1 →
    command.inStart = true → connection.loop = .starting command.ticket
  stands : ∀ command ∈ server.commands, command.origin = index + 1 →
    connection.Stands (index + 1) command
  closed : .close ∈ connection.frames →
    server.closer = .done
      ∧ (connection.loop = .closed ∨ connection.loop = .ended)
      ∧ (∃ earlier, connection.frames = earlier ++ [.close]
        ∧ .close ∉ earlier)
      ∧ ∀ command ∈ server.commands, command.origin = index + 1 →
        ∀ sequence outcome, command.sent = some (sequence, outcome) →
          connection.slot (index + 1) command.ticket
            = .answeredWith command.id outcome

/-- The counts and permits, the shutdown's order and every connection. -/
structure Sound (server : ProjectionServer Id Outcome) (limit : Nat) :
    Prop where
  running : server.lifecycle.running
    = server.commands.countP Command.holdsPlace
  serving : server.lifecycle.serving
    = server.connections.countP Connection.counted
  permits : server.permits + server.commands.countP Command.holdsPermit
    = limit
  stopped : server.closer ≠ .none → server.lifecycle.stopping = true
  idle : server.closer = .ready ∨ server.closer = .done →
    server.lifecycle.running = 0
  closingAt : server.closer ≠ .done ∧ server.closingAt = 0
    ∨ server.closer = .done ∧ 0 < server.closingAt
      ∧ server.closingAt ≤ server.last
  earlier : ∀ command ∈ server.commands, ∀ sequence outcome,
    command.sent = some (sequence, outcome) →
      sequence ≤ server.last
        ∧ (server.closer = .done → sequence < server.closingAt)
  origins : ∀ command ∈ server.commands,
    command.origin ≤ server.connections.length
  distinct : (server.commands.map Command.name).Pairwise Command.Apart
  follows : ∀ index connection,
    server.connections[index]? = some connection →
      server.Follows index connection

/-! ## Lists with one entry changed -/

section Changing

variable {α : Type} {entries : List α} {index : Nat} {entry : α}
variable {change : α → α}

theorem getElem?_modify_cases {other : Nat} {found : α}
    (there : (entries.modify index change)[other]? = some found) :
    (other = index ∧ ∃ earlier, entries[index]? = some earlier
        ∧ found = change earlier)
      ∨ other ≠ index ∧ entries[other]? = some found := by
  by_cases same : index = other
  · subst same
    rw [List.getElem?_modify_eq] at there
    rcases Option.map_eq_some_iff.mp there with ⟨earlier, present, rfl⟩
    exact .inl ⟨rfl, earlier, present, rfl⟩
  · rw [List.getElem?_modify_ne _ _ same] at there
    exact .inr ⟨Ne.symm same, there⟩

theorem countP_modify (there : entries[index]? = some entry)
    (counts : α → Bool) :
    (entries.modify index change).countP counts
        + (if counts entry then 1 else 0)
      = entries.countP counts + if counts (change entry) then 1 else 0 := by
  induction entries generalizing index with
  | nil => cases there
  | cons first rest inductionHypothesis =>
      cases index with
      | zero =>
          cases there
          simp only [List.modify_zero_cons, List.countP_cons]
          omega
      | succ index =>
          have rest_count := inductionHypothesis
            (show rest[index]? = some entry from there)
          simp only [List.modify_succ_cons, List.countP_cons]
          omega

theorem map_modify_of_eq {β : Type} {get : α → β}
    (same : ∀ entry, get (change entry) = get entry) :
    (entries.modify index change).map get = entries.map get := by
  induction entries generalizing index with
  | nil => cases index <;> rfl
  | cons first rest inductionHypothesis =>
      cases index with
      | zero => simp [same]
      | succ index => simp [inductionHypothesis]

end Changing

variable {server after : ProjectionServer Id Outcome} {limit index : Nat}
variable {connection : Connection Id Outcome}

/-! ## Connections left as they are -/

/-- A connection whose commands and publications are as they were. -/
theorem Follows.carried (follows : server.Follows index connection)
    (last : server.last ≤ after.last)
    (closer : server.closer = .done →
      after.closer = .done ∧ after.closingAt = server.closingAt)
    (commands : ∀ command ∈ after.commands, command.origin = index + 1 →
      command ∈ server.commands) :
    after.Follows index connection where
  ordered := follows.ordered
  sent := fun sent member => (follows.sent sent member).trans last
  behind := by
    intro through loop
    rcases follows.behind through loop with ⟨within, past⟩
    exact ⟨within.trans last, past⟩
  closing := by
    intro sent member shape
    rcases follows.closing sent member shape with ⟨done, numbered⟩
    rcases closer done with ⟨after_done, same⟩
    exact ⟨after_done, numbered.trans same.symm⟩
  keyed := follows.keyed
  fresh := follows.fresh
  tickets := fun command member origin =>
    follows.tickets command (commands command member origin) origin
  starting := fun command member origin =>
    follows.starting command (commands command member origin) origin
  stands := fun command member origin =>
    follows.stands command (commands command member origin) origin
  closed := by
    intro present
    rcases follows.closed present with ⟨done, loop, frames, answered⟩
    refine ⟨(closer done).1, loop, frames, ?_⟩
    intro command member origin
    exact answered command (commands command member origin) origin

/-- A connection's slots as they were stand as they did. -/
theorem stands_of_slot {connection later : Connection Id Outcome}
    {origin : Nat} {command : Command Id Outcome}
    (stands : connection.Stands origin command)
    (slot : later.slot origin command.ticket
      = connection.slot origin command.ticket)
    (loop : ∀ through, connection.loop = .behind through →
      later.loop = .behind through
        ∨ later.loop = .closed ∨ later.loop = .ended)
    (closed : connection.loop = .closed ∨ connection.loop = .ended →
      later.loop = .closed ∨ later.loop = .ended) :
    later.Stands origin command := by
  unfold Connection.Stands at stands ⊢
  rw [slot]
  cases shape : command.sent with
  | none =>
      rw [shape] at stands
      exact stands
  | some published =>
      rcases published with ⟨sequence, outcome⟩
      rw [shape] at stands
      rcases stands with answered | unread
        | ⟨skipped, ⟨through, at_loop, within⟩ | gone⟩
      · exact .inl answered
      · exact .inr (.inl unread)
      · rcases loop through at_loop with same | gone
        · exact .inr (.inr ⟨skipped, .inl ⟨through, same, within⟩⟩)
        · exact .inr (.inr ⟨skipped, .inr gone⟩)
      · exact .inr (.inr ⟨skipped, .inr (closed gone)⟩)

/-! ## One command further -/

/-- A command's further stage says the same of its publication. -/
structure Quiet (command : Command Id Outcome) (stage : Stage Outcome) :
    Prop where
  sent : { command with stage := stage }.sent = command.sent
  awaited : { command with stage := stage }.awaited = command.awaited
  inStart : { command with stage := stage }.inStart = true →
    command.inStart = true

/-- A command of the list with one at a further stage. -/
theorem mem_setStage {position : Nat} {stage : Stage Outcome}
    {command : Command Id Outcome}
    (member : command ∈ (server.setStage position stage).commands) :
    (∃ other, other ≠ position ∧ server.commands[other]? = some command)
      ∨ ∃ earlier, server.commands[position]? = some earlier
        ∧ command = { earlier with stage := stage } := by
  rcases List.mem_iff_getElem?.mp member with ⟨other, there⟩
  rcases getElem?_modify_cases there with
    ⟨-, earlier, present, rfl⟩ | ⟨different, present⟩
  · exact .inr ⟨earlier, present, rfl⟩
  · exact .inl ⟨other, different, present⟩

theorem names_setStage (position : Nat) (stage : Stage Outcome) :
    (server.setStage position stage).commands.map Command.name
      = server.commands.map Command.name :=
  map_modify_of_eq fun _ => rfl

/-- Another command of a connection has another ticket. -/
theorem Sound.ticket_ne (sound : server.Sound limit) {left right : Nat}
    {command other : Command Id Outcome}
    (command_there : server.commands[left]? = some command)
    (other_there : server.commands[right]? = some other)
    (different : left ≠ right) (connected : command.origin ≠ noConnection)
    (same : command.origin = other.origin) :
    command.ticket ≠ other.ticket := by
  have apart := List.pairwise_iff_getElem.mp sound.distinct
  rcases List.getElem?_eq_some_iff.mp command_there with ⟨within, rfl⟩
  rcases List.getElem?_eq_some_iff.mp other_there with ⟨other_within, rfl⟩
  rcases Nat.lt_or_gt_of_ne different with before | after
  · have names := apart left right (by simpa using within)
      (by simpa using other_within) before
    simp only [List.getElem_map] at names
    exact names connected same
  · have names := apart right left (by simpa using other_within)
      (by simpa using within) after
    simp only [List.getElem_map] at names
    have connected_other : server.commands[right].origin ≠ noConnection :=
      same ▸ connected
    exact fun equal => names connected_other same.symm equal.symm

/-- A command whose stage says the same leaves every connection as it is. -/
theorem Follows.quiet (follows : server.Follows index connection)
    {position : Nat} {command : Command Id Outcome} {stage : Stage Outcome}
    (there : server.commands[position]? = some command)
    (quiet : Quiet command stage)
    (last : after.last = server.last)
    (closer : after.closer = server.closer)
    (closingAt : after.closingAt = server.closingAt)
    (commands : after.commands
      = (server.setStage position stage).commands) :
    after.Follows index connection := by
  have either : ∀ later ∈ after.commands,
      later ∈ server.commands
        ∨ later = { command with stage := stage } := by
    intro later member
    rw [commands] at member
    rcases mem_setStage member with ⟨other, -, present⟩ | ⟨earlier, present, rfl⟩
    · exact .inl (List.mem_of_getElem? present)
    · cases there.symm.trans present
      exact .inr rfl
  have member := List.mem_of_getElem? there
  constructor
  · exact follows.ordered
  · rw [last]
    exact follows.sent
  · rw [last]
    exact follows.behind
  · rw [closer, closingAt]
    exact follows.closing
  · exact follows.keyed
  · exact follows.fresh
  · intro later listed origin
    rcases either later listed with earlier | rfl
    · exact follows.tickets later earlier origin
    · exact follows.tickets command member origin
  · intro later listed origin inStart
    rcases either later listed with earlier | rfl
    · exact follows.starting later earlier origin inStart
    · exact follows.starting command member origin (quiet.inStart inStart)
  · intro later listed origin
    rcases either later listed with earlier | rfl
    · exact follows.stands later earlier origin
    · have stands := follows.stands command member origin
      unfold Connection.Stands at stands ⊢
      rw [quiet.sent, quiet.awaited]
      exact stands
  · intro present
    rcases follows.closed present with ⟨done, loop, frames, answered⟩
    refine ⟨closer ▸ done, loop, frames, ?_⟩
    intro later listed origin sequence outcome sent
    rcases either later listed with earlier | rfl
    · exact answered later earlier origin sequence outcome sent
    · rw [quiet.sent] at sent
      exact answered command member origin sequence outcome sent

/-- One command at a further stage, and what its server then is. -/
theorem Sound.staged (sound : server.Sound limit) {position : Nat}
    {command : Command Id Outcome} {stage : Stage Outcome}
    (there : server.commands[position]? = some command)
    (commands : after.commands = (server.setStage position stage).commands)
    (running : after.lifecycle.running
        + (if command.holdsPlace then 1 else 0)
      = server.lifecycle.running
        + if { command with stage := stage }.holdsPlace then 1 else 0)
    (fewer : after.lifecycle.running ≤ server.lifecycle.running)
    (permits : after.permits
        + (if { command with stage := stage }.holdsPermit then 1 else 0)
      = server.permits + if command.holdsPermit then 1 else 0)
    (stopping : after.lifecycle.stopping = server.lifecycle.stopping)
    (serving : after.lifecycle.serving
      = after.connections.countP Connection.counted)
    (closer : after.closer = server.closer)
    (closingAt : after.closingAt = server.closingAt)
    (last : server.last ≤ after.last)
    (length : after.connections.length = server.connections.length)
    (sent : ∀ sequence outcome,
      { command with stage := stage }.sent = some (sequence, outcome) →
        sequence ≤ after.last
          ∧ (server.closer = .done → sequence < server.closingAt))
    (follows : ∀ index connection,
      after.connections[index]? = some connection →
        after.Follows index connection) :
    after.Sound limit := by
  have places := @countP_modify _ _ _ _ (fun command : Command Id Outcome =>
    { command with stage := stage }) there Command.holdsPlace
  have held := @countP_modify _ _ _ _ (fun command : Command Id Outcome =>
    { command with stage := stage }) there Command.holdsPermit
  have member := List.mem_of_getElem? there
  have either : ∀ later ∈ after.commands,
      later ∈ server.commands
        ∨ later = { command with stage := stage } := by
    intro later listed
    rw [commands] at listed
    rcases mem_setStage listed with
      ⟨other, -, present⟩ | ⟨earlier, present, rfl⟩
    · exact .inl (List.mem_of_getElem? present)
    · cases there.symm.trans present
      exact .inr rfl
  constructor
  · have known := sound.running
    rw [commands]
    show after.lifecycle.running
      = (server.commands.modify position _).countP _
    omega
  · exact serving
  · have known := sound.permits
    rw [commands]
    show after.permits + (server.commands.modify position _).countP _ = limit
    omega
  · rw [closer, stopping]
    exact sound.stopped
  · rw [closer]
    intro closing
    have none_running := sound.idle closing
    omega
  · rw [closer, closingAt]
    rcases sound.closingAt with before | ⟨done, positive, within⟩
    · exact .inl before
    · exact .inr ⟨done, positive, within.trans last⟩
  · rw [closer, closingAt]
    intro later listed sequence outcome later_sent
    rcases either later listed with earlier | rfl
    · rcases sound.earlier later earlier sequence outcome later_sent with
        ⟨within, before⟩
      exact ⟨within.trans last, before⟩
    · exact sent sequence outcome later_sent
  · rw [length]
    intro later listed
    rcases either later listed with earlier | rfl
    · exact sound.origins later earlier
    · exact sound.origins command member
  · rw [commands, names_setStage]
    exact sound.distinct
  · exact follows

/-- A quiet stage, with the counts it leaves. -/
theorem Sound.quiet (sound : server.Sound limit) {position : Nat}
    {command : Command Id Outcome} {stage : Stage Outcome}
    (there : server.commands[position]? = some command)
    (quiet : Quiet command stage) {running permits : Nat}
    (running_eq : running + (if command.holdsPlace then 1 else 0)
      = server.lifecycle.running
        + if { command with stage := stage }.holdsPlace then 1 else 0)
    (permits_eq : permits
        + (if { command with stage := stage }.holdsPermit then 1 else 0)
      = server.permits + if command.holdsPermit then 1 else 0)
    (fewer : running ≤ server.lifecycle.running) :
    ({ server with
        lifecycle := { server.lifecycle with running := running }
        permits := permits }.setStage position stage).Sound limit := by
  refine sound.staged there rfl running_eq fewer permits_eq rfl sound.serving
    rfl rfl le_rfl rfl ?_ ?_
  · intro sequence outcome sent
    rw [quiet.sent] at sent
    exact sound.earlier command (List.mem_of_getElem? there) sequence outcome
      sent
  · intro index connection present
    exact (sound.follows index connection present).quiet there quiet rfl rfl rfl
      rfl

/-! ## One connection further -/

/-- One connection goes on, with the counts it leaves. -/
theorem Sound.moved (sound : server.Sound limit)
    (there : server.connections[index]? = some connection)
    {change : Connection Id Outcome → Connection Id Outcome} {serving : Nat}
    (serving_eq : serving + (if connection.counted then 1 else 0)
      = server.lifecycle.serving
        + if (change connection).counted then 1 else 0)
    (follows : server.Follows index (change connection)) :
    ((server.setServing serving).modifyConnection index change).Sound
      limit := by
  have counts := @countP_modify _ _ _ _ change there Connection.counted
  constructor
  · exact sound.running
  · have known := sound.serving
    show serving = (server.connections.modify index change).countP _
    omega
  · exact sound.permits
  · exact sound.stopped
  · exact sound.idle
  · exact sound.closingAt
  · exact sound.earlier
  · intro command member
    show command.origin ≤ (server.connections.modify index change).length
    rw [List.length_modify]
    exact sound.origins command member
  · exact sound.distinct
  · intro other found present
    rcases getElem?_modify_cases present with
      ⟨rfl, earlier, earlier_there, rfl⟩ | ⟨-, other_there⟩
    · cases there.symm.trans earlier_there
      exact follows.carried le_rfl (fun done => ⟨done, rfl⟩)
        fun _ member _ => member
    · exact (sound.follows other found other_there).carried le_rfl
        (fun done => ⟨done, rfl⟩) fun _ member _ => member

/-- A connection goes elsewhere in its loop. -/
theorem Follows.looped (follows : server.Follows index connection)
    {loop : Loop}
    (behind : ∀ through, loop = .behind through ∨ loop = .caughtUp through →
      through ≤ server.last
        ∧ ∀ sent ∈ connection.unread, through < sent.sequence)
    (started : ∀ ticket, connection.loop ≠ .starting ticket)
    (skipped : ∀ through, connection.loop = .behind through →
      loop = .closed ∨ loop = .ended)
    (closed : connection.loop = .closed ∨ connection.loop = .ended →
      loop = .closed ∨ loop = .ended) :
    server.Follows index { connection with loop := loop } where
  ordered := follows.ordered
  sent := follows.sent
  behind := behind
  closing := follows.closing
  keyed := follows.keyed
  fresh := follows.fresh
  tickets := follows.tickets
  starting := by
    intro command member origin inStart
    exact absurd (follows.starting command member origin inStart)
      (started command.ticket)
  stands := fun command member origin =>
    stands_of_slot (follows.stands command member origin) rfl
      (fun through at_loop => .inr (skipped through at_loop)) closed
  closed := by
    intro present
    rcases follows.closed present with ⟨done, at_loop, frames, answered⟩
    exact ⟨done, closed at_loop, frames, answered⟩

/-! ## Publications sent -/

/-- A connection receives a publication that answers none of its tickets. -/
theorem Follows.received (follows : server.Follows index connection)
    {sent : Sent Outcome} (number : sent.sequence = server.last + 1)
    (last : after.last = server.last + 1)
    (closer : server.closer = .done →
      after.closer = .done ∧ after.closingAt = server.closingAt)
    (commands : ∀ command ∈ after.commands, command.origin = index + 1 →
      command ∈ server.commands)
    (closing : sent.publication = .closing →
      after.closer = .done ∧ sent.sequence = after.closingAt)
    (apart : ∀ ticket, sent.answers (index + 1) ticket = false) :
    after.Follows index (connection.receive sent) := by
  have slots : ∀ ticket, (connection.receive sent).slot (index + 1) ticket
      = connection.slot (index + 1) ticket := by
    intro ticket
    rw [Connection.slot_receive, apart, if_neg Bool.false_ne_true,
      List.append_nil]
  have carried := follows.carried
    (show server.last ≤ after.last by omega) closer commands
  constructor
  · show ((connection.unread ++ [sent]).map Sent.sequence).Pairwise _
    rw [List.map_append, List.pairwise_append]
    refine ⟨follows.ordered, List.pairwise_singleton _ _, ?_⟩
    intro earlier member later now
    rcases List.mem_map.mp member with ⟨other, listed, rfl⟩
    rw [List.map_singleton, List.mem_singleton] at now
    have within := follows.sent other listed
    omega
  · intro other member
    rcases List.mem_append.mp member with earlier | now
    · exact carried.sent other earlier
    · rw [List.mem_singleton.mp now]
      omega
  · intro through loop
    rcases follows.behind through loop with ⟨within, past⟩
    refine ⟨by omega, ?_⟩
    intro other member
    rcases List.mem_append.mp member with earlier | now
    · exact past other earlier
    · rw [List.mem_singleton.mp now]
      omega
  · intro other member
    rcases List.mem_append.mp member with earlier | now
    · exact carried.closing other earlier
    · rw [List.mem_singleton.mp now]
      exact closing
  · exact carried.keyed
  · intro ticket past
    rw [slots]
    exact carried.fresh ticket past
  · exact carried.tickets
  · exact carried.starting
  · exact fun command member origin =>
      stands_of_slot (carried.stands command member origin) (slots _)
        (fun _ at_loop => .inl at_loop) id
  · intro present
    rcases carried.closed present with ⟨done, at_loop, frames, answered⟩
    refine ⟨done, at_loop, frames, ?_⟩
    intro command member origin sequence outcome made
    rw [slots]
    exact answered command member origin sequence outcome made

theorem countP_receive (sent : Sent Outcome)
    (connections : List (Connection Id Outcome)) :
    (connections.map (Connection.receive sent)).countP Connection.counted
      = connections.countP Connection.counted := by
  rw [List.countP_map]
  rfl

/-- A publication that answers no command. -/
theorem Sound.sent (sound : server.Sound limit)
    {publication : Publication Outcome}
    (no_answer : ∀ origin ticket outcome,
      publication ≠ .ran origin ticket outcome)
    (not_closing : publication ≠ .closing) :
    (server.send publication).Sound limit where
  running := sound.running
  serving := sound.serving.trans (countP_receive _ _).symm
  permits := sound.permits
  stopped := sound.stopped
  idle := sound.idle
  closingAt := by
    rcases sound.closingAt with before | ⟨done, positive, within⟩
    · exact .inl before
    · exact .inr ⟨done, positive, within.trans (Nat.le_succ _)⟩
  earlier := by
    intro command member sequence outcome made
    rcases sound.earlier command member sequence outcome made with
      ⟨within, before⟩
    exact ⟨within.trans (Nat.le_succ _), before⟩
  origins := by
    intro command member
    show command.origin ≤ (server.connections.map _).length
    rw [List.length_map]
    exact sound.origins command member
  distinct := sound.distinct
  follows := by
    intro index connection present
    rw [send, List.getElem?_map] at present
    rcases Option.map_eq_some_iff.mp present with ⟨earlier, there, rfl⟩
    refine (sound.follows index earlier there).received rfl rfl
      (fun done => ⟨done, rfl⟩) (fun _ member _ => member)
      (fun closing => absurd closing not_closing) ?_
    intro ticket
    unfold Sent.answers
    split
    · rename_i origin answered outcome shape
      exact absurd shape (no_answer origin answered outcome)
    · rfl

/-! ## What a connection reads -/

/-- No connection still in its loop was closed. -/
theorem Follows.not_closed (follows : server.Follows index connection)
    (not_closed : connection.loop ≠ .closed)
    (not_ended : connection.loop ≠ .ended) :
    .close ∉ connection.frames := by
  intro present
  rcases (follows.closed present).2.1 with closed | ended
  · exact not_closed closed
  · exact not_ended ended

/-- A connection that fell behind receives what is sent from then on. -/
theorem Follows.lagged (follows : server.Follows index connection)
    (sound : server.Sound limit) (serving : connection.loop = .serving) :
    server.Follows index
      { connection with loop := .behind server.last, unread := [] } := by
  have open_frames : .close ∉ connection.frames :=
    follows.not_closed (by simp [serving]) (by simp [serving])
  constructor
  · exact .nil
  · intro sent member
    cases member
  · intro through loop
    rcases loop with behind | caughtUp
    · cases behind
      exact ⟨le_rfl, fun _ member => nomatch member⟩
    · cases caughtUp
  · intro sent member
    cases member
  · exact follows.keyed
  · intro ticket past
    have fresh := Slot.mk.inj (follows.fresh ticket past)
    simp only [Connection.slot, Connection.responses, Slot.empty,
      List.filter_nil, Slot.mk.injEq, and_true]
    exact ⟨fresh.1, fresh.2.1, fresh.2.2.1⟩
  · exact follows.tickets
  · intro command member origin inStart
    have starting := follows.starting command member origin inStart
    rw [serving] at starting
    cases starting
  · intro command member origin
    have stands := follows.stands command member origin
    have emptied : ∀ {slot : Slot Id Outcome},
        connection.slot (index + 1) command.ticket = slot →
        ({ connection with loop := .behind server.last, unread := [] } :
            Connection Id Outcome).slot (index + 1) command.ticket
          = { slot with unread := [] } := by
      rintro slot rfl
      rfl
    unfold Connection.Stands at stands ⊢
    cases shape : command.sent with
    | none =>
        rw [shape] at stands
        dsimp only at stands ⊢
        rw [emptied stands]
        split <;> rfl
    | some published =>
        rcases published with ⟨sequence, outcome⟩
        rw [shape] at stands
        rcases stands with answered | unread | ⟨-, ⟨through, at_loop, -⟩ | gone⟩
        · exact .inl (emptied answered)
        · have within := (sound.earlier command member sequence outcome
            shape).1
          exact .inr (.inr ⟨emptied unread, .inl ⟨server.last, rfl, within⟩⟩)
        · rw [serving] at at_loop
          cases at_loop
        · rw [serving] at gone
          rcases gone with closed | ended
          · cases closed
          · cases ended
  · exact fun present => absurd present open_frames

/-- Every frame that answers a command is a response. -/
theorem close_mem_answerSkipped {through : Nat}
    (present : .close ∈ (connection.answerSkipped through).frames) :
    .close ∈ connection.frames := by
  have folded : ∀ (sents : List (Sent Outcome))
      (connection : Connection Id Outcome),
      .close ∈ (sents.foldl Connection.answerSent connection).frames →
        .close ∈ connection.frames := by
    intro sents
    induction sents with
    | nil => exact fun _ present => present
    | cons sent rest inductionHypothesis =>
        intro connection present
        have earlier := inductionHypothesis _ present
        unfold Connection.answerSent at earlier
        split at earlier
        · rcases List.mem_append.mp earlier with before | answer
          · exact before
          · unfold Connection.answer at answer
            rw [Option.mem_toList] at answer
            rcases Option.map_eq_some_iff.mp answer with ⟨id, -, response⟩
            cases response
        · exact earlier
  exact folded (connection.skipped through)
    { connection with
      ran :=
        connection.ran.filter fun entry =>
          !decide (entry.2.sequence ≤ through) } present

theorem unread_answerSkipped (through : Nat) :
    (connection.answerSkipped through).unread = connection.unread :=
  Connection.foldl_answerSent_of_same Connection.unread_answerSent _

theorem tickets_answerSkipped (through : Nat) :
    (connection.answerSkipped through).tickets = connection.tickets :=
  Connection.foldl_answerSent_of_same Connection.tickets_answerSent _

theorem ran_answerSkipped (through : Nat) :
    (connection.answerSkipped through).ran
      = connection.ran.filter fun entry =>
          !decide (entry.2.sequence ≤ through) :=
  Connection.foldl_answerSent_of_same Connection.ran_answerSent _

/-- A connection that fell behind answers what it skipped. -/
theorem Follows.answeredSkipped (follows : server.Follows index connection)
    {through : Nat} (behind : connection.loop = .behind through) :
    server.Follows index
      ((connection.answerSkipped through).goTo (.caughtUp through)) := by
  have open_frames : .close ∉ connection.frames :=
    follows.not_closed (by simp [behind]) (by simp [behind])
  have slot_goTo : ∀ ticket,
      ((connection.answerSkipped through).goTo (.caughtUp through)).slot
          (index + 1) ticket
        = (connection.answerSkipped through).slot (index + 1) ticket :=
    fun _ => rfl
  have not_ran : ∀ {ticket},
      (connection.slot (index + 1) ticket).ran = [] →
      (connection.answerSkipped through).slot (index + 1) ticket
        = connection.slot (index + 1) ticket := by
    intro ticket none_ran
    apply follows.keyed.slot_answerSkipped_of_not
    rw [none_ran]
    rfl
  rcases follows.behind through (.inl behind) with ⟨within, past⟩
  constructor
  · show ((connection.answerSkipped through).unread.map _).Pairwise _
    rw [unread_answerSkipped]
    exact follows.ordered
  · show ∀ sent ∈ (connection.answerSkipped through).unread, _
    rw [unread_answerSkipped]
    exact follows.sent
  · intro other loop
    show other ≤ server.last
      ∧ ∀ sent ∈ (connection.answerSkipped through).unread, _
    rw [unread_answerSkipped]
    rcases loop with at_behind | caughtUp
    · cases at_behind
    · cases caughtUp
      exact ⟨within, past⟩
  · show ∀ sent ∈ (connection.answerSkipped through).unread, _
    rw [unread_answerSkipped]
    exact follows.closing
  · intro entry member
    have listed : entry ∈ (connection.answerSkipped through).ran := member
    rw [ran_answerSkipped] at listed
    exact follows.keyed entry (List.mem_of_mem_filter listed)
  · intro ticket late
    have late_before : connection.tickets < ticket := by
      rw [← tickets_answerSkipped through]
      exact late
    have fresh := follows.fresh ticket late_before
    rw [slot_goTo, not_ran (by rw [fresh]; rfl), fresh]
  · show ∀ command ∈ server.commands, _ →
      command.ticket ≤ (connection.answerSkipped through).tickets
    rw [tickets_answerSkipped]
    exact follows.tickets
  · intro command member origin inStart
    have starting := follows.starting command member origin inStart
    rw [behind] at starting
    cases starting
  · intro command member origin
    have stands := follows.stands command member origin
    unfold Connection.Stands at stands ⊢
    rw [slot_goTo]
    cases shape : command.sent with
    | none =>
        rw [shape] at stands
        dsimp only at stands ⊢
        rw [not_ran, stands]
        rw [stands]
        split <;> rfl
    | some published =>
        rcases published with ⟨sequence, outcome⟩
        rw [shape] at stands
        rcases stands with answered | unread
          | ⟨skipped, ⟨other, at_loop, before⟩ | gone⟩
        · left
          rw [not_ran, answered]
          rw [answered]
          rfl
        · right
          left
          -- What it has yet to read is past what it skipped.
          have member_unread :
              ({ sequence := sequence
                 publication := .ran (index + 1) command.ticket outcome } :
                Sent Outcome) ∈ connection.unread := by
            have listed := congrArg Slot.unread unread
            apply List.mem_of_mem_filter
            show _ ∈ (connection.slot (index + 1) command.ticket).unread
            rw [listed]
            exact List.mem_singleton_self _
          have later := past _ member_unread
          rw [follows.keyed.slot_answerSkipped_of_not, unread]
          rw [unread]
          simpa [Slot.unreadOf] using later
        · rw [behind] at at_loop
          cases at_loop
          exact .inl (follows.keyed.slot_answerSkipped skipped before)
        · rw [behind] at gone
          rcases gone with closed | ended
          · cases closed
          · cases ended
  · intro present
    exact absurd (close_mem_answerSkipped present) open_frames

/-- A connection that answered every command it ran closes. -/
theorem Follows.closes (follows : server.Follows index connection)
    (done : server.closer = .done)
    (open_loop : connection.loop ≠ .closed ∧ connection.loop ≠ .ended)
    (started : ∀ ticket, connection.loop ≠ .starting ticket)
    (answered : ∀ command ∈ server.commands, command.origin = index + 1 →
      ∀ sequence outcome, command.sent = some (sequence, outcome) →
        connection.slot (index + 1) command.ticket
          = .answeredWith command.id outcome) :
    server.Follows index connection.close := by
  have open_frames : .close ∉ connection.frames :=
    follows.not_closed open_loop.1 open_loop.2
  have slots : ∀ ticket, connection.close.slot (index + 1) ticket
      = connection.slot (index + 1) ticket := by
    intro ticket
    simp [Connection.slot, Connection.close, Connection.responses,
      List.filterMap_append, Frame.responseTo]
  constructor
  · exact follows.ordered
  · exact follows.sent
  · intro through loop
    rcases loop with behind | caughtUp
    · cases behind
    · cases caughtUp
  · exact follows.closing
  · exact follows.keyed
  · intro ticket late
    rw [slots]
    exact follows.fresh ticket late
  · exact follows.tickets
  · intro command member origin inStart
    exact absurd (follows.starting command member origin inStart)
      (started command.ticket)
  · exact fun command member origin =>
      stands_of_slot (follows.stands command member origin) (slots _)
        (fun _ _ => .inr (.inl rfl)) (fun _ => .inl rfl)
  · intro _
    refine ⟨done, .inl rfl, ⟨connection.frames, rfl, open_frames⟩, ?_⟩
    intro command member origin sequence outcome made
    rw [slots]
    exact answered command member origin sequence outcome made

theorem close_not_mem_answer (ticket : Nat) (id : Option Id)
    (outcome : Outcome) :
    .close ∉ Connection.answer ticket id outcome := by
  intro present
  rw [Connection.answer, Option.mem_toList] at present
  rcases Option.map_eq_some_iff.mp present with ⟨response, -, same⟩
  cases same

theorem close_not_mem_refuse {id : Option Id}
    (open_frames : .close ∉ connection.frames) :
    .close ∉ (connection.refuse id).frames := by
  intro present
  rcases List.mem_append.mp present with before | refusal
  · exact open_frames before
  · rw [Option.mem_toList] at refusal
    rcases Option.map_eq_some_iff.mp refusal with ⟨refused, -, same⟩
    cases same

@[simp]
theorem slot_refuse (id : Option Id) (origin ticket : Nat) :
    (connection.refuse id).slot origin ticket
      = connection.slot origin ticket := by
  cases id <;> simp [Connection.refuse, Connection.slot, Connection.responses,
    Frame.responseTo]

/-- A connection reads a publication that answers none of its tickets. -/
theorem Follows.read (follows : server.Follows index connection)
    {sent : Sent Outcome} {rest : List (Sent Outcome)}
    (unread : connection.unread = sent :: rest)
    (apart : ∀ ticket, sent.answers (index + 1) ticket = false) :
    server.Follows index { connection with unread := rest } := by
  have slots : ∀ ticket,
      ({ connection with unread := rest } :
          Connection Id Outcome).slot (index + 1) ticket
        = connection.slot (index + 1) ticket := by
    intro ticket
    simp only [Connection.slot, Connection.responses, unread,
      List.filter_cons, apart, Bool.false_eq_true, if_false]
  have within : ∀ other ∈ rest, other ∈ connection.unread := by
    intro other member
    rw [unread]
    exact List.mem_cons_of_mem _ member
  constructor
  · have ordered := follows.ordered
    rw [unread, List.map_cons, List.pairwise_cons] at ordered
    exact ordered.2
  · exact fun other member => follows.sent other (within other member)
  · intro through loop
    rcases follows.behind through loop with ⟨last, past⟩
    exact ⟨last, fun other member => past other (within other member)⟩
  · exact fun other member => follows.closing other (within other member)
  · exact follows.keyed
  · intro ticket late
    rw [slots]
    exact follows.fresh ticket late
  · exact follows.tickets
  · exact follows.starting
  · exact fun command member origin =>
      stands_of_slot (follows.stands command member origin) (slots _)
        (fun _ at_loop => .inl at_loop) id
  · intro present
    rcases follows.closed present with ⟨done, at_loop, frames, answered⟩
    refine ⟨done, at_loop, frames, ?_⟩
    intro command member origin sequence outcome made
    rw [slots]
    exact answered command member origin sequence outcome made

/-- A serving connection skipped nothing. -/
theorem Follows.answered_or_unread
    (follows : server.Follows index connection)
    (open_loop : connection.loop ≠ .closed ∧ connection.loop ≠ .ended)
    (not_behind : ∀ through, connection.loop ≠ .behind through)
    {command : Command Id Outcome} (member : command ∈ server.commands)
    (origin : command.origin = index + 1) {sequence : Nat} {outcome : Outcome}
    (made : command.sent = some (sequence, outcome)) :
    connection.slot (index + 1) command.ticket
        = .answeredWith command.id outcome
      ∨ connection.slot (index + 1) command.ticket
        = .unreadOf command.id
          { sequence := sequence
            publication := .ran (index + 1) command.ticket outcome } := by
  have stands := follows.stands command member origin
  unfold Connection.Stands at stands
  rw [made] at stands
  rcases stands with answered | unread
    | ⟨-, ⟨through, at_loop, -⟩ | closed | ended⟩
  · exact .inl answered
  · exact .inr unread
  · exact absurd at_loop (not_behind through)
  · exact absurd closed open_loop.1
  · exact absurd ended open_loop.2

/-- What a slot has yet to read is among what its connection has to. -/
theorem mem_unread_of_slot {origin ticket : Nat} {id : Option Id}
    {sent : Sent Outcome}
    (slot : connection.slot origin ticket = .unreadOf id sent) :
    sent ∈ connection.unread := by
  have listed := congrArg Slot.unread slot
  apply List.mem_of_mem_filter
  show sent ∈ (connection.slot origin ticket).unread
  rw [listed]
  exact List.mem_singleton_self _

/-- A connection takes its next publication. -/
theorem Follows.takes (follows : server.Follows index connection)
    (sound : server.Sound limit) (serving : connection.loop = .serving)
    {sent : Sent Outcome} {rest : List (Sent Outcome)}
    (unread : connection.unread = sent :: rest) :
    server.Follows index
      ({ connection with unread := rest }.take (index + 1) sent) := by
  have open_loop : connection.loop ≠ .closed ∧ connection.loop ≠ .ended := by
    simp [serving]
  have not_behind : ∀ through, connection.loop ≠ .behind through := by
    simp [serving]
  have not_started : ∀ ticket, connection.loop ≠ .starting ticket := by
    simp [serving]
  unfold Connection.take
  split
  · rename_i from_ ticket outcome shape
    split
    · rename_i own
      subst own
      -- The connection's own command: what it skipped apart, it is answered.
      let later : Connection Id Outcome :=
        (Connection.removeRan ticket
          { connection with unread := rest }).answerCommand ticket outcome
      have slot_unread : ∀ other,
          (connection.slot (index + 1) other).unread
            = (if ticket = other then [sent] else [])
              ++ rest.filter (Sent.answers (index + 1) other) := by
        intro other
        simp only [Connection.slot, unread, List.filter_cons]
        by_cases same : ticket = other
        · simp [Sent.answers, shape, same]
        · simp [Sent.answers, shape, same]
      have others : ∀ other, ticket ≠ other →
          later.slot (index + 1) other
            = connection.slot (index + 1) other := by
        intro other different
        have same := slot_unread other
        rw [if_neg different, List.nil_append] at same
        rw [Connection.slot_answerCommand, if_neg different,
          Connection.slot_removeRan, if_neg different]
        show Slot.mk _ _ _ (rest.filter _) = _
        rw [← same]
        rfl
      have within : ∀ other ∈ rest, other ∈ connection.unread := by
        intro other member
        rw [unread]
        exact List.mem_cons_of_mem _ member
      constructor
      · have ordered := follows.ordered
        rw [unread, List.map_cons, List.pairwise_cons] at ordered
        exact ordered.2
      · exact fun other member => follows.sent other (within other member)
      · intro through loop
        rcases follows.behind through loop with ⟨last, past⟩
        exact ⟨last, fun other member => past other (within other member)⟩
      · exact fun other member => follows.closing other (within other member)
      · exact fun entry member =>
          follows.keyed entry (List.mem_of_mem_filter member)
      · intro other late
        have fresh := follows.fresh other late
        have different : ticket ≠ other := by
          intro same
          have listed := slot_unread other
          rw [fresh, if_pos same] at listed
          cases listed
        exact (others other different).trans fresh
      · exact follows.tickets
      · exact follows.starting
      · intro command member origin
        have stands := follows.stands command member origin
        by_cases same : ticket = command.ticket
        · subst same
          have listed := slot_unread command.ticket
          rw [if_pos rfl] at listed
          unfold Connection.Stands at stands ⊢
          cases made : command.sent with
          | none =>
              rw [made] at stands
              dsimp only at stands
              rw [stands] at listed
              split at listed <;> cases listed
          | some published =>
              rcases published with ⟨sequence, result⟩
              rw [made] at stands
              rcases follows.answered_or_unread open_loop not_behind member
                  origin made with answered | to_read
              · rw [answered] at listed
                cases listed
              · left
                rw [to_read] at listed
                rcases List.cons.inj listed with ⟨head, tail⟩
                have result_same : result = outcome := by
                  rw [← head] at shape
                  cases shape
                  rfl
                subst result_same
                have fields := Slot.mk.inj to_read
                rw [Connection.slot_answerCommand, if_pos rfl,
                  Connection.slot_removeRan, if_pos rfl,
                  Connection.idOf_removeRan,
                  Connection.idOf_eq _ (index + 1)]
                simp only [Connection.slot, Connection.responses] at fields ⊢
                have none_left : rest.filter
                    (Sent.answers (index + 1) command.ticket) = [] :=
                  tail.symm
                rw [fields.1, fields.2.2.1, none_left]
                rfl
        · exact stands_of_slot stands (others command.ticket same)
            (fun _ at_loop => .inl at_loop) id
      · intro present
        refine absurd present ?_
        intro present
        rcases List.mem_append.mp present with before | answer
        · exact follows.not_closed open_loop.1 open_loop.2 before
        · exact close_not_mem_answer _ _ _ answer
    · rename_i other
      apply follows.read unread
      intro answered
      simp [Sent.answers, shape, other]
  · rename_i shape
    have apart : ∀ ticket, sent.answers (index + 1) ticket = false := by
      intro ticket
      simp [Sent.answers, shape]
    have head : sent ∈ connection.unread := by
      rw [unread]
      exact List.mem_cons_self
    rcases follows.closing sent head shape with ⟨done, numbered⟩
    refine (follows.read unread apart).closes done open_loop not_started ?_
    intro command member origin sequence outcome made
    have slots : ({ connection with unread := rest } :
        Connection Id Outcome).slot (index + 1) command.ticket
          = connection.slot (index + 1) command.ticket := by
      simp only [Connection.slot, Connection.responses, unread,
        List.filter_cons, apart, Bool.false_eq_true, if_false]
    rw [slots]
    rcases follows.answered_or_unread open_loop not_behind member origin made
      with answered | to_read
    · exact answered
    · -- What it has yet to read is numbered after the closing publication.
      have before := (sound.earlier command member sequence outcome made).2 done
      have listed := mem_unread_of_slot to_read
      have ordered := follows.ordered
      rw [unread, List.map_cons, List.pairwise_cons] at ordered
      rw [unread] at listed
      rcases List.mem_cons.mp listed with same | later
      · have same_sequence := congrArg Sent.sequence same
        dsimp only at same_sequence
        omega
      · have past := ordered.1 sequence (List.mem_map_of_mem later)
        omega
  · rename_i shape
    apply follows.read unread
    intro ticket
    simp [Sent.answers, shape]
  · rename_i shape
    apply follows.read unread
    intro ticket
    simp [Sent.answers, shape]
  · rename_i shape
    apply follows.read unread
    intro ticket
    simp [Sent.answers, shape]

/-- A connection that answered what it skipped closes, or serves on. -/
theorem Follows.decides (follows : server.Follows index connection)
    (sound : server.Sound limit) {through : Nat}
    (caughtUp : connection.loop = .caughtUp through) :
    server.Follows index
      (if server.closingAt ≠ 0 ∧ server.closingAt ≤ through then
        connection.close
      else connection.goTo .serving) := by
  have open_loop : connection.loop ≠ .closed ∧ connection.loop ≠ .ended := by
    simp [caughtUp]
  have not_behind : ∀ other, connection.loop ≠ .behind other := by
    simp [caughtUp]
  have not_started : ∀ ticket, connection.loop ≠ .starting ticket := by
    simp [caughtUp]
  split
  · rename_i closing
    have done : server.closer = .done := by
      rcases sound.closingAt with ⟨-, zero⟩ | ⟨done, -⟩
      · exact absurd zero closing.1
      · exact done
    apply follows.closes done open_loop not_started
    intro command member origin sequence outcome made
    rcases follows.answered_or_unread open_loop not_behind member origin made
      with answered | to_read
    · exact answered
    · have before := (sound.earlier command member sequence outcome made).2 done
      have past := (follows.behind through (.inr caughtUp)).2 _
        (mem_unread_of_slot to_read)
      have at_most := closing.2
      dsimp only at past
      omega
  · apply follows.looped
    · intro other loop
      rcases loop with behind | caughtUp_again
      · cases behind
      · cases caughtUp_again
    · exact not_started
    · exact fun other at_loop => absurd at_loop (not_behind other)
    · exact fun closed => absurd closed (not_or.mpr open_loop)

/-! ## What a connection starts -/

/-- A command of a connection other than the one at a position. -/
theorem Sound.other_ticket (sound : server.Sound limit)
    {position other : Nat} {command later : Command Id Outcome}
    (there : server.commands[position]? = some command)
    (other_there : server.commands[other]? = some later)
    (different : other ≠ position) (origin : command.origin = index + 1)
    (later_origin : later.origin = index + 1) :
    command.ticket ≠ later.ticket := by
  apply sound.ticket_ne there other_there (Ne.symm different)
  · rw [origin]
    exact Nat.succ_ne_zero index
  · rw [origin, later_origin]

/-- A connection waits for a command that got its permit. -/
theorem Follows.waits (follows : server.Follows index connection)
    (sound : server.Sound limit) {position : Nat}
    {command : Command Id Outcome}
    (there : server.commands[position]? = some command)
    (origin : command.origin = index + 1)
    (starting : command.stage = .starting)
    (last : after.last = server.last)
    (closer : after.closer = server.closer)
    (closingAt : after.closingAt = server.closingAt)
    (commands : after.commands
      = (server.setStage position .running).commands) :
    after.Follows index (connection.waitFor command.ticket command.id) := by
  have member := List.mem_of_getElem? there
  have at_start := follows.starting command member origin
    (by simp [Command.inStart, starting])
  have slots : ∀ ticket, command.ticket ≠ ticket →
      (connection.waitFor command.ticket command.id).slot (index + 1) ticket
        = connection.slot (index + 1) ticket := by
    intro ticket different
    simp only [Connection.slot, Connection.waitFor, Connection.responses,
      List.filter_append, Connection.filter_filter_ne different]
    simp [different]
  have stood := follows.stands command member origin
  have empty : connection.slot (index + 1) command.ticket = .empty := by
    simpa [Connection.Stands, Command.sent, Command.awaited, starting]
      using stood
  have awaited : (connection.waitFor command.ticket command.id).slot (index + 1)
      command.ticket = .waitingFor command.id := by
    have fields := Slot.mk.inj empty
    simp only [Connection.slot, Connection.waitFor, Connection.responses,
      List.filter_append, Connection.filter_filter_self] at fields ⊢
    rw [fields.2.1, fields.2.2.1, fields.2.2.2]
    simp [Slot.waitingFor, Slot.empty]
  have none_behind : ∀ through, connection.loop ≠ .behind through := by
    simp [at_start]
  have within : ∀ later ∈ after.commands, later.origin = index + 1 →
      (later ∈ server.commands ∧ command.ticket ≠ later.ticket)
        ∨ later = { command with stage := .running } := by
    intro later listed later_origin
    rw [commands] at listed
    rcases mem_setStage listed with
      ⟨other, different, present⟩ | ⟨earlier, present, rfl⟩
    · exact .inl ⟨List.mem_of_getElem? present,
        sound.other_ticket there present different origin later_origin⟩
    · cases there.symm.trans present
      exact .inr rfl
  constructor
  · exact follows.ordered
  · rw [last]
    exact follows.sent
  · intro through loop
    rcases loop with behind | caughtUp
    · cases behind
    · cases caughtUp
  · rw [closer, closingAt]
    exact follows.closing
  · exact follows.keyed
  · intro ticket late
    have different : command.ticket ≠ ticket := by
      have at_most := follows.tickets command member origin
      have past : connection.tickets < ticket := late
      omega
    rw [slots ticket different]
    exact follows.fresh ticket late
  · intro later listed later_origin
    rcases within later listed later_origin with ⟨earlier, -⟩ | rfl
    · exact follows.tickets later earlier later_origin
    · exact follows.tickets command member origin
  · intro later listed later_origin inStart
    rcases within later listed later_origin with ⟨earlier, different⟩ | rfl
    · have also_start := follows.starting later earlier later_origin inStart
      rw [at_start] at also_start
      exact absurd (Loop.starting.inj also_start) different
    · cases inStart
  · intro later listed later_origin
    rcases within later listed later_origin with ⟨earlier, different⟩ | rfl
    · refine stands_of_slot (follows.stands later earlier later_origin)
        (slots later.ticket different)
        (fun through at_loop => absurd at_loop (none_behind through)) ?_
      rw [at_start]
      rintro (closed | ended)
      · cases closed
      · cases ended
    · exact awaited
  · intro present
    exact absurd present (follows.not_closed (by simp [at_start])
      (by simp [at_start]))

/-- A connection is handed the outcome of a command it waits for. -/
theorem Follows.handed (follows : server.Follows index connection)
    (sound : server.Sound limit) {position : Nat}
    {command : Command Id Outcome} {outcome : Outcome}
    (there : server.commands[position]? = some command)
    (origin : command.origin = index + 1)
    (finished : command.stage = .finished outcome)
    (last : after.last = server.last + 1)
    (closer : after.closer = server.closer)
    (closingAt : after.closingAt = server.closingAt)
    (commands : after.commands
      = (server.setStage position
        (.published (some (server.last + 1, outcome)))).commands) :
    after.Follows index
      ((connection.keepRan command.ticket
        { sequence := server.last + 1
          publication :=
            .ran command.origin command.ticket outcome }).receive
        { sequence := server.last + 1
          publication := .ran command.origin command.ticket outcome }) := by
  rw [origin]
  let sent : Sent Outcome :=
    { sequence := server.last + 1
      publication := .ran (index + 1) command.ticket outcome }
  let later : Connection Id Outcome :=
    (connection.keepRan command.ticket sent).receive sent
  show after.Follows index later
  have member := List.mem_of_getElem? there
  have slots : ∀ ticket, command.ticket ≠ ticket →
      later.slot (index + 1) ticket = connection.slot (index + 1) ticket := by
    intro ticket different
    rw [Connection.slot_receive]
    simp only [Connection.slot, Connection.keepRan, Connection.responses,
      List.filter_append, Connection.filter_filter_ne different]
    simp [different, Sent.answers, sent]
  have stood := follows.stands command member origin
  have waiting : connection.slot (index + 1) command.ticket
      = .waitingFor command.id := by
    simpa [Connection.Stands, Command.sent, Command.awaited, finished]
      using stood
  have to_read : later.slot (index + 1) command.ticket
      = .unreadOf command.id sent := by
    have fields := Slot.mk.inj waiting
    rw [Connection.slot_receive]
    simp only [Connection.slot, Connection.keepRan, Connection.responses,
      List.filter_append, Connection.filter_filter_self] at fields ⊢
    rw [fields.1, fields.2.2.1, fields.2.2.2]
    simp [Slot.unreadOf, Slot.empty, Sent.answers, sent]
  have within : ∀ other ∈ after.commands, other.origin = index + 1 →
      (other ∈ server.commands ∧ command.ticket ≠ other.ticket)
        ∨ other = { command with
          stage := .published (some (server.last + 1, outcome)) } := by
    intro other listed other_origin
    rw [commands] at listed
    rcases mem_setStage listed with
      ⟨elsewhere, different, present⟩ | ⟨earlier, present, rfl⟩
    · exact .inl ⟨List.mem_of_getElem? present,
        sound.other_ticket there present different origin other_origin⟩
    · cases there.symm.trans present
      exact .inr rfl
  constructor
  · show ((connection.unread ++ [sent]).map Sent.sequence).Pairwise _
    rw [List.map_append, List.pairwise_append]
    refine ⟨follows.ordered, List.pairwise_singleton _ _, ?_⟩
    intro earlier early_member now now_member
    rcases List.mem_map.mp early_member with ⟨other, listed, rfl⟩
    rw [List.map_singleton, List.mem_singleton] at now_member
    rw [now_member]
    exact Nat.lt_succ_of_le (follows.sent other listed)
  · intro other listed
    rw [last]
    rcases List.mem_append.mp listed with earlier | now
    · exact (follows.sent other earlier).trans (Nat.le_succ _)
    · rw [List.mem_singleton.mp now]
  · intro through loop
    rcases follows.behind through loop with ⟨at_most, past⟩
    refine ⟨by omega, ?_⟩
    intro other listed
    rcases List.mem_append.mp listed with earlier | now
    · exact past other earlier
    · rw [List.mem_singleton.mp now]
      exact Nat.lt_succ_of_le at_most
  · rw [closer, closingAt]
    intro other listed shape
    rcases List.mem_append.mp listed with earlier | now
    · exact follows.closing other earlier shape
    · rw [List.mem_singleton.mp now] at shape
      cases shape
  · intro entry listed
    rcases List.mem_append.mp listed with earlier | now
    · exact follows.keyed entry (List.mem_of_mem_filter earlier)
    · rw [List.mem_singleton.mp now]
      exact ⟨outcome, rfl⟩
  · intro ticket late
    have different : command.ticket ≠ ticket := by
      have at_most := follows.tickets command member origin
      have past : connection.tickets < ticket := late
      omega
    rw [slots ticket different]
    exact follows.fresh ticket late
  · intro other listed other_origin
    rcases within other listed other_origin with ⟨earlier, -⟩ | rfl
    · exact follows.tickets other earlier other_origin
    · exact follows.tickets command member origin
  · intro other listed other_origin inStart
    rcases within other listed other_origin with ⟨earlier, -⟩ | rfl
    · exact follows.starting other earlier other_origin inStart
    · cases inStart
  · intro other listed other_origin
    rcases within other listed other_origin with ⟨earlier, different⟩ | rfl
    · exact stands_of_slot (follows.stands other earlier other_origin)
        (slots other.ticket different) (fun _ at_loop => .inl at_loop) id
    · exact .inr (.inl to_read)
  · intro present
    rcases follows.closed present with ⟨done, -⟩
    -- A command still holds its place, so nothing was closed yet.
    have none_running := sound.idle (.inr done)
    rw [sound.running, List.countP_eq_zero] at none_running
    exact absurd (by simp [Command.holdsPlace, finished])
      (none_running command member)

/-- A connection refuses a command that got no permit, and serves on. -/
theorem Follows.refuses (follows : server.Follows index connection)
    (sound : server.Sound limit) {position : Nat}
    {command : Command Id Outcome}
    (there : server.commands[position]? = some command)
    (origin : command.origin = index + 1)
    (refused : command.stage = .refused)
    (last : after.last = server.last)
    (closer : after.closer = server.closer)
    (closingAt : after.closingAt = server.closingAt)
    (commands : after.commands
      = (server.setStage position (.ended none)).commands) :
    after.Follows index ((connection.refuse command.id).goTo .serving) := by
  have member := List.mem_of_getElem? there
  have at_start := follows.starting command member origin
    (by simp [Command.inStart, refused])
  have open_frames := follows.not_closed (by simp [at_start])
    (by simp [at_start])
  have slots : ∀ ticket,
      ((connection.refuse command.id).goTo .serving).slot (index + 1) ticket
        = connection.slot (index + 1) ticket := by
    intro ticket
    show (connection.refuse command.id).slot (index + 1) ticket = _
    exact slot_refuse command.id (index + 1) ticket
  have stood := follows.stands command member origin
  have none_behind : ∀ through, connection.loop ≠ .behind through := by
    simp [at_start]
  have within : ∀ later ∈ after.commands, later.origin = index + 1 →
      (later ∈ server.commands ∧ command.ticket ≠ later.ticket)
        ∨ later = { command with stage := .ended none } := by
    intro later listed later_origin
    rw [commands] at listed
    rcases mem_setStage listed with
      ⟨other, different, present⟩ | ⟨earlier, present, rfl⟩
    · exact .inl ⟨List.mem_of_getElem? present,
        sound.other_ticket there present different origin later_origin⟩
    · cases there.symm.trans present
      exact .inr rfl
  constructor
  · exact follows.ordered
  · rw [last]
    exact follows.sent
  · intro through loop
    rcases loop with behind | caughtUp
    · cases behind
    · cases caughtUp
  · rw [closer, closingAt]
    exact follows.closing
  · exact follows.keyed
  · intro ticket late
    rw [slots]
    exact follows.fresh ticket late
  · intro later listed later_origin
    rcases within later listed later_origin with ⟨earlier, -⟩ | rfl
    · exact follows.tickets later earlier later_origin
    · exact follows.tickets command member origin
  · intro later listed later_origin inStart
    rcases within later listed later_origin with ⟨earlier, different⟩ | rfl
    · have also_start := follows.starting later earlier later_origin inStart
      rw [at_start] at also_start
      exact absurd (Loop.starting.inj also_start) different
    · cases inStart
  · intro later listed later_origin
    rcases within later listed later_origin with ⟨earlier, different⟩ | rfl
    · refine stands_of_slot (follows.stands later earlier later_origin)
        (slots later.ticket)
        (fun through at_loop => absurd at_loop (none_behind through)) ?_
      rw [at_start]
      rintro (closed | ended)
      · cases closed
      · cases ended
    · have empty : connection.slot (index + 1) command.ticket = .empty := by
        simpa [Connection.Stands, Command.sent, Command.awaited, refused]
          using stood
      exact (slots command.ticket).trans empty
  · exact fun present =>
      absurd present (close_not_mem_refuse open_frames)

end ProjectionServer

end Clerkenwell.Axum
