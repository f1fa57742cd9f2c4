import Clerkenwell.Axum.Answers

/-!
# Commands answered once, and a shutdown that waits for them

In every run each connection answers each of its commands once, under the id it
was requested with and before it closes, and the closing publication follows
every command's own.
-/

namespace Clerkenwell.Axum

open Clerkenwell.Foundation

variable {Id Outcome : Type}

namespace ProjectionServer

/-! ## Steps -/

section Stepping

variable {server : ProjectionServer Id Outcome} {limit : Nat}
variable {withoutResult : Outcome}

theorem Sound.subscribe (sound : server.Sound limit) :
    (next withoutResult server .subscribe).Sound limit where
  running := sound.running
  serving := by
    show _ = (server.connections ++ [Connection.new]).countP _
    rw [List.countP_append]
    exact sound.serving
  permits := sound.permits
  stopped := sound.stopped
  idle := sound.idle
  closingAt := sound.closingAt
  earlier := sound.earlier
  origins := by
    intro command member
    show command.origin ≤ (server.connections ++ [Connection.new]).length
    rw [List.length_append]
    exact (sound.origins command member).trans (Nat.le_add_right _ _)
  distinct := sound.distinct
  follows := by
    intro index connection present
    change (server.connections ++ [Connection.new])[index]? = _ at present
    by_cases earlier : index < server.connections.length
    · rw [List.getElem?_append_left earlier] at present
      exact (sound.follows index connection present).carried le_rfl
        (fun done => ⟨done, rfl⟩) fun _ member _ => member
    · -- The connection just accepted: no command is of it yet.
      rw [List.getElem?_append_right (by omega)] at present
      have new : connection = Connection.new := by
        rcases List.getElem?_eq_some_iff.mp present with ⟨within, same⟩
        rw [List.getElem_singleton] at same
        exact same.symm
      subst new
      have none_own : ∀ command ∈ server.commands,
          command.origin ≠ index + 1 := by
        intro command member origin
        have at_most := sound.origins command member
        omega
      constructor
      · exact .nil
      · exact fun _ member => nomatch member
      · intro through loop
        rcases loop with behind | caughtUp
        · cases behind
        · cases caughtUp
      · exact fun _ member => nomatch member
      · exact fun _ member => nomatch member
      · exact fun _ _ => rfl
      · exact fun command member origin =>
          absurd origin (none_own command member)
      · exact fun command member origin =>
          absurd origin (none_own command member)
      · exact fun command member origin =>
          absurd origin (none_own command member)
      · exact fun present => nomatch present

theorem Sound.count (sound : server.Sound limit) (index : Nat) :
    (next withoutResult server (.count index)).Sound limit := by
  unfold next atConnection
  dsimp only
  split
  · rename_i connection there
    split
    · rename_i subscribed
      have looped : ∀ loop, (∀ through, loop ≠ .behind through
          ∧ loop ≠ .caughtUp through) →
            server.Follows index (connection.goTo loop) := by
        intro loop elsewhere
        apply (sound.follows index connection there).looped
        · intro through at_loop
          rcases at_loop with behind | caughtUp
          · exact absurd behind (elsewhere through).1
          · exact absurd caughtUp (elsewhere through).2
        · simp [subscribed]
        · simp [subscribed]
        · simp [subscribed]
      split
      · refine sound.moved there ?_ (looped .ended (by simp))
        simp [Connection.counted, Connection.goTo, subscribed]
      · refine sound.moved there ?_ (looped .serving (by simp))
        simp [Connection.counted, Connection.goTo, subscribed]
    · exact sound
  · exact sound

/-- A connection goes on with the same commands and publications. -/
theorem Follows.refusedStopping {index : Nat}
    {connection : Connection Id Outcome}
    (follows : server.Follows index connection)
    (serving : connection.loop = .serving) (id : Option Id) :
    server.Follows index
      { connection.refuse id with tickets := connection.tickets + 1 } := by
  have open_frames := follows.not_closed (by simp [serving])
    (by simp [serving])
  have slots : ∀ ticket,
      ({ connection.refuse id with tickets := connection.tickets + 1 } :
          Connection Id Outcome).slot (index + 1) ticket
        = connection.slot (index + 1) ticket := by
    intro ticket
    show (connection.refuse id).slot (index + 1) ticket = _
    exact slot_refuse id (index + 1) ticket
  constructor
  · exact follows.ordered
  · exact follows.sent
  · exact follows.behind
  · exact follows.closing
  · exact follows.keyed
  · intro ticket late
    rw [slots]
    exact follows.fresh ticket (Nat.lt_of_succ_lt late)
  · exact fun command member origin =>
      (follows.tickets command member origin).trans (Nat.le_succ _)
  · exact follows.starting
  · exact fun command member origin =>
      stands_of_slot (follows.stands command member origin) (slots _)
        (fun _ at_loop => .inl at_loop) (fun closed => closed)
  · exact fun present => absurd present (close_not_mem_refuse open_frames)

/-- A command takes a place while the server is not stopping. -/
theorem Sound.placed (sound : server.Sound limit)
    (open_server : server.lifecycle.stopping = false)
    {command : Command Id Outcome} (starting : command.stage = .starting)
    (origin : command.origin ≤ server.connections.length)
    (fresh : ∀ other ∈ server.commands, other.origin ≠ noConnection →
      other.origin = command.origin → other.ticket ≠ command.ticket)
    {connections : List (Connection Id Outcome)}
    (length : connections.length = server.connections.length)
    (counted : connections.countP Connection.counted
      = server.connections.countP Connection.counted)
    (follows : ∀ index connection, connections[index]? = some connection →
      ({ server.takePlace command with connections := connections }).Follows
        index connection) :
    Sound { server.takePlace command with connections := connections }
      limit := by
  have not_begun : server.closer = .none := by
    by_contra begun
    rw [sound.stopped begun] at open_server
    cases open_server
  constructor
  · show server.lifecycle.running + 1
      = (server.commands ++ [command]).countP Command.holdsPlace
    rw [List.countP_append, ← sound.running]
    simp [Command.holdsPlace, starting]
  · exact sound.serving.trans counted.symm
  · show server.permits
      + (server.commands ++ [command]).countP Command.holdsPermit = limit
    rw [List.countP_append, ← sound.permits]
    simp [Command.holdsPermit, starting]
  · exact sound.stopped
  · intro closing
    change server.closer = .ready ∨ server.closer = .done at closing
    rw [not_begun] at closing
    rcases closing with ready | done
    · cases ready
    · cases done
  · exact sound.closingAt
  · intro other member sequence outcome sent
    rcases List.mem_append.mp member with earlier | new
    · exact sound.earlier other earlier sequence outcome sent
    · rw [List.mem_singleton.mp new, Command.sent, starting] at sent
      cases sent
  · intro other member
    show other.origin ≤ connections.length
    rw [length]
    rcases List.mem_append.mp member with earlier | new
    · exact sound.origins other earlier
    · rw [List.mem_singleton.mp new]
      exact origin
  · show ((server.commands ++ [command]).map Command.name).Pairwise _
    rw [List.map_append, List.pairwise_append]
    refine ⟨sound.distinct, List.pairwise_singleton _ _, ?_⟩
    intro left left_member right right_member
    rcases List.mem_map.mp left_member with ⟨other, listed, rfl⟩
    rw [List.map_singleton, List.mem_singleton] at right_member
    subst right_member
    exact fresh other listed
  · exact follows

/-- The connection of a command that one requested. -/
theorem Sound.connection_of (sound : server.Sound limit) {position : Nat}
    {command : Command Id Outcome}
    (there : server.commands[position]? = some command)
    (connected : command.origin ≠ noConnection) :
    ∃ index connection, command.origin = index + 1
      ∧ server.connections[index]? = some connection := by
  have within := sound.origins command (List.mem_of_getElem? there)
  rcases Nat.exists_eq_succ_of_ne_zero connected with ⟨index, origin⟩
  rw [origin] at within
  exact ⟨index, server.connections[index], origin,
    List.getElem?_eq_getElem within⟩

/-- A command's further stage changes no other connection's commands. -/
theorem Follows.elsewhere {after : ProjectionServer Id Outcome} {index : Nat}
    {connection : Connection Id Outcome}
    (follows : server.Follows index connection) {position : Nat}
    {command : Command Id Outcome} {stage : Stage Outcome}
    (there : server.commands[position]? = some command)
    (other : command.origin ≠ index + 1)
    (last : server.last ≤ after.last)
    (closer : after.closer = server.closer)
    (closingAt : after.closingAt = server.closingAt)
    (commands : after.commands
      = (server.setStage position stage).commands) :
    after.Follows index connection := by
  apply follows.carried last (fun done => ⟨closer.trans done, closingAt⟩)
  intro later member origin
  rw [commands] at member
  rcases mem_setStage member with
    ⟨elsewhere, -, found⟩ | ⟨earlier, found, rfl⟩
  · exact List.mem_of_getElem? found
  · cases there.symm.trans found
    exact absurd origin other

/-- A serving connection goes into `start` with its next ticket. -/
theorem Follows.starts {after : ProjectionServer Id Outcome} {index : Nat}
    {connection : Connection Id Outcome}
    (follows : server.Follows index connection)
    (serving : connection.loop = .serving) (id : Option Id)
    (last : after.last = server.last)
    (closer : after.closer = server.closer)
    (closingAt : after.closingAt = server.closingAt)
    (commands : after.commands = server.commands
      ++ [{ origin := index + 1, ticket := connection.tickets + 1, id := id,
            stage := .starting }]) :
    after.Follows index
      { connection with
        tickets := connection.tickets + 1
        loop := .starting (connection.tickets + 1) } := by
  have either : ∀ command ∈ after.commands, command ∈ server.commands
      ∨ command = { origin := index + 1, ticket := connection.tickets + 1,
                    id := id, stage := .starting } := by
    intro command member
    rw [commands] at member
    rcases List.mem_append.mp member with earlier | new
    · exact .inl earlier
    · exact .inr (List.mem_singleton.mp new)
  constructor
  · exact follows.ordered
  · rw [last]
    exact follows.sent
  · intro through loop
    rcases loop with behind | caughtUp
    · cases behind
    · cases caughtUp
  · rw [closer, closingAt]
    exact follows.closing
  · exact follows.keyed
  · exact fun ticket late =>
      follows.fresh ticket (Nat.lt_of_succ_lt late)
  · intro command member origin
    rcases either command member with earlier | rfl
    · exact (follows.tickets command earlier origin).trans (Nat.le_succ _)
    · exact le_rfl
  · intro command member origin inStart
    rcases either command member with earlier | rfl
    · have at_start := follows.starting command earlier origin inStart
      rw [serving] at at_start
      cases at_start
    · rfl
  · intro command member origin
    rcases either command member with earlier | rfl
    · refine stands_of_slot (follows.stands command earlier origin) rfl ?_ ?_
      · simp [serving]
      · simp [serving]
    · exact follows.fresh (connection.tickets + 1) (Nat.lt_succ_self _)
  · exact fun present => absurd present
      (follows.not_closed (by simp [serving]) (by simp [serving]))

theorem Sound.command (sound : server.Sound limit) :
    (next withoutResult server .command).Sound limit := by
  unfold next
  dsimp only
  split
  · exact sound
  · rename_i open_server
    refine sound.placed (Bool.eq_false_iff.mpr open_server) rfl
      (Nat.zero_le _) ?_ rfl rfl ?_
    · intro other member connected same
      exact absurd same connected
    · intro index connection there
      refine (sound.follows index connection there).carried le_rfl
        (fun done => ⟨done, rfl⟩) ?_
      intro other member origin
      rcases List.mem_append.mp member with earlier | new
      · exact earlier
      · rw [List.mem_singleton.mp new] at origin
        exact absurd origin (Nat.succ_ne_zero index).symm

theorem Sound.request (sound : server.Sound limit) (index : Nat)
    (id : Option Id) :
    (next withoutResult server (.request index id)).Sound limit := by
  unfold next atConnection
  dsimp only
  split
  · rename_i connection there
    have follows := sound.follows index connection there
    split
    · rename_i serving
      split
      · refine sound.moved there ?_ (follows.refusedStopping serving id)
        simp [Connection.counted, Connection.refuse, serving]
      · rename_i open_server
        have within := (List.getElem?_eq_some_iff.mp there).1
        have counts := @countP_modify _ _ _ _
          (fun earlier : Connection Id Outcome =>
            { earlier with
              tickets := connection.tickets + 1
              loop := .starting (connection.tickets + 1) })
          there Connection.counted
        refine sound.placed (Bool.eq_false_iff.mpr open_server) rfl
          (by exact within) ?_ (List.length_modify _ _ _) ?_ ?_
        · intro other member _ origin same
          have at_most := follows.tickets other member origin
          dsimp only at same
          omega
        · simp only [Connection.counted, serving, if_true] at counts
          exact Nat.add_right_cancel counts
        · intro other found present
          rcases getElem?_modify_cases present with
            ⟨rfl, earlier, earlier_there, rfl⟩ | ⟨different, other_there⟩
          · cases there.symm.trans earlier_there
            exact follows.starts serving id rfl rfl rfl rfl
          · refine (sound.follows other found other_there).carried le_rfl
              (fun done => ⟨done, rfl⟩) ?_
            intro command member origin
            rcases List.mem_append.mp member with before | new
            · exact before
            · rw [List.mem_singleton.mp new] at origin
              dsimp only at origin
              omega
    · exact sound
  · exact sound

theorem Sound.acquire (sound : server.Sound limit) (index : Nat) :
    (next withoutResult server (.acquire index)).Sound limit := by
  unfold next atCommand
  dsimp only
  split
  · rename_i command there
    split
    · rename_i starting
      split
      · rename_i free
        have held_place : command.holdsPlace = true := by
          simp [Command.holdsPlace, starting]
        have no_permit : command.holdsPermit = false := by
          simp [Command.holdsPermit, starting]
        split
        · rename_i own
          refine sound.staged there rfl ?_ le_rfl ?_ rfl sound.serving rfl rfl
            le_rfl rfl (fun _ _ sent => by cases sent) ?_
          · rw [held_place]
            rfl
          · rw [no_permit]
            show server.permits - 1 + 1 = server.permits + 0
            omega
          · intro other connection present
            refine (sound.follows other connection present).carried le_rfl
              (fun done => ⟨done, rfl⟩) ?_
            intro later member origin
            rcases mem_setStage member with
              ⟨elsewhere, -, found⟩ | ⟨earlier, found, rfl⟩
            · exact List.mem_of_getElem? found
            · cases there.symm.trans found
              rw [show command.origin = noConnection from own] at origin
              exact absurd origin (Nat.succ_ne_zero other).symm
        · rename_i connected
          rcases sound.connection_of there connected with
            ⟨at_index, connection, origin, present⟩
          have counts := @countP_modify _ _ _ _
            (Connection.waitFor command.ticket command.id) present
            Connection.counted
          have at_start := (sound.follows at_index connection present).starting
            command (List.mem_of_getElem? there) origin
            (by simp [Command.inStart, starting])
          simp only [Connection.counted, Connection.waitFor, at_start,
            if_true] at counts
          rw [show command.origin - 1 = at_index by omega]
          refine sound.staged there rfl ?_ le_rfl ?_ rfl ?_ rfl rfl
            le_rfl (List.length_modify _ _ _) (fun _ _ sent => by cases sent) ?_
          · rw [held_place]
            rfl
          · rw [no_permit]
            show server.permits - 1 + 1 = server.permits + 0
            omega
          · exact sound.serving.trans (Nat.add_right_cancel counts).symm
          · intro other found found_there
            rcases getElem?_modify_cases found_there with
              ⟨rfl, earlier, earlier_there, rfl⟩ | ⟨different, other_there⟩
            · cases present.symm.trans earlier_there
              exact (sound.follows other connection present).waits sound there
                origin starting rfl rfl rfl rfl
            · exact (sound.follows other found other_there).elsewhere there
                (by omega) le_rfl rfl rfl rfl
      · refine sound.quiet there ⟨?_, ?_, ?_⟩ ?_ ?_ le_rfl
        · simp [Command.sent, starting]
        · simp [Command.awaited, starting]
        · simp [Command.inStart, starting]
        · simp [Command.holdsPlace, starting]
        · simp [Command.holdsPermit, starting]
    · exact sound
  · exact sound

theorem Sound.finish (sound : server.Sound limit) (index : Nat)
    (returned : Option Outcome) :
    (next withoutResult server (.finish index returned)).Sound limit := by
  unfold next atCommand
  dsimp only
  split
  · rename_i command there
    split
    · rename_i running
      refine sound.quiet there ⟨?_, ?_, ?_⟩ ?_ ?_ le_rfl
      · simp [Command.sent, running]
      · simp [Command.awaited, running]
      · simp [Command.inStart]
      · simp [Command.holdsPlace, running]
      · simp [Command.holdsPermit, running]
    · exact sound
  · exact sound

/-- A publication of another connection's command answers none of its tickets. -/
theorem not_answers_of_ne {origin ticket sequence at_origin : Nat}
    {outcome : Outcome} (different : origin ≠ at_origin) (other : Nat) :
    ({ sequence := sequence, publication := .ran origin ticket outcome } :
      Sent Outcome).answers at_origin other = false := by
  simp [Sent.answers, different]

theorem Sound.publish (sound : server.Sound limit) (index : Nat)
    (panics : Bool) :
    (next withoutResult server (.publish index panics)).Sound limit := by
  unfold next atCommand
  dsimp only
  split
  · rename_i command there
    split
    · rename_i outcome finished
      have held_place : command.holdsPlace = true := by
        simp [Command.holdsPlace, finished]
      have no_permit : command.holdsPermit = false := by
        simp [Command.holdsPermit, finished]
      have not_done : server.closer ≠ .done := by
        intro done
        have none_running := sound.idle (.inr done)
        rw [sound.running, List.countP_eq_zero] at none_running
        exact none_running command (List.mem_of_getElem? there) held_place
      have numbered : ∀ sequence result,
          ({ command with
              stage := Stage.published (some (server.last + 1, outcome)) } :
            Command Id Outcome).sent = some (sequence, result) →
            sequence ≤ server.last + 1
              ∧ (server.closer = .done → sequence < server.closingAt) := by
        intro sequence result sent
        cases sent
        exact ⟨le_rfl, fun done => absurd done not_done⟩
      unfold publishCommand
      dsimp only
      split
      · rename_i own
        have not_connected : ∀ other, command.origin ≠ other + 1 := by
          intro other origin
          rw [own] at origin
          exact absurd origin (Nat.succ_ne_zero other).symm
        split
        · refine sound.staged there rfl ?_ le_rfl ?_ rfl sound.serving rfl rfl
            (Nat.le_succ _) rfl (fun _ _ sent => by cases sent) ?_
          · rw [held_place]
            rfl
          · rw [no_permit]
            rfl
          · intro other connection present
            exact (sound.follows other connection present).elsewhere there
              (not_connected other) (Nat.le_succ _) rfl rfl rfl
        · refine sound.staged there rfl ?_ le_rfl ?_ rfl
            (sound.serving.trans (countP_receive _ _).symm) rfl rfl
            (Nat.le_succ _) (List.length_map _) numbered ?_
          · rw [held_place]
            rfl
          · rw [no_permit]
            rfl
          · intro other found present
            change (server.connections.map _)[other]? = some found at present
            rw [List.getElem?_map] at present
            rcases Option.map_eq_some_iff.mp present with
              ⟨connection, earlier, rfl⟩
            have staged : (server.setStage index
                (.published (some (server.last + 1, outcome)))).Follows other
                  connection :=
              (sound.follows other connection earlier).elsewhere there
                (not_connected other) le_rfl rfl rfl rfl
            apply staged.received rfl rfl
            · exact fun done => ⟨done, rfl⟩
            · exact fun _ member _ => member
            · intro closing
              cases closing
            · exact not_answers_of_ne (not_connected other)
      · rename_i connected
        rcases sound.connection_of there connected with
          ⟨at_index, connection, origin, present⟩
        have counts := @countP_modify _ _ _ _
          (Connection.keepRan command.ticket
            { sequence := server.last + 1
              publication := .ran command.origin command.ticket outcome })
          present Connection.counted
        have counted_same : (Connection.keepRan command.ticket
            { sequence := server.last + 1
              publication := .ran command.origin command.ticket outcome }
            connection).counted = connection.counted := rfl
        rw [counted_same] at counts
        rw [show command.origin - 1 = at_index by omega]
        refine sound.staged there rfl ?_ le_rfl ?_ rfl ?_ rfl rfl
          (Nat.le_succ _) ?_ numbered ?_
        · rw [held_place]
          rfl
        · rw [no_permit]
          rfl
        · refine sound.serving.trans ?_
          exact ((countP_receive _ _).trans (Nat.add_right_cancel counts)).symm
        · show ((server.connections.modify at_index _).map _).length = _
          rw [List.length_map, List.length_modify]
        · intro other found found_there
          change ((server.connections.modify at_index _).map _)[other]?
            = some found at found_there
          rw [List.getElem?_map] at found_there
          rcases Option.map_eq_some_iff.mp found_there with
            ⟨handed, handed_there, rfl⟩
          rcases getElem?_modify_cases handed_there with
            ⟨rfl, earlier, earlier_there, rfl⟩ | ⟨different, other_there⟩
          · cases present.symm.trans earlier_there
            exact (sound.follows other connection present).handed sound there
              origin finished rfl rfl rfl rfl
          · have elsewhere : command.origin ≠ other + 1 := by omega
            have staged : (server.setStage index
                (.published (some (server.last + 1, outcome)))).Follows other
                  handed :=
              (sound.follows other handed other_there).elsewhere there
                elsewhere le_rfl rfl rfl rfl
            apply staged.received rfl rfl
            · exact fun done => ⟨done, rfl⟩
            · exact fun _ member _ => member
            · intro closing
              cases closing
            · exact not_answers_of_ne elsewhere
    · exact sound
  · exact sound

theorem Sound.giveBack (sound : server.Sound limit) (index : Nat) :
    (next withoutResult server (.giveBack index)).Sound limit := by
  unfold next atCommand
  dsimp only
  split
  · rename_i command there
    have positive : command.holdsPlace = true →
        0 < server.lifecycle.running := by
      intro held
      rw [sound.running, List.countP_pos_iff]
      exact ⟨command, List.mem_of_getElem? there, held⟩
    split
    · rename_i refused
      have held_place : command.holdsPlace = true := by
        simp [Command.holdsPlace, refused]
      have no_permit : command.holdsPermit = false := by
        simp [Command.holdsPermit, refused]
      have running := positive held_place
      split
      · rename_i own
        refine sound.staged there rfl ?_ (Nat.sub_le _ _) ?_ rfl sound.serving
          rfl rfl le_rfl rfl (fun _ _ sent => by cases sent) ?_
        · rw [held_place]
          show server.lifecycle.running - 1 + 1 = server.lifecycle.running + 0
          omega
        · rw [no_permit]
          rfl
        · intro other connection present
          refine (sound.follows other connection present).elsewhere there ?_
            le_rfl rfl rfl rfl
          intro origin
          rw [own] at origin
          exact absurd origin (Nat.succ_ne_zero other).symm
      · rename_i connected
        rcases sound.connection_of there connected with
          ⟨at_index, connection, origin, present⟩
        have counts := @countP_modify _ _ _ _
          (fun earlier : Connection Id Outcome =>
            (earlier.refuse command.id).goTo .serving) present
          Connection.counted
        have at_start := (sound.follows at_index connection present).starting
          command (List.mem_of_getElem? there) origin
          (by simp [Command.inStart, refused])
        simp only [Connection.counted, Connection.goTo, at_start,
          if_true] at counts
        rw [show command.origin - 1 = at_index by omega]
        refine sound.staged there rfl ?_ (Nat.sub_le _ _) ?_ rfl ?_ rfl rfl
          le_rfl (List.length_modify _ _ _) (fun _ _ sent => by cases sent) ?_
        · rw [held_place]
          show server.lifecycle.running - 1 + 1 = server.lifecycle.running + 0
          omega
        · rw [no_permit]
          rfl
        · exact sound.serving.trans (Nat.add_right_cancel counts).symm
        · intro other found found_there
          rcases getElem?_modify_cases found_there with
            ⟨rfl, earlier, earlier_there, rfl⟩ | ⟨different, other_there⟩
          · cases present.symm.trans earlier_there
            exact (sound.follows other connection present).refuses sound there
              origin refused rfl rfl rfl rfl
          · exact (sound.follows other found other_there).elsewhere there
              (by omega) le_rfl rfl rfl rfl
    · rename_i sent published
      have held_place : command.holdsPlace = true := by
        simp [Command.holdsPlace, published]
      have running := positive held_place
      refine sound.quiet there ⟨?_, ?_, ?_⟩ ?_ ?_ (Nat.sub_le _ _)
      · simp [Command.sent, published]
      · simp [Command.awaited, published]
      · simp [Command.inStart]
      · rw [held_place]
        show server.lifecycle.running - 1 + 1 = server.lifecycle.running + 0
        omega
      · simp [Command.holdsPermit, published]
    · exact sound
  · exact sound

theorem Sound.publishOther (sound : server.Sound limit)
    (publication : Publication Outcome) :
    (next withoutResult server (.publishOther publication)).Sound limit := by
  unfold next
  dsimp only
  split
  · exact sound.sent (fun _ _ _ => nofun) nofun
  · exact sound.sent (fun _ _ _ => nofun) nofun
  · exact sound.sent (fun _ _ _ => nofun) nofun
  · exact sound
  · exact sound

theorem Sound.receive (sound : server.Sound limit) (index : Nat) :
    (next withoutResult server (.receive index)).Sound limit := by
  unfold next atConnection
  dsimp only
  split
  · rename_i connection there
    split
    · rename_i sent rest serving unread
      refine sound.moved there ?_
        ((sound.follows index connection there).takes sound serving unread)
      have counted : ({ connection with unread := rest }.take (index + 1)
          sent : Connection Id Outcome).counted = true := by
        unfold Connection.take
        split
        · split
          · simp [Connection.counted, Connection.answerCommand,
              Connection.removeRan, serving]
          · simp [Connection.counted, serving]
        · rfl
        · simp [Connection.counted, serving]
        · simp [Connection.counted, serving]
        · simp [Connection.counted, serving]
      rw [counted]
      simp [Connection.counted, serving]
    · exact sound
  · exact sound

theorem Sound.lag (sound : server.Sound limit) (index : Nat) :
    (next withoutResult server (.lag index)).Sound limit := by
  unfold next atConnection
  dsimp only
  split
  · rename_i connection there
    split
    · rename_i head rest serving unread
      refine sound.moved there ?_
        ((sound.follows index connection there).lagged sound serving)
      simp [Connection.counted, serving]
    · exact sound
  · exact sound

theorem Sound.answerSkipped (sound : server.Sound limit) (index : Nat) :
    (next withoutResult server (.answerSkipped index)).Sound limit := by
  unfold next atConnection
  dsimp only
  split
  · rename_i connection there
    split
    · rename_i through behind
      refine sound.moved there ?_
        ((sound.follows index connection there).answeredSkipped behind)
      simp [Connection.counted, Connection.goTo, behind]
    · exact sound
  · exact sound

theorem Sound.decideClosing (sound : server.Sound limit) (index : Nat) :
    (next withoutResult server (.decideClosing index)).Sound limit := by
  unfold next atConnection
  dsimp only
  split
  · rename_i connection there
    split
    · rename_i through caughtUp
      have counted : (if server.closingAt ≠ 0 ∧ server.closingAt ≤ through then
          connection.close
        else connection.goTo .serving).counted = true := by
        split <;> rfl
      refine sound.moved there ?_
        ((sound.follows index connection there).decides sound caughtUp)
      rw [counted]
      simp [Connection.counted, caughtUp]
    · exact sound
  · exact sound

theorem Sound.disconnect (sound : server.Sound limit) (index : Nat) :
    (next withoutResult server (.disconnect index)).Sound limit := by
  have gone : ∀ connection : Connection Id Outcome,
      server.connections[index]? = some connection →
      (∀ ticket, connection.loop ≠ .starting ticket) →
      connection.counted = true →
      (server.modifyConnection index (·.goTo .closed)).Sound limit := by
    intro connection there not_started counted
    refine sound.moved there ?_
      ((sound.follows index connection there).looped ?_ not_started
        (fun _ _ => .inl rfl) (fun _ => .inl rfl))
    · rw [counted]
      rfl
    · intro through loop
      rcases loop with behind | caughtUp
      · cases behind
      · cases caughtUp
  unfold next atConnection
  dsimp only
  split
  · rename_i connection there
    split
    · rename_i serving
      exact gone connection there (by simp [serving])
        (by simp [Connection.counted, serving])
    · rename_i through behind
      exact gone connection there (by simp [behind])
        (by simp [Connection.counted, behind])
    · rename_i through caughtUp
      exact gone connection there (by simp [caughtUp])
        (by simp [Connection.counted, caughtUp])
    · exact sound
  · exact sound

theorem Sound.leave (sound : server.Sound limit) (index : Nat) :
    (next withoutResult server (.leave index)).Sound limit := by
  unfold next atConnection
  dsimp only
  split
  · rename_i connection there
    split
    · rename_i closed
      have counted : connection.counted = true := by
        simp [Connection.counted, closed]
      have positive : 0 < server.lifecycle.serving := by
        rw [sound.serving, List.countP_pos_iff]
        exact ⟨connection, List.mem_of_getElem? there, counted⟩
      refine sound.moved there ?_
        ((sound.follows index connection there).looped ?_ ?_
          (fun _ _ => .inr rfl) (fun _ => .inr rfl))
      · rw [counted]
        show server.lifecycle.serving - 1 + 1 = server.lifecycle.serving + 0
        omega
      · intro through loop
        rcases loop with behind | caughtUp
        · cases behind
        · cases caughtUp
      · simp [closed]
    · exact sound
  · exact sound

theorem Sound.shutDown (sound : server.Sound limit) :
    (next withoutResult server .shutDown).Sound limit := by
  have not_begun : server.lifecycle.stopping = false →
      server.closer = .none := by
    intro open_server
    by_contra begun
    rw [sound.stopped begun] at open_server
    cases open_server
  have closer_done : (next withoutResult server .shutDown).closer = .done ↔
      server.closer = .done := by
    unfold next
    cases stopping : server.lifecycle.stopping with
    | true => simp [stopping]
    | false => simp [stopping, not_begun stopping]
  have closer_ready : (next withoutResult server .shutDown).closer = .ready ↔
      server.closer = .ready := by
    unfold next
    cases stopping : server.lifecycle.stopping with
    | true => simp [stopping]
    | false => simp [stopping, not_begun stopping]
  constructor
  · exact sound.running
  · exact sound.serving
  · exact sound.permits
  · exact fun _ => rfl
  · rw [closer_done, closer_ready]
    exact sound.idle
  · rw [Ne, closer_done]
    exact sound.closingAt
  · rw [closer_done]
    exact sound.earlier
  · exact sound.origins
  · exact sound.distinct
  · intro index connection there
    exact (sound.follows index connection there).carried le_rfl
      (fun done => ⟨closer_done.mpr done, rfl⟩) fun _ member _ => member

theorem Sound.seeNoneRunning (sound : server.Sound limit) :
    (next withoutResult server .seeNoneRunning).Sound limit := by
  unfold next
  dsimp only
  split
  · rename_i seen
    have not_done : server.closer ≠ .done := by simp [seen.1]
    constructor
    · exact sound.running
    · exact sound.serving
    · exact sound.permits
    · exact fun _ => sound.stopped (by simp [seen.1])
    · exact fun _ => seen.2
    · rcases sound.closingAt with ⟨-, zero⟩ | ⟨done, -⟩
      · exact .inl ⟨nofun, zero⟩
      · exact absurd done not_done
    · intro command member sequence outcome sent
      exact ⟨(sound.earlier command member sequence outcome sent).1, nofun⟩
    · exact sound.origins
    · exact sound.distinct
    · intro index connection there
      exact (sound.follows index connection there).carried le_rfl
        (fun done => absurd done not_done) fun _ member _ => member
  · exact sound

theorem Sound.sendClosing (sound : server.Sound limit) :
    (next withoutResult server .sendClosing).Sound limit := by
  unfold next
  dsimp only
  split
  · rename_i ready
    have not_done : server.closer ≠ .done := by simp [ready]
    constructor
    · exact sound.running
    · exact sound.serving.trans (countP_receive _ _).symm
    · exact sound.permits
    · exact fun _ => sound.stopped (by simp [ready])
    · exact fun _ => sound.idle (.inl ready)
    · exact .inr ⟨rfl, Nat.succ_pos _, le_rfl⟩
    · intro command member sequence outcome sent
      have within := (sound.earlier command member sequence outcome sent).1
      exact ⟨within.trans (Nat.le_succ _), fun _ => Nat.lt_succ_of_le within⟩
    · intro command member
      show command.origin ≤ (server.connections.map _).length
      rw [List.length_map]
      exact sound.origins command member
    · exact sound.distinct
    · intro index found there
      change (server.connections.map _)[index]? = some found at there
      rw [List.getElem?_map] at there
      rcases Option.map_eq_some_iff.mp there with ⟨connection, earlier, rfl⟩
      apply (sound.follows index connection earlier).received rfl rfl
      · exact fun done => absurd done not_done
      · exact fun _ member _ => member
      · exact fun _ => ⟨rfl, rfl⟩
      · exact fun _ => rfl
  · exact sound

/-! ## Runs -/

theorem Sound.new (limit : Nat) :
    (ProjectionServer.new limit : ProjectionServer Id Outcome).Sound
      limit where
  running := rfl
  serving := rfl
  permits := rfl
  stopped := fun begun => absurd rfl begun
  idle := nofun
  closingAt := .inl ⟨nofun, rfl⟩
  earlier := nofun
  origins := nofun
  distinct := .nil
  follows := nofun

/-- Every step keeps every command waited for or answered. -/
theorem Sound.next (sound : server.Sound limit)
    (step : ServerStep Id Outcome) :
    (next withoutResult server step).Sound limit := by
  cases step with
  | subscribe => exact sound.subscribe
  | count index => exact sound.count index
  | request index id => exact sound.request index id
  | command => exact sound.command
  | acquire index => exact sound.acquire index
  | finish index returned => exact sound.finish index returned
  | publish index panics => exact sound.publish index panics
  | giveBack index => exact sound.giveBack index
  | publishOther publication => exact sound.publishOther publication
  | receive index => exact sound.receive index
  | lag index => exact sound.lag index
  | answerSkipped index => exact sound.answerSkipped index
  | decideClosing index => exact sound.decideClosing index
  | disconnect index => exact sound.disconnect index
  | leave index => exact sound.leave index
  | shutDown => exact sound.shutDown
  | seeNoneRunning => exact sound.seeNoneRunning
  | sendClosing => exact sound.sendClosing

end Stepping

/-! ## What a run keeps -/

section Keeping

variable (server : ProjectionServer Id Outcome)

/-- The response a command is answered with, when it has an id. -/
def expected (command : Command Id Outcome) (outcome : Outcome) :
    List (Id × Outcome) :=
  (command.id.map fun id => (id, outcome)).toList

/--
Every connection answers each of its commands at most once, with its outcome and
under its id; once it has read every publication it answered each that was
published, and before it closes each that was accepted.
-/
structure AnswersOnce : Prop where
  once : ∀ index connection,
    server.connections[index]? = some connection →
      ∀ command ∈ server.commands, command.origin = index + 1 →
        connection.responses command.ticket = []
          ∨ ∃ sequence outcome, command.sent = some (sequence, outcome)
            ∧ connection.responses command.ticket = expected command outcome
  caughtUp : ∀ index connection,
    server.connections[index]? = some connection →
      connection.loop = .serving → connection.unread = [] →
        ∀ command ∈ server.commands, command.origin = index + 1 →
          ∀ sequence outcome, command.sent = some (sequence, outcome) →
            connection.responses command.ticket = expected command outcome
  closed : ∀ index connection,
    server.connections[index]? = some connection →
      .close ∈ connection.frames →
        (∃ earlier, connection.frames = earlier ++ [.close]
          ∧ .close ∉ earlier)
        ∧ ∀ command ∈ server.commands, command.origin = index + 1 →
          command.accepted = true →
            ∃ sequence outcome, command.sent = some (sequence, outcome)
              ∧ connection.responses command.ticket = expected command outcome

/-- The closing publication comes after every command that took a place. -/
def ClosesLast : Prop :=
  server.closingAt ≠ 0 →
    ∀ command ∈ server.commands, command.holdsPlace = false
      ∧ ∀ sequence outcome, command.sent = some (sequence, outcome) →
          sequence < server.closingAt

/--
The counts are the places held and the connections served, so no place is given
back that was not taken, and every permit is free or held by a command that runs.
-/
structure CountsPlaces (limit : Nat) : Prop where
  running : server.lifecycle.running
    = server.commands.countP Command.holdsPlace
  unpublished : server.commands.countP Command.awaited
    ≤ server.lifecycle.running
  placed : ∀ command ∈ server.commands, command.holdsPlace = true →
    0 < server.lifecycle.running
  serving : server.lifecycle.serving
    = server.connections.countP Connection.counted
  counted : ∀ connection ∈ server.connections, connection.counted = true →
    0 < server.lifecycle.serving
  permits : server.permits + server.commands.countP Command.holdsPermit = limit

variable {server} {limit : Nat}

theorem responses_of_slot {connection : Connection Id Outcome}
    {origin : Nat} {command : Command Id Outcome} {outcome : Outcome}
    (answered : connection.slot origin command.ticket
      = .answeredWith command.id outcome) :
    connection.responses command.ticket = expected command outcome :=
  congrArg Slot.responses answered

theorem Sound.answersOnce (sound : server.Sound limit) :
    server.AnswersOnce := by
  constructor
  · intro index connection there command member origin
    have stands := (sound.follows index connection there).stands command member
      origin
    unfold Connection.Stands at stands
    cases made : command.sent with
    | none =>
        left
        rw [made] at stands
        have responses := congrArg Slot.responses stands
        refine responses.trans ?_
        split <;> rfl
    | some published =>
        rcases published with ⟨sequence, outcome⟩
        rw [made] at stands
        rcases stands with answered | unread | ⟨skipped, -⟩
        · exact .inr ⟨sequence, outcome, rfl, responses_of_slot answered⟩
        · exact .inl (congrArg Slot.responses unread)
        · exact .inl (congrArg Slot.responses skipped)
  · intro index connection there serving unread command member origin sequence
      outcome made
    rcases (sound.follows index connection there).answered_or_unread
        (by simp [serving]) (by simp [serving]) member origin made with
      answered | to_read
    · exact responses_of_slot answered
    · have listed := mem_unread_of_slot to_read
      rw [unread] at listed
      cases listed
  · intro index connection there present
    rcases (sound.follows index connection there).closed present with
      ⟨done, -, frames, answered⟩
    refine ⟨frames, ?_⟩
    intro command member origin accepted
    have none_running := sound.idle (.inr done)
    rw [sound.running, List.countP_eq_zero] at none_running
    have no_place := none_running command member
    cases stage : command.stage with
    | ended sent =>
        cases sent with
        | none => simp [Command.accepted, stage] at accepted
        | some published =>
            rcases published with ⟨sequence, outcome⟩
            have made : command.sent = some (sequence, outcome) := by
              simp [Command.sent, stage]
            exact ⟨sequence, outcome, made, responses_of_slot
              (answered command member origin sequence outcome made)⟩
    | starting => simp [Command.holdsPlace, stage] at no_place
    | refused => simp [Command.holdsPlace, stage] at no_place
    | running => simp [Command.holdsPlace, stage] at no_place
    | finished outcome => simp [Command.holdsPlace, stage] at no_place
    | published sent => simp [Command.holdsPlace, stage] at no_place

theorem Sound.closesLast (sound : server.Sound limit) :
    server.ClosesLast := by
  intro closing command member
  rcases sound.closingAt with ⟨-, zero⟩ | ⟨done, -⟩
  · exact absurd zero closing
  · have none_running := sound.idle (.inr done)
    rw [sound.running, List.countP_eq_zero] at none_running
    refine ⟨Bool.eq_false_iff.mpr (none_running command member), ?_⟩
    intro sequence outcome made
    exact (sound.earlier command member sequence outcome made).2 done

theorem Sound.countsPlaces (sound : server.Sound limit) :
    server.CountsPlaces limit where
  running := sound.running
  unpublished := by
    rw [sound.running]
    apply List.countP_mono_left
    intro command _ awaited
    cases stage : command.stage <;>
      simp_all [Command.awaited, Command.holdsPlace]
  placed := by
    intro command member held
    rw [sound.running, List.countP_pos_iff]
    exact ⟨command, member, held⟩
  serving := sound.serving
  counted := by
    intro connection member counted
    rw [sound.serving, List.countP_pos_iff]
    exact ⟨connection, member, counted⟩
  permits := sound.permits

/-- No command takes a place once the server is stopping. -/
theorem length_commands_of_stopping {withoutResult : Outcome}
    (stopping : server.lifecycle.stopping = true)
    (step : ServerStep Id Outcome) :
    (next withoutResult server step).commands.length
      = server.commands.length := by
  have staged : ∀ (server : ProjectionServer Id Outcome) position stage,
      (server.setStage position stage).commands.length
        = server.commands.length :=
    fun _ _ _ => List.length_modify _ _ _
  cases step with
  | subscribe => rfl
  | command => simp [next, stopping]
  | publishOther publication => cases publication <;> rfl
  | shutDown => rfl
  | seeNoneRunning =>
      unfold next
      dsimp only
      split <;> rfl
  | sendClosing =>
      unfold next
      dsimp only
      split <;> rfl
  | acquire index =>
      unfold next atCommand
      dsimp only
      split
      · split
        · split
          · split
            · exact staged _ _ _
            · exact staged _ _ _
          · exact staged _ _ _
        · rfl
      · rfl
  | finish index returned =>
      unfold next atCommand
      dsimp only
      split
      · split
        · exact staged _ _ _
        · rfl
      · rfl
  | publish index panics =>
      unfold next atCommand
      dsimp only
      split
      · split
        · unfold publishCommand
          dsimp only
          split
          · split
            · exact staged _ _ _
            · exact staged _ _ _
          · exact staged _ _ _
        · rfl
      · rfl
  | giveBack index =>
      unfold next atCommand
      dsimp only
      split
      · split
        · split
          · exact staged _ _ _
          · exact staged _ _ _
        · exact staged _ _ _
        · rfl
      · rfl
  | request index id =>
      unfold next atConnection
      dsimp only
      split
      · split
        · rw [if_pos stopping]
          rfl
        · rfl
      · rfl
  | count index =>
      unfold next atConnection
      dsimp only
      split
      · split
        · rw [if_pos stopping]
          rfl
        · rfl
      · rfl
  | receive index =>
      unfold next atConnection
      dsimp only
      split
      · split <;> rfl
      · rfl
  | lag index =>
      unfold next atConnection
      dsimp only
      split
      · split <;> rfl
      · rfl
  | answerSkipped index =>
      unfold next atConnection
      dsimp only
      split
      · split <;> rfl
      · rfl
  | decideClosing index =>
      unfold next atConnection
      dsimp only
      split
      · split <;> rfl
      · rfl
  | disconnect index =>
      unfold next atConnection
      dsimp only
      split
      · split <;> rfl
      · rfl
  | leave index =>
      unfold next atConnection
      dsimp only
      split
      · split <;> rfl
      · rfl

end Keeping

/--
In every run commands are answered once, the closing publication follows every
command's, places and permits are counted as they are held, and none is taken
once the server is stopping.
-/
theorem commands_answered_once (withoutResult : Outcome) (limit : Nat)
    (steps : List (ServerStep Id Outcome)) :
    Machine.Throughout (next withoutResult)
        (fun server => server.AnswersOnce ∧ server.ClosesLast
          ∧ server.CountsPlaces limit) (.new limit) steps
      ∧ Machine.EveryStep (next withoutResult)
        (fun server step => server.lifecycle.stopping = true →
          (next withoutResult server step).commands.length
            = server.commands.length) (.new limit) steps := by
  constructor
  · have throughout := @Machine.throughout_of_everyStep
      (ProjectionServer Id Outcome) _ (next withoutResult)
      (fun server => server.Sound limit) (fun _ _ => True)
      (fun _ step sound _ => sound.next step) (.new limit) steps
      (Sound.new limit) (fun _ _ _ => trivial)
    intro reached within
    have sound := throughout reached within
    exact ⟨sound.answersOnce, sound.closesLast, sound.countsPlaces⟩
  · intro reached step within stopping
    exact length_commands_of_stopping stopping step

/-! ## Between two of a command's steps -/

/-- A connection requests a command, whose host returns. -/
def commandRun (id : Option Nat) : List (ServerStep Nat Unit) :=
  [.subscribe, .count 0, .request 0 id, .acquire 0, .finish 0 (some ()),
    .publish 0 false]

/-- The server after a requested command was published. -/
def publishedServer (id : Option Nat) : ProjectionServer Nat Unit :=
  Machine.run (next ()) (.new 1) (commandRun id)

/-- The server after the connection read the command's publication. -/
def readServer (id : Option Nat) : ProjectionServer Nat Unit :=
  Machine.run (next ()) (.new 1) (commandRun id ++ [.giveBack 0, .receive 0])

/--
A command that is published holds its place until it gives it back, and one that
was requested without an id is answered with no response.
-/
theorem published_command_counted :
    (publishedServer (some 7)).lifecycle.running
        ≠ (publishedServer (some 7)).commands.countP Command.awaited
      ∧ (readServer none).commands.map Command.accepted = [true]
      ∧ (readServer none).connections.map
          (fun connection => connection.responses 1) = [[]] := by
  decide +kernel

end ProjectionServer

end Clerkenwell.Axum
