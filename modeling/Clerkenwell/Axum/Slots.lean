import Clerkenwell.Axum.Server
import Mathlib.Data.List.Perm.Basic

/-!
# What a connection holds of a ticket

A ticket's slot is what a connection waits for, what ran, what it answered and
what it has yet to read of one command.  Each operation of a connection changes
the slots of the tickets it is about and no other.
-/

namespace Clerkenwell.Axum

variable {Id Outcome : Type}

/-- All a connection holds of one ticket. -/
structure Slot (Id Outcome : Type) where
  waiting : List (Option Id)
  ran : List (Sent Outcome)
  responses : List (Id × Outcome)
  unread : List (Sent Outcome)

namespace Slot

/-- A ticket whose command did not start. -/
def empty : Slot Id Outcome where
  waiting := []
  ran := []
  responses := []
  unread := []

/-- A ticket whose command runs. -/
def waitingFor (id : Option Id) : Slot Id Outcome :=
  { (empty : Slot Id Outcome) with waiting := [id] }

/-- A ticket whose command ran, and whose publication is yet to be read. -/
def unreadOf (id : Option Id) (sent : Sent Outcome) : Slot Id Outcome :=
  { (empty : Slot Id Outcome) with
    waiting := [id], ran := [sent], unread := [sent] }

/-- A ticket whose command ran, and whose publication was skipped. -/
def skippedOf (id : Option Id) (sent : Sent Outcome) : Slot Id Outcome :=
  { (empty : Slot Id Outcome) with waiting := [id], ran := [sent] }

/-- A ticket that was answered, with a response when it has an id. -/
def answeredWith (id : Option Id) (outcome : Outcome) : Slot Id Outcome :=
  { (empty : Slot Id Outcome) with
    responses := (id.map fun id => (id, outcome)).toList }

end Slot

/-- A frame's response to a ticket. -/
def Frame.responseTo (ticket : Nat) : Frame Id Outcome → Option (Id × Outcome)
  | .response answered id outcome =>
      if answered = ticket then some (id, outcome) else none
  | .refusal _ | .close => none

namespace Connection

/-- The responses a connection sent to a ticket. -/
def responses (connection : Connection Id Outcome) (ticket : Nat) :
    List (Id × Outcome) :=
  connection.frames.filterMap (Frame.responseTo ticket)

/-- What a connection holds of a ticket of its own. -/
def slot (origin : Nat) (connection : Connection Id Outcome) (ticket : Nat) :
    Slot Id Outcome where
  waiting :=
    (connection.running.filter fun entry => entry.1 == ticket).map Prod.snd
  ran := (connection.ran.filter fun entry => entry.1 == ticket).map Prod.snd
  responses := connection.responses ticket
  unread := connection.unread.filter (Sent.answers origin ticket)

variable {connection : Connection Id Outcome} {origin ticket : Nat}

/-! ## Operations and their slots -/

theorem filter_filter_ne {α : Type} {entries : List (Nat × α)}
    {ticket other : Nat} (different : ticket ≠ other) :
    (entries.filter fun entry => entry.1 != ticket).filter
        (fun entry => entry.1 == other)
      = entries.filter fun entry => entry.1 == other := by
  rw [List.filter_filter]
  apply List.filter_congr
  intro entry _
  by_cases same : entry.1 = other
  · have apart : entry.1 ≠ ticket := fun equal =>
      different (equal.symm.trans same)
    simp [same, Ne.symm different]
  · simp [same]

theorem filter_filter_self {α : Type} (entries : List (Nat × α))
    (ticket : Nat) :
    (entries.filter fun entry => entry.1 != ticket).filter
      (fun entry => entry.1 == ticket) = [] := by
  rw [List.filter_filter, List.filter_eq_nil_iff]
  intro entry _
  simp

theorem filterMap_answer (answered ticket : Nat) (id : Option Id)
    (outcome : Outcome) :
    (answer answered id outcome).filterMap (Frame.responseTo ticket)
      = if answered = ticket then
          (id.map fun id => (id, outcome)).toList
        else [] := by
  cases id with
  | none => simp [answer]
  | some id =>
      simp only [answer, Option.map_some, Option.toList_some,
        List.filterMap_cons, List.filterMap_nil, Frame.responseTo]
      split
      · rename_i no_response
        split at no_response
        · cases no_response
        · rename_i different
          rw [if_neg different]
      · rename_i response there
        split at there
        · rename_i same
          cases there
          rw [if_pos same]
        · cases there

/-- What a connection waits for is what its ticket's slot says. -/
theorem idOf_eq (connection : Connection Id Outcome) (origin ticket : Nat) :
    connection.idOf ticket
      = ((connection.slot origin ticket).waiting.head?).bind fun id => id := by
  rw [idOf, slot, ← List.head?_filter]
  cases connection.running.filter fun entry => entry.1 == ticket with
  | nil => rfl
  | cons entry rest => rfl

/-- A publication that answers a ticket is yet to be read. -/
theorem slot_receive (sent : Sent Outcome) :
    (connection.receive sent).slot origin ticket
      = { connection.slot origin ticket with
          unread :=
            (connection.slot origin ticket).unread
              ++ if sent.answers origin ticket then [sent] else [] } := by
  simp only [receive, slot, List.filter_append, responses]
  congr 2
  cases answers : sent.answers origin ticket with
  | true => simp [answers]
  | false => simp [answers]

/-- Answering a command empties its slot but for its response. -/
theorem slot_answerCommand (outcome : Outcome) (answered : Nat) :
    (connection.answerCommand answered outcome).slot origin ticket
      = if answered = ticket then
          { connection.slot origin ticket with
            waiting := []
            responses :=
              (connection.slot origin ticket).responses
                ++ ((connection.idOf answered).map
                  fun id => (id, outcome)).toList }
        else connection.slot origin ticket := by
  simp only [answerCommand, slot, responses, List.filterMap_append,
    filterMap_answer]
  split
  · rename_i same
    subst same
    rw [filter_filter_self]
    rfl
  · rename_i different
    rw [filter_filter_ne different, List.append_nil]

theorem slot_removeRan (removed : Nat) :
    (connection.removeRan removed).slot origin ticket
      = if removed = ticket then
          { connection.slot origin ticket with ran := [] }
        else connection.slot origin ticket := by
  simp only [removeRan, slot, responses]
  split
  · rename_i same
    subst same
    rw [filter_filter_self]
    rfl
  · rename_i different
    rw [filter_filter_ne different]

@[simp]
theorem idOf_removeRan (removed answered : Nat) :
    (connection.removeRan removed).idOf answered = connection.idOf answered :=
  rfl

/-- A sent publication that answers no ticket of a list changes none of them. -/
theorem slot_foldl_answerSent_of_not {sents : List (Sent Outcome)}
    (apart : ∀ sent ∈ sents, ∀ from_ answered outcome,
      sent.publication = .ran from_ answered outcome → answered ≠ ticket) :
    (sents.foldl answerSent connection).slot origin ticket
      = connection.slot origin ticket := by
  induction sents generalizing connection with
  | nil => rfl
  | cons sent rest inductionHypothesis =>
      rw [List.foldl_cons, inductionHypothesis fun other member =>
        apart other (List.mem_cons_of_mem _ member)]
      unfold answerSent
      split
      · rename_i from_ answered outcome shape
        rw [slot_answerCommand,
          if_neg (apart sent List.mem_cons_self from_ answered outcome shape)]
      · rfl

theorem ran_answerSent (connection : Connection Id Outcome)
    (sent : Sent Outcome) :
    (connection.answerSent sent).ran = connection.ran := by
  unfold answerSent
  split <;> rfl

theorem unread_answerSent (connection : Connection Id Outcome)
    (sent : Sent Outcome) :
    (connection.answerSent sent).unread = connection.unread := by
  unfold answerSent
  split <;> rfl

theorem tickets_answerSent (connection : Connection Id Outcome)
    (sent : Sent Outcome) :
    (connection.answerSent sent).tickets = connection.tickets := by
  unfold answerSent
  split <;> rfl

/-- What no answer changes, no list of them does. -/
theorem foldl_answerSent_of_same {β : Type}
    {get : Connection Id Outcome → β}
    (same : ∀ connection sent, get (answerSent connection sent) = get connection)
    (sents : List (Sent Outcome)) :
    get (sents.foldl answerSent connection) = get connection := by
  induction sents generalizing connection with
  | nil => rfl
  | cons sent rest inductionHypothesis =>
      rw [List.foldl_cons, inductionHypothesis, same]

/-! ## Skipped publications -/

/-- What ran and is not answered is under the ticket it answers. -/
def Keyed (origin : Nat) (connection : Connection Id Outcome) : Prop :=
  ∀ entry ∈ connection.ran, ∃ outcome,
    entry.2.publication = .ran origin entry.1 outcome

theorem Keyed.of_mem_skipped (keyed : connection.Keyed origin) {through : Nat}
    {sent : Sent Outcome} (member : sent ∈ connection.skipped through) :
    ∃ answered outcome, sent.publication = .ran origin answered outcome := by
  have listed := (List.mergeSort_perm _ _).subset member
  rcases List.mem_map.mp listed with ⟨entry, within, rfl⟩
  rcases keyed entry (List.mem_of_mem_filter within) with ⟨outcome, shape⟩
  exact ⟨entry.1, outcome, shape⟩

/-- The skipped publications of one ticket. -/
theorem Keyed.filter_skipped (keyed : connection.Keyed origin)
    (through ticket : Nat) :
    ((connection.skipped through).filter (Sent.answers origin ticket)).Perm
      ((connection.slot origin ticket).ran.filter fun sent =>
        decide (sent.sequence ≤ through)) := by
  have sorted : (connection.skipped through).Perm
      ((connection.ran.filter fun entry =>
        decide (entry.2.sequence ≤ through)).map Prod.snd) :=
    List.mergeSort_perm _ _
  refine (sorted.filter _).trans (List.Perm.of_eq ?_)
  simp only [slot, List.filter_map, List.filter_filter]
  congr 1
  apply List.filter_congr
  intro entry member
  rcases keyed entry member with ⟨outcome, shape⟩
  simp [Sent.answers, shape, Bool.and_comm]

/-- A ticket with nothing skipped is as it was. -/
theorem Keyed.slot_answerSkipped_of_not (keyed : connection.Keyed origin)
    {through : Nat}
    (none_skipped : ((connection.slot origin ticket).ran.filter fun sent =>
      decide (sent.sequence ≤ through)) = []) :
    (connection.answerSkipped through).slot origin ticket
      = connection.slot origin ticket := by
  have none_answers := (keyed.filter_skipped through ticket).trans
    (List.Perm.of_eq none_skipped)
  rw [List.perm_nil, List.filter_eq_nil_iff] at none_answers
  rw [answerSkipped, slot_foldl_answerSent_of_not]
  · simp only [slot, responses, List.filter_filter, Slot.mk.injEq, and_true,
      true_and]
    congr 1
    apply List.filter_congr
    intro entry member
    by_cases same : entry.1 = ticket
    · have listed : entry.2 ∈ (connection.slot origin ticket).ran :=
        List.mem_map_of_mem (List.mem_filter.mpr ⟨member, by simp [same]⟩)
      have past := List.filter_eq_nil_iff.mp none_skipped entry.2 listed
      simp [same, past]
    · simp [same]
  · intro sent member from_ answered outcome shape
    rcases keyed.of_mem_skipped member with ⟨other, result, keyed_shape⟩
    cases keyed_shape.symm.trans shape
    intro same
    apply none_answers sent member
    simp [Sent.answers, shape, same]

/-- A ticket whose publication was skipped is answered. -/
theorem Keyed.slot_answerSkipped (keyed : connection.Keyed origin)
    {through sequence : Nat} {outcome : Outcome} {id : Option Id}
    (skipped : connection.slot origin ticket
      = Slot.skippedOf id
        { sequence := sequence, publication := .ran origin ticket outcome })
    (within : sequence ≤ through) :
    (connection.answerSkipped through).slot origin ticket
      = Slot.answeredWith id outcome := by
  let sent : Sent Outcome :=
    { sequence := sequence, publication := .ran origin ticket outcome }
  have only : ((connection.skipped through).filter
      (Sent.answers origin ticket)).Perm [sent] := by
    have filtered := keyed.filter_skipped through ticket
    rw [skipped] at filtered
    simpa [Slot.skippedOf, Slot.empty, within] using filtered
  have member : sent ∈ connection.skipped through :=
    List.mem_of_mem_filter (only.symm.subset (List.mem_singleton_self sent))
  rcases List.append_of_mem member with ⟨before, after, shape⟩
  have answers_sent : sent.answers origin ticket = true := by
    simp [Sent.answers, sent]
  have lengths := only.length_eq
  rw [shape, List.filter_append, List.filter_cons, if_pos answers_sent,
    List.length_append, List.length_cons, List.length_singleton] at lengths
  have apart : ∀ other, other ∈ before ∨ other ∈ after →
      ∀ from_ answered result,
        other.publication = .ran from_ answered result →
          answered ≠ ticket := by
    intro other place from_ answered result published
    have listed : other ∈ connection.skipped through := by
      rw [shape]
      rcases place with early | late
      · exact List.mem_append_left _ early
      · exact List.mem_append_right _ (List.mem_cons_of_mem _ late)
    rcases keyed.of_mem_skipped listed with ⟨key, keyed_result, keyed_shape⟩
    cases keyed_shape.symm.trans published
    rintro rfl
    have answers_other : other.answers origin answered = true := by
      simp [Sent.answers, published]
    rcases place with early | late
    · have positive := List.length_pos_of_mem
        (List.mem_filter.mpr ⟨early, answers_other⟩)
      omega
    · have positive := List.length_pos_of_mem
        (List.mem_filter.mpr ⟨late, answers_other⟩)
      omega
  -- Without its entries up to `through`, the connection waits for the same.
  let kept : Connection Id Outcome :=
    { connection with
      ran :=
        connection.ran.filter fun entry =>
          !decide (entry.2.sequence ≤ through) }
  have kept_slot : kept.slot origin ticket = Slot.waitingFor id := by
    have ran_empty : ((kept.ran.filter fun entry =>
        entry.1 == ticket).map Prod.snd) = [] := by
      rw [List.map_eq_nil_iff, List.filter_eq_nil_iff]
      intro entry entry_member keys
      rcases List.mem_filter.mp entry_member with ⟨listed, past⟩
      have in_slot : entry.2 ∈ (connection.slot origin ticket).ran :=
        List.mem_map_of_mem (List.mem_filter.mpr ⟨listed, keys⟩)
      rw [skipped] at in_slot
      have same : entry.2 = sent := List.mem_singleton.mp in_slot
      rw [same] at past
      simp [sent, within] at past
    have fields := Slot.mk.inj skipped
    simp only [slot, Slot.waitingFor, Slot.empty, ran_empty, Slot.mk.injEq,
      true_and]
    exact ⟨fields.1, fields.2.2.1, fields.2.2.2⟩
  have before_slot : (before.foldl answerSent kept).slot origin ticket
      = Slot.waitingFor id := by
    rw [slot_foldl_answerSent_of_not fun other early =>
      apart other (.inl early), kept_slot]
  rw [answerSkipped, shape, List.foldl_append, List.foldl_cons,
    slot_foldl_answerSent_of_not fun other late => apart other (.inr late)]
  show ((before.foldl answerSent kept).answerCommand ticket outcome).slot
    origin ticket = _
  rw [slot_answerCommand, if_pos rfl, before_slot,
    idOf_eq _ origin ticket, before_slot]
  rfl

end Connection

end Clerkenwell.Axum
