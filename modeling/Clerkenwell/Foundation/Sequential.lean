import Clerkenwell.Foundation.Interleaving

/-!
# Programs one after another

A server answers actions one way of those a semantics allows.  It runs agents
one after another, each to its end, and the pool it leaves is one the agents
reach.
-/

namespace Clerkenwell.Foundation

variable {Action : Type} {Response : Action → Type}
variable {Agent World Reply : Type}

/--
One answer to each action of an agent, in worlds that are ready for it; `none`
when the server knows no answer.
-/
structure Server (semantics : Semantics Response Agent World) where
  Ready : World → Prop
  serve : Agent → World → (action : Action) →
    Option (Response action × World)
  answers : ∀ {agent world action response after}, Ready world →
    serve agent world action = some (response, after) →
      semantics.Answers agent world action response after ∧ Ready after

namespace Server

variable {semantics : Semantics Response Agent World}
variable (server : Server semantics)
variable {body : Agent → Program Response Reply}

/-- What a program performs, its result and the world it leaves. -/
def finish (agent : Agent) :
    Program Response Reply → World →
      Option (List (Program.Answered Response) × Reply × World)
  | .done reply, world => some ([], reply, world)
  | .unfinished, _ => none
  | .perform action resume, world =>
      match server.serve agent world action with
      | none => none
      | some (response, after) =>
          (finish agent (resume response) after).map
            fun (log, reply, last) => (⟨action, response⟩ :: log, reply, last)

/-- The pool once agents have run after the threads it holds. -/
def run (body : Agent → Program Response Reply) :
    List Agent → Pool Response Agent World Reply →
      Option (Pool Response Agent World Reply)
  | [], pool => some pool
  | agent :: rest, pool =>
      match server.finish agent (body agent) pool.world with
      | none => none
      | some (log, reply, after) =>
          run body rest
            { world := after
              threads := pool.threads ++
                [{ agent := agent, started := pool.world, log := log,
                   program := .done reply }] }

variable {server}

/-- The agents of a pool that agents have run after. -/
theorem agents_run {agents : List Agent}
    {pool left : Pool Response Agent World Reply}
    (ran : server.run body agents pool = some left) :
    left.threads.map Thread.agent = pool.threads.map Thread.agent ++ agents := by
  induction agents generalizing pool with
  | nil =>
      cases ran
      exact (List.append_nil _).symm
  | cons agent rest inductionHypothesis =>
      unfold run at ran
      split at ran
      · cases ran
      · rw [inductionHypothesis ran, List.map_append, List.append_assoc]
        rfl

/-- A pool whose last thread performs what is left of its program. -/
theorem reaches_finish {agent : Agent} {started world after : World}
    {threads : List (Thread Response Agent World Reply)}
    {performed log : List (Program.Answered Response)}
    {program : Program Response Reply} {reply : Reply}
    (ready : server.Ready world)
    (finished : server.finish agent program world
      = some (log, reply, after)) :
    Pool.Reaches semantics body
        { world := world
          threads := threads ++ [⟨agent, started, performed, program⟩] }
        { world := after
          threads := threads ++
            [⟨agent, started, performed ++ log, .done reply⟩] }
      ∧ server.Ready after := by
  induction program generalizing world performed log with
  | done result =>
      cases finished
      rw [List.append_nil]
      exact ⟨.refl, ready⟩
  | unfinished => cases finished
  | perform action resume inductionHypothesis =>
      unfold finish at finished
      split at finished
      · cases finished
      · rename_i response next served
        obtain ⟨⟨rest, result, last⟩, ended, same⟩ :=
          Option.map_eq_some_iff.mp finished
        cases same
        obtain ⟨answered, nextReady⟩ := server.answers ready served
        obtain ⟨reached, lastReady⟩ :=
          @inductionHypothesis response next
            (performed ++ [⟨action, response⟩]) rest nextReady ended
        rw [List.append_assoc, List.singleton_append] at reached
        refine ⟨.head ?_ reached, lastReady⟩
        let running : Pool Response Agent World Reply :=
          { world := world
            threads := threads ++
              [⟨agent, started, performed, .perform action resume⟩] }
        have there : running.threads[threads.length]?
            = some ⟨agent, started, performed, .perform action resume⟩ := by
          simp [running]
        have step : Pool.Step semantics body running _ :=
          .act there rfl answered
        simpa [running] using step

/-- The pool a server leaves is one the agents reach. -/
theorem reaches_run {agents : List Agent}
    {pool left : Pool Response Agent World Reply}
    (admitted : ∀ agent ∈ agents, semantics.Admitted agent)
    (ready : server.Ready pool.world)
    (ran : server.run body agents pool = some left) :
    Pool.Reaches semantics body pool left := by
  induction agents generalizing pool with
  | nil =>
      cases ran
      exact .refl
  | cons agent rest inductionHypothesis =>
      unfold run at ran
      split at ran
      · cases ran
      · rename_i log reply after finished
        have called : Pool.Step semantics body pool _ :=
          .call pool (admitted agent List.mem_cons_self)
        obtain ⟨reached, nextReady⟩ :=
          @reaches_finish _ _ _ _ _ _ server body agent pool.world _ _
            pool.threads [] _ _ _ ready finished
        refine (Relation.ReflTransGen.head called reached).trans ?_
        exact inductionHypothesis
          (fun other member => admitted other (List.mem_cons_of_mem _ member))
          nextReady ran

end Server

end Clerkenwell.Foundation
