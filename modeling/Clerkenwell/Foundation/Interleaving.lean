import Clerkenwell.Foundation.Program

/-!
# Interleaved programs

A pool runs any number of programs over one world.  A step lets one program
perform its next action, starts another program, or lets the environment change
the world.  Programs that have ended stay in the pool with their results.

A discipline says what every step keeps of the world, which knowledge of the
world stays true whatever happens later, and what each agent promises of its
own steps.  A program that upholds the discipline on its own upholds it in
every pool of such programs.
-/

namespace Clerkenwell.Foundation

variable {Action : Type} {Response : Action → Type}
variable {Agent World Reply : Type}

/--
How a world answers an agent's actions, how it changes by itself, and which
agents may begin.
-/
structure Semantics (Response : Action → Type) (Agent World : Type) where
  Answers : Agent → World → (action : Action) → Response action → World → Prop
  Environment : World → World → Prop
  Admitted : Agent → Prop

/-- A program an agent runs, the world it began in and what it performed. -/
structure Thread (Response : Action → Type) (Agent World Reply : Type) where
  agent : Agent
  started : World
  log : List (Program.Answered Response)
  program : Program Response Reply

structure Pool (Response : Action → Type) (Agent World Reply : Type) where
  world : World
  threads : List (Thread Response Agent World Reply)

namespace Pool

/-- A step of a pool, each agent running `body`. -/
inductive Step (semantics : Semantics Response Agent World)
    (body : Agent → Program Response Reply) :
    Pool Response Agent World Reply → Pool Response Agent World Reply → Prop
  | call (pool : Pool Response Agent World Reply) {agent : Agent}
      (admitted : semantics.Admitted agent) :
      Step semantics body pool
        { pool with
          threads := pool.threads ++
            [{ agent := agent, started := pool.world, log := [],
               program := body agent }] }
  | act {pool : Pool Response Agent World Reply} {index : Nat}
      {thread : Thread Response Agent World Reply} {action : Action}
      {resume : Response action → Program Response Reply}
      {response : Response action} {after : World}
      (running : pool.threads[index]? = some thread)
      (next : thread.program = .perform action resume)
      (answered :
        semantics.Answers thread.agent pool.world action response after) :
      Step semantics body pool
        { world := after
          threads := pool.threads.set index
            { thread with
              log := thread.log ++ [⟨action, response⟩]
              program := resume response } }
  | environment {pool : Pool Response Agent World Reply} {after : World}
      (changed : semantics.Environment pool.world after) :
      Step semantics body pool { pool with world := after }

/-- The pools any number of steps lead to. -/
def Reaches (semantics : Semantics Response Agent World)
    (body : Agent → Program Response Reply) :
    Pool Response Agent World Reply → Pool Response Agent World Reply → Prop :=
  Relation.ReflTransGen (Step semantics body)

/-- The pool of a world in which nothing runs yet. -/
def idle (world : World) : Pool Response Agent World Reply :=
  { world := world, threads := [] }

end Pool

/-- What steps keep, what stays known, and what each agent promises. -/
structure Discipline (World Agent : Type) where
  Invariant : World → Prop
  /-- What is known of a world stays true of every later one. -/
  Later : World → World → Prop
  Guarantee : Agent → World → World → Prop
  later_refl : ∀ world, Later world world
  later_trans : ∀ {first second third},
    Later first second → Later second third → Later first third

namespace Discipline

variable (discipline : Discipline World Agent)

/-- Knowledge that stays true of every later world. -/
def Stable (Known : World → Prop) : Prop :=
  ∀ world later, discipline.Later world later → Known world → Known later

/--
A program of `agent` that, wherever others have brought the world, keeps the
invariant at each action, promises what the agent does, and ends with `Post` of
what it performed, its result and the world.
-/
def Upholds {α : Type} (semantics : Semantics Response Agent World)
    (agent : Agent) :
    (Post : List (Program.Answered Response) → α → World → Prop) →
      Program Response α → World → Prop
  | Post, .done result, world => Post [] result world
  | _, .unfinished, _ => True
  | Post, .perform action resume, world =>
      ∀ current, discipline.Later world current →
        discipline.Invariant current →
        ∀ response after,
          semantics.Answers agent current action response after →
            discipline.Invariant after ∧ discipline.Later current after
              ∧ discipline.Guarantee agent current after
              ∧ Upholds semantics agent
                  (fun log => Post (⟨action, response⟩ :: log))
                  (resume response) after

section Upholds

variable {discipline} {semantics : Semantics Response Agent World}
variable {agent : Agent} {action : Action} {α β : Type}

theorem Upholds.later
    {Post : List (Program.Answered Response) → α → World → Prop}
    (stable : ∀ log result, discipline.Stable (Post log result))
    {program : Program Response α} {world later : World}
    (upholds : discipline.Upholds semantics agent Post program world)
    (after : discipline.Later world later) :
    discipline.Upholds semantics agent Post program later := by
  cases program with
  | done result => exact stable [] result world later after upholds
  | unfinished => trivial
  | perform action resume =>
      exact fun current reached =>
        upholds current (discipline.later_trans after reached)

theorem Upholds.mono
    {Post Weaker : List (Program.Answered Response) → α → World → Prop}
    {program : Program Response α} {world : World}
    (upholds : discipline.Upholds semantics agent Post program world)
    (weaken : ∀ log result later, discipline.Later world later →
      Post log result later → Weaker log result later) :
    discipline.Upholds semantics agent Weaker program world := by
  induction program generalizing world Post Weaker with
  | done result =>
      exact weaken [] result world (discipline.later_refl world) upholds
  | unfinished => trivial
  | perform action resume inductionHypothesis =>
      intro current reached invariant response after answered
      obtain ⟨kept, later, promised, rest⟩ :=
        upholds current reached invariant response after answered
      refine ⟨kept, later, promised, inductionHypothesis response rest ?_⟩
      exact fun log result last following =>
        weaken (⟨action, response⟩ :: log) result last
          (discipline.later_trans reached
            (discipline.later_trans later following))

/-- A program upholds what its first part and what follows it uphold. -/
theorem Upholds.bind
    {Post : List (Program.Answered Response) → α → World → Prop}
    {Final : List (Program.Answered Response) → β → World → Prop}
    {program : Program Response α} {next : α → Program Response β}
    {world : World}
    (invariant : discipline.Invariant world)
    (first : discipline.Upholds semantics agent Post program world)
    (second : ∀ log result later, discipline.Later world later →
      discipline.Invariant later → Post log result later →
        discipline.Upholds semantics agent
          (fun rest => Final (log ++ rest)) (next result) later) :
    discipline.Upholds semantics agent Final (program.bind next) world := by
  induction program generalizing world Post Final with
  | done result =>
      exact second [] result world (discipline.later_refl world) invariant
        first
  | unfinished => trivial
  | perform action resume inductionHypothesis =>
      intro current reached held response after answered
      obtain ⟨kept, later, promised, rest⟩ :=
        first current reached held response after answered
      refine ⟨kept, later, promised,
        inductionHypothesis response kept rest ?_⟩
      exact fun log result last following =>
        second (⟨action, response⟩ :: log) result last
          (discipline.later_trans reached
            (discipline.later_trans later following))

end Upholds

end Discipline

/-! ## Pools -/

section Soundness

variable {discipline : Discipline World Agent}
variable {semantics : Semantics Response Agent World}
variable {body : Agent → Program Response Reply}
variable {Post :
  Agent → World → List (Program.Answered Response) → Reply → World → Prop}

/-- Every program of a pool upholds the discipline from where it stands. -/
structure Pool.Sound (discipline : Discipline World Agent)
    (semantics : Semantics Response Agent World)
    (Post : Agent → World → List (Program.Answered Response) → Reply →
      World → Prop)
    (pool : Pool Response Agent World Reply) : Prop where
  invariant : discipline.Invariant pool.world
  started : ∀ thread ∈ pool.threads,
    discipline.Later thread.started pool.world
  upholds : ∀ thread ∈ pool.threads,
    discipline.Upholds semantics thread.agent
      (fun log => Post thread.agent thread.started (thread.log ++ log))
      thread.program pool.world

/-- Programs that uphold the discipline alone, in a world it knows of. -/
structure Disciplined (discipline : Discipline World Agent)
    (semantics : Semantics Response Agent World)
    (body : Agent → Program Response Reply)
    (Post : Agent → World → List (Program.Answered Response) → Reply →
      World → Prop) : Prop where
  stable : ∀ agent started log reply,
    discipline.Stable (Post agent started log reply)
  environment : ∀ world after, discipline.Invariant world →
    semantics.Environment world after →
      discipline.Invariant after ∧ discipline.Later world after
  bodies : ∀ agent world, semantics.Admitted agent →
    discipline.Invariant world →
      discipline.Upholds semantics agent (Post agent world) (body agent) world

theorem Disciplined.idle
    {world : World} (invariant : discipline.Invariant world) :
    Pool.Sound discipline semantics Post
      (Pool.idle world : Pool Response Agent World Reply) where
  invariant := invariant
  started := by simp [Pool.idle]
  upholds := by simp [Pool.idle]

/-- What an action of a sound pool's thread does. -/
theorem Pool.Sound.act
    {pool : Pool Response Agent World Reply}
    (sound : Pool.Sound discipline semantics Post pool)
    {index : Nat} {thread : Thread Response Agent World Reply}
    {action : Action} {resume : Response action → Program Response Reply}
    {response : Response action} {after : World}
    (running : pool.threads[index]? = some thread)
    (next : thread.program = .perform action resume)
    (answered :
      semantics.Answers thread.agent pool.world action response after) :
    discipline.Invariant after ∧ discipline.Later pool.world after
      ∧ discipline.Guarantee thread.agent pool.world after
      ∧ discipline.Upholds semantics thread.agent
          (fun log => Post thread.agent thread.started
            (thread.log ++ ⟨action, response⟩ :: log))
          (resume response) after := by
  have upholds := sound.upholds thread (List.mem_of_getElem? running)
  rw [next] at upholds
  exact upholds pool.world (discipline.later_refl _) sound.invariant
    response after answered

/-- A step keeps a pool sound, and what is known of its world stays known. -/
theorem Disciplined.step
    (disciplined : Disciplined discipline semantics body Post)
    {pool next : Pool Response Agent World Reply}
    (sound : Pool.Sound discipline semantics Post pool)
    (step : Pool.Step semantics body pool next) :
    Pool.Sound discipline semantics Post next
      ∧ discipline.Later pool.world next.world := by
  cases step with
  | @call agent admitted =>
      refine ⟨⟨sound.invariant, ?_, ?_⟩, discipline.later_refl _⟩
      · intro thread member
        rcases List.mem_append.mp member with earlier | new
        · exact sound.started thread earlier
        · rw [List.mem_singleton.mp new]
          exact discipline.later_refl _
      · intro thread member
        rcases List.mem_append.mp member with earlier | new
        · exact sound.upholds thread earlier
        · rw [List.mem_singleton.mp new]
          exact disciplined.bodies agent pool.world admitted sound.invariant
  | @act index thread action resume response after running pending
      answered =>
      obtain ⟨invariant, later, -, upholds⟩ :=
        sound.act running pending answered
      refine ⟨⟨invariant, ?_, ?_⟩, later⟩
      · intro other member
        rcases List.mem_or_eq_of_mem_set member with earlier | same
        · exact discipline.later_trans (sound.started other earlier) later
        · subst same
          exact discipline.later_trans
            (sound.started thread (List.mem_of_getElem? running)) later
      · intro other member
        rcases List.mem_or_eq_of_mem_set member with earlier | same
        · exact (sound.upholds other earlier).later
            (fun log =>
              disciplined.stable other.agent other.started (other.log ++ log))
            later
        · subst same
          simpa only [List.append_assoc, List.singleton_append] using upholds
  | environment changed =>
      obtain ⟨invariant, later⟩ :=
        disciplined.environment _ _ sound.invariant changed
      refine ⟨⟨invariant, ?_, ?_⟩, later⟩
      · exact fun thread member =>
          discipline.later_trans (sound.started thread member) later
      · exact fun thread member =>
          (sound.upholds thread member).later
            (fun log =>
              disciplined.stable thread.agent thread.started
                (thread.log ++ log))
            later

/-- Every pool a sound one reaches is sound, in a later world. -/
theorem Disciplined.reaches
    (disciplined : Disciplined discipline semantics body Post)
    {pool reached : Pool Response Agent World Reply}
    (sound : Pool.Sound discipline semantics Post pool)
    (reaches : Pool.Reaches semantics body pool reached) :
    Pool.Sound discipline semantics Post reached
      ∧ discipline.Later pool.world reached.world := by
  induction reaches with
  | refl => exact ⟨sound, discipline.later_refl _⟩
  | tail _ step inductionHypothesis =>
      obtain ⟨soundBefore, before⟩ := inductionHypothesis
      obtain ⟨soundAfter, after⟩ := disciplined.step soundBefore step
      exact ⟨soundAfter, discipline.later_trans before after⟩

/-- What a thread of a sound pool ended with satisfies its postcondition. -/
theorem Pool.Sound.finished
    {pool : Pool Response Agent World Reply}
    (sound : Pool.Sound discipline semantics Post pool)
    {thread : Thread Response Agent World Reply}
    (member : thread ∈ pool.threads) {reply : Reply}
    (finished : thread.program = .done reply) :
    Post thread.agent thread.started thread.log reply pool.world := by
  have upholds := sound.upholds thread member
  rw [finished] at upholds
  simpa only [Discipline.Upholds, List.append_nil] using upholds

end Soundness

end Clerkenwell.Foundation
