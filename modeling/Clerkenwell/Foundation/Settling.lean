import Clerkenwell.Foundation.Running

/-!
# Calls that settle

A recursion run with a bound on its nested calls settles when some bound is
great enough for it to come to an outcome.
-/

namespace Clerkenwell.Foundation.Running

variable {ε : Type} {α β : Type}

/-! ## Outcomes that are allowed -/

/-- Whether a call has come to an outcome, and to no failure but an allowed one. -/
def Decides (Allowed : ε → Prop) (running : Running ε α) : Prop :=
  ∃ outcome, running.run = some outcome
    ∧ ∀ failure, outcome = .error failure → Allowed failure

variable {Allowed : ε → Prop}

theorem Decides.ended {running : Running ε α}
    (decides : Decides Allowed running) : Ended running := by
  obtain ⟨outcome, come, -⟩ := decides
  unfold Ended
  rw [come]
  rfl

theorem decides_settled {outcome : Except ε α}
    (allowed : ∀ failure, outcome = .error failure → Allowed failure) :
    Decides Allowed (settled outcome) :=
  ⟨outcome, rfl, allowed⟩

theorem decides_cases {running : Running ε α}
    (decides : Decides Allowed running) :
    (∃ value, Succeeds running value)
      ∨ ∃ failure, Fails running failure ∧ Allowed failure := by
  obtain ⟨outcome, come, allowed⟩ := decides
  cases outcome with
  | ok value => exact Or.inl ⟨value, come⟩
  | error failure => exact Or.inr ⟨failure, come, allowed failure rfl⟩

theorem decides_bind {running : Running ε α} {next : α → Running ε β} :
    Decides Allowed (running >>= next) ↔
      Decides Allowed running
        ∧ ∀ value, Succeeds running value → Decides Allowed (next value) := by
  unfold Decides Succeeds
  rw [run_bind]
  rcases running.run with _ | failure | value
  · simp
  · simp
  · simp

theorem bind_of_succeeds {running : Running ε α} {value : α}
    (succeeds : Succeeds running value) (next : α → Running ε β) :
    running >>= next = next value := by
  apply ext
  unfold Succeeds at succeeds
  rw [run_bind, succeeds]

theorem succeeds_of_isOk {running : Running ε PUnit}
    (accepts : (running.run.any fun outcome => outcome.isOk) = true) :
    Succeeds running ⟨⟩ := by
  obtain ⟨outcome, come, accepted⟩ := (Option.any_eq_true _ _).mp accepts
  cases outcome with
  | ok => exact come
  | error => cases accepted

theorem Below.decides {running further : Running ε α}
    (below : Below running further) (decides : Decides Allowed running) :
    Decides Allowed further := by
  rw [← below decides.ended]
  exact decides

/-! ## Bounds -/

/-- Whether a greater bound never changes what a call has come to. -/
def Steady (call : Nat → Running ε α) : Prop :=
  ∀ fuel, Below (call fuel) (call (fuel + 1))

/-- Whether a call succeeds with a value under some bound. -/
def Comes (call : Nat → Running ε α) (value : α) : Prop :=
  ∃ fuel, Succeeds (call fuel) value

variable {call : Nat → Running ε α}

theorem Steady.below (steady : Steady call) {less more : Nat}
    (le : less ≤ more) : Below (call less) (call more) :=
  below_of_le steady le

/-- What has an outcome under one bound and a value under another has that value. -/
theorem Steady.succeeds_of_ended (steady : Steady call) {fuel : Nat}
    {value : α} (ended : Ended (call fuel)) (comes : Comes call value) :
    Succeeds (call fuel) value := by
  obtain ⟨other, succeeds⟩ := comes
  have one := steady.below (Nat.le_max_left fuel other) ended
  have two := steady.below (Nat.le_max_right fuel other) succeeds.ended
  rw [one, ← two]
  exact succeeds

theorem Steady.unique (steady : Steady call) {value other : α}
    (comes : Comes call value) (also : Comes call other) : value = other := by
  obtain ⟨fuel, succeeds⟩ := comes
  exact succeeds.unique (steady.succeeds_of_ended succeeds.ended also)

theorem steady_const (running : Running ε α) : Steady fun _ => running :=
  fun _ => Below.refl running

theorem Steady.bind (steady : Steady call) {next : α → Nat → Running ε β}
    (next_steady : ∀ value, Comes call value → Steady (next value)) :
    Steady fun fuel => call fuel >>= fun value => next value fuel :=
  fun fuel => (steady fuel).bind fun value succeeds =>
    next_steady value ⟨fuel, succeeds⟩ fuel

theorem steady_forM {Item : Type} {body : Item → Nat → Running ε PUnit}
    (items : List Item) (steady : ∀ item ∈ items, Steady (body item)) :
    Steady fun fuel => forM items fun item => body item fuel :=
  fun fuel => Below.forM items fun item within => steady item within fuel

/-- A call that recurs with a smaller bound. -/
theorem steady_of_succ (start : call 0 = pending)
    (steady : Steady fun fuel => call (fuel + 1)) : Steady call := by
  intro fuel
  cases fuel with
  | zero =>
      rw [start]
      exact below_pending _
  | succ fuel => exact steady fuel

/-! ## Settling -/

/-- Whether a call comes to an allowed outcome under some bound. -/
structure Settles (Allowed : ε → Prop) (call : Nat → Running ε α) : Prop where
  steady : Steady call
  decides : ∃ fuel, Decides Allowed (call fuel)

theorem Settles.decides_from (settles : Settles Allowed call) :
    ∃ enough, ∀ fuel, enough ≤ fuel → Decides Allowed (call fuel) := by
  obtain ⟨enough, decides⟩ := settles.decides
  exact ⟨enough, fun fuel le => (settles.steady.below le).decides decides⟩

theorem settles_const {running : Running ε α}
    (decides : Decides Allowed running) : Settles Allowed fun _ => running :=
  ⟨steady_const running, 0, decides⟩

theorem settles_settled {outcome : Except ε α}
    (allowed : ∀ failure, outcome = .error failure → Allowed failure) :
    Settles Allowed fun _ => settled outcome :=
  settles_const (decides_settled allowed)

theorem settles_pure (value : α) :
    Settles Allowed fun _ => (pure value : Running ε α) :=
  settles_settled fun _ same => by cases same

theorem settles_throw {failure : ε} (allowed : Allowed failure) :
    Settles Allowed fun _ => (throw failure : Running ε α) :=
  settles_settled fun _ same => by
    cases same
    exact allowed

theorem settles_of_succ (start : call 0 = pending)
    (settles : Settles Allowed fun fuel => call (fuel + 1)) :
    Settles Allowed call := by
  refine ⟨steady_of_succ start settles.steady, ?_⟩
  obtain ⟨fuel, decides⟩ := settles.decides
  exact ⟨fuel + 1, decides⟩

/-- A sequence settles when its first part does, and the rest where it comes to. -/
theorem Settles.bind {next : α → Nat → Running ε β}
    (settles : Settles Allowed call)
    (next_settles : ∀ value, Comes call value → Settles Allowed (next value)) :
    Settles Allowed fun fuel => call fuel >>= fun value => next value fuel := by
  have steady := settles.steady.bind fun value comes =>
    (next_settles value comes).steady
  refine ⟨steady, ?_⟩
  obtain ⟨first, decides⟩ := settles.decides
  rcases decides_cases decides with ⟨value, succeeds⟩ | ⟨failure, fails, allowed⟩
  · obtain ⟨second, later⟩ := (next_settles value ⟨first, succeeds⟩).decides_from
    refine ⟨max first second, decides_bind.mpr ⟨?_, ?_⟩⟩
    · exact (settles.steady.below (Nat.le_max_left _ _)).decides decides
    · intro other also
      have same := settles.steady.unique ⟨first, succeeds⟩ ⟨_, also⟩
      subst same
      exact later _ (Nat.le_max_right _ _)
  · refine ⟨first, decides_bind.mpr ⟨decides, fun value succeeds => ?_⟩⟩
    unfold Fails at fails
    unfold Succeeds at succeeds
    rw [fails] at succeeds
    cases succeeds

/-- A sequence settles just where its first part does, and the rest after it. -/
theorem settles_bind_iff {next : α → Nat → Running ε β} (steady : Steady call)
    (next_steady : ∀ value, Comes call value → Steady (next value)) :
    Settles Allowed (fun fuel => call fuel >>= fun value => next value fuel)
      ↔ Settles Allowed call
        ∧ ∀ value, Comes call value → Settles Allowed (next value) := by
  constructor
  · rintro ⟨-, fuel, decides⟩
    obtain ⟨first, rest⟩ := decides_bind.mp decides
    refine ⟨⟨steady, fuel, first⟩, fun value comes => ?_⟩
    have succeeds := steady.succeeds_of_ended first.ended comes
    exact ⟨next_steady value comes, fuel, rest value succeeds⟩
  · rintro ⟨settles, next_settles⟩
    exact settles.bind next_settles

theorem discard_eq (running : Running ε α) :
    discard running = running >>= fun _ => pure PUnit.unit := by
  rcases outcome : running.run with _ | failure | value
  · obtain rfl : running = ExceptT.mk none := outcome
    rfl
  · obtain rfl : running = ExceptT.mk (some (.error failure)) := outcome
    rfl
  · obtain rfl : running = ExceptT.mk (some (.ok value)) := outcome
    rfl

theorem Settles.discard (settles : Settles Allowed call) :
    Settles Allowed fun fuel => discard (call fuel) := by
  simp only [discard_eq]
  exact settles.bind fun _ _ => settles_pure _

/-- A loop settles when its body does for every item it comes to. -/
theorem settles_forM_split {Item : Type} {body : Item → Nat → Running ε PUnit}
    (items : List Item)
    (settles : ∀ before item after, items = before ++ item :: after →
      (∀ earlier ∈ before, Comes (body earlier) ⟨⟩) →
        Settles Allowed (body item)) :
    Settles Allowed fun fuel => forM items fun item => body item fuel := by
  induction items with
  | nil => exact settles_pure PUnit.unit
  | cons item rest inductionHypothesis =>
      have first := settles [] item rest rfl (by simp)
      refine first.bind fun _ comes => inductionHypothesis ?_
      intro before later after split earlier
      refine settles (item :: before) later after (by rw [split]; rfl) ?_
      intro other within
      rcases List.mem_cons.mp within with rfl | within
      · exact comes
      · exact earlier other within

/-- A loop settles just where its body does for every item it comes to. -/
theorem settles_forM_iff {Item : Type} {body : Item → Nat → Running ε PUnit}
    {items : List Item} (steady : ∀ item ∈ items, Steady (body item)) :
    Settles Allowed (fun fuel => forM items fun item => body item fuel)
      ↔ ∀ before item after, items = before ++ item :: after →
        (∀ earlier ∈ before, Comes (body earlier) ⟨⟩) →
          Settles Allowed (body item) := by
  refine ⟨fun settles => ?_, settles_forM_split items⟩
  induction items with
  | nil =>
      intro before item after split
      simp at split
  | cons first rest inductionHypothesis =>
      have later : ∀ item ∈ rest, Steady (body item) := fun item within =>
        steady item (List.mem_cons_of_mem _ within)
      obtain ⟨one, others⟩ := (settles_bind_iff (steady first
        List.mem_cons_self) fun _ _ => steady_forM rest later).mp settles
      intro before item after split earlier
      cases before with
      | nil =>
          obtain ⟨rfl, -⟩ := List.cons.inj split
          exact one
      | cons other before =>
          obtain ⟨rfl, rest_split⟩ := List.cons.inj split
          refine inductionHypothesis later
            (others _ (earlier _ List.mem_cons_self)) before item after
            rest_split ?_
          exact fun other within => earlier other (List.mem_cons_of_mem _ within)

theorem settles_forM {Item : Type} {body : Item → Nat → Running ε PUnit}
    (items : List Item) (settles : ∀ item ∈ items, Settles Allowed (body item)) :
    Settles Allowed fun fuel => forM items fun item => body item fuel :=
  settles_forM_split items fun before item after split _ =>
    settles item (by rw [split]; simp)

theorem Below.mapM {Item : Type} {body later : Item → Running ε β}
    (items : List Item) (below : ∀ item ∈ items, Below (body item) (later item)) :
    Below (items.mapM body) (items.mapM later) := by
  induction items with
  | nil =>
      rw [List.mapM_nil, List.mapM_nil]
      exact Below.refl _
  | cons item rest inductionHypothesis =>
      rw [List.mapM_cons, List.mapM_cons]
      refine (below item List.mem_cons_self).bind fun first _ => ?_
      refine Below.bind (inductionHypothesis ?_) fun _ _ => Below.refl _
      exact fun other within => below other (List.mem_cons_of_mem _ within)

/-- A loop that ends succeeds when its body does wherever it ends. -/
theorem succeeds_of_ended_mapM {Item : Type} {body : Item → Running ε β}
    {items : List Item}
    (succeed : ∀ item ∈ items, Ended (body item) →
      ∃ value, Succeeds (body item) value)
    (ended : Ended (items.mapM body)) :
    (∀ item ∈ items, Ended (body item))
      ∧ ∃ values, Succeeds (items.mapM body) values := by
  induction items with
  | nil => exact ⟨by simp, [], by rw [List.mapM_nil]; rfl⟩
  | cons item rest inductionHypothesis =>
      rw [List.mapM_cons] at ended ⊢
      obtain ⟨first, later⟩ := (ended_bind _ _).mp ended
      obtain ⟨value, one⟩ := succeed item List.mem_cons_self first
      obtain ⟨others, -⟩ := (ended_bind _ _).mp (later value one)
      obtain ⟨every, values, gathered⟩ := inductionHypothesis
        (fun other within => succeed other (List.mem_cons_of_mem _ within)) others
      refine ⟨List.forall_mem_cons.mpr ⟨first, every⟩, value :: values, ?_⟩
      exact (succeeds_bind _ _ _).mpr ⟨value, one,
        (succeeds_bind _ _ _).mpr ⟨values, gathered, rfl⟩⟩

theorem settles_mapM {Item : Type} {body : Item → Nat → Running ε β}
    (items : List Item) (settles : ∀ item ∈ items, Settles Allowed (body item)) :
    Settles Allowed fun fuel => items.mapM fun item => body item fuel := by
  induction items with
  | nil =>
      simp only [List.mapM_nil]
      exact settles_pure _
  | cons item rest inductionHypothesis =>
      simp only [List.mapM_cons]
      refine (settles item List.mem_cons_self).bind fun first _ => ?_
      have others := inductionHypothesis fun later within =>
        settles later (List.mem_cons_of_mem _ within)
      exact others.bind fun values _ => settles_pure (first :: values)

theorem settles_foldlM {Item : Type} {step : β → Item → Nat → Running ε β}
    (items : List Item) (start : β)
    (settles : ∀ state, ∀ item ∈ items, Settles Allowed (step state item)) :
    Settles Allowed fun fuel =>
      items.foldlM (fun state item => step state item fuel) start := by
  induction items generalizing start with
  | nil =>
      simp only [List.foldlM_nil]
      exact settles_pure start
  | cons item rest inductionHypothesis =>
      simp only [List.foldlM_cons]
      refine (settles start item List.mem_cons_self).bind fun state _ => ?_
      exact inductionHypothesis state fun other later within =>
        settles other later (List.mem_cons_of_mem _ within)

end Clerkenwell.Foundation.Running
