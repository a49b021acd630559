import SessionShell.Concurrent

/-!
Interleavings: what threads can do together, whatever the order in which they take their steps.

A step of a machine is a step of any one of its threads that does not have to wait, or the arrival
of threads that were started. Settling is one way to take such steps, so what holds in every machine
that can be reached holds in a settled one. On a course the surroundings may change the state in
between as well, as when time passes, and a course can be restricted to steps that are allowed.
-/

namespace SessionShell

namespace Life

variable {σ ρ : Type}

/-- One step of a thread: an act, the change to its next role, or its end. Gives nothing as long as
the act has to wait. -/
def stepThread? (life : Life σ ρ) (t : Thread σ ρ) (s : σ) : Option (Option (Thread σ ρ) × σ) :=
  match t.rest with
  | .ask act next => (act.run t.id s).map fun (answer, s) => (some ⟨t.id, next answer⟩, s)
  | .done (some role) => some (some ⟨t.id, life.program role⟩, s)
  | .done none => some (none, s)
  | .crash => some (none, s)

inductive Step (life : Life σ ρ) : Machine σ ρ → Machine σ ρ → Prop where
  | thread {before after : List (Thread σ ρ)} {t : Thread σ ρ} {t? : Option (Thread σ ρ)} {s s' : σ}
      (h : life.stepThread? t s = some (t?, s')) :
      Step life ⟨s, before ++ t :: after⟩ ⟨s', before ++ (t?.toList ++ after)⟩
  | adopt (m : Machine σ ρ) : Step life m (life.adopt m)

inductive Reaches (life : Life σ ρ) : Machine σ ρ → Machine σ ρ → Prop where
  | refl (m : Machine σ ρ) : Reaches life m m
  | head {m m' m'' : Machine σ ρ} (h : life.Step m m') (hs : Reaches life m' m'') :
      Reaches life m m''

namespace Reaches

variable {life : Life σ ρ}

theorem trans {m m' m'' : Machine σ ρ} (h : life.Reaches m m') (h' : life.Reaches m' m'') :
    life.Reaches m m'' := by
  induction h with
  | refl => exact h'
  | head step _ ih => exact .head step (ih h')

theorem single {m m' : Machine σ ρ} (h : life.Step m m') : life.Reaches m m' :=
  .head h (.refl _)

theorem invariant {m m' : Machine σ ρ} (h : life.Reaches m m') (P : Machine σ ρ → Prop)
    (hstep : ∀ a b, life.Step a b → P a → P b) (hm : P m) : P m' := by
  induction h with
  | refl => exact hm
  | head step _ ih => exact ih (hstep _ _ step hm)

end Reaches

/-- What is left of a thread that has run as far as it can by itself. -/
def standingRest {α : Type} : Action.Standing σ α → Action σ α
  | .done a => .done a
  | .crashed => .crash
  | .waiting rest => rest

theorem reaches_advance (life : Life σ ρ) (before after : List (Thread σ ρ)) (id : ThreadId)
    (rest : Action σ (Option ρ)) (s : σ) :
    life.Reaches ⟨s, before ++ ⟨id, rest⟩ :: after⟩
      ⟨(rest.advance id s).2.2,
        before ++ ⟨id, standingRest (rest.advance id s).2.1⟩ :: after⟩ := by
  induction rest generalizing s with
  | done a => exact .refl _
  | crash => exact .refl _
  | ask act next ih =>
    cases hact : act.run id s with
    | none =>
      simp only [Action.advance, hact]
      exact .refl _
    | some r =>
      obtain ⟨answer, s'⟩ := r
      have hstep : life.stepThread? ⟨id, .ask act next⟩ s = some (some ⟨id, next answer⟩, s') := by
        simp [stepThread?, hact]
      simp only [Action.advance, hact]
      exact .head (.thread hstep) (ih answer s')

theorem reaches_runThread (life : Life σ ρ) (fuel : Nat) (before after : List (Thread σ ρ))
    (t : Thread σ ρ) (s : σ) :
    life.Reaches ⟨s, before ++ t :: after⟩
      ⟨(life.runThread fuel t s).2.2,
        before ++ ((life.runThread fuel t s).2.1.toList ++ after)⟩ := by
  induction fuel generalizing t s with
  | zero => exact .refl _
  | succ fuel ih =>
    have hadvance := life.reaches_advance before after t.id t.rest s
    rcases hr : t.rest.advance t.id s with ⟨moved, standing, s'⟩
    rw [hr] at hadvance
    refine hadvance.trans ?_
    cases standing with
    | waiting rest =>
      simp only [runThread, hr, standingRest]
      exact .refl _
    | crashed =>
      simp only [runThread, hr, standingRest]
      exact .single (.thread rfl)
    | done role? =>
      cases role? with
      | none =>
        simp only [runThread, hr, standingRest]
        exact .single (.thread rfl)
      | some role =>
        simp only [runThread, hr, standingRest]
        have hstep : life.stepThread? ⟨t.id, .done (some role)⟩ s'
            = some (some ⟨t.id, life.program role⟩, s') := rfl
        exact .head (.thread hstep) (ih ⟨t.id, life.program role⟩ s')

theorem reaches_pass (life : Life σ ρ) (fuel : Nat) (before threads : List (Thread σ ρ)) (s : σ) :
    life.Reaches ⟨s, before ++ threads⟩
      ⟨(life.pass fuel threads s).2.2, before ++ (life.pass fuel threads s).2.1⟩ := by
  induction threads generalizing before s with
  | nil => exact .refl _
  | cons t threads ih =>
    by_cases hover : life.isOver s
    · simp only [pass, hover, if_true]
      exact .refl _
    · simp only [pass, hover]
      have hrun := life.reaches_runThread fuel before threads t s
      have hrest :=
        ih (before ++ (life.runThread fuel t s).2.1.toList) (life.runThread fuel t s).2.2
      simp only [List.append_assoc] at hrest
      exact hrun.trans hrest

theorem reaches_settle (life : Life σ ρ) (fuel : Nat) (m : Machine σ ρ) :
    life.Reaches m (life.settle fuel m) := by
  induction fuel generalizing m with
  | zero => exact .refl _
  | succ fuel ih =>
    have hpass := life.reaches_pass (fuel + 1) [] (life.adopt m).threads (life.adopt m).shared
    refine .head (.adopt m) (hpass.trans ?_)
    simp only [settle, List.nil_append]
    split
    · exact ih _
    · exact .refl _

/-! ## Courses -/

/-- Threads that were started and did not join the others yet. -/
def pending (life : Life σ ρ) (s : σ) : List (ThreadId × ρ) :=
  (life.takeStarted s).1

/-- All threads, with those that did not join yet behind the others. -/
def crew (life : Life σ ρ) (m : Machine σ ρ) : List (Thread σ ρ) :=
  m.threads ++ (life.pending m.shared).map fun (id, role) => ⟨id, life.program role⟩

def machine (life : Life σ ρ) (s : σ) (crew : List (ThreadId × ρ)) : Machine σ ρ :=
  ⟨s, crew.map fun (id, role) => ⟨id, life.program role⟩⟩

variable {life : Life σ ρ} {allowed : ThreadId → σ → σ → Prop} {env : σ → σ → Prop}
  {m m' m'' : Machine σ ρ}

inductive Move (life : Life σ ρ) (allowed : ThreadId → σ → σ → Prop) (env : σ → σ → Prop) :
    Machine σ ρ → Machine σ ρ → Prop where
  | thread {before after : List (Thread σ ρ)} {t : Thread σ ρ} {t? : Option (Thread σ ρ)} {s s' : σ}
      (h : life.stepThread? t s = some (t?, s')) (ha : allowed t.id s s') :
      Move life allowed env ⟨s, before ++ t :: after⟩ ⟨s', before ++ (t?.toList ++ after)⟩
  | adopt (m : Machine σ ρ) : Move life allowed env m (life.adopt m)
  | env {m : Machine σ ρ} {s : σ} (h : env m.shared s) :
      Move life allowed env m { m with shared := s }

inductive Course (life : Life σ ρ) (allowed : ThreadId → σ → σ → Prop) (env : σ → σ → Prop)
    (m : Machine σ ρ) : Machine σ ρ → Prop where
  | refl : Course life allowed env m m
  | tail {m' m'' : Machine σ ρ} (h : Course life allowed env m m')
      (hmove : life.Move allowed env m' m'') : Course life allowed env m m''

namespace Course

theorem trans (h : life.Course allowed env m m') (h' : life.Course allowed env m' m'') :
    life.Course allowed env m m'' := by
  induction h' with
  | refl => exact h
  | tail _ hmove ih => exact ih.tail hmove

theorem single (h : life.Move allowed env m m') : life.Course allowed env m m' :=
  refl.tail h

theorem of_reaches (h : life.Reaches m m') : life.Course (fun _ _ _ => True) env m m' := by
  induction h with
  | refl => exact .refl
  | head hstep _ ih =>
    refine (single ?_).trans ih
    cases hstep with
    | thread h => exact .thread h trivial
    | adopt => exact .adopt _

end Course

end Life

end SessionShell
