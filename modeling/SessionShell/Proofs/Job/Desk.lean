import SessionShell.Compile.Job
import SessionShell.Proofs.Program.Serving

/-!
A job at a desk: what surrounds a job while it runs, what its listener has heard, and what waits
to be heard.
-/

namespace SessionShell

/-- What surrounds a job at one of its questions. -/
structure Moment where
  time : Nat
  /-- Whether somebody cancels the job just before the question. -/
  cancels : Bool
  file : (call : FileCall) → call.Reply

/-- A job's token, what it asked, and what it told. -/
structure Desk where
  turn : Nat
  cancelled : Bool
  asked : List (Exchange WorkCall.Reply)
  heard : List JobEvent

namespace Desk

variable {α β : Type}

def new (cancelled : Bool) : Desk :=
  ⟨0, cancelled, [], []⟩

def workReply (m : Moment) (cancelled : Bool) : (call : WorkCall) → call.Reply
  | .isCancelled => cancelled
  | .cancel | .sleep _ | .gate _ => ()
  | .file call => m.file call

def answer (world : Nat → Moment) (call : JobCall) : StateM Desk call.Reply := fun d =>
  let m := world d.turn
  let d := { d with turn := d.turn + 1, cancelled := d.cancelled || m.cancels }
  match call with
  | .now => (m.time, d)
  | .work call =>
    let reply := workReply m d.cancelled call
    (reply,
      { d with cancelled := d.cancelled || call = .cancel, asked := d.asked ++ [⟨call, reply⟩] })
  | .notify event => ((), { d with heard := d.heard ++ [event] })

/-- What a job does at a desk, and the desk behind it. A crash has no result. -/
def run (world : Nat → Moment) (p : JobProgram α) (d : Desk) : Option α × Desk :=
  p.runIn (m := StateM Desk) (answer world) d

variable {world : Nat → Moment} {p : JobProgram α} {f : α → JobProgram β} {d d' d'' : Desk}

theorem run_call (world : Nat → Moment) (call : JobCall) (d : Desk) :
    run world (Program.call call) d = (some (answer world call d).1, (answer world call d).2) :=
  rfl

theorem run_bind {a : α} (hp : run world p d = (some a, d')) :
    run world (p >>= f) d = run world (f a) d' := by
  induction p generalizing d with
  | done a' =>
    cases hp
    rfl
  | crash => cases hp
  | ask call next ih => exact ih _ hp

/-- From one desk to another, the token is set only by the build, by those around, and for good. -/
structure Token (world : Nat → Moment) (own : Bool) (d d' : Desk) : Prop where
  later : d.turn ≤ d'.turn
  kept : d.cancelled = true ∨ own = true → d'.cancelled = true
  cause : d'.cancelled = true →
    d.cancelled = true ∨ own = true ∨ ∃ k, d.turn ≤ k ∧ k < d'.turn ∧ (world k).cancels = true

theorem Token.trans {own own' : Bool} (h : Token world own d d') (h' : Token world own' d' d'') :
    Token world (own || own') d d'' := by
  refine ⟨Nat.le_trans h.later h'.later, fun hset => ?_, fun hset => ?_⟩
  · rw [Bool.or_eq_true] at hset
    rcases hset with hd | hown | hown'
    · exact h'.kept (.inl (h.kept (.inl hd)))
    · exact h'.kept (.inl (h.kept (.inr hown)))
    · exact h'.kept (.inr hown')
  · rw [Bool.or_eq_true]
    have := h.later
    have := h'.later
    rcases h'.cause hset with hd' | hown' | ⟨k, hle, hlt, hk⟩
    · rcases h.cause hd' with hd | hown | ⟨k, hle, hlt, hk⟩
      · exact .inl hd
      · exact .inr (.inl (.inl hown))
      · exact .inr (.inr ⟨k, hle, by omega, hk⟩)
    · exact .inr (.inl (.inr hown'))
    · exact .inr (.inr ⟨k, by omega, hlt, hk⟩)

theorem token_answer (world : Nat → Moment) (call : JobCall) (d : Desk) :
    Token world (call = .work .cancel) d (answer world call d).2 := by
  have hcause : (d.cancelled || (world d.turn).cancels) = true →
      d.cancelled = true ∨ ∃ k, d.turn ≤ k ∧ k < d.turn + 1 ∧ (world k).cancels = true := by
    intro hset
    rw [Bool.or_eq_true] at hset
    exact hset.imp id fun h => ⟨d.turn, by omega, by omega, h⟩
  cases call with
  | now => exact ⟨by simp [answer], by simp +contextual [answer], fun h => (hcause h).imp id .inr⟩
  | notify event =>
    exact ⟨by simp [answer], by simp +contextual [answer], fun h => (hcause h).imp id .inr⟩
  | work call =>
    refine ⟨by simp [answer], ?_, fun hset => ?_⟩
    · rintro (h | h) <;> simp_all [answer]
    · simp only [answer] at hset
      rw [Bool.or_eq_true] at hset
      rcases hset with hset | hset
      · exact (hcause hset).imp id .inr
      · exact .inr (.inl (by simpa using hset))

end Desk

/-!
## What is reported is delivered or waits

Reports wait in the throttle until a batch is due, so what was delivered and what still waits are
together what was reported.
-/

def workOf? : Exchange BuildCall.Reply → Option (Exchange WorkCall.Reply)
  | ⟨.post .., _⟩ => none
  | ⟨.work call, reply⟩ => some ⟨call, reply⟩

def reportOf? (title : String) : Exchange BuildCall.Reply → Option Progress
  | ⟨.post message share, _⟩ => some (CompileJob.report title message share)
  | ⟨.work _, _⟩ => none

theorem terminal_of_reportOf? {title : String} {exchange : Exchange BuildCall.Reply} {p : Progress}
    (h : reportOf? title exchange = some p) : p.terminal = false := by
  obtain ⟨call, reply⟩ := exchange
  cases call with
  | post message share =>
    cases h
    rfl
  | work call => cases h

def isCancelling (exchange : Exchange BuildCall.Reply) : Bool :=
  exchange.1 = .work .cancel

namespace Throttle

theorem offer_delivers (t : Throttle) (now : Nat) (p : Progress) :
    ((t.offer now p).1.toList).flatten ++ (t.offer now p).2.pending.toList =
      t.pending.toList ++ [p] := by
  unfold offer offerAt
  by_cases hdue : { t with pending := t.pending.push p }.isDue now
  · simp [hdue, drain]
  · simp [hdue]

end Throttle

namespace Desk

variable {world : Nat → Moment} {title : String} {built rest : List (Exchange BuildCall.Reply)}
  {throttle throttle' throttle'' : Throttle} {d d' d'' : Desk}

/-- A build has gone so far: its reports were delivered or wait, and all else it asked was asked. -/
structure Carried (world : Nat → Moment) (title : String) (built : List (Exchange BuildCall.Reply))
    (throttle throttle' : Throttle) (d d' : Desk) : Prop where
  asked : d'.asked = d.asked ++ built.filterMap workOf?
  heard : ∃ batches : List (List Progress), d'.heard = d.heard ++ batches.map .status ∧
    batches.flatten ++ throttle'.pending.toList =
      throttle.pending.toList ++ built.filterMap (reportOf? title)
  token : Token world (built.any isCancelling) d d'

theorem Carried.refl : Carried world title [] throttle throttle d d :=
  ⟨by simp, ⟨[], by simp, by simp⟩, ⟨Nat.le_refl _, by simp, .inl⟩⟩

theorem Carried.trans (h : Carried world title built throttle throttle' d d')
    (h' : Carried world title rest throttle' throttle'' d' d'') :
    Carried world title (built ++ rest) throttle throttle'' d d'' := by
  obtain ⟨batches, hheard, hflow⟩ := h.heard
  obtain ⟨batches', hheard', hflow'⟩ := h'.heard
  refine ⟨?_, ⟨batches ++ batches', ?_, ?_⟩, ?_⟩
  · simp [h'.asked, h.asked]
  · simp [hheard', hheard]
  · rw [List.flatten_append, List.append_assoc, hflow', ← List.append_assoc, hflow]
    simp
  · rw [List.any_append]
    exact h.token.trans h'.token

theorem run_post (world : Nat → Moment) (title message : String)
    (share : Option (UInt64 × UInt64)) (throttle : Throttle) (d : Desk) : ∃ throttle' d',
      run world (CompileJob.post title message share throttle) d = (some throttle', d') ∧
        Carried world title [⟨.post message share, ()⟩] throttle throttle' d d' := by
  have hflow :=
    throttle.offer_delivers (answer world .now d).1 (CompileJob.report title message share)
  have hnow := token_answer world .now d
  unfold CompileJob.post
  rw [run_bind (run_call world .now d)]
  cases hoffer : throttle.offer (answer world .now d).1 (CompileJob.report title message share) with
  | mk batch? throttle' =>
    rw [hoffer] at hflow
    cases batch? with
    | none =>
      exact ⟨throttle', _, rfl, by simp [answer, workOf?], ⟨[], by simp [answer], hflow⟩, hnow⟩
    | some batch =>
      refine ⟨throttle', _, rfl, by simp [answer, workOf?], ⟨[batch], by simp [answer], hflow⟩, ?_⟩
      exact hnow.trans (token_answer world (.notify (.status batch)) _)

theorem carried_work (call : WorkCall) (throttle : Throttle) (d : Desk) :
    Carried world title [⟨.work call, (answer world (.work call) d).1⟩] throttle throttle d
      (answer world (.work call) d).2 := by
  refine ⟨by simp [answer, workOf?], ⟨[], by simp [answer], by simp [reportOf?]⟩, ?_⟩
  have htoken := token_answer world (.work call) d
  simpa [isCancelling] using htoken

theorem run_carryOut {α : Type} (world : Nat → Moment) (title : String)
    (p : Program BuildCall BuildCall.Reply α) (throttle : Throttle) (d : Desk) :
    ∃ (built : List (Exchange BuildCall.Reply)) (result? : Option α) (throttle' : Throttle)
      (d' : Desk),
      run world (CompileJob.carryOut title p throttle) d = (some (result?, throttle'), d') ∧
        p.Goes built result? ∧ Carried world title built throttle throttle' d d' := by
  -- On the build, from the throttle and the desk that its reports so far have left.
  induction p generalizing throttle d with
  | done a => exact ⟨[], some a, throttle, d, rfl, .done a, .refl⟩
  | crash => exact ⟨[], none, throttle, d, rfl, .crash, .refl⟩
  | ask call next ih =>
    cases call with
    | post message share =>
      obtain ⟨throttle₁, d₁, hpost, hcarried⟩ :=
        run_post world title message share throttle d
      obtain ⟨built, result?, throttle', d', hrest, hgoes, hcarried'⟩ := ih () throttle₁ d₁
      exact ⟨_, result?, throttle', d', (run_bind hpost).trans hrest, .ask hgoes,
        hcarried.trans hcarried'⟩
    | work call =>
      obtain ⟨built, result?, throttle', d', hrest, hgoes, hcarried⟩ :=
        ih (answer world (.work call) d).1 throttle (answer world (.work call) d).2
      exact ⟨_, result?, throttle', d', hrest, .ask hgoes,
        (carried_work call throttle d).trans hcarried⟩

end Desk

end SessionShell
