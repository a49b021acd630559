import Mathlib.Data.List.Forall2
import SessionShell.Interleaving
import SessionShell.Proofs.Turns.Scribes

/-!
Threads that take turns.

While the two scribes write in the background, all other threads may be so placed that only one of
them can go on at a time. What they do is then a path that leaves no choice. However the steps of
all threads fall, a machine is never anywhere but on this path, with the scribes so and so far
behind; and it comes to the end of the path.
-/

namespace SessionShell

open Action Shell

inductive Life.Advances {σ ρ : Type} (life : Life σ ρ) : Machine σ ρ → Machine σ ρ → Prop where
  | thread {before after : List (Thread σ ρ)} {t : Thread σ ρ} {t? : Option (Thread σ ρ)} {s s' : σ}
      (h : life.stepThread? t s = some (t?, s')) :
      Advances life ⟨s, before ++ t :: after⟩ ⟨s', before ++ (t?.toList ++ after)⟩
  | adopt {m : Machine σ ρ} (h : life.pending m.shared ≠ []) : Advances life m (life.adopt m)

theorem Shell.advances_of_step {m m' : Machine Shell Role} (h : life.Step m m') :
    life.Advances m m' ∨ m' = m := by
  cases h with
  | thread h => exact .inl (.thread h)
  | adopt =>
    by_cases hnone : m.shared.started = []
    · right
      have hshared : { m.shared with started := [] } = m.shared := by rw [← hnone]
      simp only [Life.adopt, life, hnone, hshared, List.map_nil, List.append_nil]
    · exact .inl (.adopt hnone)

structure Writing.Trails (out err : Option (Queued String)) (x c : Writing) : Prop where
  out : x.out.Trails out c.out
  err : x.err.Trails err c.err

/-- However far the scribes are, the act has this answer and this effect, if it has not to wait for
them. -/
structure Takes (me : ThreadId) (act : Act Shell) (b : Shell) (w : Writing) (answer : act.Answer)
    (b' : Shell) (w' : Writing) : Prop where
  same : ∀ (out err : Option (Queued String)) (x : Writing) (answer' : act.Answer) (s : Shell),
    x.Trails out err w → act.run me (b.writing x) = some (answer', s) → answer' = answer ∧
      ∃ x', s = b'.writing x' ∧ x'.Trails out err w' ∧ x'.started = x.started
  ready : ∀ x : Writing, x.Trails none none w → x.out.service.queue = [] →
    x.err.service.queue = [] →
    (act.run me (b.writing x)).isSome

def Blocked (b : Shell) (t : Thread Shell Role) : Prop :=
  ∃ act next, t.rest = .ask act next ∧ ∀ x, act.run t.id (b.writing x) = none

/-- A thread that is through with its role has taken up the next one. -/
inductive Resumes : Action Shell (Option Role) → Action Shell (Option Role) → Prop where
  | here (p : Action Shell (Option Role)) : Resumes p p
  | next (role : Role) : Resumes (.done (some role)) (program role)

theorem Resumes.cases {p p' : Action Shell (Option Role)} (h : Resumes p p') :
    p = p' ∨ ∃ role, p = .done (some role) ∧ p' = program role := by
  cases h with
  | here => exact .inl rfl
  | next role => exact .inr ⟨role, rfl, rfl⟩

/-- The threads but for the scribes, over what the scribes have not come to yet. -/
structure Plot where
  shell : Shell
  writing : Writing
  team : List (Thread Shell Role)

/-- A turn of the only thread that can take one, before the shell has ended. -/
inductive Turn : Plot → Plot → Prop where
  | take {b b' : Shell} {w w' : Writing} {before after : List (Thread Shell Role)} {id : ThreadId}
      {act : Act Shell} {next : act.Answer → Action Shell (Option Role)} {answer : act.Answer}
      {p : Action Shell (Option Role)} (hopen : b.ended = none)
      (hothers : ∀ t ∈ before ++ after, Blocked b t) (h : Takes id act b w answer b' w')
      (hp : Resumes (next answer) p) :
      Turn ⟨b, w, before ++ ⟨id, .ask act next⟩ :: after⟩ ⟨b', w', before ++ ⟨id, p⟩ :: after⟩

inductive Path : Plot → Plot → Prop where
  | refl (c : Plot) : Path c c
  | head {c c' last : Plot} (h : Turn c c') (hs : Path c' last) : Path c last

theorem Path.trans {c c' c'' : Plot} (h : Path c c') (h' : Path c' c'') : Path c c'' := by
  induction h with
  | refl => exact h'
  | head hturn _ ih => exact .head hturn (ih h')

theorem Path.eq_of_ended {c last : Plot} (h : Path c last) (hended : c.shell.ended.isSome) :
    c = last := by
  cases h with
  | refl => rfl
  | head hturn _ =>
    cases hturn with
    | take hopen => simp [hopen] at hended

def Plot.IsLast (c : Plot) : Prop :=
  ∀ t ∈ c.team, Blocked c.shell t

structure Quill where
  id : ThreadId
  held : Option (Queued String)
  steps : Nat
  rest : Action Shell (Option Role)

def Quill.thread (h : Quill) : Thread Shell Role :=
  ⟨h.id, h.rest⟩

structure Standpoint where
  writing : Writing
  out : Quill
  err : Quill
  team : List (Thread Shell Role)

namespace Standpoint

def resumes (t : Thread Shell Role) : Bool :=
  match t.rest with
  | .done _ => true
  | _ => false

def work (v : Standpoint) : Nat :=
  (3 * v.writing.out.service.queue.length + v.out.steps)
    + (3 * v.writing.err.service.queue.length + v.err.steps)
    + v.team.countP resumes + (if v.writing.started.isEmpty then 0 else 1)

structure Shows (v : Standpoint) (c : Plot) (m : Machine Shell Role) : Prop where
  shared : m.shared = c.shell.writing v.writing
  trails : v.writing.Trails v.out.held v.err.held c.writing
  out : Scribe.out.Stands v.out.held v.out.steps v.out.rest
  err : Scribe.err.Stands v.err.held v.err.steps v.err.rest
  crew : life.crew m = v.out.thread :: v.err.thread :: v.team
  team : List.Forall₂ (fun t t' => t.id = t'.id ∧ Resumes t.rest t'.rest) v.team c.team

variable {v : Standpoint} {c c' last : Plot} {m m' : Machine Shell Role}

theorem shows_adopt (h : v.Shows c m) (hpending : life.pending m.shared ≠ []) :
    ∃ v' : Standpoint, v'.Shows c (life.adopt m) ∧ v'.work < v.work := by
  refine ⟨{ v with writing := { v.writing with started := [] } }, ⟨?_, ⟨h.trails.out, h.trails.err⟩,
    h.out, h.err, ?_, h.team⟩, ?_⟩
  · change { m.shared with started := [] } = _
    rw [h.shared]
    rfl
  · rw [← h.crew]
    exact List.append_nil _
  · rw [h.shared] at hpending
    cases hstarted : v.writing.started with
    | nil => exact absurd hstarted hpending
    | cons new news => simp [work, hstarted]

theorem split_cases {α : Type*} {before after before' after' : List α} {a a' : α}
    (h : before ++ a :: after = before' ++ a' :: after') :
    (before = before' ∧ a = a' ∧ after = after') ∨ a ∈ before' ++ after' := by
  induction before generalizing before' with
  | nil =>
    cases before' with
    | nil =>
      cases h
      exact .inl ⟨rfl, rfl, rfl⟩
    | cons b before' =>
      cases h
      exact .inr List.mem_cons_self
  | cons b before ih =>
    cases before' with
    | nil =>
      cases h
      exact .inr (by simp)
    | cons b' before' =>
      obtain ⟨rfl, hrest⟩ := List.cons.inj h
      rcases ih hrest with ⟨rfl, ha, hafter⟩ | hin
      · exact .inl ⟨rfl, ha, hafter⟩
      · exact .inr (List.mem_cons_of_mem _ hin)

theorem forall₂_split {α β : Type*} {R : α → β → Prop} {before after : List α} {a : α} {bs : List β}
    (h : List.Forall₂ R (before ++ a :: after) bs) :
    ∃ before' b after', bs = before' ++ b :: after' ∧ List.Forall₂ R before before' ∧ R a b ∧
      List.Forall₂ R after after' := by
  induction before generalizing bs with
  | nil =>
    obtain ⟨b, after', hab, hafter, rfl⟩ := List.forall₂_cons_left_iff.mp h
    exact ⟨[], b, after', rfl, .nil, hab, hafter⟩
  | cons a' before ih =>
    obtain ⟨b', bs', hab, hrest, rfl⟩ := List.forall₂_cons_left_iff.mp h
    obtain ⟨before', b, after', rfl, hbefore, hb, hafter⟩ := ih hrest
    exact ⟨b' :: before', b, after', rfl, .cons hab hbefore, hb, hafter⟩

theorem crew_thread (before after : List (Thread Shell Role)) (t : Thread Shell Role) (s : Shell) :
    ∃ rest, life.crew ⟨s, before ++ t :: after⟩ = before ++ t :: rest ∧
      ∀ (s' : Shell) (t' : Thread Shell Role), s'.started = s.started →
        life.crew ⟨s', before ++ ((some t').toList ++ after)⟩ = before ++ t' :: rest := by
  refine ⟨after ++ life.crew ⟨s, []⟩, by simp [Life.crew], fun s' t' hstarted => ?_⟩
  simp [Life.crew, Life.pending, life, hstarted]

theorem shows_out {t? : Option (Thread Shell Role)} {s' : Shell}
    {threads : List (Thread Shell Role)}
    (h : v.Shows c m) (hstep : life.stepThread? v.out.thread m.shared = some (t?, s'))
    (hcrew : ∀ t', t? = some t' → s'.started = m.shared.started →
      life.crew ⟨s', threads⟩ = t' :: v.err.thread :: v.team) :
    ∃ v' : Standpoint, v'.Shows c ⟨s', threads⟩ ∧ v'.work < v.work := by
  rw [h.shared] at hstep
  obtain ⟨held, n, p, x, rfl, hstands, rfl, htrails, hless⟩ := h.out.step hstep
  refine ⟨{ v with
    writing := { v.writing with out := x }
    out := ⟨v.out.id, held, n, p⟩ }, ⟨rfl, ⟨htrails _ h.trails.out, h.trails.err⟩, hstands, h.err,
      hcrew _ rfl (by rw [h.shared]; rfl), h.team⟩, ?_⟩
  simp only [Scribe.sheet] at hless
  simp only [work]
  omega

theorem shows_err {t? : Option (Thread Shell Role)} {s' : Shell}
    {threads : List (Thread Shell Role)}
    (h : v.Shows c m) (hstep : life.stepThread? v.err.thread m.shared = some (t?, s'))
    (hcrew : ∀ t', t? = some t' → s'.started = m.shared.started →
      life.crew ⟨s', threads⟩ = v.out.thread :: t' :: v.team) :
    ∃ v' : Standpoint, v'.Shows c ⟨s', threads⟩ ∧ v'.work < v.work := by
  rw [h.shared] at hstep
  obtain ⟨held, n, p, x, rfl, hstands, rfl, htrails, hless⟩ := h.err.step hstep
  refine ⟨{ v with
    writing := { v.writing with err := x }
    err := ⟨v.err.id, held, n, p⟩ }, ⟨rfl, ⟨h.trails.out, htrails _ h.trails.err⟩, h.out, hstands,
      hcrew _ rfl (by rw [h.shared]; rfl), h.team⟩, ?_⟩
  simp only [Scribe.sheet] at hless
  simp only [work]
  omega

inductive Next (c : Plot) : Option Plot → Prop where
  | turn {c' : Plot} (h : Turn c c') : Next c (some c')
  | last (h : c.IsLast) : Next c none

/-- Where a thread of the team stands, and the same thread on the path. -/
structure Place (v : Standpoint) (c : Plot) (before : List (Thread Shell Role))
    (t : Thread Shell Role) (after before' : List (Thread Shell Role)) (t' : Thread Shell Role)
    (after' : List (Thread Shell Role)) : Prop where
  here : v.team = before ++ t :: after
  there : c.team = before' ++ t' :: after'
  before : List.Forall₂ (fun t t' => t.id = t'.id ∧ Resumes t.rest t'.rest) before before'
  id : t.id = t'.id
  resumes : Resumes t.rest t'.rest
  after : List.Forall₂ (fun t t' => t.id = t'.id ∧ Resumes t.rest t'.rest) after after'

variable {before after before' after' : List (Thread Shell Role)} {t t' : Thread Shell Role}
  {t? : Option (Thread Shell Role)} {s' : Shell} {threads : List (Thread Shell Role)}

theorem exists_place (h : v.Shows c m) (hteam : v.team = before ++ t :: after) :
    ∃ before' t' after', v.Place c before t after before' t' after' := by
  obtain ⟨before', t', after', hplot, hbefore, ⟨hid, hrest⟩, hafter⟩ :=
    forall₂_split (hteam ▸ h.team)
  exact ⟨before', t', after', hteam, hplot, hbefore, hid, hrest, hafter⟩

theorem shows_resumed {act : Act Shell} {next : act.Answer → Action Shell (Option Role)}
    {role : Role} (h : v.Shows c m) (hplace : v.Place c before t after before' t' after')
    (hrest : t.rest = .done (some role)) (hrest' : t'.rest = program role)
    (hasks : program role = .ask act next) (hstep : life.stepThread? t m.shared = some (t?, s'))
    (hcrew : ∀ t', t? = some t' → s'.started = m.shared.started →
      life.crew ⟨s', threads⟩ = v.out.thread :: v.err.thread :: (before ++ t' :: after)) :
    ∃ v' : Standpoint, v'.Shows c ⟨s', threads⟩ ∧ v'.work < v.work := by
  obtain ⟨id, p⟩ := t
  dsimp only at hrest
  subst hrest
  cases hstep
  refine ⟨{ v with team := before ++ ⟨id, program role⟩ :: after },
    ⟨h.shared, h.trails, h.out, h.err,
    hcrew _ rfl rfl, ?_⟩, ?_⟩
  · rw [hplace.there]
    exact List.rel_append hplace.before
      (.cons ⟨hplace.id, by rw [hrest']; exact .here _⟩ hplace.after)
  · have hthrough : resumes ⟨id, .done (some role)⟩ = true := rfl
    have hbegins : resumes ⟨id, program role⟩ = false := by rw [hasks]; rfl
    simp only [work, hplace.here, List.countP_append, List.countP_cons, hthrough, hbegins, if_true]
    simp only [Bool.false_eq_true, if_false]
    omega

theorem shows_blocked (h : v.Shows c m) (hplace : v.Place c before t after before' t' after')
    (hblocked : Blocked c.shell t') (hstep : life.stepThread? t m.shared = some (t?, s'))
    (hcrew : ∀ t', t? = some t' → s'.started = m.shared.started →
      life.crew ⟨s', threads⟩ = v.out.thread :: v.err.thread :: (before ++ t' :: after)) :
    ∃ v' : Standpoint, v'.Shows c ⟨s', threads⟩ ∧ v'.work < v.work := by
  obtain ⟨act, next, hact, hnone⟩ := hblocked
  rcases hplace.resumes.cases with heq | ⟨role, hrest, hrest'⟩
  · simp [Life.stepThread?, heq.trans hact, h.shared, hplace.id, hnone] at hstep
  · exact shows_resumed h hplace hrest hrest' (hrest'.symm.trans hact) hstep hcrew

theorem shows_turn {b b' : Shell} {w w' : Writing} {id : ThreadId} {act : Act Shell}
    {next : act.Answer → Action Shell (Option Role)} {answer : act.Answer}
    {p' : Action Shell (Option Role)}
    (h : v.Shows ⟨b, w, before' ++ ⟨id, .ask act next⟩ :: after'⟩ m)
    (hplace : v.Place ⟨b, w, before' ++ ⟨id, .ask act next⟩ :: after'⟩ before t after before'
      ⟨id, .ask act next⟩ after')
    (htakes : Takes id act b w answer b' w') (hp' : Resumes (next answer) p')
    (hstep : life.stepThread? t m.shared = some (t?, s'))
    (hcrew : ∀ t', t? = some t' → s'.started = m.shared.started →
      life.crew ⟨s', threads⟩ = v.out.thread :: v.err.thread :: (before ++ t' :: after)) :
    (∃ v' : Standpoint, v'.Shows ⟨b, w, before' ++ ⟨id, .ask act next⟩ :: after'⟩ ⟨s', threads⟩ ∧
        v'.work < v.work) ∨
      ∃ v' : Standpoint, v'.Shows ⟨b', w', before' ++ ⟨id, p'⟩ :: after'⟩ ⟨s', threads⟩ := by
  rcases hplace.resumes.cases with heq | ⟨role, hrest, hrest'⟩
  · right
    obtain ⟨id', p⟩ := t
    cases hplace.id
    cases heq
    obtain ⟨⟨answer', s₁⟩, hact, hs'⟩ := Option.map_eq_some_iff.mp hstep
    cases hs'
    rw [h.shared] at hact
    obtain ⟨rfl, x, rfl, htrails, hstarted⟩ := htakes.same _ _ _ _ _ h.trails hact
    refine ⟨{ v with writing := x, team := before ++ ⟨id, next answer'⟩ :: after },
      ⟨rfl, htrails, h.out,
      h.err, hcrew _ rfl ?_, List.rel_append hplace.before (.cons ⟨rfl, hp'⟩ hplace.after)⟩⟩
    rw [h.shared]
    exact hstarted
  · exact .inl (shows_resumed h hplace hrest hrest' hrest'.symm hstep hcrew)

theorem shows_step {c'? : Option Plot} (h : v.Shows c m) (hnext : Next c c'?)
    (hstep : life.Advances m m') :
    (∃ v' : Standpoint, v'.Shows c m' ∧ v'.work < v.work) ∨
      ∃ c' ∈ c'?, ∃ v' : Standpoint, v'.Shows c' m' := by
  cases hstep with
  | adopt hpending => exact .inl (shows_adopt h hpending)
  | @thread before after t t? s s' hact =>
    obtain ⟨rest, hcrew, hcrew'⟩ := crew_thread before after t s
    rw [h.crew] at hcrew
    match before, hcrew, hcrew' with
    | [], hcrew, hcrew' =>
      obtain ⟨rfl, rfl⟩ := List.cons.inj hcrew
      refine .inl (shows_out h hact fun t' ht' hstarted => ?_)
      subst ht'
      exact hcrew' s' t' hstarted
    | [out], hcrew, hcrew' =>
      obtain ⟨rfl, herr⟩ := List.cons.inj hcrew
      obtain ⟨rfl, rfl⟩ := List.cons.inj herr
      refine .inl (shows_err h hact fun t' ht' hstarted => ?_)
      subst ht'
      exact hcrew' s' t' hstarted
    | out :: err :: before, hcrew, hcrew' =>
      obtain ⟨rfl, herr⟩ := List.cons.inj hcrew
      obtain ⟨rfl, hteam⟩ := List.cons.inj herr
      obtain ⟨before', u, after', hplace⟩ := exists_place h hteam
      have hcrew : ∀ t', t? = some t' → s'.started = s.started →
          life.crew ⟨s', v.out.thread :: v.err.thread :: before ++ (t?.toList ++ after)⟩ =
            v.out.thread :: v.err.thread :: (before ++ t' :: rest) := by
        rintro t' rfl hstarted
        exact hcrew' s' t' hstarted
      cases hnext with
      | last hlast =>
        have hblocked : Blocked c.shell u := hlast u (by simp [hplace.there])
        exact .inl (shows_blocked h hplace hblocked hact hcrew)
      | turn hturn =>
        cases hturn with
        | take hopen hothers htakes hp =>
          rcases split_cases hplace.there.symm with ⟨rfl, rfl, rfl⟩ | hin
          · exact (shows_turn h hplace htakes hp hact hcrew).imp id fun hshows => ⟨_, rfl, hshows⟩
          · exact .inl (shows_blocked h hplace (hothers u hin) hact hcrew)

/-- Where a machine can no longer advance, it has come to the end of its path, and all is
written. -/
theorem isLast_of_stuck {c'? : Option Plot} (h : v.Shows c m) (hnext : Next c c'?)
    (hstuck : ∀ m', ¬life.Advances m m') : c'? = none ∧ v.writing.out = c.writing.out.settled ∧
      v.writing.err = c.writing.err.settled := by
  have hpending : life.pending m.shared = [] := by
    by_contra hpending
    exact hstuck _ (.adopt hpending)
  have hthreads : m.threads = v.out.thread :: v.err.thread :: v.team := by
    rw [← h.crew, Life.crew, hpending, List.map_nil, List.append_nil]
  have hwaits : ∀ before t after, m.threads = before ++ t :: after →
      life.stepThread? t m.shared = none := by
    intro before t after hsplit
    by_contra hsome
    obtain ⟨⟨t?, s'⟩, hstep⟩ := Option.ne_none_iff_exists'.mp hsome
    obtain ⟨s, threads⟩ := m
    dsimp only at hsplit
    subst hsplit
    exact hstuck _ (.thread hstep)
  have hout := hwaits [] v.out.thread _ hthreads
  have herr := hwaits [v.out.thread] v.err.thread _ hthreads
  rw [h.shared] at hout herr
  obtain ⟨hheldOut, hqueueOut⟩ := h.out.resting hout
  obtain ⟨hheldErr, hqueueErr⟩ := h.err.resting herr
  have htrails := h.trails
  rw [hheldOut, hheldErr] at htrails
  refine ⟨?_, htrails.out.eq_settled hqueueOut, htrails.err.eq_settled hqueueErr⟩
  cases hnext with
  | last hlast => rfl
  | turn hturn =>
    cases hturn with
    | @take b b' w w' before' after' id act next answer p hopen hothers htakes hp =>
      obtain ⟨before, t, after, hteam, -, ⟨hid, hrest⟩, -⟩ := forall₂_split h.team.flip
      have hwait :=
        hwaits (v.out.thread :: v.err.thread :: before) t after (by rw [hthreads, hteam]; rfl)
      obtain ⟨id', p'⟩ := t
      dsimp only at hid hrest
      rcases hrest.cases with heq | ⟨role, heq, -⟩
      · have hready := htakes.ready v.writing htrails hqueueOut hqueueErr
        rw [hid, heq, h.shared, Life.stepThread?, Option.map_eq_none_iff] at hwait
        rw [hwait] at hready
        cases hready
      · rw [heq] at hwait
        cases hwait

/-- At the end of its path, when nothing waits to be written, no thread takes a step any more. -/
theorem run_eq_none_of_isLast (h : v.Shows last m) (hlast : last.IsLast)
    (hout : v.out.held = none ∧ v.writing.out.service.queue = [])
    (herr : v.err.held = none ∧ v.writing.err.service.queue = []) {act : Act Shell}
    {next : act.Answer → Action Shell (Option Role)} (ht : t ∈ m.threads)
    (hrest : t.rest = .ask act next) :
    act.run t.id m.shared = none := by
  have hcrew : t ∈ life.crew m := List.mem_append_left _ ht
  rw [h.crew] at hcrew
  rw [h.shared]
  rcases List.mem_cons.mp hcrew with rfl | hcrew
  · have hstands : Scribe.out.Stands v.out.held v.out.steps (.ask act next) := hrest ▸ h.out
    exact hstands.run_eq_none hout.1 hout.2
  rcases List.mem_cons.mp hcrew with rfl | hteam
  · have hstands : Scribe.err.Stands v.err.held v.err.steps (.ask act next) := hrest ▸ h.err
    exact hstands.run_eq_none herr.1 herr.2
  obtain ⟨before, after, hsplit⟩ := List.append_of_mem hteam
  obtain ⟨before', t', after', hplace⟩ := exists_place h hsplit
  obtain ⟨act', next', hact', hnone⟩ := hlast t' (by simp [hplace.there])
  rcases hplace.resumes.cases with heq | ⟨role, hdone, -⟩
  · obtain ⟨rfl, -⟩ := Program.ask.inj (hrest.symm.trans (heq.trans hact'))
    rw [hplace.id]
    exact hnone _
  · rw [hrest] at hdone
    cases hdone

theorem exists_next (hpath : Path c last) (hlast : last.IsLast) :
    ∃ c'?, Next c c'? ∧ (c'? = none → c = last) ∧ ∀ c' ∈ c'?, Path c' last := by
  cases hpath with
  | refl => exact ⟨none, .last hlast, fun _ => rfl, fun c' hc' => by cases hc'⟩
  | @head _ c' _ hturn hrest =>
    exact ⟨some c', .turn hturn, fun hnone => (Option.some_ne_none c' hnone).elim,
      fun c'' hc'' => Option.some.inj hc'' ▸ hrest⟩

theorem exists_shows (hpath : Path c last) (hlast : last.IsLast) (h : v.Shows c m)
    (hreaches : life.Reaches m m') :
      ∃ c' v', Path c c' ∧ Path c' last ∧ Standpoint.Shows v' c' m' := by
  induction hreaches generalizing c v with
  | refl => exact ⟨c, v, .refl c, hpath, h⟩
  | head hstep _ ih =>
    rcases advances_of_step hstep with hadvances | rfl
    · obtain ⟨c'?, hnext, -, hrest⟩ := exists_next hpath hlast
      rcases shows_step h hnext hadvances with ⟨v', hv', -⟩ | ⟨c', hc', v', hv'⟩
      · exact ih hpath hv'
      · obtain ⟨c'', v'', hto, hfrom, hv''⟩ := ih (hrest c' hc') hv'
        cases hnext with
        | last => cases hc'
        | turn hturn =>
          cases hc'
          exact ⟨c'', v'', .head hturn hto, hfrom, hv''⟩
    · exact ih hpath h

theorem acc_of_path (hpath : Path c last) (hlast : last.IsLast) (h : v.Shows c m) :
    Acc (fun m' m => life.Advances m m') m := by
  induction hpath generalizing v m with
  | refl c =>
    induction hwork : v.work using Nat.strongRecOn generalizing v m with
    | ind n ih =>
      refine ⟨m, fun m' hstep => ?_⟩
      rcases shows_step h (.last hlast) hstep with ⟨v', hv', hless⟩ | ⟨c', hc', -⟩
      · exact ih v'.work (hwork ▸ hless) hv' rfl
      · cases hc'
  | head hturn _ ih =>
    induction hwork : v.work using Nat.strongRecOn generalizing v m with
    | ind n ih' =>
      refine ⟨m, fun m' hstep => ?_⟩
      rcases shows_step h (.turn hturn) hstep with ⟨v', hv', hless⟩ | ⟨c', hc', v', hv'⟩
      · exact ih' v'.work (hwork ▸ hless) hv' rfl
      · cases hc'
        exact ih hlast hv'

end Standpoint

end SessionShell
