import SessionShell.Proofs.Dialogue.Prompting
import SessionShell.Proofs.Sequence.Progress
import SessionShell.Proofs.Turns.Path

/-!
A machine on which a sequential batch runs, with all of its threads.

They are the two that write, the one that reads, the thread of the host and those of its children.
However their steps fall, and whatever happens around them, each of them stands where it is known to
stand, until everything has ended.
-/

namespace SessionShell.Sequence

open Action Shell

/-- What happens around the threads: time passes, and input arrives. -/
inductive Happens : Shell → Shell → Prop where
  | time (s : Shell) (time : Nat) : Happens s { s with world := s.world.passTo time }
  | input (s : Shell) (chunk : Bytes) :
    Happens s { s with console := { s.console with reader := s.console.reader.feed chunk } }

def Unended (_ : ThreadId) (s _ : Shell) : Prop :=
  s.ended = none

def Kid.thread? (k : Kid) : Option (Thread Shell Role) :=
  k.rest?.map fun p => ⟨k.thread, p⟩

structure Kid.Acts (o : Backdrop) (k : Kid) : Prop where
  recites : ∀ p, k.rest? = some p → ∃ n, Recites o k.id k.thread n p k.recital
  through : k.rest? = none → k.recital.own.disposed = true

structure Band where
  stage : Stage
  out : Quill
  err : Quill
  host : Action Shell (Option Role)
  kids : List Kid

namespace Band

def quill (v : Band) : Scribe → Quill
  | .out => v.out
  | .err => v.err

def withQuill (v : Band) (q : Quill) : Scribe → Band
  | .out => { v with out := q }
  | .err => { v with err := q }

def reader : Thread Shell Role :=
  ⟨readerThread, program (.stream .input)⟩

def team (v : Band) : List (Thread Shell Role) :=
  v.out.thread :: v.err.thread :: reader :: ⟨firstThread, v.host⟩ :: v.kids.filterMap Kid.thread?

theorem team_kids (v : Band) (before after : List Kid) (k : Kid) :
    ({ v with kids := before ++ k :: after } : Band).team =
      (v.out.thread :: v.err.thread :: reader :: ⟨firstThread, v.host⟩ ::
        before.filterMap Kid.thread?) ++
        (k.thread?.toList ++ after.filterMap Kid.thread?) := by
  cases hthread : k.thread? <;> simp [team, hthread]

end Band

/-- What the host does before its next phase, which is one that may come next. -/
def Heads (o : Backdrop) (name : String) (targets : List String) (all : List Turn)
    (nearer : Nat → Prop) (p : Action Shell (Option Role)) (g : Stage) : Prop :=
  (conductor o (transcript o.settings all) firstThread).Does
    (Fate.Returns fun role? g' => ∃ phase, role? = some (.session 0 phase) ∧
      Goes o name targets all nearer phase g') p g

structure Band.Plays (o : Backdrop) (name : String) (targets : List String) (all : List Turn)
    (nearer : Nat → Prop) (v : Band) (s : Shell) : Prop where
  ensemble : Ensemble o v.stage v.kids v.out.held v.err.held s
  ended : v.stage.ended = none
  quill : ∀ k : Scribe, k.Stands (v.quill k).held (v.quill k).steps (v.quill k).rest
  host : Heads o name targets all nearer v.host v.stage
  kids : ∀ k ∈ v.kids, k.Acts o

def Closed (o : Backdrop) (tr : Dialogue.Transcript) (s : Shell) : Prop :=
  ∃ g kids out err, Ensemble o g kids out err s ∧ g.Final tr

variable {o : Backdrop} {name : String} {targets : List String} {all : List Turn}
  {nearer : Nat → Prop}
  {v : Band} {s s' : Shell} {t? : Option (Thread Shell Role)} {n : Nat} {phase : Phase} {g : Stage}

/-- What is left to do for a thread that recites comes before what was left: an answer leads to the
rest behind it, and a role to the next one. -/
inductive Precedes : Nat × Action Shell (Option Role) → Nat × Action Shell
    (Option Role) → Prop where
  | answer (n : Nat) (act : Act Shell) (next : act.Answer → Action Shell (Option Role))
      (answer : act.Answer) :
    Precedes (n, next answer) (n, .ask act next)
  | role (n : Nat) (role : Role) : Precedes (n, program role) (n + 1, .done (some role))

theorem acc_precedes (n : Nat) (p : Action Shell (Option Role)) : Acc Precedes (n, p) := by
  induction n generalizing p with
  | zero =>
    induction p with
    | done => exact ⟨_, nofun⟩
    | crash => exact ⟨_, nofun⟩
    | ask act next ih =>
      refine ⟨_, fun x hx => ?_⟩
      cases hx with
      | answer => exact ih _
  | succ n ihn =>
    induction p with
    | done =>
      refine ⟨_, fun x hx => ?_⟩
      cases hx with
      | role => exact ihn _
    | crash => exact ⟨_, nofun⟩
    | ask act next ih =>
      refine ⟨_, fun x hx => ?_⟩
      cases hx with
      | answer => exact ih _

namespace Band.Plays

/-! ## The threads that write -/

theorem scribe {k : Scribe} (h : v.Plays o name targets all nearer s)
    (hstep : life.stepThread? (v.quill k).thread s = some (t?, s')) :
    ∃ q : Quill, t? = some q.thread ∧ (v.withQuill q k).Plays o name targets all nearer s' ∧
      s'.started = s.started ∧ (∀ k', k' ≠ k → k'.sheet s'.sheets = k'.sheet s.sheets) ∧
      3 * (k.sheet s'.sheets).service.queue.length + q.steps <
        3 * (k.sheet s.sheets).service.queue.length + (v.quill k).steps := by
  have hstep : life.stepThread? (v.quill k).thread (s.writing s.sheets) = some (t?, s') := hstep
  obtain ⟨held, steps, p, x, rfl, hstands, rfl, htrails, hless⟩ := (h.quill k).step hstep
  refine ⟨⟨(v.quill k).id, held, steps, p⟩, rfl, ?_, ?_, ?_, ?_⟩
  · cases k with
    | out =>
      refine ⟨{ h.ensemble with out := h.ensemble.out.scribe htrails }, h.ended, fun k' => ?_,
        h.host, h.kids⟩
      cases k' with
      | out => exact hstands
      | err => exact h.quill .err
    | err =>
      refine ⟨{ h.ensemble with err := h.ensemble.err.scribe htrails }, h.ended, fun k' => ?_,
        h.host, h.kids⟩
      cases k' with
      | out => exact h.quill .out
      | err => exact hstands
  · cases k <;> rfl
  · intro k' hk'
    cases k <;> cases k' <;> first | rfl | exact absurd rfl hk'
  · have hsheet : k.sheet (s.writing (k.put x s.sheets)).sheets = x := by cases k <;> rfl
    rw [hsheet]
    exact hless

/-! ## The sessions of scripts -/

theorem kid {before after : List Kid} {k : Kid} {a : Recital}
    (rest? : Option (Action Shell (Option Role)))
    (h : v.Plays o name targets all nearer s) (hkids : v.kids = before ++ k :: after)
    (hmoves : k.recital.Moves k.id s a s') (hacts : Kid.Acts o { k with recital := a, rest? }) :
    ({ v with kids := before ++ { k with recital := a, rest? } :: after } : Band).Plays o
      name targets all
      nearer s' ∧ s'.started = s.started := by
  have hens := h.ensemble
  have hkidsActs := h.kids
  rw [hkids] at hens hkidsActs
  refine ⟨⟨hens.step hmoves, h.ended, h.quill, h.host, ?_⟩, ?_⟩
  · simp only [List.forall_mem_append, List.forall_mem_cons] at hkidsActs ⊢
    exact ⟨hkidsActs.1, hacts, hkidsActs.2.2⟩
  · obtain ⟨⟨deed?, -, rfl⟩, -, -⟩ := hmoves
    exact (beside_perform deed? k.id s).2.2.2

theorem stay {k : Kid} (h : v.Plays o name targets all nearer s) (hk : k ∈ v.kids) :
    k.recital.Holds o k.id s ∧ k.recital.Moves k.id s k.recital s :=
  ⟨h.ensemble.holds hk, (h.ensemble.holds hk).stay⟩

/-! ## The host -/

theorem host_ask {act : Act Shell} {next : act.Answer → Action Shell (Option Role)}
    {answer : act.Answer} (h : v.Plays o name targets all nearer s) (hrest : v.host = .ask act next)
    (hact : act.run firstThread s = some (answer, s')) :
    Closed o (transcript o.settings all) s' ∨ ∃ g' news,
      ({ v with stage := g', host := next answer, kids := v.kids ++ news } : Band).Plays o
        name targets all
        nearer s' ∧
      s'.started = s.started ++ news.map (fun k => (k.thread, .session k.id .entering)) ∧
      news.filterMap Kid.thread? = news.map fun k =>
        ⟨k.thread, program (.session k.id .entering)⟩ := by
  have hhost := h.host
  rw [hrest] at hhost
  obtain ⟨-, hstep⟩ := hhost ⟨v.kids, v.out.held, v.err.held⟩ s ⟨h.ensemble, h.ended⟩
  obtain ⟨g', ⟨hended, news, hstarted, hlaunched, hens⟩, hnext⟩ := hstep answer s' hact
  rcases hended with hnone | hfinal
  · refine .inr ⟨g', news, ⟨hens, hnone, h.quill, hnext, ?_⟩, hstarted, ?_⟩
    · refine List.forall_mem_append.mpr ⟨h.kids, fun k hk => ⟨fun p hp => ?_, fun hnone => ?_⟩⟩
      · cases (hlaunched k hk).rest.symm.trans hp
        exact ⟨3, (hlaunched k hk).recites⟩
      · cases (hlaunched k hk).rest.symm.trans hnone
    · rw [← List.filterMap_eq_map]
      refine List.filterMap_congr fun k hk => ?_
      rw [Kid.thread?, (hlaunched k hk).rest]
      rfl
  · exact .inl ⟨g', _, _, _, hens, hfinal⟩

theorem host_done {role? : Option Role} (ho : Plain o) (h : v.Plays o name targets all nearer s)
    (hrest : v.host = .done role?) : ∃ phase n, role? = some (.session 0 phase) ∧ nearer n ∧
      Stands o name targets all n phase v.stage ∧
      ({ v with host := program (.session 0 phase) } : Band).Plays o name targets all
      (fun _ => True) s := by
  have hhost := h.host
  rw [hrest] at hhost
  obtain ⟨phase, rfl, n, hstands, hnearer⟩ := hhost
  refine ⟨phase, n, rfl, hnearer, hstands, h.ensemble, h.ended, h.quill, ?_, h.kids⟩
  refine (hstands.goes ho rfl).bind ?_
  rintro _ g' ⟨phase', rfl, n', hstands', -⟩
  exact Vantage.does_pure ⟨phase', rfl, n', hstands', trivial⟩

/-! ## Any thread -/

theorem reader (ho : Plain o) (h : v.Plays o name targets all nearer s) :
    life.stepThread? Band.reader s = none := by
  have hinput : s.console.input.take? = none := by
    rw [show s.console.input = o.input from congrArg Backdrop.input h.ensemble.backdrop,
      StreamService.take?, ho.unasked]
  change Option.map _ (Option.map _ s.console.input.take?) = none
  rw [hinput]
  rfl

theorem kid_steps {before after : List Kid} {k : Kid} {p : Action Shell (Option Role)}
    (h : v.Plays o name targets all nearer s) (hkids : v.kids = before ++ k :: after)
    (hrecites : Recites o k.id k.thread n p k.recital) :
    (life.stepThread? ⟨k.thread, p⟩ s).isSome ∧
      ∀ t? s', life.stepThread? ⟨k.thread, p⟩ s = some (t?, s') → ∃ k' : Kid, t? = k'.thread? ∧
        ({ v with kids := before ++ k' :: after } : Band).Plays o name targets all nearer s' ∧
        s'.started = s.started ∧
        ∀ p', k'.rest? = some p' →
          ∃ n', Recites o k'.id k'.thread n' p' k'.recital ∧ Precedes (n', p') (n, p) := by
  obtain ⟨hholds, hstay⟩ := h.stay (k := k) (by simp [hkids])
  have hsaid : ∀ {n' p' a s'}, k.recital.Moves k.id s a s' → Recites o k.id k.thread n' p' a →
      Precedes (n', p') (n, p) →
      ({ v with kids := before ++ { k with recital := a, rest? := some p' } :: after } : Band).Plays
        o name
        targets all nearer s' ∧ s'.started = s.started ∧
        ∀ p'', some p' = some p'' →
          ∃ n', Recites o k.id k.thread n' p'' a ∧ Precedes (n', p'') (n, p) := by
    intro n' p' a s' hmoves hrecites' hprecedes
    obtain ⟨hplays, hstarted⟩ := h.kid (some p') hkids hmoves
      ⟨fun p'' hp => by cases hp; exact ⟨n', hrecites'⟩, nofun⟩
    exact ⟨hplays, hstarted, fun p'' hp => by cases hp; exact ⟨n', hrecites', hprecedes⟩⟩
  cases p with
  | crash => cases n <;> exact hrecites.elim
  | done role? =>
    cases n with
    | zero =>
      obtain ⟨rfl, hdisposed, -⟩ := hrecites
      refine ⟨rfl, fun t? s' hstep => ?_⟩
      cases hstep
      obtain ⟨hplays, hstarted⟩ := h.kid none hkids hstay ⟨nofun, fun _ => hdisposed⟩
      exact ⟨_, rfl, hplays, hstarted, nofun⟩
    | succ n =>
      obtain ⟨phase, rfl, hrecites⟩ := hrecites
      refine ⟨rfl, fun t? s' hstep => ?_⟩
      cases hstep
      exact ⟨_, rfl, hsaid hstay hrecites (.role n (.session k.id phase))⟩
  | ask act next =>
    have hnext : (act.run k.thread s).isSome ∧ ∀ answer s', act.run k.thread s = some (answer, s') →
        ∃ a, k.recital.Moves k.id s a s' ∧ Recites o k.id k.thread n (next answer) a := by
      cases n with
      | zero => exact ⟨(hrecites () s hholds).1 trivial, (hrecites () s hholds).2⟩
      | succ n => exact ⟨(hrecites () s hholds).1 trivial, (hrecites () s hholds).2⟩
    refine ⟨by simpa [Life.stepThread?] using hnext.1, fun t? s' hstep => ?_⟩
    obtain ⟨⟨answer, s₁⟩, hact, heq⟩ := Option.map_eq_some_iff.mp hstep
    cases heq
    obtain ⟨a, hmoves, hrecites'⟩ := hnext.2 answer s' hact
    exact ⟨_, rfl, hsaid hmoves hrecites' (.answer n act next answer)⟩

theorem thread {before after : List (Thread Shell Role)} {t : Thread Shell Role} (ho : Plain o)
    (h : v.Plays o name targets all (fun _ => True) s) (hteam : v.team = before ++ t :: after)
    (hstep : life.stepThread? t s = some (t?, s')) :
    Closed o (transcript o.settings all) s' ∨ ∃ (v' : Band) (news : List (ThreadId × Role)),
      v'.Plays o name targets all (fun _ => True) s' ∧ s'.started = s.started ++ news ∧
      v'.team = before ++ (t?.toList ++ after) ++ news.map fun (id, role) =>
        ⟨id, program role⟩ := by
  match before, hteam with
  | [], hteam =>
    obtain ⟨rfl, rfl⟩ := List.cons.inj hteam
    obtain ⟨q, rfl, hplays, hstarted, -⟩ := h.scribe (k := .out) hstep
    exact .inr ⟨_, [], hplays, by simpa using hstarted, by simp [withQuill, Band.team]⟩
  | [out], hteam =>
    obtain ⟨rfl, herr⟩ := List.cons.inj hteam
    obtain ⟨rfl, rfl⟩ := List.cons.inj herr
    obtain ⟨q, rfl, hplays, hstarted, -⟩ := h.scribe (k := .err) hstep
    exact .inr ⟨_, [], hplays, by simpa using hstarted, by simp [withQuill, Band.team]⟩
  | [out, err], hteam =>
    simp only [Band.team, List.cons_append, List.nil_append, List.cons.injEq] at hteam
    obtain ⟨-, -, rfl, -⟩ := hteam
    cases (h.reader ho).symm.trans hstep
  | [out, err, input], hteam =>
    simp only [Band.team, List.cons_append, List.nil_append, List.cons.injEq] at hteam
    obtain ⟨rfl, rfl, rfl, rfl, rfl⟩ := hteam
    cases hhost : v.host with
    | crash => exact absurd h.host (by rw [hhost]; exact id)
    | done role? =>
      obtain ⟨phase, n, rfl, -, -, hplays⟩ := h.host_done ho hhost
      rw [hhost] at hstep
      cases hstep
      exact .inr ⟨_, [], hplays, by simp, by simp [Band.team, life]⟩
    | ask act next =>
      rw [hhost] at hstep
      obtain ⟨⟨answer, s₁⟩, hact, heq⟩ := Option.map_eq_some_iff.mp hstep
      cases heq
      rcases h.host_ask hhost hact with hclosed | ⟨g', news, hplays, hstarted, hnews⟩
      · exact .inl hclosed
      · exact .inr ⟨_, _, hplays, hstarted, by simp [Band.team, hnews]⟩
  | out :: err :: input :: host :: before, hteam =>
    simp only [Band.team, List.cons_append, List.cons.injEq] at hteam
    obtain ⟨rfl, rfl, rfl, rfl, hkids⟩ := hteam
    obtain ⟨kids₁, kids₂, hsplit, hbefore, hrest⟩ := List.filterMap_eq_append_iff.mp hkids
    obtain ⟨kids₃, k, kids₄, rfl, hnone, hk, rfl⟩ := List.filterMap_eq_cons_iff.mp hrest
    obtain ⟨p, hp, rfl⟩ := Option.map_eq_some_iff.mp hk
    have hsplit' : v.kids = (kids₁ ++ kids₃) ++ k :: kids₄ := by rw [hsplit, List.append_assoc]
    obtain ⟨n, hrecites⟩ := (h.kids k (by simp [hsplit'])).recites p hp
    obtain ⟨k', rfl, hplays, hstarted, -⟩ := (h.kid_steps hsplit' hrecites).2 t? s' hstep
    refine .inr ⟨_, [], hplays, by simpa using hstarted, ?_⟩
    rw [Band.team_kids, List.filterMap_append, hbefore, List.filterMap_eq_nil_iff.mpr hnone]
    simp

end Band.Plays

/-! ## All together -/

structure Band.On (o : Backdrop) (name : String) (targets : List String)
    (all : List Turn) (v : Band) (m : Machine Shell Role) : Prop where
  plays : v.Plays o name targets all (fun _ => True) m.shared
  crew : life.crew m = v.team

theorem crew_step (before after : List (Thread Shell Role)) (t : Thread Shell Role) (s : Shell) :
    ∃ rest, life.crew ⟨s, before ++ t :: after⟩ = before ++ t :: rest ∧
      ∀ (s' : Shell) (t? : Option (Thread Shell Role)) (news : List (ThreadId × Role)),
        s'.started = s.started ++ news → life.crew ⟨s', before ++ (t?.toList ++ after)⟩ =
          before ++ (t?.toList ++ rest) ++ news.map fun (id, role) => ⟨id, program role⟩ := by
  refine ⟨after ++ life.crew ⟨s, []⟩, by simp [Life.crew], fun s' t? news hstarted => ?_⟩
  simp [Life.crew, Life.pending, life, hstarted]

variable {m m' : Machine Shell Role} {tr : Dialogue.Transcript}

theorem Ensemble.happens {kids : List Kid} {out err : Option (Queued String)}
    (h : Ensemble o g kids out err s) (hs : Happens s s') : Ensemble o g kids out err s' := by
  cases hs with
  | time => exact { h with }
  | input => exact { h with }

theorem Closed.move (h : Closed o tr m.shared) (hmove : life.Move Unended Happens m m') :
    Closed o tr m'.shared := by
  obtain ⟨g, kids, out, err, hens, hfinal⟩ := h
  cases hmove with
  | thread hstep hopen =>
    exact nomatch hfinal.ended.symm.trans (hens.ended.symm.trans hopen)
  | adopt => exact ⟨g, kids, out, err, { hens with }, hfinal⟩
  | env hs => exact ⟨g, kids, out, err, hens.happens hs, hfinal⟩

theorem Band.On.move (ho : Plain o) (h : v.On o name targets all m)
    (hmove : life.Move Unended Happens m m') :
    Closed o (transcript o.settings all) m'.shared ∨ ∃ v' : Band, v'.On o name targets all m' := by
  cases hmove with
  | @thread before after t t? s s' hstep hopen =>
    obtain ⟨rest, hcrew, hcrew'⟩ := crew_step before after t s
    rcases h.plays.thread ho (h.crew.symm.trans hcrew) hstep with
      hclosed | ⟨v', news, hplays, hstarted, hteam⟩
    · exact .inl hclosed
    · exact .inr ⟨v', hplays, (hcrew' s' t? news hstarted).trans hteam.symm⟩
  | adopt =>
    refine .inr ⟨v, { h.plays with ensemble := { h.plays.ensemble with } }, ?_⟩
    rw [← h.crew]
    exact List.append_nil _
  | env hs =>
    refine .inr ⟨v, { h.plays with ensemble := h.plays.ensemble.happens hs }, ?_⟩
    rw [← h.crew]
    cases hs <;> rfl

/-- However the steps of the threads fall, the band plays until everything has ended as it
should. -/
theorem Band.On.course (ho : Plain o) (h : v.On o name targets all m)
    (hcourse : life.Course Unended Happens m m') :
    Closed o (transcript o.settings all) m'.shared ∨ ∃ v' : Band, v'.On o name targets all m' := by
  induction hcourse with
  | refl => exact .inr ⟨v, h⟩
  | tail _ hmove ih =>
    rcases ih with hclosed | ⟨v', hv'⟩
    · exact .inl (hclosed.move hmove)
    · exact hv'.move ho hmove

end SessionShell.Sequence
