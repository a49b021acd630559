import SessionShell.Proofs.Shell.Stillness
import SessionShell.Proofs.Tasks.Hands

/-!
The start of a session, by any of several threads that try.

The one that binds the session to its language has it. Nobody else puts the making of the
interpreter ahead of what waits, and nobody else launches the thread.
-/

namespace SessionShell

open Action Shell

namespace TaskLog

open TaskEvent

variable {log : TaskLog} {e : TaskEvent} {s : Shell} {id : SessionId} {me : ThreadId} {n : Nat}
  {α : Type}

theorem upholds_noted_step {rely guar : Shell × TaskLog → Shell × TaskLog → Prop}
    {P : Shell × TaskLog → Prop} {R : α → Shell × TaskLog → Prop} {f : Shell → α × Shell}
    {notes : Shell → α → TaskLog → TaskLog} (hP : Stable rely P) (hR : ∀ a, Stable rely (R a))
    (h : ∀ s log, P (s, log) → guar (s, log) ((f s).2, notes s (f s).1 log) ∧
      R (f s).1 ((f s).2, notes s (f s).1 log)) :
    Upholds rely guar me P (noted notes (step f)) (Fate.Returns R) :=
  upholds_step (f := fun γ : Shell × TaskLog => ((f γ.1).1, (f γ.1).2, notes γ.1 (f γ.1).1 γ.2)) hP
    hR
    fun γ hγ => h γ.1 γ.2 hγ

/-! ## Stages of a start -/

def starting (n : Nat) (bs : List Task) : Stage (.visitor n) where
  Holds log := .claimed n ∈ log ∧ ¬Launched log ∧ boots log = bs
  beside _ es h hes :=
    ⟨List.mem_append_left es h.1, fun hl => h.2.1 ((launched_append_beside hes).mp hl),
      (boots_append_beside hes).trans h.2.2⟩
  floor _ _ h := .inl ⟨h.1, h.2.1⟩

theorem Sound.claim (h : Sound log) (hnone : ∀ n, .claimed n ∉ log) (n : Nat) :
    Sound (log ++ [.claimed n]) where
  inOrder := inOrder_append_singleton h.inOrder trivial
  done := by simpa [done_append_singleton, taken_append_singleton, finished?, took?] using h.done
  claimedOnce m m' hm hm' := by simp_all
  boots _ := ⟨n, by simp⟩
  taken := by simpa [taken_append_singleton, took?, Launched] using h.taken
  launched := by simpa [boots_append_singleton, boot?, Launched] using h.launched
  launchedOnce := by simpa using h.launchedOnce

theorem Sound.boot (h : Sound log) (hclaimed : .claimed n ∈ log) (hboots : TaskLog.boots log = [])
    (language : Language) : Sound (log ++ [.booting language]) where
  inOrder := inOrder_append_singleton h.inOrder trivial
  done := by simpa [done_append_singleton, taken_append_singleton, finished?, took?] using h.done
  claimedOnce := by simpa using h.claimedOnce
  boots _ := ⟨n, by simp [hclaimed]⟩
  taken := by simpa [taken_append_singleton, took?, Launched] using h.taken
  launched _ := ⟨language, by simp [boots_append_singleton, boot?, hboots]⟩
  launchedOnce := by simpa using h.launchedOnce

theorem Sound.launch (h : Sound log) (hnone : ¬Launched log) {language : Language}
    (hboots : TaskLog.boots log = [.boot language]) (t : ThreadId) :
      Sound (log ++ [.launched t]) where
  inOrder := inOrder_append_singleton h.inOrder trivial
  done := by simpa [done_append_singleton, taken_append_singleton, finished?, took?] using h.done
  claimedOnce := by simpa using h.claimedOnce
  boots := by simpa [boots_append_singleton, boot?] using h.boots
  taken _ := ⟨t, by simp⟩
  launched _ := ⟨language, by simpa [boots_append_singleton, boot?] using hboots⟩
  launchedOnce t' t'' ht' ht'' := by
    have hnone' : ∀ t, .launched t ∉ log := fun t ht => hnone ⟨t, ht⟩
    simp_all

theorem guar_of_starting {γ γ' : Shell × TaskLog} (hsound : Sound γ.2) (hclaimed : .claimed n ∈ γ.2)
    (hnone : ¬Launched γ.2) (hchange : Change id γ γ') (hstarts : Starts id γ γ') :
    Guar id (.visitor n) γ γ' := by
  refine ⟨hchange, fun k' hne hfloor => ?_, hstarts⟩
  cases k' with
  | keeper thread => exact absurd ⟨thread, hfloor⟩ hnone
  | visitor m => exact absurd (congrArg Hand.visitor (hsound.claimedOnce m n hfloor.1 hclaimed)) hne
  | helper => exact hfloor.elim

theorem inv_append {s' : Shell} (h : Inv id (s, log)) (hsound : Sound (log ++ [e]))
    (hquiet : took? e = none ∧ boot? e = none ∧ scheduled? e = none ∧ ∀ b, e ≠ .ended b)
    (hsize : s'.sessions.size = s.sessions.size)
    (hsame : (s'.session id).tasks = (s.session id).tasks ∧
      (s'.session id).disposed = (s.session id).disposed)
    (hclaimed : ∀ n, .claimed n ∈ log ++ [e] → (s'.session id).language.isSome) :
    Inv id (s', log ++ [e]) := by
  obtain ⟨htook, hboot, hscheduled, hended⟩ := hquiet
  have htaken : taken (log ++ [e]) = taken log := by simp [taken_append_singleton, htook]
  have hline : line (log ++ [e]) = line log := by
    simp [line, boots_append_singleton, scheduled_append_singleton, hboot, hscheduled]
  have hhas : HasEnded (log ++ [e]) ↔ HasEnded log := exists_congr fun b => by
    rw [List.mem_append, List.mem_singleton, or_iff_left fun heq => hended b heq.symm]
  refine ⟨hsound, hsize ▸ h.known, ?_, ?_, ?_, hclaimed⟩
  · rw [hhas, hsame.2]
    exact h.hasEnded
  · rw [htaken, hline, hsame.1]
    exact h.queue
  · rw [hhas, htaken, hline, hsame.1]
    exact h.whole

theorem upholds_claim (language : Language) :
    Upholds (Rely id (.visitor n)) (Guar id (.visitor n)) me ((Stage.free (.visitor n)).At id)
      (telling (fun r => if r.isOk then [.claimed n] else []) (setLanguage id language).run)
      (Fate.Returns fun r γ => match r with
        | .ok () => (starting n []).At id γ
        | .error _ => (Stage.free (.visitor n)).At id γ) := by
  refine upholds_noted_step Stage.stable_at (fun r => by cases r <;> exact Stage.stable_at) ?_
  rintro s log ⟨hinv, -, -⟩
  cases hname : (s.session id).languageName? with
  | some name =>
    simp only [hname, Except.isOk, Except.toBool, Bool.false_eq_true, if_false, List.append_nil]
    exact ⟨.refl id _ _, hinv, trivial, trivial⟩
  | none =>
    have hlanguage : (s.session id).language = none := Option.map_eq_none_iff.mp hname
    have hnone : ∀ m, .claimed m ∉ log := fun m hm => by
      have hsome := hinv.claimed m hm
      rw [hlanguage] at hsome
      cases hsome
    have hboots := boots_eq_nil_of_not_claimed hinv.sound hnone
    have hlaunched := not_launched_of_boots hinv.sound hboots
    simp only [hname, Except.isOk, Except.toBool, if_true]
    have hsession := session_modifySession_self (s := s)
      (fun _ => { s.session id with language := some language }) hinv.known
    have hinv' :
      Inv id (modifySession id (fun _ => { s.session id with language := some language }) s,
        log ++ [.claimed n]) := by
      refine inv_append hinv (hinv.sound.claim hnone n) ⟨rfl, rfl, rfl, fun _ h => by cases h⟩
        (size_modifySession _) (by rw [hsession]; exact ⟨rfl, rfl⟩) fun _ _ => by rw [hsession]; rfl
    refine ⟨⟨⟨fun _ => hinv', fun hd => by rw [hsession]; exact hd, List.prefix_append _ _⟩,
      fun k' hne hfloor => ?_, starts_nobody rfl (by simp)⟩,
      hinv', trivial, by simp, ?_, ?_⟩
    · cases k' with
      | keeper thread => exact absurd ⟨thread, hfloor⟩ hlaunched
      | visitor m => exact absurd hfloor.1 (hnone m)
      | helper => exact hfloor.elim
    · simpa [Launched] using hlaunched
    · simpa [boots_append_singleton, boot?] using hboots

theorem upholds_pushBoot (language : Language) :
    Upholds (Rely id (.visitor n)) (Guar id (.visitor n)) me ((starting n []).At id)
      (telling (fun _ => [.booting language]) (pushBoot id language))
      (Fate.Returns fun _ => (starting n [.boot language]).At id) := by
  refine upholds_noted_step Stage.stable_at (fun _ => Stage.stable_at) ?_
  rintro s log ⟨hinv, -, hclaimed, hlaunched, hboots⟩
  have hsession := session_modifySession_self (s := s)
    (fun x => { x with tasks := .boot language :: x.tasks }) hinv.known
  have htaken := taken_eq_nil_of_not_launched hinv.sound hlaunched
  have htaken' : taken (log ++ [.booting language]) = [] := by
    simp [taken_append_singleton, took?, htaken]
  have hline : line log = scheduled log := by rw [line, hboots, List.nil_append]
  have hline' : line (log ++ [.booting language]) = .boot language :: scheduled log := by
    simp [line, boots_append_singleton, scheduled_append_singleton, boot?, scheduled?, hboots]
  have hended : HasEnded (log ++ [.booting language]) ↔ HasEnded log := by simp [HasEnded]
  have hinv' : Inv id (modifySession id (fun x => { x with tasks := .boot language :: x.tasks }) s,
      log ++ [.booting language]) := by
    refine ⟨hinv.sound.boot hclaimed hboots language, ?_, ?_, ?_, ?_, fun m hm => ?_⟩
    · exact Nat.lt_of_lt_of_eq hinv.known (size_modifySession _).symm
    · rw [hended, hsession]
      exact hinv.hasEnded
    · rw [htaken', hline', hsession]
      have hqueue := hinv.queue
      rw [htaken, hline] at hqueue
      exact hqueue.cons_cons _
    · rw [hended, htaken', hline', hsession]
      intro hlive
      have hwhole := hinv.whole hlive
      rw [htaken, hline] at hwhole
      exact congrArg (Task.boot language :: ·) hwhole
    · rw [hsession]
      exact hinv.claimed m (by simpa using hm)
  refine ⟨guar_of_starting hinv.sound hclaimed hlaunched
    ⟨fun _ => hinv', fun hd => by rw [hsession]; exact hd, List.prefix_append _ _⟩
    (starts_nobody rfl (by simp)), hinv', trivial, by simp [hclaimed], ?_, ?_⟩
  · simpa [Launched] using hlaunched
  · simp [boots_append_singleton, boot?, hboots]

theorem upholds_startThreadTold (language : Language) :
    Upholds (Rely id (.visitor n)) (Guar id (.visitor n)) me ((starting n [.boot language]).At id)
      (startThreadTold id) (Fate.Returns fun _ => (Stage.free (.visitor n)).At id) := by
  refine upholds_noted_step Stage.stable_at (fun _ => Stage.stable_at) ?_
  rintro s log ⟨hinv, -, hclaimed, hlaunched, hboots⟩
  cases hrefuses : s.refusesThreads with
  | true =>
    simp only [if_true, Bool.false_eq_true, if_false]
    exact ⟨.refl id _ _, hinv, trivial, trivial⟩
  | false =>
    simp only [Bool.false_eq_true, if_false, if_true]
    have hinv' : Inv id (launch (.session (s.session id).name) (.session id .entering) s,
        log ++ [.launched s.threads.size]) :=
      inv_append hinv (hinv.sound.launch hlaunched hboots _) ⟨rfl, rfl, rfl, fun _ h => by cases h⟩
        rfl ⟨rfl, rfl⟩ fun m hm => hinv.claimed m (by simpa using hm)
    exact ⟨guar_of_starting hinv.sound hclaimed hlaunched
      ⟨fun _ => hinv', fun hd => hd, List.prefix_append _ _⟩ (.keeper rfl rfl hlaunched),
      hinv', trivial, trivial⟩

/-! ## The whole start -/

theorem keeps_withdraw {ν : Type} {w : Watch id ν} : w.Keeps (withdraw id).run := by
  refine Watch.Keeps.run_bind
    (Watch.Keeps.bind (Watch.Keeps.lift (Watch.keeps_of_plain plain_leaveRegistry)) fun r => ?_)
    fun _ => Watch.Keeps.lift_bind Watch.keeps_dispose fun _ => Watch.keeps_pure _
  cases r <;> exact Watch.keeps_pure _

theorem upholds_enterTold (language : Language) (takesFocus : Bool) :
    Upholds (Rely id (.visitor n)) (Guar id (.visitor n)) me ((starting n [.boot language]).At id)
      (enterTold id takesFocus) fun _ => (Stage.free (.visitor n)).At id := by
  have hfocus : Within Plain (if takesFocus then takeFocus id else drainFocus id) := by
    cases takesFocus with
    | true => exact plain_takeFocus
    | false => exact plain_updateSession fun _ => rfl
  refine Stage.upholds_bind (Watch.keeps_of_plain (plain_same (fun _ => rfl) fun _ => rfl))
    (fun _ => ?_) fun _ h => h.free
  refine Stage.upholds_bind (Watch.keeps_of_plain hfocus) (fun _ => ?_) fun _ h => h.free
  refine Stage.upholds_bind (Watch.keeps_of_plain chore_consoleStart) (fun _ => ?_) fun _ h =>
    h.free
  refine (upholds_startThreadTold language).bind (.refl id _) fun started => ?_
  cases started with
  | true => exact upholds_pure _ Stage.stable_at fun _ h => h
  | false => exact Stage.upholds_watched keeps_withdraw fun _ _ h => h

theorem upholds_startTold (query : String) (takesFocus : Bool) :
    Upholds (Rely id (.visitor n)) (Guar id (.visitor n)) me ((Stage.free (.visitor n)).At id)
      (startTold id n query takesFocus) fun _ => (Stage.free (.visitor n)).At id := by
  refine Stage.upholds_bind (Watch.keeps_of_plain chore_ensureLive) (fun r => ?_) fun _ h => h
  cases r with
  | error e => exact upholds_pure _ Stage.stable_at fun _ h => h
  | ok u =>
    refine Stage.upholds_bind (Watch.keeps_read _) (fun language? => ?_) fun _ h => h
    cases language? with
    | none => exact upholds_pure _ Stage.stable_at fun _ h => h
    | some language =>
      refine (upholds_claim language).bind (.refl id _) fun r => ?_
      cases r with
      | error e => exact upholds_pure _ Stage.stable_at fun _ h => h
      | ok u =>
        exact (upholds_pushBoot language).bind (.refl id _) fun _ =>
          upholds_enterTold language takesFocus

/-! ## Whatever else a visitor does -/

theorem upholds_demandTold (r : Demand) :
    Upholds (Rely id (.visitor n)) (Guar id (.visitor n)) me ((Stage.free (.visitor n)).At id)
      (demandTold id n r) fun _ => (Stage.free (.visitor n)).At id := by
  by_cases hstarts : r.Starts id
  · cases r with
    | start session query takesFocus =>
      cases hstarts
      simp only [demandTold]
      exact upholds_startTold query takesFocus
    | _ => exact hstarts.elim
  · have hbeside : Upholds (Rely id (.visitor n)) (Guar id (.visitor n)) me
        ((Stage.free (.visitor n)).At id) (watched id false r.run) fun _ =>
          (Stage.free (.visitor n)).At id :=
      Stage.upholds_watched (Watch.keeps_demand hstarts) fun _ _ h => h
    cases r with
    | start session query takesFocus =>
      have hne : session ≠ id := hstarts
      simp only [demandTold, hne]
      exact hbeside
    | _ => exact hbeside

theorem upholds_visitTold (visit : Visit id) :
    Upholds (Rely id (.visitor n)) (Guar id (.visitor n)) me ((Stage.free (.visitor n)).At id)
      (visitTold n visit) fun fate _ => ∀ role, fate = .returned (some role) → ¬role.IsOf id := by
  intro γ hγ
  have hvisit : Safe (Rely id (.visitor n)) (Guar id (.visitor n)) me
      (fun _ => (Stage.free (.visitor n)).At id) (visit.expand (demandTold id n)) γ := by
    induction visit generalizing γ with
    | done a => exact fun γ' hr => Stage.stable_at γ γ' hγ hr
    | crash => exact fun γ' hr => Stage.stable_at γ γ' hγ hr
    | ask r next ih =>
      exact (upholds_demandTold r γ hγ).bind_fate (.refl id _) (fun reply γ' h => ih reply γ' h)
        fun _ h => h
  refine hvisit.bind_fate (.refl id _) (fun role? γ' h => ?_) fun _ _ _ heq => nomatch heq
  refine upholds_pure _ Stage.stable_at (fun _ _ role heq => ?_) γ' h
  obtain ⟨role', -, rfl⟩ := Option.map_eq_some_iff.mp (Fate.returned.inj heq)
  exact role'.2

end TaskLog

end SessionShell

/-!
The loop of a session, as its log tells of it.

A task is taken only when the one before is done, whatever has come of that one. The first makes the
interpreter; a turn of the main task begins when none is left.
-/

namespace SessionShell

open Action Shell

namespace TaskLog

open TaskEvent

variable {log es : TaskLog} {e : TaskEvent} {s : Shell} {id : SessionId} {me thread : ThreadId}
  {task : Task} {γ γ' : Shell × TaskLog} {α β : Type}

/-! ## What the log comes to -/

theorem Sound.quiet (h : Sound log) (hdue : Due log e)
    (hquiet : took? e = none ∧ boot? e = none ∧ finished? e = none ∧
      (∀ n, e ≠ .claimed n) ∧ ∀ t, e ≠ .launched t) : Sound (log ++ [e]) := by
  obtain ⟨htook, hboot, hfinished, hclaimed, hlaunched⟩ := hquiet
  have hc : ∀ n, .claimed n ∈ log ++ [e] ↔ .claimed n ∈ log := fun n => by
    rw [List.mem_append, List.mem_singleton, or_iff_left fun heq => hclaimed n heq.symm]
  have hl : ∀ t, .launched t ∈ log ++ [e] ↔ .launched t ∈ log := fun t => by
    rw [List.mem_append, List.mem_singleton, or_iff_left fun heq => hlaunched t heq.symm]
  refine ⟨inOrder_append_singleton h.inOrder hdue, ?_, ?_, ?_, ?_, ?_, ?_⟩
  · simpa [done_append_singleton, taken_append_singleton, htook, hfinished] using h.done
  · simpa [hc] using h.claimedOnce
  · simpa [boots_append_singleton, hboot, hc] using h.boots
  · simpa [taken_append_singleton, htook, Launched, hl] using h.taken
  · simpa [boots_append_singleton, hboot, Launched, hl] using h.launched
  · simpa [hl] using h.launchedOnce

theorem Sound.take (h : Sound log) (hdue : Takes log task) (hlaunched : .launched thread ∈ log) :
    Sound (log ++ [.took task]) where
  inOrder := inOrder_append_singleton h.inOrder hdue
  done := by
    simp only [done_append_singleton, taken_append_singleton, finished?, took?, Option.toList,
      List.append_nil]
    exact h.done.trans (List.prefix_append _ _)
  claimedOnce := by simpa using h.claimedOnce
  boots := by simpa [boots_append_singleton, boot?] using h.boots
  taken _ := ⟨thread, by simp [hlaunched]⟩
  launched := by simpa [boots_append_singleton, boot?, Launched] using h.launched
  launchedOnce := by simpa using h.launchedOnce

theorem Sound.finish (h : Sound log) (hdue : TaskLog.taken log = TaskLog.done log ++ [task]) :
    Sound (log ++ [.finished task]) where
  inOrder := inOrder_append_singleton h.inOrder hdue
  done := by
    simp only [done_append_singleton, taken_append_singleton, finished?, took?, Option.toList,
      List.append_nil]
    rw [hdue]
  claimedOnce := by simpa using h.claimedOnce
  boots := by simpa [boots_append_singleton, boot?] using h.boots
  taken := by simpa [taken_append_singleton, took?, Launched] using h.taken
  launched := by simpa [boots_append_singleton, boot?, Launched] using h.launched
  launchedOnce := by simpa using h.launchedOnce

/-! ## Stages of the loop -/

structure Rests (log : TaskLog) : Prop where
  done : done log = taken log
  ready : ¬HasEnded log → taken log = [] ∨ Ready log

structure IsAt (task : Task) (es log : TaskLog) : Prop where
  taken : taken log = done log ++ [task]
  steps : es.Sublist log
  ready : ¬HasEnded log → Ready log ∨ ∃ language, task = .boot language

theorem Rests.append_beside (h : Rests log) (hes : ∀ e ∈ es, e.IsBeside = true) :
    Rests (log ++ es) := by
  refine ⟨by rw [done_append_beside hes, taken_append_beside hes, h.done], fun hlive => ?_⟩
  rw [taken_append_beside hes]
  exact (h.ready fun hended => hlive (hended.append es)).imp_right fun hr => hr.append es

theorem IsAt.append_beside {steps : TaskLog} (h : IsAt task steps log)
    (hes : ∀ e ∈ es, e.IsBeside = true) : IsAt task steps (log ++ es) := by
  refine ⟨by rw [done_append_beside hes, taken_append_beside hes, h.taken],
    h.steps.trans (List.sublist_append_left log es), fun hlive => ?_⟩
  exact (h.ready fun hended => hlive (hended.append es)).imp_left fun hr => hr.append es

theorem IsAt.step {steps : TaskLog} (h : IsAt task steps log)
    (hquiet : took? e = none ∧ finished? e = none) : IsAt task (steps ++ [e]) (log ++ [e]) := by
  refine ⟨?_, h.steps.append_right [e], fun hlive => ?_⟩
  · simpa [done_append_singleton, taken_append_singleton, hquiet.1, hquiet.2] using h.taken
  · exact (h.ready fun hended => hlive (hended.append _)).imp_left fun hr => hr.append _

def course : Task → TaskLog
  | .boot language => [.took (.boot language), .preloaded, .installed]
  | task => [.took task]

theorem IsAt.finish (h : IsAt task (course task) log) : Rests (log ++ [.finished task]) := by
  refine ⟨?_, fun hlive => .inr ?_⟩
  · simpa [done_append_singleton, taken_append_singleton, finished?, took?] using h.taken.symm
  · rcases h.ready fun hended => hlive (hended.append _) with hr | ⟨language, rfl⟩
    · exact hr.append _
    · exact ⟨language, h.steps.append_right [.finished (.boot language)]⟩

theorem Rests.turn (h : Rests log) (hquiet : took? e = none ∧ finished? e = none) :
    Rests (log ++ [e]) := by
  refine ⟨?_, fun hlive => ?_⟩
  · simpa [done_append_singleton, taken_append_singleton, hquiet.1, hquiet.2] using h.done
  · simp only [taken_append_singleton, hquiet.1, Option.toList, List.append_nil]
    exact (h.ready fun hended => hlive (hended.append _)).imp_right fun hr => hr.append _

def resting (thread : ThreadId) : Stage (.keeper thread) :=
  .ofKeeper thread Rests fun _ _ h hes => h.append_beside hes

def busy (thread : ThreadId) (task : Task) (steps : TaskLog) : Stage (.keeper thread) :=
  .ofKeeper thread (IsAt task steps) fun _ _ h hes => h.append_beside hes

def standing (thread : ThreadId) (e : TaskEvent) : Stage (.keeper thread) :=
  .ofKeeper thread (fun log => Rests log ∧ Stands e log) fun _ _ h hes =>
    ⟨h.1.append_beside hes, h.2.append_beside hes⟩

theorem Turns.append_beside (h : Turns log) (hes : ∀ e ∈ es, e.IsBeside = true) :
    Turns (log ++ es) := by
  obtain ⟨before, after, rfl, hafter, hclear⟩ := h
  refine ⟨before, after ++ es, by simp, fun e he => ?_, hclear⟩
  exact (List.mem_append.mp he).elim (hafter e) (hes e)

def idling (thread : ThreadId) : Stage (.keeper thread) :=
  .ofKeeper thread (fun log => Rests log ∧ Turns log) fun _ _ h hes =>
    ⟨h.1.append_beside hes, h.2.append_beside hes⟩

structure Awake (id : SessionId) (thread : ThreadId) (γ : Shell × TaskLog) : Prop where
  at' : (resting thread).At id γ
  goesOn : GoesOn γ.2

theorem stable_awake : Stable (Rely id (.keeper thread)) (Awake id thread) := by
  rintro γ γ' ⟨hat, hgoes⟩ hr
  obtain ⟨es, hes, hforeign⟩ := hr.2 hat.2.1
  exact ⟨Stage.stable_at γ γ' hat hr, hes ▸ hgoes.append_foreign hforeign⟩

theorem stable_hasEnded {k : Hand} : Stable (Rely id k) fun γ => HasEnded γ.2 := by
  rintro γ γ' ⟨b, hb⟩ ⟨hchange, -⟩
  exact ⟨b, hchange.grown.subset hb⟩

theorem guar_of_keeper {γ γ' : Shell × TaskLog} (hsound : Sound γ.2)
    (hthere : .launched thread ∈ γ.2) (hinv : Inv id γ')
    (hdisposed : (γ.1.session id).disposed = true → (γ'.1.session id).disposed = true)
    (hgrown : γ.2 <+: γ'.2) (hstarted : γ'.1.started = γ.1.started) :
      Guar id (.keeper thread) γ γ' := by
  refine ⟨⟨fun _ => hinv, hdisposed, hgrown⟩,
    fun _ hne hfloor => absurd hfloor (Hand.not_hasFloor_of_keeper hsound hthere hne),
    starts_nobody hstarted fun t ht => ?_⟩
  rw [hinv.sound.launchedOnce t thread ht (hgrown.subset hthere)]
  exact hthere

/-! ## Single steps -/

theorem news_self (byItself : Bool) (x : Session) : news byItself x x = [] := by
  simp [news]

theorem upholds_isLive {S : Stage (.keeper thread)} {Q : Shell × TaskLog → Prop}
    (hQ : Stable (Rely id (.keeper thread)) Q)
    (hlive : ∀ s log, S.At id (s, log) → ¬HasEnded log → Q (s, log)) :
    Upholds (Rely id (.keeper thread)) (Guar id (.keeper thread)) me (S.At id)
      (watched id true (isLive id)) (Fate.Returns fun live γ =>
        if live then Q γ else S.At id γ ∧ HasEnded γ.2) := by
  refine upholds_observe_step Stage.stable_at (fun live γ γ' h hr => ?_) fun s log h _ => ?_
  · cases live with
    | true => exact hQ γ γ' h hr
    | false => exact ⟨Stage.stable_at γ γ' h.1 hr, stable_hasEnded γ γ' h.2 hr⟩
  · have hsame : (observer id true).notes me s s log = log := by
      simp [observer, news_self]
    dsimp only
    rw [hsame]
    refine ⟨.refl id _ _, ?_⟩
    cases hdisposed : (s.session id).disposed with
    | true => simpa [Session.isLive, hdisposed] using ⟨h, h.1.hasEnded.mpr hdisposed⟩
    | false =>
      have hgoes : ¬HasEnded log := by simp [h.1.hasEnded, hdisposed]
      simpa [Session.isLive, hdisposed] using hlive s log h hgoes

theorem Awake.takes (h : Awake id thread (s, log)) {tasks : List Task}
    (htasks : (s.session id).tasks = task :: tasks) : Takes log task := by
  obtain ⟨⟨hinv, hthere, hrests⟩, hgoes⟩ := h
  have hprefix : ¬HasEnded log → taken log ++ [task] <+: line log := fun hlive => by
    rw [← hinv.whole hlive, htasks]
    exact ⟨tasks, by simp⟩
  refine ⟨hrests.done, ?_, hgoes, hprefix, fun hlive => (hrests.ready hlive).symm.imp_right
    fun hnil => ?_⟩
  · have hqueue := hinv.queue
    rw [htasks] at hqueue
    exact ((List.Sublist.refl (taken log)).append
      (List.singleton_sublist.mpr List.mem_cons_self)).trans hqueue
  · obtain ⟨language, hboots⟩ := hinv.sound.launched ⟨thread, hthere⟩
    refine ⟨hnil, language, ?_, ?_⟩
    · obtain ⟨rest, hrest⟩ := hprefix hlive
      rw [hnil, line, hboots] at hrest
      exact (List.cons.inj hrest).1
    · have hin : Task.boot language ∈ boots log := by rw [hboots]; exact List.mem_cons_self
      obtain ⟨e, he, hboot⟩ := List.mem_filterMap.mp hin
      cases e with
      | booting language' =>
        cases hboot
        exact he
      | _ => cases hboot

theorem Awake.drains (h : Awake id thread (s, log)) (htasks : (s.session id).tasks = []) :
    Drains log := by
  obtain ⟨⟨hinv, hthere, hrests⟩, hgoes⟩ := h
  refine ⟨hrests.done, hgoes, fun hlive => ?_⟩
  have hall : taken log = line log := by
    rw [← hinv.whole hlive, htasks, List.append_nil]
  refine ⟨hrests.done.trans hall, (hrests.ready hlive).resolve_left fun hnil => ?_⟩
  obtain ⟨language, hboots⟩ := hinv.sound.launched ⟨thread, hthere⟩
  rw [hnil, line, hboots] at hall
  cases hall

theorem upholds_takeTask :
    Upholds (Rely id (.keeper thread)) (Guar id (.keeper thread)) me (Awake id thread)
      (telling (fun task? => [task?.elim .drained .took]) (takeTask id))
      (Fate.Returns fun task? γ => match task? with
        | some task => (busy thread task [.took task]).At id γ
        | none => (standing thread .drained).At id γ) := by
  refine upholds_noted_step stable_awake (fun task? => by cases task? <;> exact Stage.stable_at) ?_
  intro s log hawake
  have hinv := hawake.at'.1
  have hthere := hawake.at'.2.1
  have hrests := hawake.at'.2.2
  cases htasks : (s.session id).tasks with
  | nil =>
    simp only [Option.elim]
    have hdrains := hawake.drains htasks
    have hinv' : Inv id (s, log ++ [.drained]) :=
      inv_append hinv (hinv.sound.quiet hdrains ⟨rfl, rfl, rfl, by simp, by simp⟩)
        ⟨rfl, rfl, rfl, by simp⟩ rfl ⟨rfl, rfl⟩ fun n hn => hinv.claimed n (by simpa using hn)
    exact ⟨guar_of_keeper hinv.sound hthere hinv' (fun hd => hd) (List.prefix_append _ _) rfl,
      hinv', List.mem_append_left _ hthere, hrests.turn ⟨rfl, rfl⟩, stands_append_singleton log _⟩
  | cons task tasks =>
    simp only [Option.elim]
    have htakes := hawake.takes htasks
    have hsession :=
      session_modifySession_self (s := s) (fun x => { x with tasks := tasks }) hinv.known
    have htaken : taken (log ++ [.took task]) = taken log ++ [task] := by
      simp [taken_append_singleton, took?]
    have hline : line (log ++ [.took task]) = line log := by
      simp [line, boots_append_singleton, scheduled_append_singleton, boot?, scheduled?]
    have hended : HasEnded (log ++ [.took task]) ↔ HasEnded log := by simp [HasEnded]
    have hinv' : Inv id (modifySession id (fun x => { x with tasks := tasks }) s,
        log ++ [.took task]) := by
      refine ⟨hinv.sound.take htakes hthere, ?_, ?_, ?_, ?_, fun n hn => ?_⟩
      · exact Nat.lt_of_lt_of_eq hinv.known (size_modifySession _).symm
      · rw [hended, hsession]
        exact hinv.hasEnded
      · rw [htaken, hline, hsession]
        have hqueue := hinv.queue
        rw [htasks] at hqueue
        simpa using hqueue
      · rw [hended, htaken, hline, hsession]
        intro hlive
        have hwhole := hinv.whole hlive
        rw [htasks] at hwhole
        simpa using hwhole
      · rw [hsession]
        exact hinv.claimed n (by simpa using hn)
    refine ⟨guar_of_keeper hinv.sound hthere hinv' (fun hd => by rw [hsession]; exact hd)
      (List.prefix_append _ _) rfl, hinv', List.mem_append_left _ hthere, ?_, ?_, fun hother => ?_⟩
    · simp [done_append_singleton, htaken, finished?, htakes.done]
    · exact List.singleton_sublist.mpr (List.mem_append_right _ List.mem_cons_self)
    · refine (htakes.ready fun hended => hother (hended.append _)).imp (fun hr => hr.append _) ?_
      rintro ⟨-, language, rfl, -⟩
      exact ⟨language, rfl⟩

theorem upholds_tell {S S' : Stage (.keeper thread)}
    (h : ∀ s log, S.At id (s, log) → Inv id (s, log ++ [e]) ∧ S'.Holds (log ++ [e])) :
    Upholds (Rely id (.keeper thread)) (Guar id (.keeper thread)) me (S.At id) (tell e)
      (Fate.Returns fun _ => S'.At id) := by
  refine upholds_step Stage.stable_at (fun _ => Stage.stable_at) ?_
  rintro ⟨s, log⟩ hat
  obtain ⟨hinv', hholds⟩ := h s log hat
  exact ⟨guar_of_keeper hat.1.sound hat.2.1 hinv' (fun hd => hd) (List.prefix_append _ _) rfl,
    hinv', List.mem_append_left _ hat.2.1, hholds⟩

theorem upholds_finish :
    Upholds (Rely id (.keeper thread)) (Guar id (.keeper thread)) me
      ((busy thread task (course task)).At id) (tell (.finished task))
      (Fate.Returns fun _ => (resting thread).At id) :=
  upholds_tell fun s log ⟨hinv, hthere, hat⟩ =>
    ⟨inv_append hinv (hinv.sound.finish hat.taken) ⟨rfl, rfl, rfl, by simp⟩ rfl ⟨rfl, rfl⟩
      fun n hn => hinv.claimed n (by simpa using hn), hat.finish⟩

theorem upholds_takeMain :
    Upholds (Rely id (.keeper thread)) (Guar id (.keeper thread)) me ((idling thread).At id)
      (telling (fun _ => [.turned]) (takeMain id))
      (Fate.Returns fun _ => (standing thread .turned).At id) := by
  refine upholds_noted_step Stage.stable_at (fun _ => Stage.stable_at) ?_
  rintro s log ⟨hinv, hthere, hrests, hturns⟩
  have hsession := session_modifySession_self (s := s) (fun x => { x with main := none }) hinv.known
  have hinv' : Inv id (modifySession id (fun x => { x with main := none }) s, log ++ [.turned]) :=
    inv_append hinv (hinv.sound.quiet hturns ⟨rfl, rfl, rfl, by simp, by simp⟩)
      ⟨rfl, rfl, rfl, by simp⟩
      (size_modifySession _) (by rw [hsession]; exact ⟨rfl, rfl⟩) fun n hn => by
        rw [hsession]
        exact hinv.claimed n (by simpa using hn)
  exact ⟨guar_of_keeper hinv.sound hthere hinv' (fun hd => by rw [hsession]; exact hd)
    (List.prefix_append _ _) rfl, hinv', List.mem_append_left _ hthere, hrests.turn ⟨rfl, rfl⟩,
    stands_append_singleton log _⟩

/-! ## Tasks -/

theorem NeverCrashes.observe {σ ν : Type} {o : Observer σ ν} {p : Action σ α} (h : NeverCrashes p) :
    NeverCrashes (o.observe p) := by
  induction p with
  | done a => trivial
  | crash => exact h.elim
  | ask act next ih => exact fun answer => ih answer (h answer)

theorem Stage.returns {k : Hand} {S : Stage k} {p : Action Shell α} (hp : (S.watch id me).Keeps p)
    (hcrash : NeverCrashes p) :
    Upholds (Rely id k) (Guar id k) me (S.At id) (watched id k.isKeeper p)
      (Fate.Returns fun _ => S.At id) := fun γ hγ =>
  ((hp.upholds γ hγ).mono fun _ _ h => h.1).returns (NeverCrashes.observe hcrash)

theorem neverCrashes_excuse (fault : Fault) :
    NeverCrashes (excuse id fault : Action Shell (Option α)) :=
  fun live => by
    cases live with
    | true => exact fun _ _ => trivial
    | false => trivial

theorem neverCrashes_sayResult (result : Option (Option String)) :
    NeverCrashes (sayResult id result) := by
  unfold sayResult
  split
  · exact neverCrashes_sayLine _
  · trivial

theorem neverCrashes_preloadWith (path : String) (interpreter : SessionInterpreter) :
    NeverCrashes (preloadWith path interpreter) := by
  refine NeverCrashes.bind (p := Action.read _) (fun _ => trivial) fun text => ?_
  cases text with
  | error e => exact fun _ _ => trivial
  | ok text =>
    have heval : NeverCrashes (evalWith interpreter text (some path)) :=
      (neverCrashes_attempt _).bind fun result? => by cases result? <;> trivial
    refine NeverCrashes.bind heval fun (result, interpreter) => ?_
    cases result with
    | error fault => exact fun _ _ => trivial
    | ok _ => trivial

theorem neverCrashes_sayGreeting (interactive : Bool) (text : String) : NeverCrashes (do
    let endIsFinal ← Action.read (·.console.endIsFinal)
    if interactive && !endIsFinal then sayLine id text) := by
  refine NeverCrashes.bind (p := Action.read _) (fun _ => trivial) fun endIsFinal => ?_
  split
  · exact neverCrashes_sayLine _
  · trivial

theorem neverCrashes_runTask (task : Task) : NeverCrashes (runTask id task) := by
  refine NeverCrashes.bind ((neverCrashes_attempt _).bind fun result? => ?_) neverCrashes_sayResult
  match result? with
  | some (.ok a) => trivial
  | some (.error fault) => exact neverCrashes_excuse fault
  | none => exact neverCrashes_excuse _

theorem keeps_excuse {ν : Type} {w : Watch id ν} (fault : Fault) :
    w.Keeps (excuse id fault : Action Shell (Option α)) := by
  refine Watch.Keeps.bind (Watch.keeps_read _) fun live => ?_
  cases live with
  | true =>
    exact Watch.Keeps.bind (Watch.keeps_of_plain (chore_reportError fault)) fun _ =>
      Watch.keeps_pure _
  | false => exact Watch.keeps_pure _

theorem upholds_tell_step {steps : TaskLog}
    (hquiet : took? e = none ∧ boot? e = none ∧ finished? e = none ∧ scheduled? e = none ∧
      (∀ n, e ≠ .claimed n) ∧ (∀ t, e ≠ .launched t) ∧ ∀ b, e ≠ .ended b)
    (hdue : ∀ log, Due log e) :
    Upholds (Rely id (.keeper thread)) (Guar id (.keeper thread)) me
      ((busy thread task steps).At id)
      (tell e) (Fate.Returns fun _ => (busy thread task (steps ++ [e])).At id) := by
  obtain ⟨htook, hboot, hfinished, hscheduled, hclaimed, hlaunched, hended⟩ := hquiet
  refine upholds_tell fun s log ⟨hinv, _, hat⟩ => ⟨?_, hat.step ⟨htook, hfinished⟩⟩
  refine inv_append hinv
    (hinv.sound.quiet (hdue log) ⟨htook, hboot, hfinished, hclaimed, hlaunched⟩)
    ⟨htook, hboot, hscheduled, hended⟩ rfl ⟨rfl, rfl⟩ fun n hn => hinv.claimed n ?_
  exact (List.mem_append.mp hn).resolve_right fun hin => hclaimed n (List.mem_singleton.mp hin).symm

theorem upholds_install (interpreter : SessionInterpreter) {steps : TaskLog} :
    Upholds (Rely id (.keeper thread)) (Guar id (.keeper thread)) me
      ((busy thread task steps).At id)
      (telling (fun _ => [.installed]) (install id interpreter))
      (Fate.Returns fun _ => (busy thread task (steps ++ [.installed])).At id) := by
  refine upholds_noted_step Stage.stable_at (fun _ => Stage.stable_at) ?_
  rintro s log ⟨hinv, hthere, hat⟩
  have hplain : Plain s (if (s.session id).disposed then (false, s) else
      ((s.session id).main.all MainTask.isInteractive,
        modifySession id (fun session => { session with interpreter := some interpreter })
          s)).2 := by
    split
    · exact .refl s
    · exact plain_modifySession fun _ => rfl
  have hstarted : (if (s.session id).disposed then (false, s) else
      ((s.session id).main.all MainTask.isInteractive,
        modifySession id (fun session => { session with interpreter := some interpreter })
          s)).2.started
      = s.started := by
    split <;> rfl
  dsimp only at hplain hstarted ⊢
  have hcharge := hplain.charge id
  simp only [Session.charge, Session.Charge.mk.injEq] at hcharge
  have hinv' :=
    inv_append hinv (hinv.sound.quiet (e := .installed) trivial ⟨rfl, rfl, rfl, by simp, by simp⟩)
    ⟨rfl, rfl, rfl, by simp⟩ hplain.size ⟨hcharge.1, hcharge.2.2.2.2⟩ fun n hn => by
      rw [hcharge.2.1]
      exact hinv.claimed n (by simpa using hn)
  exact ⟨guar_of_keeper hinv.sound hthere hinv' (fun hd => hcharge.2.2.2.2.trans hd)
    (List.prefix_append _ _) hstarted, hinv', List.mem_append_left _ hthere, hat.step ⟨rfl, rfl⟩⟩

theorem upholds_preload {S : Stage (.keeper thread)} (script? : Option String)
    (interpreter : SessionInterpreter) :
    Upholds (Rely id (.keeper thread)) (Guar id (.keeper thread)) me (S.At id)
      (watched id true (match script? with
        | some path => preloadWith path interpreter
        | none => pure interpreter))
      (Fate.Returns fun _ => S.At id) := by
  cases script? with
  | some path =>
    exact Stage.returns (Watch.keeps_preloadWith path _) (neverCrashes_preloadWith path _)
  | none => exact Stage.returns (Watch.keeps_pure _) trivial

theorem upholds_bootTold (language : Language) :
    Upholds (Rely id (.keeper thread)) (Guar id (.keeper thread)) me
      ((busy thread (.boot language) [.took (.boot language)]).At id) (bootTold id language)
      (Fate.Returns fun _ => (busy thread (.boot language) (course (.boot language))).At id) := by
  refine Upholds.bind (Stage.returns (Watch.keeps_read _) fun _ => trivial)
    (.refl id _) fun session => ?_
  refine Upholds.bind (Stage.returns (Watch.keeps_read _) fun _ => trivial)
    (.refl id _) fun script? => ?_
  refine Upholds.bind (upholds_preload script? _) (.refl id _) fun interpreter => ?_
  refine Upholds.bind
    (upholds_tell_step (by simp [took?, boot?, finished?, scheduled?]) fun _ => trivial)
    (.refl id _) fun _ => ?_
  refine Upholds.bind (upholds_install interpreter) (.refl id _) fun interactive => ?_
  exact Stage.returns (Watch.keeps_sayGreeting interactive _)
    (neverCrashes_sayGreeting interactive _)

theorem upholds_guardedTold :
    Upholds (Rely id (.keeper thread)) (Guar id (.keeper thread)) me
      ((busy thread task [.took task]).At id) (guardedTold id task)
      (Fate.Returns fun _ => (busy thread task (course task)).At id) := by
  have hperform : Upholds (Rely id (.keeper thread)) (Guar id (.keeper thread)) me
      ((busy thread task [.took task]).At id) (performTold id task)
      fun _ => (busy thread task (course task)).At id := by
    cases task with
    | boot language =>
      refine (upholds_bootTold language).bind (.refl id _) fun _ => ?_
      exact upholds_pure _ Stage.stable_at fun _ h => h
    | runHook | script => exact Stage.upholds_watched (Watch.keeps_perform _) fun _ _ h => h
  have hexcuse : ∀ fault, Upholds (Rely id (.keeper thread)) (Guar id (.keeper thread)) me
      ((busy thread task (course task)).At id)
      (watched id true (excuse id fault : Action Shell (Option (Option String))))
      (Fate.Returns fun _ => (busy thread task (course task)).At id) := fun fault =>
    Stage.returns (keeps_excuse fault) (neverCrashes_excuse fault)
  have hattempt : Upholds (Rely id (.keeper thread)) (Guar id (.keeper thread)) me
      ((busy thread task [.took task]).At id) (performTold id task).attempt
      (Fate.Returns fun _ => (busy thread task (course task)).At id) := fun γ hγ =>
    (hperform γ hγ).attempt (fun _ _ h => h) fun _ h => h
  refine hattempt.bind (.refl id _) fun result? => ?_
  match result? with
  | some (.ok result) => exact upholds_pure _ Stage.stable_at fun _ h => h
  | some (.error fault) => exact hexcuse fault
  | none => exact hexcuse _

theorem upholds_runTaskTold :
    Upholds (Rely id (.keeper thread)) (Guar id (.keeper thread)) me
      ((busy thread task [.took task]).At id) (runTaskTold id task)
      (Fate.Returns fun _ => (resting thread).At id) :=
  upholds_guardedTold.bind (.refl id _) fun result =>
    (Stage.returns (Watch.keeps_of_plain (chore_sayResult result))
      (neverCrashes_sayResult result)).bind
      (.refl id _) fun _ => upholds_finish

/-! ## The loop -/

def Between (id : SessionId) (thread : ThreadId) (phase : Phase) (γ : Shell × TaskLog) : Prop :=
  (phase = .entering ∨ phase = .idle) ∧ (resting thread).At id γ ∨ (standing thread .turned).At id γ

def IsOff (thread : ThreadId) (log : TaskLog) : Prop :=
  .launched thread ∈ log ∧ (HasEnded log ∨ Stands .turned log)

def LoopFate (id : SessionId) (thread : ThreadId) : Fate (Option Phase) → Shell × TaskLog → Prop
  | .returned (some phase), γ => Between id thread phase γ
  | .returned none, γ => IsOff thread γ.2
  | .crashed, γ => IsOff thread γ.2
  | .halted, _ => True

theorem loopFate_of_turned {fate : Fate (Option Phase)} (h : (standing thread .turned).At id γ) :
    LoopFate id thread fate γ := by
  have hoff : IsOff thread γ.2 := ⟨h.2.1, .inr h.2.2.2⟩
  match fate with
  | .returned (some phase) => exact .inr h
  | .returned none => exact hoff
  | .crashed => exact hoff
  | .halted => trivial

theorem stable_isOff : Stable (Rely id (.keeper thread)) fun γ => IsOff thread γ.2 := by
  rintro γ γ' ⟨hthere, hoff⟩ hr
  obtain ⟨es, hes, hforeign⟩ := hr.2 hthere
  refine ⟨hes ▸ List.mem_append_left es hthere,
    hoff.imp (fun h => stable_hasEnded γ γ' h hr) fun h => ?_⟩
  rw [hes]
  exact h.append_beside fun e he => isBeside_of_isForeign (hforeign e he)

theorem turns_of_drained (hsound : Sound log) (h : Stands .drained log) (hlive : ¬HasEnded log) :
    Turns log := by
  obtain ⟨before, after, rfl, hafter⟩ := h
  have hdrains : Drains before := hsound.inOrder before .drained after rfl
  exact ⟨before, after, rfl, hafter, hdrains.clear fun hended => hlive (hended.append _)⟩

theorem upholds_turn :
    Upholds (Rely id (.keeper thread)) (Guar id (.keeper thread)) me
      ((standing thread .drained).At id)
      (do
        if ← watched id true (isLive id) then
          let main ← telling (fun _ => [.turned]) (takeMain id)
          return some (← watched id true (turn id main))
        else return none)
      (LoopFate id thread) := by
  have hidling : ∀ s log, (standing thread .drained).At id (s, log) → ¬HasEnded log →
      (idling thread).At id (s, log) := fun s log ⟨hinv, hthere, hrests, hdrained⟩ hlive =>
    ⟨hinv, hthere, hrests, turns_of_drained hinv.sound hdrained hlive⟩
  refine (upholds_isLive Stage.stable_at hidling).bind (.refl id _) fun live γ hγ => ?_
  cases live with
  | false => exact upholds_pure none stable_isOff (fun _ h => h) γ ⟨hγ.1.2.1, .inl hγ.2⟩
  | true =>
    refine Upholds.bind upholds_takeMain (.refl id _) (fun main => ?_) γ hγ
    refine Stage.upholds_bind (Watch.keeps_turn main) (fun phase => ?_) fun γ h =>
      loopFate_of_turned h
    exact upholds_pure _ Stage.stable_at fun γ h => loopFate_of_turned h

theorem upholds_idle :
    Upholds (Rely id (.keeper thread)) (Guar id (.keeper thread)) me ((resting thread).At id)
      (advanceTold id .idle) (LoopFate id thread) := by
  refine (upholds_isLive stable_awake fun s log h hlive => ⟨h, goesOn_of_not_hasEnded hlive⟩).bind
    (.refl id _) fun live γ hγ => ?_
  cases live with
  | false => exact upholds_pure none stable_isOff (fun _ h => h) γ ⟨hγ.1.2.1, .inl hγ.2⟩
  | true =>
    refine Upholds.bind upholds_takeTask (.refl id _) (fun task? => ?_) γ hγ
    cases task? with
    | some task =>
      refine upholds_runTaskTold.bind (.refl id _) fun _ => ?_
      exact upholds_pure _ Stage.stable_at fun γ h => .inl ⟨.inr rfl, h⟩
    | none => exact upholds_turn

theorem upholds_advanceTold (phase : Phase) :
    Upholds (Rely id (.keeper thread)) (Guar id (.keeper thread)) me (Between id thread phase)
      (advanceTold id phase) (LoopFate id thread) := by
  intro γ hγ
  have hturned : ∀ p : Action Shell (Option Phase), (standing thread .turned).At id γ →
      ((standing thread .turned).watch id me).Keeps p →
      Safe (Rely id (.keeper thread)) (Guar id (.keeper thread)) me (LoopFate id thread)
        (watched id true p) γ := fun p hat hp =>
    Stage.upholds_watched hp (fun _ _ h => loopFate_of_turned h) γ hat
  cases phase with
  | idle =>
    rcases hγ with ⟨-, hat⟩ | hat
    · exact upholds_idle γ hat
    · exact upholds_idle γ ⟨hat.1, hat.2.1, hat.2.2.1⟩
  | entering =>
    have hat : (resting thread).At id γ := by
      rcases hγ with ⟨-, hat⟩ | hat
      · exact hat
      · exact ⟨hat.1, hat.2.1, hat.2.2.1⟩
    have hupdate : ∀ me', Within Plain
        (updateSession id fun session => { session with owner := some me' }) :=
      fun _ => plain_updateSession fun _ => rfl
    refine Upholds.observe_bind (p := self)
      (Stage.returns (Watch.keeps_of_plain chore_self) fun _ =>
      trivial) (.refl id _) (fun me' => Upholds.observe_bind
        (Stage.returns (Watch.keeps_of_plain (hupdate me')) fun _ => trivial) (.refl id _)
          fun _ => upholds_observe_pure _ Stage.stable_at fun γ h => .inl ⟨.inr rfl, h⟩) γ hat
  | reading statement =>
    refine hturned _ (hγ.resolve_left (by simp)) ?_
    exact Watch.Keeps.bind (Watch.keeps_readStatement (some statement)) fun _ => Watch.keeps_pure _
  | batch run =>
    refine hturned _ (hγ.resolve_left (by simp)) ?_
    exact Watch.Keeps.bind (Watch.keeps_nextTarget run) fun _ => Watch.keeps_pure _
  | collecting run last =>
    refine hturned _ (hγ.resolve_left (by simp)) ?_
    exact Watch.Keeps.bind (Watch.keeps_of_plain (plain_collect run last)) fun _ =>
      Watch.keeps_pure _
  | lingering run =>
    refine hturned _ (hγ.resolve_left (by simp)) ?_
    exact Watch.Keeps.bind (Watch.keeps_linger run) fun _ => Watch.keeps_pure _

end TaskLog

end SessionShell
