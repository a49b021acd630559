import Mathlib.Data.List.Sigma
import SessionShell.Proofs.Action.Run
import SessionShell.Proofs.Sequence.Band
import SessionShell.Proofs.Tasks.Loop

/-!
A session on any course of the shell.

Whatever the threads are that are there at first, and whatever time does in between: the session
makes its interpreter first, does what it was given to do in the order in which it was given, and
comes to its main task when nothing is left.
-/

namespace SessionShell

open Action Shell

/-- What a thread has ahead of it at first. -/
inductive Opening (id : SessionId) where
  | role (role : Role) (h : ¬role.IsOf id)
  | visit (visit : Visit id)

namespace Opening

variable {id : SessionId}

def run : Opening id → Action Shell (Option Role)
  | role r _ => program r
  | visit v => v.run

def told (n : Nat) : Opening id → Action (Shell × TaskLog) (Option Role)
  | role r _ => TaskLog.programTold id r
  | visit v => TaskLog.visitTold n v

def hand (n : Nat) : Opening id → TaskLog.Hand
  | role _ _ => .helper
  | visit _ => .visitor n

end Opening

/-- The threads of a shell before they do anything. -/
def opened {id : SessionId} (s : Shell) (crew : List (ThreadId × Opening id)) :
    Machine Shell Role :=
  ⟨s, crew.map fun x => ⟨x.1, x.2.run⟩⟩

/-- The same with the log, in which stands what was scheduled before. -/
def openedTold {id : SessionId} (s : Shell) (crew : List (ThreadId × Opening id)) :
    Machine (Shell × TaskLog) Role :=
  ⟨(s, (s.session id).tasks.map .scheduled), crew.zipIdx.map fun x => ⟨x.1.1, x.1.2.told x.2⟩⟩

namespace TaskLog

open TaskEvent

variable {id : SessionId} {s s' : Shell} {γ γ' : Shell × TaskLog} {k k' : Hand}
  {t thread : ThreadId}
  {env : Shell → Shell → Prop}

def pact (id : SessionId) : Pact (Shell × TaskLog) Role Hand where
  rely := Rely id
  guar := Guar id
  here k := (Stage.free k).At id
  ready
    | .keeper thread, t, role, γ => t = thread ∧ ∃ phase, role = .session id phase ∧
        Between id thread phase γ
    | _, _, role, _ => ¬role.IsOf id
  gone
    | .keeper thread, γ => IsOff thread γ.2
    | _, _ => True

def Surrounds (env : Shell → Shell → Prop) : Prop :=
  ∀ s s', env s s' → s'.sessions = s.sessions ∧ s'.started = s.started

theorem inv_congr {log : TaskLog} (h : Inv id (s, log)) (hsessions : s'.sessions = s.sessions) :
    Inv id (s', log) := by
  have hsession : s'.session id = s.session id := by rw [session, session, hsessions]
  refine ⟨h.sound, ?_, ?_, ?_, ?_, ?_⟩ <;> dsimp only
  · exact hsessions ▸ h.known
  · exact hsession ▸ h.hasEnded
  · exact hsession ▸ h.queue
  · exact hsession ▸ h.whole
  · exact hsession ▸ h.claimed

theorem rely_of_sessions {log : TaskLog} (hsessions : s'.sessions = s.sessions) :
    Rely id k (s, log) (s', log) := by
  have hsession : s'.session id = s.session id := by rw [session, session, hsessions]
  exact ⟨⟨fun h => inv_congr h hsessions, fun hd => by rwa [hsession], List.prefix_rfl⟩,
    fun _ => ⟨[], by simp, by simp⟩⟩

theorem suits_of_ne (hne : k ≠ k') : (pact id).Suits k k' :=
  ⟨fun _ _ h => h.rely hne.symm, fun _ _ h => h.rely hne⟩

theorem suits_helper (k : Hand) : (pact id).Suits k .helper := by
  by_cases hk : k = .helper
  · subst hk
    exact ⟨fun _ _ h => ⟨h.change, fun hf => hf.elim⟩, fun _ _ h => ⟨h.change, fun hf => hf.elim⟩⟩
  · exact suits_of_ne hk

theorem between_of_launched (h : Inv id γ) (hinv : Inv id γ') (hlog : γ'.2 = γ.2 ++ [.launched t])
    (hnone : ¬Launched γ.2) : Between id t .entering γ' := by
  have htaken := taken_eq_nil_of_not_launched h.sound hnone
  have hdone : done γ.2 = [] := List.prefix_nil.mp (htaken ▸ h.sound.done)
  have htaken' : taken γ'.2 = [] := by rw [hlog, taken_append_singleton, htaken]; rfl
  refine .inl ⟨.inl rfl, hinv, by rw [hlog]; exact List.mem_append_right _ List.mem_cons_self, ?_,
    fun _ => .inl htaken'⟩
  rw [htaken', hlog, done_append_singleton, hdone]
  rfl

theorem programTold_of_not_isOf {role : Role} (h : ¬role.IsOf id) :
    programTold id role = watched id false (program role) := by
  cases role with
  | stream | compiler => rfl
  | session other phase =>
    have hne : other ≠ id := h
    simp only [programTold, hne, if_false]

theorem safe_helper {role : Role} (h : ¬role.IsOf id) (hnot : k.isKeeper = false)
    (hγ : (Stage.free k).At id γ) :
    Safe (Rely id k) (Guar id k) t (fun fate _ => ∀ role, fate = .returned (some role) →
      ¬role.IsOf id)
      (programTold id role) γ := by
  have hgoes : Safe (Rely id k) (Guar id k) t
      (fun fate _ => ∀ role, fate = .returned (some role) → ¬role.IsOf id)
      ((observer id k.isKeeper).observe (program role)) γ :=
    ((Watch.goes_program (w := (Stage.free k).watch id t) h).upholds γ hγ).mono
      fun fate _ h' role hfate => h'.2 _ hfate role rfl
  rw [programTold_of_not_isOf h]
  rwa [hnot] at hgoes

theorem fate_of_not_isOf {fate : Fate (Option Role)} (hnot : k.isKeeper = false)
    (h : ∀ role, fate = .returned (some role) → ¬role.IsOf id) : (pact id).Fate k t fate γ := by
  cases k with
  | keeper => cases hnot
  | visitor | helper =>
    match fate with
    | .returned (some role) => exact h role rfl
    | .returned none => trivial
    | .crashed => trivial
    | .halted => trivial

theorem safe_keeper {phase : Phase} (h : Between id thread phase γ) :
    Safe (Rely id (.keeper thread)) (Guar id (.keeper thread)) thread
      ((pact id).Fate (.keeper thread) thread) (programTold id (.session id phase)) γ := by
  simp only [programTold, if_true]
  refine (upholds_advanceTold phase γ h).bind_fate (.refl id _) (fun phase? γ' hγ' => ?_) fun _ h =>
    h
  cases phase? with
  | none => exact upholds_pure none stable_isOff (fun _ h => h) γ' hγ'
  | some phase' =>
    intro γ'' hr
    refine ⟨rfl, phase', rfl, ?_⟩
    rcases hγ' with ⟨hphase, hat⟩ | hat
    · exact .inl ⟨hphase, Stage.stable_at γ' γ'' hat hr⟩
    · exact .inr (Stage.stable_at γ' γ'' hat hr)

theorem kept_pact (henv : Surrounds env) : (pact id).Kept (lifeTold id) (Life.beside env) where
  refl := .refl id
  trans _ _ _ _ h h' := h.trans h'
  here_rely _ := Stage.stable_at
  here_guar k γ γ' h hguar := by
    obtain ⟨es, hes⟩ := hguar.change.grown
    exact ⟨hguar.change.inv h.1, hes ▸ h.2.1.append es, trivial⟩
  gone k := by
    cases k with
    | keeper thread => exact stable_isOff
    | visitor | helper => exact fun _ _ _ _ => trivial
  joins k γ γ' hhere hguar := by
    have hinv' := hguar.change.inv hhere.1
    rcases hguar.starts with ⟨hstarted, hroles, -⟩ | ⟨hstarted, hlog, hnone⟩
    · rename_i news
      have hpending : (lifeTold id).pending γ' = (lifeTold id).pending γ ++ news := hstarted
      refine ⟨news.map fun x => (.helper, x), by simpa [Function.comp_def] using hpending, ?_, ?_⟩
      · intro k' t' role hin
        obtain ⟨x, hx, heq⟩ := List.mem_map.mp hin
        cases heq
        exact ⟨⟨hinv', trivial, trivial⟩, hroles t' role hx, fun other _ => suits_helper other⟩
      · rw [List.map_map, List.pairwise_map]
        exact List.pairwise_of_forall fun _ _ => suits_helper .helper
    · rename_i t'
      have hbetween := between_of_launched hhere.1 hinv' hlog hnone
      have hready : (pact id).ready (.keeper t') t' (.session id .entering) γ' :=
        ⟨rfl, .entering, rfl, hbetween⟩
      refine Pact.joins_one (k := .keeper t') hstarted ⟨hinv', ?_, trivial⟩ hready
        fun other hother => suits_of_ne fun heq => ?_
      · exact hlog ▸ List.mem_append_right _ List.mem_cons_self
      · subst heq
        exact hnone ⟨t', hother.2.1⟩
  role k t role γ hhere hready := by
    cases k with
    | keeper thread =>
      obtain ⟨rfl, phase, rfl, hbetween⟩ := hready
      exact safe_keeper hbetween
    | visitor | helper =>
      exact (safe_helper hready rfl hhere).mono fun _ _ h => fate_of_not_isOf rfl h
  adopts _ _ := rely_of_sessions rfl
  adopted _ := rfl
  passes k γ γ' h := by
    obtain ⟨s', log'⟩ := γ'
    obtain ⟨he, rfl⟩ := h
    exact rely_of_sessions (henv _ _ he).1
  passed γ γ' h := (henv _ _ h.1).2

/-! ## The thread of the session -/

def Enrolled (log : TaskLog) (roster : List (Hand × Option (Thread (Shell × TaskLog) Role))) :
    Prop :=
  ∀ t, .launched t ∈ log → ∃ t?, (.keeper t, t?) ∈ roster ∧ ∀ thread, t? = some thread →
    thread.id = t

theorem id_of_stepThread? {σ ρ : Type} {life : Life σ ρ} {t t' : Thread σ ρ} {s s' : σ}
    (h : life.stepThread? t s = some (some t', s')) : t'.id = t.id := by
  obtain ⟨id, rest⟩ := t
  cases rest with
  | done role? => cases role? <;> cases h; rfl
  | crash => cases h
  | ask act next =>
    obtain ⟨r, -, heq⟩ := Option.map_eq_some_iff.mp h
    cases heq
    rfl

theorem Enrolled.step {before after : List (Thread (Shell × TaskLog) Role)}
    {T : Thread (Shell × TaskLog) Role} {T? : Option (Thread (Shell × TaskLog) Role)}
    {roster first last : List (Hand × Option (Thread (Shell × TaskLog) Role))}
    {news : List (Hand × ThreadId × Role)} (h : Enrolled γ.2 roster)
    (hstep : (lifeTold id).stepThread? T γ = some (T?, γ'))
    (hs : (pact id).Stepped (lifeTold id) γ γ' before after T T? roster first k last news) :
    Enrolled γ'.2 (first ++ (k, T?) :: last ++ Pact.joined (lifeTold id) news) := by
  have hold : ∀ t, .launched t ∈ γ.2 → ∃ t?, (.keeper t, t?) ∈
      first ++ (k, T?) :: last ++ Pact.joined (lifeTold id) news ∧
        ∀ thread, t? = some thread → thread.id = t := by
    intro t ht
    obtain ⟨t?, hin, hid⟩ := h t ht
    rw [hs.roster] at hin
    rcases List.mem_append.mp hin with hin | hin
    · exact ⟨t?, by simp [hin], hid⟩
    · rcases List.mem_cons.mp hin with heq | hin
      · cases heq
        refine ⟨T?, by simp, fun thread hthread => ?_⟩
        subst hthread
        rw [id_of_stepThread? hstep]
        exact hid T rfl
      · exact ⟨t?, by simp [hin], hid⟩
  intro t ht
  rcases hs.guar with hguar | rfl
  · cases hguar.starts with
    | others _ _ hlog => exact hold t (hlog t ht)
    | @keeper t' hstarted hlog _ =>
      rw [hlog] at ht
      rcases List.mem_append.mp ht with hin | hin
      · exact hold t hin
      · have heq : t = t' := by
          cases List.mem_singleton.mp hin
          rfl
        subst heq
        have hpending : (lifeTold id).pending γ' =
            (lifeTold id).pending γ ++ [(t, .session id .entering)] := hstarted
        have hnews := List.append_cancel_left (hs.pending.symm.trans hpending)
        obtain ⟨⟨k', x⟩, hk', heq⟩ := List.map_eq_singleton_iff.mp hnews
        dsimp only at heq
        subst heq
        have hready := (hs.newcomers k' t _ (by rw [hk']; exact List.mem_cons_self)).2
        cases k' with
        | keeper t' =>
          obtain ⟨rfl, -⟩ := hready
          refine ⟨_, List.mem_append_right _
            (List.mem_map.mpr ⟨_, by rw [hk']; exact List.mem_cons_self, rfl⟩),
            fun thread hthread => ?_⟩
          cases hthread
          rfl
        | visitor | helper => exact absurd rfl hready
  · exact hold t ht

theorem enrolled_of_course {m m' : Machine (Shell × TaskLog) Role}
    {roster : List (Hand × Option (Thread (Shell × TaskLog) Role))} (henv : Surrounds env)
    (h : (lifeTold id).Course (fun _ _ _ => True) (Life.beside env) m m')
    (hm : (pact id).Manned (lifeTold id) m roster) (hinv : Inv id m.shared)
    (henrolled : Enrolled m.shared.2 roster) :
    Inv id m'.shared ∧ ∃ roster', (pact id).Manned (lifeTold id) m' roster' ∧
      Enrolled m'.shared.2 roster' := by
  have hP := @kept_pact id env henv
  induction h with
  | refl => exact ⟨hinv, roster, hm, henrolled⟩
  | tail _ hmove ih =>
    obtain ⟨hinv', roster', hm', henrolled'⟩ := ih
    cases hmove with
    | thread hstep _ =>
      obtain ⟨first, k, last, news, hs⟩ := hm'.step hP hstep
      refine ⟨?_, _, hs.manned, henrolled'.step hstep hs⟩
      rcases hs.guar with hguar | heq
      · exact hguar.change.inv hinv'
      · exact heq ▸ hinv'
    | adopt =>
      exact ⟨inv_congr hinv' rfl, roster',
        hm'.of_rely hP (fun k => hP.adopts k _) (Pact.crew_adopt hP _),
        henrolled'⟩
    | @env _ γ' he =>
      obtain ⟨s', log'⟩ := γ'
      have hrely : ∀ k, (pact id).rely k _ _ := fun k => hP.passes k _ _ he
      obtain ⟨he, rfl⟩ := he
      refine ⟨inv_congr hinv' (henv _ _ he).1, roster', hm'.of_rely hP hrely ?_, henrolled'⟩
      have hstarted : s'.started = _ := (henv _ _ he).2
      simp only [Life.crew, Life.pending, lifeTold, life]
      rw [hstarted]

/-! ## Whole courses -/

/-- What the log tells of a session as it is. -/
structure Accounts (id : SessionId) (m : Machine (Shell × TaskLog) Role) : Prop where
  inOrder : InOrder m.shared.2
  once : (taken m.shared.2).Sublist (line m.shared.2)
  whole : ¬HasEnded m.shared.2 →
    taken m.shared.2 ++ (m.shared.1.session id).tasks = line m.shared.2
  hasEnded : HasEnded m.shared.2 ↔ (m.shared.1.session id).disposed = true
  /-- The thread of the session does not end between two tasks, nor with one. -/
  thread : ∀ t, .launched t ∈ m.shared.2 → ¬HasEnded m.shared.2 → ¬Stands .turned m.shared.2 →
    ∃ thread ∈ (lifeTold id).crew m, thread.id = t

theorem inv_opened (hknown : id < s.sessions.size) (hlive : (s.session id).isLive = true) :
    Inv id (s, (s.session id).tasks.map .scheduled) := by
  have hes : ∀ e ∈ (s.session id).tasks.map TaskEvent.scheduled, e.IsBeside = true := fun e he => by
    obtain ⟨task, -, rfl⟩ := List.mem_map.mp he
    rfl
  have hempty : Sound [] :=
    ⟨fun before e after heq => by simp at heq, List.prefix_rfl, by simp, fun h => absurd rfl h,
      fun h => absurd rfl h, by simp [Launched], by simp⟩
  have hscheduled : scheduled ((s.session id).tasks.map .scheduled) = (s.session id).tasks := by
    rw [scheduled, List.filterMap_map]
    exact List.filterMap_some
  have hline : line ((s.session id).tasks.map .scheduled) = (s.session id).tasks := by
    rw [← List.nil_append (List.map _ _), line_append_beside hes, hscheduled]
    rfl
  have htaken : taken ((s.session id).tasks.map .scheduled) = [] := by
    rw [← List.nil_append (List.map _ _), taken_append_beside hes]
    rfl
  refine ⟨by simpa using hempty.append_beside hes, hknown, ?_, ?_, ?_, ?_⟩ <;> dsimp only
  · simpa [HasEnded, Session.isLive] using hlive
  · rw [htaken, hline]
    exact List.Sublist.refl _
  · rw [htaken, hline]
    exact fun _ => rfl
  · simp

section Opened

variable {crew : List (ThreadId × Opening id)}

def signedUp (s : Shell) (crew : List (ThreadId × Opening id)) :
    List (Hand × Option (Thread (Shell × TaskLog) Role)) :=
  (crew.zipIdx.map fun x => (x.1.2.hand x.2, some ⟨x.1.1, x.1.2.told x.2⟩)) ++
    s.started.map fun x => (.helper, some ⟨x.1, programTold id x.2⟩)

theorem hand_ne_of_ne {n n' : Nat} (hne : n ≠ n') (o o' : Opening id) :
    o.hand n ≠ o'.hand n' ∨ o'.hand n' = .helper := by
  cases o' with
  | role => exact .inr rfl
  | visit =>
    refine .inl fun heq => ?_
    cases o with
    | role => cases heq
    | visit => exact hne (Hand.visitor.inj heq)

theorem free_of_not_isKeeper (hinv : Inv id γ) (hnot : k.isKeeper = false) :
    (Stage.free k).At id γ := by
  cases k with
  | keeper => cases hnot
  | visitor | helper => exact ⟨hinv, trivial, trivial⟩

theorem member_told {n : Nat} (hinv : Inv id γ) (t : ThreadId) (o : Opening id) :
    (pact id).Member γ (o.hand n) (some ⟨t, o.told n⟩) := by
  cases o with
  | role r hr =>
    have hfree := free_of_not_isKeeper (k := .helper) hinv rfl
    exact .present hfree ((safe_helper hr rfl hfree).mono fun _ _ h => fate_of_not_isOf rfl h)
  | visit v =>
    have hfree := free_of_not_isKeeper (k := .visitor n) hinv rfl
    exact .present hfree ((upholds_visitTold v γ hfree).mono fun _ _ h => fate_of_not_isOf rfl h)

theorem manned_opened (hinv : Inv id (openedTold s crew).shared)
    (hpending : ∀ t role, (t, role) ∈ s.started → ¬role.IsOf id) :
    (pact id).Manned (lifeTold id) (openedTold s crew) (signedUp s crew) := by
  refine ⟨fun k t? hk => ?_, ?_, ?_⟩
  · rcases List.mem_append.mp hk with hin | hin
    · obtain ⟨⟨⟨t, o⟩, n⟩, -, heq⟩ := List.mem_map.mp hin
      cases heq
      exact member_told hinv t o
    · obtain ⟨⟨t, role⟩, hstarted, heq⟩ := List.mem_map.mp hin
      cases heq
      exact member_told (n := 0) hinv t (.role role (hpending t role hstarted))
  · have hhelpers : ∀ k ∈ (s.started.map fun _ => Hand.helper), k = .helper := fun k hk => by
      obtain ⟨-, -, rfl⟩ := List.mem_map.mp hk
      rfl
    simp only [signedUp, List.map_append, List.map_map, Function.comp_def]
    refine List.pairwise_append.mpr ⟨?_, ?_, fun k _ k' hk' => hhelpers k' hk' ▸ suits_helper k⟩
    · rw [List.pairwise_map]
      have hnumbers := List.nodup_zipIdx_map_snd crew
      rw [List.Nodup, List.pairwise_map] at hnumbers
      refine hnumbers.imp fun {x y} hne => ?_
      rcases hand_ne_of_ne hne x.1.2 y.1.2 with h | h
      · exact suits_of_ne h
      · exact h ▸ suits_helper _
    · rw [List.pairwise_map]
      exact List.pairwise_of_forall fun _ _ => suits_helper .helper
  · simp [signedUp, Life.crew, openedTold, Life.pending, lifeTold, life, List.filterMap_map]

theorem keeps_opened : Life.Keeps (fun _ _ _ => True) (openedTold s crew) (opened s crew) := by
  refine ⟨rfl, ?_⟩
  have hcrew : (opened s crew).threads = crew.zipIdx.map fun x => ⟨x.1.1, x.1.2.run⟩ := by
    conv_lhs => rw [opened, ← List.zipIdx_map_fst 0 crew]
    exact List.map_map
  rw [hcrew, openedTold, List.forall₂_map_left_iff, List.forall₂_map_right_iff]
  refine List.forall₂_same.mpr fun x _ => ⟨rfl, ?_⟩
  obtain ⟨⟨t, o⟩, n⟩ := x
  cases o with
  | role r hr => exact follows_programTold id r
  | visit v => exact follows_visitTold n v

theorem accounts_of_course (hknown : id < s.sessions.size) (hlive : (s.session id).isLive = true)
    (hpending : ∀ t role, (t, role) ∈ s.started → ¬role.IsOf id) (henv : Surrounds env)
    {m : Machine (Shell × TaskLog) Role}
    (h : (lifeTold id).Course (fun _ _ _ => True) (Life.beside env) (openedTold s crew) m) :
    Accounts id m := by
  have hinv₀ := inv_opened hknown hlive
  have hnobody : (openedTold s crew).shared.2.Enrolled (signedUp s crew) := fun t ht => by
    obtain ⟨task, -, heq⟩ := List.mem_map.mp ht
    cases heq
  obtain ⟨hinv, roster, hmanned, henrolled⟩ :=
    enrolled_of_course henv h (manned_opened hinv₀ hpending) hinv₀ hnobody
  refine ⟨hinv.sound.inOrder, hinv.sound.inOrder.taken_sublist, hinv.whole, hinv.hasEnded,
    fun t ht hlive hstands => ?_⟩
  obtain ⟨t?, hin, hid⟩ := henrolled t ht
  cases hmanned.members _ _ hin with
  | @present thread _ _ =>
    refine ⟨thread, ?_, hid thread rfl⟩
    rw [← hmanned.crew]
    exact List.mem_filterMap.mpr ⟨_, hin, rfl⟩
  | gone _ hoff => exact absurd hoff.2 (not_or.mpr ⟨hlive, hstands⟩)

end Opened

/-- Whoever is at work in a shell, and whatever is scheduled: of every course there is a log, and by
every log the session makes its interpreter first, does its tasks in order, and comes to its main
task when none is left. No task, whatever comes of it, ends the thread. -/
theorem works_in_order (hknown : id < s.sessions.size) (hlive : (s.session id).isLive = true)
    (hpending : ∀ t role, (t, role) ∈ s.started → ¬role.IsOf id) (henv : Surrounds env)
    (crew : List (ThreadId × Opening id)) :
    (∀ m, life.Course (fun _ _ _ => True) env (opened s crew) m →
      ∃ m', (lifeTold id).Course (fun _ _ _ => True) (Life.beside env) (openedTold s crew) m' ∧
        Life.Keeps (fun _ _ _ => True) m' m) ∧
    (∀ m', (lifeTold id).Course (fun _ _ _ => True) (Life.beside env) (openedTold s crew) m' →
      Accounts id m') ∧
    ∀ task, NeverCrashes (runTask id task) := by
  refine ⟨fun m h => ?_, fun m' h => ?_, neverCrashes_runTask⟩
  · exact Life.exists_kept (follows_lifeTold id) h keeps_opened
  · exact accounts_of_course hknown hlive hpending henv h

/-- The shell of a program with one session, which is not started yet. -/
def unstarted : Shell :=
  aloneOr 0 (newSession "a" none) (.new (.default 1) (.empty "") .empty ⟨[], false⟩ true false)

def failing : Task :=
  .script ⟨some "a", none, none, some (.plain "no"), false, none⟩

def crashing : Task :=
  .script ⟨some "c", none, none, none, true, none⟩

/-- Schedules another task for the session that it is a task of. -/
def passingOn : Task :=
  .runHook (.inParent 0 (.note "b" true)) 7

def startBetween : Visit 0 := do
  let _ ← Program.call (Demand.schedule 0 failing)
  let _ ← Program.call (Demand.start 0 "calc" true)
  let _ ← Program.call (Demand.schedule 0 passingOn)
  let _ ← Program.call (Demand.schedule 0 crashing)
  return none

/-- What has become of a session that was given something to do before its start and after it. -/
def startedBetween : Machine (Shell × TaskLog) Role :=
  (lifeTold 0).settle 5 (openedTold unstarted [(0, .visit startBetween)])

theorem works_in_order_of_startBetween :
    0 < unstarted.sessions.size ∧ (unstarted.session 0).isLive = true ∧ Surrounds Sequence.Happens ∧
    Accounts 0 startedBetween ∧ Ready startedBetween.shared.2 ∧ ¬HasEnded startedBetween.shared.2 ∧
    Stands .turned startedBetween.shared.2 ∧
    (taken startedBetween.shared.2).tail =
      [failing, passingOn, crashing, .runHook (.note "b" true) 7] ∧
    startedBetween.shared.1.events.toList =
      [.ran "a" (.session "a"), .ran "c" (.session "a"), .exited "b" 7 (.session "a")] := by
  have hknown : 0 < unstarted.sessions.size := by decide
  have hlive : (unstarted.session 0).isLive = true := rfl
  have hstarted : unstarted.started = [] := rfl
  have hpending : ∀ t role, (t, role) ∈ unstarted.started → ¬role.IsOf 0 := by simp [hstarted]
  have henv : Surrounds Sequence.Happens := fun _ _ h => by cases h <;> exact ⟨rfl, rfl⟩
  have hcourse : (lifeTold 0).Course (fun _ _ _ => True) (Life.beside Sequence.Happens)
      (openedTold unstarted [(0, .visit startBetween)]) startedBetween :=
    .of_reaches (Life.reaches_settle _ _ _)
  have haccounts :=
    (works_in_order hknown hlive hpending henv [(0, .visit startBetween)]).2.1 _ hcourse
  have hdisposed : (startedBetween.shared.1.session 0).disposed = false := rfl
  have hlast : startedBetween.shared.2.getLast? = some .turned := by decide +kernel
  obtain ⟨before, hbefore⟩ := List.getLast?_eq_some_iff.mp hlast
  refine ⟨hknown, hlive, henv, haccounts, ⟨.calculator, by decide +kernel⟩, ?_,
    ⟨before, [], hbefore, by simp⟩,
    by decide +kernel, rfl⟩
  rw [haccounts.hasEnded, hdisposed]
  decide

end TaskLog

end SessionShell
