import SessionShell.Proofs.Tasks.Told
import SessionShell.Proofs.Team.Pact

/-!
What holds of a session and of its log, whatever is done.

A session is started once, and its thread is launched by the start that has got it. So what the log
says of the start and of the loop comes from one thread at a time, and everybody else only adds to
it what can come from beside.
-/

namespace SessionShell

open Action Shell

namespace TaskLog

open TaskEvent

variable {log es : TaskLog} {e : TaskEvent} {byItself : Bool} {x x' : Session} {s s' s'' : Shell}
  {id : SessionId}

def Launched (log : TaskLog) : Prop :=
  ∃ thread, .launched thread ∈ log

/-! ## The log -/

structure Sound (log : TaskLog) : Prop where
  inOrder : InOrder log
  done : done log <+: taken log
  claimedOnce : ∀ n n', .claimed n ∈ log → .claimed n' ∈ log → n = n'
  boots : boots log ≠ [] → ∃ n, .claimed n ∈ log
  taken : taken log ≠ [] → Launched log
  launched : Launched log → ∃ language, TaskLog.boots log = [.boot language]
  launchedOnce : ∀ t t', .launched t ∈ log → .launched t' ∈ log → t = t'

theorem launched_append_beside (hes : ∀ e ∈ es, e.IsBeside = true) :
    Launched (log ++ es) ↔ Launched log :=
  exists_congr fun _ => mem_append_beside rfl hes

theorem Sound.append_beside (h : Sound log) (hes : ∀ e ∈ es, e.IsBeside = true) :
    Sound (log ++ es) where
  inOrder := inOrder_append_beside h.inOrder hes
  done := by
    rw [done_append_beside hes, taken_append_beside hes]
    exact h.done
  claimedOnce n n' := by
    rw [mem_append_beside rfl hes, mem_append_beside rfl hes]
    exact h.claimedOnce n n'
  boots := by
    rw [boots_append_beside hes]
    intro hne
    obtain ⟨n, hn⟩ := h.boots hne
    exact ⟨n, List.mem_append_left es hn⟩
  taken := by
    rw [taken_append_beside hes, launched_append_beside hes]
    exact h.taken
  launched := by
    rw [boots_append_beside hes, launched_append_beside hes]
    exact h.launched
  launchedOnce t t' := by
    rw [mem_append_beside rfl hes, mem_append_beside rfl hes]
    exact h.launchedOnce t t'

theorem boots_eq_nil_of_not_claimed (h : Sound log) (hclaimed : ∀ n, .claimed n ∉ log) :
    boots log = [] :=
  Classical.byContradiction fun hne => by
    obtain ⟨n, hn⟩ := h.boots hne
    exact hclaimed n hn

theorem not_launched_of_boots (h : Sound log) (hboots : boots log = []) :
    ¬Launched log := fun hl => by
  obtain ⟨language, heq⟩ := h.launched hl
  rw [hboots] at heq
  cases heq

theorem taken_eq_nil_of_not_launched (h : Sound log) (hl : ¬Launched log) : taken log = [] :=
  Classical.byContradiction fun hne => hl (h.taken hne)

/-! ## What is seen from beside -/

theorem isBeside_of_mem_news (h : e ∈ news byItself x x') : e.IsBeside = true := by
  rcases List.mem_append.mp h with hin | hin
  · obtain ⟨task, -, rfl⟩ := List.mem_map.mp hin
    rfl
  · split at hin
    · rw [List.mem_singleton.mp hin]
      rfl
    · cases hin

theorem isForeign_of_mem_news (h : e ∈ news false x x') : e.IsForeign = true := by
  rcases List.mem_append.mp h with hin | hin
  · obtain ⟨task, -, rfl⟩ := List.mem_map.mp hin
    rfl
  · split at hin
    · rw [List.mem_singleton.mp hin]
      rfl
    · cases hin

theorem scheduled_news : scheduled (news byItself x x') = x'.tasks.drop x.tasks.length := by
  have htasks : ∀ tasks : List Task,
      (tasks.map TaskEvent.scheduled).filterMap scheduled? = tasks := fun tasks => by
    rw [List.filterMap_map]
    exact List.filterMap_some
  rw [scheduled, news, List.filterMap_append, htasks]
  split <;> simp [scheduled?]

theorem hasEnded_append_news (h : HasEnded log ↔ x.disposed = true)
    (hmono : x.disposed = true → x'.disposed = true) :
    HasEnded (log ++ news byItself x x') ↔ x'.disposed = true := by
  constructor
  · rintro ⟨b, hb⟩
    rcases List.mem_append.mp hb with hin | hin
    · exact hmono (h.mp ⟨b, hin⟩)
    · rcases List.mem_append.mp hin with hin | hin
      · obtain ⟨task, -, heq⟩ := List.mem_map.mp hin
        cases heq
      · split at hin
        · next hnew => exact (Bool.and_eq_true_iff.mp hnew).1
        · cases hin
  · intro hx'
    by_cases hx : x.disposed = true
    · obtain ⟨b, hb⟩ := h.mpr hx
      exact ⟨b, List.mem_append_left _ hb⟩
    · exact ⟨byItself, List.mem_append_right _ (List.mem_append_right _ (by simp [hx', hx]))⟩

theorem line_append_beside (hes : ∀ e ∈ es, e.IsBeside = true) :
    line (log ++ es) = line log ++ scheduled es := by
  rw [line, boots_append_beside hes, scheduled, List.filterMap_append, ← List.append_assoc]
  rfl

/-! ## The session and the log -/

structure Inv (id : SessionId) (γ : Shell × TaskLog) : Prop where
  sound : Sound γ.2
  known : id < γ.1.sessions.size
  hasEnded : HasEnded γ.2 ↔ (γ.1.session id).disposed = true
  queue : (taken γ.2 ++ (γ.1.session id).tasks).Sublist (line γ.2)
  whole : ¬HasEnded γ.2 → taken γ.2 ++ (γ.1.session id).tasks = line γ.2
  claimed : ∀ n, .claimed n ∈ γ.2 → (γ.1.session id).language.isSome

theorem Inv.ordinary (h : Inv id (s, log)) (hs : Ordinary id s s') :
    Inv id (s', log ++ news byItself (s.session id) (s'.session id)) := by
  have hes : ∀ e ∈ news byItself (s.session id) (s'.session id), e.IsBeside = true :=
    fun e => isBeside_of_mem_news
  have hended : HasEnded (log ++ news byItself (s.session id) (s'.session id)) ↔
      (s'.session id).disposed = true := hasEnded_append_news h.hasEnded hs.disposed
  refine ⟨h.sound.append_beside hes, Nat.lt_of_lt_of_le h.known hs.size, hended, ?_, ?_,
    fun n hn => ?_⟩
  · dsimp only
    rw [taken_append_beside hes, line_append_beside hes, scheduled_news]
    rcases hs.tasks with heq | ⟨task, heq⟩ | ⟨-, heq⟩
    · rw [heq, List.drop_length, List.append_nil]
      exact h.queue
    · rw [heq, List.drop_left, ← List.append_assoc]
      exact h.queue.append_right [task]
    · rw [heq, List.drop_nil, List.append_nil, List.append_nil]
      exact (List.sublist_append_left _ _).trans h.queue
  · dsimp only
    intro hlive
    rw [taken_append_beside hes, line_append_beside hes, scheduled_news]
    have hwhole := h.whole fun ⟨b, hb⟩ => hlive ⟨b, List.mem_append_left _ hb⟩
    rcases hs.tasks with heq | ⟨task, heq⟩ | ⟨hdisposed, -⟩
    · rw [heq, List.drop_length, List.append_nil]
      exact hwhole
    · rw [heq, List.drop_left, ← List.append_assoc]
      exact congrArg (· ++ [task]) hwhole
    · exact absurd (hended.mpr (hs.disposed hdisposed)) hlive
  · rw [hs.language]
    exact h.claimed n ((mem_append_beside rfl hes).mp hn)

end TaskLog

end SessionShell

/-!
Who says what in the log of a session.

One start has the floor from when it has got the session until it has launched the thread, and from
then on the thread has it. As long as somebody has the floor, the others say only what can come from
a thread that is not the session's.
-/

namespace SessionShell

open Action Shell

namespace TaskLog

open TaskEvent

variable {log es : TaskLog} {id : SessionId} {γ γ' γ'' : Shell × TaskLog} {me : ThreadId}

inductive Hand where
  | keeper (thread : ThreadId)
  | visitor (n : Nat)
  | helper
  deriving DecidableEq

namespace Hand

def HasFloor : Hand → TaskLog → Prop
  | keeper thread, log => .launched thread ∈ log
  | visitor n, log => .claimed n ∈ log ∧ ¬Launched log
  | helper, _ => False

def IsThere : Hand → TaskLog → Prop
  | keeper thread, log => .launched thread ∈ log
  | _, _ => True

def isKeeper : Hand → Bool
  | keeper _ => true
  | _ => false

variable {k k' : Hand}

theorem HasFloor.append_beside (h : k.HasFloor log) (hes : ∀ e ∈ es, e.IsBeside = true) :
    k.HasFloor (log ++ es) := by
  cases k with
  | keeper thread => exact List.mem_append_left es h
  | visitor n =>
    exact ⟨List.mem_append_left es h.1, fun hl => h.2 ((launched_append_beside hes).mp hl)⟩
  | helper => exact h

theorem IsThere.append (h : k.IsThere log) (es : TaskLog) : k.IsThere (log ++ es) := by
  cases k with
  | keeper thread => exact List.mem_append_left es h
  | visitor | helper => trivial

theorem not_hasFloor_of_keeper {thread : ThreadId} (hsound : Sound log) (h : .launched thread ∈ log)
    (hne : k ≠ keeper thread) : ¬k.HasFloor log := by
  cases k with
  | keeper other => exact fun h' => hne (congrArg keeper (hsound.launchedOnce other thread h' h))
  | visitor n => exact fun h' => h'.2 ⟨thread, h⟩
  | helper => exact fun h' => h'

end Hand

def Foreign (γ γ' : Shell × TaskLog) : Prop :=
  ∃ es, γ'.2 = γ.2 ++ es ∧ ∀ e ∈ es, e.IsForeign = true

structure Change (id : SessionId) (γ γ' : Shell × TaskLog) : Prop where
  inv : Inv id γ → Inv id γ'
  disposed : (γ.1.session id).disposed = true → (γ'.1.session id).disposed = true
  grown : γ.2 <+: γ'.2

inductive Starts (id : SessionId) (γ γ' : Shell × TaskLog) : Prop where
  | others {news : List (ThreadId × Role)} (h : γ'.1.started = γ.1.started ++ news)
      (hroles : ∀ t role, (t, role) ∈ news → ¬role.IsOf id)
      (hlog : ∀ t, .launched t ∈ γ'.2 → .launched t ∈ γ.2)
  | keeper {t : ThreadId} (h : γ'.1.started = γ.1.started ++ [(t, .session id .entering)])
      (hlog : γ'.2 = γ.2 ++ [.launched t]) (hnone : ¬Launched γ.2)

def Rely (id : SessionId) (k : Hand) (γ γ' : Shell × TaskLog) : Prop :=
  Change id γ γ' ∧ (k.HasFloor γ.2 → Foreign γ γ')

structure Guar (id : SessionId) (k : Hand) (γ γ' : Shell × TaskLog) : Prop where
  change : Change id γ γ'
  foreign : ∀ k', k' ≠ k → k'.HasFloor γ.2 → Foreign γ γ'
  starts : Starts id γ γ'

variable {k : Hand}

theorem Change.refl (id : SessionId) (γ : Shell × TaskLog) : Change id γ γ :=
  ⟨fun h => h, fun h => h, List.prefix_rfl⟩

theorem Change.trans (h : Change id γ γ') (h' : Change id γ' γ'') : Change id γ γ'' :=
  ⟨fun hinv => h'.inv (h.inv hinv), fun hd => h'.disposed (h.disposed hd), h.grown.trans h'.grown⟩

theorem foreign_refl (γ : Shell × TaskLog) : Foreign γ γ :=
  ⟨[], by simp, by simp⟩

theorem Foreign.trans (h : Foreign γ γ') (h' : Foreign γ' γ'') : Foreign γ γ'' := by
  obtain ⟨es, hes, hforeign⟩ := h
  obtain ⟨es', hes', hforeign'⟩ := h'
  refine ⟨es ++ es', by rw [hes', hes, List.append_assoc], fun e he => ?_⟩
  rcases List.mem_append.mp he with hin | hin
  · exact hforeign e hin
  · exact hforeign' e hin

theorem Rely.refl (id : SessionId) (k : Hand) (γ : Shell × TaskLog) : Rely id k γ γ :=
  ⟨.refl id γ, fun _ => foreign_refl γ⟩

theorem Rely.trans (h : Rely id k γ γ') (h' : Rely id k γ' γ'') : Rely id k γ γ'' := by
  refine ⟨h.1.trans h'.1, fun hfloor => ?_⟩
  have hforeign := h.2 hfloor
  obtain ⟨es, hes, hall⟩ := hforeign
  refine Foreign.trans ⟨es, hes, hall⟩ (h'.2 ?_)
  rw [hes]
  exact hfloor.append_beside fun e he => isBeside_of_isForeign (hall e he)

theorem starts_nobody (hstarted : γ'.1.started = γ.1.started)
    (hlog : ∀ t, .launched t ∈ γ'.2 → .launched t ∈ γ.2) : Starts id γ γ' :=
  @Starts.others id γ γ' [] (by simp [hstarted]) (by simp) hlog

theorem Guar.refl (id : SessionId) (k : Hand) (γ : Shell × TaskLog) : Guar id k γ γ :=
  ⟨.refl id γ, fun _ _ _ => foreign_refl γ, starts_nobody rfl fun _ h => h⟩

theorem Guar.rely {k' : Hand} (h : Guar id k γ γ') (hne : k' ≠ k) : Rely id k' γ γ' :=
  ⟨h.change, h.foreign k' hne⟩

/-! ## Where one stands -/

structure Stage (k : Hand) where
  Holds : TaskLog → Prop
  beside : ∀ log es, Holds log → (∀ e ∈ es, e.IsBeside = true) → Holds (log ++ es)
  floor : ∀ log, k.IsThere log → Holds log → k.HasFloor log ∨ ∀ log, Holds log

namespace Stage

variable (S : Stage k)

def At (id : SessionId) (γ : Shell × TaskLog) : Prop :=
  Inv id γ ∧ k.IsThere γ.2 ∧ S.Holds γ.2

variable {S}

theorem stable_at : Stable (Rely id k) (S.At id) := by
  rintro γ γ' ⟨hinv, hthere, hholds⟩ ⟨hchange, hforeign⟩
  obtain ⟨es, hes⟩ := hchange.grown
  refine ⟨hchange.inv hinv, hes ▸ hthere.append es, ?_⟩
  rcases S.floor γ.2 hthere hholds with hfloor | hall
  · obtain ⟨es', hes', hforeign'⟩ := hforeign hfloor
    rw [hes']
    exact S.beside _ _ hholds fun e he => isBeside_of_isForeign (hforeign' e he)
  · exact hall _

theorem at_of_ordinary {s s' : Shell} (h : S.At id (s, log)) (hs : Ordinary id s s') :
    let γ' := (s', (observer id k.isKeeper).notes me s s' log)
    Guar id k (s, log) γ' ∧ S.At id γ' := by
  obtain ⟨hinv, hthere, hholds⟩ := h
  have hbeside : ∀ e ∈ news k.isKeeper (s.session id) (s'.session id), e.IsBeside = true :=
    fun e => isBeside_of_mem_news
  refine ⟨⟨⟨fun _ => hinv.ordinary hs, hs.disposed, List.prefix_append _ _⟩,
    fun k' hne hfloor => ?_, ?_⟩,
    hinv.ordinary hs, hthere.append _, S.beside _ _ hholds hbeside⟩
  · cases k with
    | keeper thread => exact absurd hfloor (Hand.not_hasFloor_of_keeper hinv.sound hthere hne)
    | visitor | helper => exact ⟨_, rfl, fun e => isForeign_of_mem_news⟩
  · obtain ⟨started, hstarted, hroles⟩ := hs.started
    exact .others hstarted hroles fun t ht => (mem_append_beside rfl hbeside).mp ht

/-- A thread in the shell that keeps the log, as long as what it does is done from beside. -/
def watch (S : Stage k) (id : SessionId) (me : ThreadId) : Watch id TaskLog where
  observer := observer id k.isKeeper
  rely := Rely id k
  guar := Guar id k
  me := me
  holds := S.At id
  refl := .refl id k
  stable := stable_at
  known _ h := h.1.known
  disposed _ _ h := h.1.disposed
  step _ _ _ h hs := at_of_ordinary h hs

def free (k : Hand) : Stage k :=
  ⟨fun _ => True, fun _ _ _ _ => trivial, fun _ _ _ => .inr fun _ => trivial⟩

def ofKeeper (thread : ThreadId) (Holds : TaskLog → Prop)
    (beside : ∀ log es, Holds log → (∀ e ∈ es, e.IsBeside = true) → Holds (log ++ es)) :
    Stage (.keeper thread) :=
  ⟨Holds, beside, fun _ hthere _ => .inl hthere⟩

variable {α β : Type} {p : Action Shell α} {Q : Fate β → Shell × TaskLog → Prop}

theorem upholds_bind (hp : (S.watch id me).Keeps p) {f : α → Action (Shell × TaskLog) β}
    (hf : ∀ a, Upholds (Rely id k) (Guar id k) me (S.At id) (f a) Q)
    (hcrash : ∀ γ, S.At id γ → Q .crashed γ) :
    Upholds (Rely id k) (Guar id k) me (S.At id) (watched id k.isKeeper p >>= f) Q := fun γ hγ =>
  (hp.upholds γ hγ).bind_fate (.refl id k) (fun a γ' h => hf a γ' h.1) fun γ' h => hcrash γ' h.1

theorem upholds_watched {Q : Fate α → Shell × TaskLog → Prop} (hp : (S.watch id me).Keeps p)
    (hQ : ∀ fate γ, S.At id γ → Q fate γ) :
    Upholds (Rely id k) (Guar id k) me (S.At id) (watched id k.isKeeper p) Q := fun γ hγ =>
  (hp.upholds γ hγ).mono fun fate γ' h => hQ fate γ' h.1

theorem At.free (h : S.At id γ) : (Stage.free k).At id γ :=
  ⟨h.1, h.2.1, trivial⟩

end Stage

end TaskLog

end SessionShell
