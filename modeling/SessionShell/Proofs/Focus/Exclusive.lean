import SessionShell.Proofs.Focus.Operations
import SessionShell.Shell.Life

/-!
The focus is exclusive: whatever sequence of operations a shell has seen, at most one session is
in focus, it is a registered one, and the permits of all of them are accounted for. Some session
is in focus unless a start was refused a thread. Such a start leaves nobody in focus until the
next one succeeds.

Each operation is taken as one piece. Whatever leaves the seating alone may go on during it.
-/

namespace SessionShell

open Action Shell

/-- A shell, the sessions one of whose prompts has the permit, and whether the focus is lost: the
last start that got so far as to take it was refused a thread. -/
structure Floor where
  shell : Shell
  prompts : List SessionId
  lost : Bool

namespace Floor

variable {st st' : Floor} {me : ThreadId} {id other : SessionId} {s' : Shell}

def IsNew (st : Floor) : Prop :=
  st.shell.sessions = #[] ∧ st.shell.registry = [] ∧ st.prompts = [] ∧ st.lost = false

def Known (st : Floor) (id : SessionId) : Prop :=
  id < st.shell.sessions.size

def Started (st : Floor) (id : SessionId) : Prop :=
  (st.shell.session id).language.isSome = true

/-- One operation on a session, run to its end by a thread, and the shell it leaves behind. Nothing
that still waits for a permit has come to its end. -/
inductive Step (st : Floor) (me : ThreadId) (id : SessionId) (s' : Shell) : Floor → Prop where
  | newSession {name : String} {script : Option String} {fate : Fate SessionId}
      (h : Runs seating me (newSession name script) st.shell fate s') :
      Step st me id s' { st with shell := s' }
  | start {query : String} {fate : Fate (Except ShellError Unit)} (hid : st.Known id)
      (h : Runs seating me (start id query).run st.shell fate s')
      (hfate : ∀ e, fate ≠ .returned (.error e)) :
      Step st me id s' { st with shell := s', lost := false }
  | failedStart {query : String} {e : ShellError} (hid : st.Known id)
      (h : Runs seating me (start id query).run st.shell (.returned (.error e)) s')
      (he : e ≠ threadRefused) :
      Step st me id s' { st with shell := s' }
  | refusedStart {query : String} (hid : st.Known id)
      (h : Runs seating me (start id query).run st.shell (.returned (.error threadRefused)) s') :
      Step st me id s' { st with shell := s', lost := true }
  | exit {code : Int} {fate : Fate (Except ShellError Unit)} (hid : st.Known id)
      (h : Runs seating me (exit id code).run st.shell fate s') :
      Step st me id s' { st with shell := s' }
  | finish {code : Int} {fate : Fate (Except ShellError Unit)} (hid : st.Known id)
      (h : Runs seating me (finish id code true true).run st.shell fate s') :
      Step st me id s' { st with shell := s' }
  | fork {options : ForkOptions} {fate : Fate (Except ShellError (Option SessionId))}
      (hid : st.Started id) (h : Runs seating me (fork id options).run st.shell fate s') :
      Step st me id s' { st with shell := s' }
  | jumpTo {index : Nat} {fate : Fate (Except ShellError Unit)} (hid : st.Started id)
      (h : Runs seating me (jumpTo id index).run st.shell fate s') :
      Step st me id s' { st with shell := s' }
  | beginPrompt (hid : st.Started id)
      (h : Runs seating me (beginPrompt id).run st.shell (.returned (.ok ())) s') :
      Step st me id s' { st with shell := s', prompts := id :: st.prompts }
  | refusedPrompt {e : ShellError} (hid : st.Started id)
      (h : Runs seating me (beginPrompt id).run st.shell (.returned (.error e)) s') :
      Step st me id s' { st with shell := s' }
  | finishPrompt {text : String} {r : Except ShellError ReadOutcome} (hid : st.Known id)
      (hin : id ∈ st.prompts)
      (h : Runs seating me (finishPrompt id text).run st.shell (.returned r) s') :
      Step st me id s' { st with shell := s', prompts := st.prompts.erase id }
  | killAll {code? : Option Int} {fate : Fate (Except ShellError Unit)} (hid : st.Started id)
      (h : Runs seating me (killAll id code?).run st.shell fate s') :
      Step st me id s' { st with shell := s' }

/-- What any sequence of operations leads to. -/
inductive Reachable : Floor → Prop where
  | new {st : Floor} (h : st.IsNew) : Reachable st
  | step {st st' : Floor} {me : ThreadId} {id : SessionId} {s' : Shell} (h : Reachable st)
      (hstep : st.Step me id s' st') : Reachable st'

/-- The account of all permits is kept, and nobody is in focus just where the focus is lost. -/
structure Inv (st : Floor) : Prop where
  accounted : st.shell.seating.Accounted st.prompts
  settled : st.lost = false → st.shell.seating.Settled
  vacant : st.lost = true → st.shell.seating.Vacant

theorem inv_of_isNew (h : st.IsNew) : st.Inv := by
  obtain ⟨hsessions, hregistry, hprompts, hlost⟩ := h
  have hseat : ∀ id, st.shell.seating.seat id = .fresh := by
    simp [seating, hsessions]
  refine ⟨⟨?_, ?_, fun id => ?_, fun id other hc _ => ?_⟩, fun _ hne => absurd hregistry hne,
    fun hlost' => absurd hlost (by simp [hlost'])⟩
  · simp [seating, hregistry]
  · simp [seating, hregistry]
  · rw [hseat, hprompts]
    constructor <;> simp [Seat.fresh, seating, hregistry]
  · simp [hseat, Seat.fresh] at hc

theorem session_of_not_known (hid : ¬st.Known id) : st.shell.session id = default := by
  rw [Shell.session, Array.getElem?_eq_none (Nat.le_of_not_lt hid)]
  rfl

theorem Started.known (h : st.Started id) : st.Known id := by
  by_contra hid
  rw [Started, session_of_not_known hid] at h
  cases h

theorem Started.started_seat (h : st.Started id) : (st.shell.seating.seat id).started = true := by
  rw [seat_seating h.known]
  exact h

theorem Inv.of_keeps (h : st.Inv) (hw : st.shell.seating.Keeps st.prompts s'.seating) :
    Inv { st with shell := s' } :=
  ⟨hw.accounted, fun hkept => hw.settled (h.settled hkept), fun hlost => hw.vacant (h.vacant hlost)⟩

theorem Inv.step (h : st.Inv) (hstep : st.Step me id s' st') : st'.Inv := by
  have ha := h.accounted
  cases hstep with
  | newSession hrun => exact h.of_keeps (always_newSession ha _ _ _ _ _ rfl hrun)
  | start hid hrun hfate =>
    rcases always_start hid ha _ _ _ _ rfl hrun with ⟨⟨e, -, he⟩, -⟩ | ⟨-, hw, hheld⟩ | ⟨he, -⟩
    · exact absurd he (hfate e)
    · exact ⟨hw, fun _ _ => hheld, nofun⟩
    · exact absurd he (hfate _)
  | failedStart hid hrun hne =>
    rcases always_start hid ha _ _ _ _ rfl hrun with ⟨-, hw⟩ | ⟨hfate, -⟩ | ⟨he, -⟩
    · exact h.of_keeps (by rw [hw]; exact .refl ha)
    · exact absurd rfl (hfate _)
    · cases he
      exact absurd rfl hne
  | refusedStart hid hrun =>
    rcases always_start hid ha _ _ _ _ rfl hrun with
      ⟨⟨e, hne, he⟩, -⟩ | ⟨hfate, -⟩ | ⟨-, hw, hvacant⟩
    · cases he
      exact absurd rfl hne
    · exact absurd rfl (hfate _)
    · exact ⟨hw, nofun, fun _ => hvacant⟩
  | exit hid hrun => exact h.of_keeps (always_exit hid ha _ _ _ _ rfl hrun)
  | finish hid hrun => exact h.of_keeps (always_finish_keeps hid ha _ _ _ _ rfl hrun)
  | fork hid hrun => exact h.of_keeps (always_fork hid.known ha hid.started_seat _ _ _ _ rfl hrun)
  | jumpTo hid hrun =>
    exact h.of_keeps (always_jumpTo hid.known ha hid.started_seat _ _ _ _ rfl hrun)
  | beginPrompt hid hrun =>
    rcases yields_beginPrompt hid.known ha hid.started_seat _ _ _ rfl hrun with
      ⟨⟨e, he⟩, -⟩ | ⟨-, hw, hsettled, hvacant⟩
    · cases he
    · exact ⟨hw, fun hkept => hsettled (h.settled hkept), fun hlost => hvacant (h.vacant hlost)⟩
  | refusedPrompt hid hrun =>
    rcases yields_beginPrompt hid.known ha hid.started_seat _ _ _ rfl hrun with ⟨-, hw⟩ | ⟨he, -⟩
    · exact h.of_keeps (by rw [hw]; exact .refl ha)
    · cases he
  | finishPrompt hid hin hrun =>
    obtain ⟨hsettled, hvacant, hw⟩ := always_finishPrompt hid ha hin _ _ _ _ rfl hrun
    exact ⟨hw, fun hkept => hsettled (h.settled hkept), fun hlost => hvacant (h.vacant hlost)⟩
  | killAll hid hrun =>
    exact h.of_keeps (always_killAll hid.known ha hid.started_seat _ _ _ _ rfl hrun)

theorem Reachable.inv (h : st.Reachable) : st.Inv := by
  induction h with
  | new h => exact inv_of_isNew h
  | step _ hstep ih => exact ih.step hstep

/-- The focus is exclusive, and its permit is accounted for. -/
structure Exclusive (st : Floor) : Prop where
  /-- As long as there is any session, just one is in focus, but not while the focus is lost. -/
  focused : st.shell.registry ≠ [] →
    ((∃! id, id ∈ st.shell.registry ∧ (st.shell.session id).current = true) ↔ st.lost = false)
  one : ∀ id other, (st.shell.session id).current = true →
    (st.shell.session other).current = true → id = other
  present : ∀ id, (st.shell.session id).current = true →
    id ∈ st.shell.registry ∧ (st.shell.session id).disposed = false
  permit : ∀ id ∈ st.shell.registry,
    (st.shell.session id).focus.permits + (if id ∈ st.prompts then 1 else 0) =
      if (st.shell.session id).current then 1 else 0
  /-- Whoever the focus is handed to when a session leaves is there, and has no permit yet. -/
  heir : ∀ id index remaining rest, st.shell.registry.remove id = (.removed index remaining, rest) →
    ∃ heir ∈ rest, rest.get? ((index + 1) % remaining) = some heir ∧
      ((st.shell.session id).current = true →
        (st.shell.session heir).focus.permits = 0 ∧ heir ∉ st.prompts)

theorem Known.of_current (h : (st.shell.session id).current = true) : st.Known id := by
  by_contra hid
  rw [session_of_not_known hid] at h
  cases h

theorem Inv.exclusive (h : st.Inv) : st.Exclusive := by
  obtain ⟨ha, hsettled, hvacant⟩ := h
  have hseat : ∀ {id}, st.Known id → st.shell.seating.seat id = (st.shell.session id).seat :=
    fun hid => seat_seating hid
  have hcurrent : ∀ id, (st.shell.session id).current = true →
      (st.shell.seating.seat id).current = true := by
    intro id hc
    rw [hseat (Known.of_current hc)]
    exact hc
  have hone : ∀ id other, (st.shell.session id).current = true →
      (st.shell.session other).current = true → id = other :=
    fun id other hc ho => ha.one id other (hcurrent id hc) (hcurrent other ho)
  constructor
  · intro hne
    constructor
    · rintro ⟨holder, ⟨-, hc⟩, -⟩
      cases hlost : st.lost with
      | false => rfl
      | true =>
        have hnobody := hvacant hlost holder
        rw [hcurrent holder hc] at hnobody
        cases hnobody
    · intro hkept
      obtain ⟨holder, hin, hc⟩ := hsettled hkept hne
      rw [hseat (ha.known holder hin)] at hc
      exact ⟨holder, ⟨hin, hc⟩, fun other ho => hone other holder ho.2 hc⟩
  · exact hone
  · intro id hc
    have hin := ha.mem_of_current (hcurrent id hc)
    have hopen := (ha.seats id).isOpen hin
    rw [hseat (Known.of_current hc)] at hopen
    exact ⟨hin, hopen.2.2⟩
  · intro id hin
    have hpermits := ha.permits_add_prompt hin
    rwa [hseat (ha.known id hin)] at hpermits
  · intro id index remaining rest hremove
    have hremoval : (st.shell.registry.remove id).1 = .removed index remaining :=
      congrArg Prod.fst hremove
    have hrest : st.shell.registry.erase id = rest := by
      rw [← Registry.remove_snd, hremove]
    obtain ⟨hin, hne⟩ := Registry.rest_of_removed hremoval
    obtain ⟨heir, hmem, hheir⟩ := Registry.exists_heir hin hne
    rw [Registry.heir?_of_removed hremoval, hrest] at hheir
    refine ⟨heir, hrest ▸ hmem, hheir, fun hc => ?_⟩
    have hregistered : heir ∈ st.shell.registry := List.mem_of_mem_erase hmem
    have hnot := ha.not_current_of_ne (hcurrent id hc) (ha.nodup.mem_erase_iff.mp hmem).1
    obtain ⟨hpermits, hprompt⟩ := ha.empty_of_not_current hregistered hnot
    rw [hseat (ha.known heir hregistered)] at hpermits
    exact ⟨hpermits, List.count_eq_zero.mp hprompt⟩

/-- The focus is exclusive after any sequence of operations, of which a prompt is two. -/
theorem exclusive_of_reachable (h : st.Reachable) :
    st.Exclusive ∧
    ∀ id text, prompt id text = (beginPrompt id >>= fun _ => finishPrompt id text) :=
  ⟨h.inv.exclusive, fun _ => prompt_eq_bind⟩

/-- Two sessions, the second of which has taken the focus from the first and is in a prompt. -/
theorem exclusive_of_two_sessions : ∃ st : Floor, st.shell.registry = [0, 1] ∧ st.prompts = [1] ∧
    st.Exclusive := by
  let new : Shell := .new (.default 1) (.empty "") .empty ⟨[], true⟩ true false
  let one : Shell := aloneOr 0 (newSession "a" none) new
  let made : Shell := aloneOr 0 (newSession "b" none) one
  let first : Shell := aloneOr 0 (start 0 "calc").run made
  let second : Shell := aloneOr 0 (start 1 "calc").run first
  let asking : Shell := aloneOr 0 (beginPrompt 1).run second
  have hnew : Reachable ⟨new, [], false⟩ := .new ⟨rfl, rfl, rfl, rfl⟩
  have hnewA : Runs seating 0 (newSession "a" none) new (.returned 0) one := runs_of_runAlone? rfl
  have hnewB : Runs seating 0 (newSession "b" none) one (.returned 1) made := runs_of_runAlone? rfl
  have hone : Reachable ⟨one, [], false⟩ :=
    hnew.step (show Step ⟨new, [], false⟩ 0 0 one _ from .newSession hnewA)
  have hmade : Reachable ⟨made, [], false⟩ :=
    hone.step (show Step ⟨one, [], false⟩ 0 1 made _ from .newSession hnewB)
  have hstart : Runs seating 0 (start 0 "calc").run made (.returned (.ok ())) first :=
    runs_aloneOr (by decide)
  have hstart' : Runs seating 0 (start 1 "calc").run first (.returned (.ok ())) second :=
    runs_aloneOr (by decide)
  have hprompt : Runs seating 0 (beginPrompt 1).run second (.returned (.ok ())) asking :=
    runs_aloneOr (by decide)
  have hsize : 0 < made.sessions.size := by decide
  have hsize' : 1 < first.sessions.size := by decide
  have hstarted : (second.session 1).language.isSome = true := by decide
  have hregistry : asking.registry = [0, 1] := by decide
  clear_value first second asking
  have hfirst : Reachable ⟨first, [], false⟩ := hmade.step (.start hsize hstart (by simp))
  have hsecond : Reachable ⟨second, [], false⟩ := hfirst.step (.start hsize' hstart' (by simp))
  have hasking : Reachable ⟨asking, [1], false⟩ := hsecond.step (.beginPrompt hstarted hprompt)
  exact ⟨⟨asking, [1], false⟩, hregistry, rfl, (exclusive_of_reachable hasking).1⟩

def oneSession : Shell :=
  let new : Shell := .new (.default 1) (.empty "") .empty ⟨[], true⟩ true false
  aloneOr 0 (start 0 "calc").run (aloneOr 0 (newSession "a" none) new)

theorem reachable_oneSession : Reachable ⟨oneSession, [], false⟩ := by
  let new : Shell := .new (.default 1) (.empty "") .empty ⟨[], true⟩ true false
  let made : Shell := aloneOr 0 (newSession "a" none) new
  have hnew : Reachable ⟨new, [], false⟩ := .new ⟨rfl, rfl, rfl, rfl⟩
  have hnewA : Runs seating 0 (newSession "a" none) new (.returned 0) made := runs_of_runAlone? rfl
  have hmade : Reachable ⟨made, [], false⟩ :=
    hnew.step (show Step ⟨new, [], false⟩ 0 0 made _ from .newSession hnewA)
  have hsize : 0 < made.sessions.size := by decide
  have hstart : Runs seating 0 (start 0 "calc").run made (.returned (.ok ())) oneSession :=
    runs_aloneOr (by decide)
  exact hmade.step (.start hsize hstart (by simp))

/-- Another session is made when no more threads can be had. -/
def crowded : Shell :=
  aloneOr 0 (newSession "b" none) { oneSession with refusesThreads := true }

theorem reachable_crowded : Reachable ⟨crowded, [], false⟩ := by
  have hnewB : Runs seating 0 (newSession "b" none) { oneSession with refusesThreads := true }
      (.returned 1) crowded :=
    runs_of_runAlone? (runAlone?_eq_aloneOr_of_map rfl)
  have hview : seating { oneSession with refusesThreads := true } = seating oneSession := rfl
  exact reachable_oneSession.step (show Step ⟨oneSession, [], false⟩ 0 1 crowded _ from
    .newSession (.others hview hnewB))

theorem size_crowded : crowded.sessions.size = 2 := rfl

/-- The other session is refused a thread when it is started. The first one is still registered
then, and nobody is in focus. -/
theorem unfocused_of_refused_start :
    let refused : Floor := ⟨aloneOr 0 (start 1 "calc").run crowded, [], true⟩
    refused.Reachable ∧ refused.shell.registry = [0] ∧
      (refused.shell.session 0).current = false := by
  have hknown : 1 < crowded.sessions.size := size_crowded ▸ Nat.lt_succ_self 1
  have hrun : Runs seating 0 (start 1 "calc").run crowded (.returned (.error threadRefused))
      (aloneOr 0 (start 1 "calc").run crowded) :=
    runs_of_runAlone? (runAlone?_eq_aloneOr_of_map rfl)
  exact ⟨reachable_crowded.step (.refusedStart hknown hrun), rfl, rfl⟩

end Floor

end SessionShell

/-!
What a start that fails leaves behind.

A start that is refused for the session's own sake has changed nothing yet. One that is refused a
thread takes the session out of the registry again. It does not give the focus back, so whoever had
it has lost it.
-/

namespace SessionShell

open Action Shell

namespace Seating

variable {v w : Seating} {prompts : List SessionId} {id other : SessionId}

/-- The same sessions are registered in the same order, and only the seat of one may have
changed. -/
structure SameBut (v : Seating) (id : SessionId) (w : Seating) : Prop where
  count : v.count ≤ w.count
  registry : w.registry = v.registry
  seats : ∀ other, other ≠ id → w.seat other = v.seat other

theorem SameBut.refl (v : Seating) : v.SameBut id v :=
  ⟨Nat.le_refl _, rfl, fun _ _ => rfl⟩

theorem SameBut.trans {u : Seating} (h : u.SameBut id v) (h' : v.SameBut id w) : u.SameBut id w :=
  ⟨Nat.le_trans h.count h'.count, h'.registry.trans h.registry,
    fun other ho => (h'.seats other ho).trans (h.seats other ho)⟩

theorem erase_append_self (hout : id ∉ v.registry) :
    (v.registry ++ [id]).erase id = v.registry := by
  rw [List.erase_append_right _ hout, List.erase_cons_head, List.append_nil]

theorem sameBut_join (hout : id ∉ v.registry) : v.SameBut id ((v.join id).remove id .dispose) :=
  ⟨Nat.le_refl _, erase_append_self hout, fun other ho => by
    rw [seat_remove_of_ne _ ho]
    simp [join, seat_modify_of_ne _ ho]⟩

theorem sameBut_joinCurrent (hout : id ∉ v.registry) :
    v.SameBut id ((v.joinCurrent id).remove id .dispose) :=
  ⟨Nat.le_refl _, erase_append_self hout, fun other ho => by
    rw [seat_remove_of_ne _ ho]
    simp [joinCurrent, seat_modify_of_ne _ ho]⟩

end Seating

namespace Shell

variable {v : Seating} {prompts : List SessionId} {id : SessionId} {me : ThreadId}

theorem always_startWith_error (hid : id < v.count) (h : v.Accounted prompts) (query : String) :
    Always seating me (startWith id query false).run v fun fate w =>
      ∀ e, fate = .returned (.error e) → w.count = v.count ∧ v.SameBut id w := by
  have hdrain : (v.seat id).started = false → (v.seat id).disposed = false →
      Yields seating me (drainFocus id) { v.modify id .start with registry := v.registry ++ [id] }
        fun _ w => w.count = v.count ∧ w = v.join id ∧ (v.seat id).started = false := by
    intro hs _
    refine Yields.mono (yields_drainFocus (by exact hid)) ?_
    rintro _ w rfl
    refine ⟨rfl, ?_, hs⟩
    simp [Seating.join, Seating.modify]
  refine Always.mono (always_startWith hid query false hdrain) ?_
  rintro fate w (⟨-, rfl⟩ | ⟨hfate, -⟩ | ⟨-, u, ⟨rfl, hs⟩, rfl⟩) e he
  · exact ⟨rfl, .refl w⟩
  · exact absurd he (hfate e)
  · exact ⟨rfl, Seating.sameBut_join (h.not_mem_of_not_started hs)⟩

/-- What a start in focus leaves behind that fails: all as it was, or the focus that it has taken
from another session, when it was refused a thread. -/
theorem always_start_error (hid : id < v.count) (h : v.Accounted prompts) (query : String) :
    Always seating me (start id query).run v fun fate w =>
      ∀ e, fate = .returned (.error e) → w.count = v.count ∧ (v.SameBut id w ∨ e = threadRefused ∧
        ∃ holder ∈ v.registry, holder ≠ id ∧ (v.seat holder).current = true ∧
          0 < (v.seat holder).permits ∧ (v.yield holder).SameBut id w) := by
  refine Always.mono
    (always_startWith (P := fun w => w.count = v.count ∧ (v.seat id).started = false ∧
    (v.Vacant ∧ w = v.joinCurrent id ∨ ∃ holder ∈ v.registry, holder ≠ id ∧
      (v.seat holder).current = true ∧ 0 < (v.seat holder).permits ∧
      w = (v.yield holder).joinCurrent id)) hid query true fun hs _ => ?_) ?_
  · refine Yields.mono (yields_takeFocus_join hid h hs) ?_
    rintro _ w (⟨hvacant, rfl⟩ | ⟨holder, hin, hne, hholds, hpermit, rfl⟩)
    · exact ⟨rfl, rfl, hs, .inl ⟨hvacant, rfl⟩⟩
    · exact ⟨rfl, rfl, hs, .inr ⟨holder, hin, hne, hholds, hpermit, rfl⟩⟩
  rintro fate w (⟨-, rfl⟩ | ⟨hfate, -⟩ | ⟨hrefused, u, ⟨hcount, hs, hu⟩, rfl⟩) e he
  · exact ⟨rfl, .inl (.refl w)⟩
  · exact absurd he (hfate e)
  · have hout := h.not_mem_of_not_started hs
    refine ⟨hcount, ?_⟩
    rcases hu with ⟨-, rfl⟩ | ⟨holder, hin, hne, hholds, hpermit, rfl⟩
    · exact .inl (Seating.sameBut_joinCurrent hout)
    · rw [hrefused] at he
      cases he
      exact .inr ⟨rfl, holder, hin, hne, hholds, hpermit, Seating.sameBut_joinCurrent hout⟩

/-! ## Children -/

theorem always_launchChild_error (hid : id < v.count) (h : v.Accounted prompts)
    (language : String) :
    Always seating me
      (do
        match ← caught (startWith id language false) with
        | .ok () => return id
        | .error e =>
          dispose id
          throw e : Checked SessionId).run v fun fate w =>
      ∀ e, fate = .returned (.error e) → v.SameBut id w := by
  refine Always.lift_bind (always_startWith_error hid h language) ?_ ?_ ?_
  · intro result w hw
    cases result with
    | ok =>
      refine always_pure _ fun e he => ?_
      cases he
    | error e =>
      obtain ⟨hcount, hsame⟩ := hw e rfl
      refine Yields.lift_bind (yields_dispose (hcount ▸ hid)) ?_
      rintro _ _ rfl
      refine always_pure _ fun _ _ => ⟨hsame.count, hsame.registry, fun other ho => ?_⟩
      rw [Seating.seat_modify_of_ne _ ho]
      exact hsame.seats other ho
  · intro w _ e he
    cases he
  · intro w _ e he
    cases he

theorem always_forkWith_error (h : v.Accounted prompts) (options : ForkOptions) (main : MainTask) :
    Always seating me (forkWith id options main).run v fun fate w =>
      ∀ e, fate = .returned (.error e) → v.SameBut v.count w := by
  refine Yields.lift_bind (P := fun _ y => y = v) (yields_read fun _ _ => rfl) ?_
  rintro language v rfl
  refine Yields.lift_bind (P := fun _ y => y = v) (yields_read fun _ _ => rfl) ?_
  rintro parent v rfl
  refine Yields.lift_bind (yields_newSession _ _) ?_
  rintro child _ ⟨rfl, -, rfl⟩
  have hu := Seating.accounted_newSession h
  have hchild : v.count < v.count + 1 := Nat.lt_succ_self _
  -- A child that was only made is not seen by anybody.
  have hmade : v.SameBut v.count { v with count := v.count + 1 } :=
    ⟨Nat.le_succ _, rfl, fun _ _ => rfl⟩
  have hlaunched := fun language => @always_launchChild_error _ _ _ me hchild hu language
  refine Yields.run_bind (yields_setMain hchild main) ?_ ?_
  · rintro _ u rfl
    split
    · next hook _ =>
      refine Yields.run_bind (yields_setExitHook hchild hook) ?_ ?_
      · rintro _ u rfl
        exact Always.mono (hlaunched language) fun _ _ hw e he => hmade.trans (hw e he)
      · rintro _ u rfl _ _
        exact hmade
    · exact Always.mono (hlaunched language) fun _ _ hw e he => hmade.trans (hw e he)
  · rintro _ u rfl _ _
    exact hmade

theorem always_fork_error (hid : id < v.count) (h : v.Accounted prompts) (options : ForkOptions) :
    Always seating me (fork id options).run v fun fate w =>
      ∀ e, fate = .returned (.error e) → v.SameBut v.count w := by
  refine Yields.lift_bind (yields_getSession hid) ?_
  rintro session v ⟨rfl, -⟩
  cases session.disposed with
  | true =>
    simp only [if_true]
    refine Yields.lift_bind (yields_dropHook? _) ?_
    rintro _ v rfl
    exact always_pure _ fun _ _ => .refl v
  | false =>
    simp only [Bool.false_eq_true, if_false]
    refine Yields.lift_bind (yields_childMain options) ?_
    rintro main? v rfl
    cases main? with
    | some main =>
      refine Always.run_bind (always_forkWith_error h options main) ?_ ?_ ?_ ?_
      · refine fun child w _ => always_pure _ fun e he => ?_
        cases he
      · rintro e w hw e' he'
        cases he'
        exact hw e rfl
      · rintro w - e he
        cases he
      · rintro w - e he
        cases he
    | none =>
      refine Always.lift_bind (always_of_quiet (quiet_reportError _)) ?_ ?_ ?_
      · rintro _ v rfl
        split
        · refine Always.lift_bind (always_of_quiet (quiet_runHook _ _)) ?_ ?_ ?_
          · rintro _ v rfl
            exact always_pure _ fun _ _ => .refl v
          · rintro v rfl _ _
            exact .refl v
          · rintro v rfl _ _
            exact .refl v
        · exact always_pure _ fun _ _ => .refl v
      · rintro v rfl _ _
        exact .refl v
      · rintro v rfl _ _
        exact .refl v

/-! ## Sessions -/

/-- The same sessions are registered in the same order, and of those that there were, none but these
has its flag or its permits changed. -/
structure Undisturbed (ids : List SessionId) (s s' : Shell) : Prop where
  registry : s'.registry = s.registry
  current : ∀ other, other < s.sessions.size → other ∉ ids →
    (s'.session other).current = (s.session other).current
  permits : ∀ other, other < s.sessions.size → other ∉ ids →
    (s'.session other).focus.permits = (s.session other).focus.permits

/-- The session has lost the focus, with its permit. -/
structure Robbed (id : SessionId) (s s' : Shell) : Prop where
  before : (s.session id).current = true
  after : (s'.session id).current = false
  permits : (s'.session id).focus.permits + 1 = (s.session id).focus.permits

theorem seat_eq_of_seats {s s' : Shell} (hlt : id < s.sessions.size)
    (hsize : s.sessions.size ≤ s'.sessions.size)
    (h : s'.seating.seat id = s.seating.seat id) : (s'.session id).seat = (s.session id).seat := by
  rw [← seat_seating hlt, ← seat_seating (Nat.lt_of_lt_of_le hlt hsize), h]

theorem undisturbed_of_sameBut {s s' : Shell} (h : s.seating.SameBut id s'.seating) :
    Undisturbed [id] s s' := by
  have hseat : ∀ other, other < s.sessions.size → other ∉ [id] →
      (s'.session other).seat = (s.session other).seat := fun other hlt ho =>
    seat_eq_of_seats hlt h.count (h.seats other (by simpa using ho))
  exact ⟨h.registry, fun other hlt ho => congrArg Seat.current (hseat other hlt ho),
    fun other hlt ho => congrArg Seat.permits (hseat other hlt ho)⟩

theorem robbed_of_sameBut {s s' : Shell} {holder : SessionId} (hlt : holder < s.sessions.size)
    (hne : holder ≠ id) (hcurrent : (s.seating.seat holder).current = true)
    (hpermit : 0 < (s.seating.seat holder).permits)
    (h : (s.seating.yield holder).SameBut id s'.seating) :
    Undisturbed [id, holder] s s' ∧ Robbed holder s s' := by
  have hsize : s.sessions.size ≤ s'.sessions.size := h.count
  have hseat : ∀ other, other < s.sessions.size → other ∉ [id, holder] →
      (s'.session other).seat = (s.session other).seat := fun other hother ho => by
    simp only [List.mem_cons, List.not_mem_nil, or_false, not_or] at ho
    refine seat_eq_of_seats hother hsize ((h.seats other ho.1).trans ?_)
    exact Seating.seat_modify_of_ne _ ho.2
  have hholder : (s'.session holder).seat = ((s.session holder).seat.take.setCurrent false) := by
    rw [← seat_seating hlt, ← seat_seating (Nat.lt_of_lt_of_le hlt hsize), h.seats holder hne]
    exact Seating.seat_modify_self _
  rw [seat_seating hlt] at hcurrent hpermit
  refine ⟨⟨h.registry, fun other hother ho => congrArg Seat.current (hseat other hother ho),
    fun other hother ho => congrArg Seat.permits (hseat other hother ho)⟩,
    hcurrent, congrArg Seat.current hholder, ?_⟩
  have hpermits : (s'.session holder).focus.permits = (s.session holder).focus.permits - 1 :=
    congrArg Seat.permits hholder
  rw [hpermits]
  exact Nat.sub_add_cancel hpermit

end Shell

namespace Floor

variable {st : Floor}

/-- A start that fails leaves all other sessions alone, and so does the start of a child. Only
a start in focus that is refused a thread does not: it leaves nobody in focus if another
session was. -/
theorem undisturbed_of_failed_start (h : st.Reachable) :
    (∀ me id query s' e, st.Known id →
      Runs seating me (start id query).run st.shell (.returned (.error e)) s' →
      Undisturbed [id] st.shell s' ∨ e = threadRefused ∧ ∃ holder ∈ st.shell.registry, holder ≠ id ∧
        Undisturbed [id, holder] st.shell s' ∧ Robbed holder st.shell s') ∧
    (∀ me id query s' e, st.Known id →
      Runs seating me (startWith id query false).run st.shell (.returned (.error e)) s' →
      Undisturbed [id] st.shell s') ∧
    ∀ me id options s' e, st.Known id →
      Runs seating me (fork id options).run st.shell (.returned (.error e)) s' →
      Undisturbed [] st.shell s' := by
  have ha := h.inv.accounted
  refine ⟨fun me id query s' e hid hrun => ?_, fun me id query s' e hid hrun => ?_,
    fun me id options s' e hid hrun => ?_⟩
  · obtain ⟨-, hsame | ⟨he, holder, hin, hne, hcurrent, hpermit, hsame⟩⟩ :=
      always_start_error hid ha query _ _ _ rfl hrun e rfl
    · exact .inl (undisturbed_of_sameBut hsame)
    · exact .inr ⟨he, holder, hin, hne, robbed_of_sameBut (ha.known holder hin) hne hcurrent
        hpermit hsame⟩
  · exact undisturbed_of_sameBut (always_startWith_error hid ha query _ _ _ rfl hrun e rfl).2
  · have hsame := undisturbed_of_sameBut (always_fork_error hid ha options _ _ _ rfl hrun e rfl)
    have hout : ∀ other, other < st.shell.sessions.size → other ∉ [st.shell.seating.count] :=
      fun other hlt hin => Nat.ne_of_lt hlt (List.mem_singleton.mp hin)
    exact ⟨hsame.registry, fun other hlt _ => hsame.current other hlt (hout other hlt),
      fun other hlt _ => hsame.permits other hlt (hout other hlt)⟩

/-- The second session is refused a thread when it is started, and the first one is not in focus any
more. -/
theorem robbed_of_refused_start :
    Reachable ⟨crowded, [], false⟩ ∧
    Runs seating 0 (start 1 "calc").run crowded (.returned (.error threadRefused))
      (aloneOr 0 (start 1 "calc").run crowded) ∧
    Robbed 0 crowded (aloneOr 0 (start 1 "calc").run crowded) :=
  ⟨reachable_crowded, runs_of_runAlone? (runAlone?_eq_aloneOr_of_map rfl),
    rfl, rfl, rfl⟩

/-- A child of the first session that is refused a thread leaves it alone. -/
theorem undisturbed_of_refused_fork :
    Runs seating 0 (fork 0 {}).run crowded (.returned (.error threadRefused))
      (aloneOr 0 (fork 0 {}).run crowded) ∧
    Undisturbed [] crowded (aloneOr 0 (fork 0 {}).run crowded) := by
  have hknown : 0 < crowded.sessions.size := size_crowded ▸ Nat.two_pos
  have hrun : Runs seating 0 (fork 0 {}).run crowded (.returned (.error threadRefused))
      (aloneOr 0 (fork 0 {}).run crowded) :=
    runs_of_runAlone? (runAlone?_eq_aloneOr_of_map rfl)
  exact ⟨hrun, (undisturbed_of_failed_start reachable_crowded).2.2 0 0 {} _ _ hknown hrun⟩

end Floor

end SessionShell
