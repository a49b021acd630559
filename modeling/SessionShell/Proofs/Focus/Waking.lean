import SessionShell.Proofs.Action.Crowd
import SessionShell.Proofs.Shell.Reading
import SessionShell.Shell.Life

/-!
What a call does that waited for the focus of its session when the session ended.

Disposal wakes whoever waits for the focus of a session. A prompt that is woken by it looks again
whether its session is live, so it leaves the focus alone and asks for nothing. A jump does not look
again: once it has the permit it moves the focus, whichever way it goes on.
-/

namespace SessionShell.Shell

open Action

variable {s s' : Shell} {id other : SessionId} {me : ThreadId} {ticket index : Nat} {text : String}
  {focus : FairSemaphore}

/-! ## Calls that wait -/

/-- Takes a ticket for the focus of a session. -/
def takeTicket (id : SessionId) : Action Shell Nat :=
  Action.step fun s =>
    let (ticket, focus) := (s.session id).focus.arrive
    (ticket, modifySession id (fun session => { session with focus }) s)

def awaitPermit (id : SessionId) (ticket : Nat) : Action Shell Unit :=
  Action.await fun s => ((s.session id).focus.grant? ticket).map fun focus =>
    ((), modifySession id (fun session => { session with focus }) s)

/-- What is left of a prompt that has its ticket. -/
def queuedPrompt (id : SessionId) (ticket : Nat) (text : String) : Checked ReadOutcome := do
  awaitPermit id ticket
  let outcome ← caught (askLine id text)
  release id
  MonadExcept.ofExcept outcome

def passFocus (id target : SessionId) (other : Session) : Checked Unit :=
  if other.disposed then do
    grantFocus id
    throw (.hasExited other.name)
  else if target = id then grantFocus id
  else do
    setCurrent id false
    grantFocus target

/-- What is left of a jump that has its ticket. -/
def queuedJump (id : SessionId) (ticket index : Nat) : Checked Unit := do
  awaitPermit id ticket
  match ← sessionAt index with
  | none =>
    grantFocus id
    throw (.indexOutOfRange index (← sessionCount))
  | some target => passFocus id target (← getSession target)

theorem prompt_eq : prompt id text = (do
    ensureLive id
    let ticket ← takeTicket id
    queuedPrompt id ticket text) := rfl

theorem jumpTo_eq : jumpTo id index = (do
    ensureLive id
    let ticket ← takeTicket id
    queuedJump id ticket index) := rfl

/-! ## What they are to leave alone -/

/-- What a session that has exited may still do: nothing to the focus of any other session, nothing
that puts the session itself in focus, and nothing to the input. -/
structure LeavesFocus (id : SessionId) (s s' : Shell) : Prop where
  current : ∀ other, other ≠ id → (s'.session other).current = (s.session other).current
  focus : ∀ other, other ≠ id → (s'.session other).focus = (s.session other).focus
  away : (s'.session id).current = true → (s.session id).current = true
  input : s'.console.input = s.console.input

theorem LeavesFocus.refl (s : Shell) : LeavesFocus id s s :=
  ⟨fun _ _ => rfl, fun _ _ => rfl, fun h => h, rfl⟩

theorem LeavesFocus.trans {s s' s'' : Shell} (h : LeavesFocus id s s')
    (h' : LeavesFocus id s' s'') :
    LeavesFocus id s s'' :=
  ⟨fun other ho => (h'.current other ho).trans (h.current other ho),
    fun other ho => (h'.focus other ho).trans (h.focus other ho),
    fun hc => h.away (h'.away hc), h'.input.trans h.input⟩

theorem LeavesFocus.of_eq (hothers : ∀ other, other ≠ id → s'.session other = s.session other)
    (hcurrent : (s'.session id).current = (s.session id).current)
    (hinput : s'.console.input = s.console.input) : LeavesFocus id s s' :=
  ⟨fun other ho => by rw [hothers other ho], fun other ho => by rw [hothers other ho],
    fun hc => hcurrent ▸ hc, hinput⟩

theorem leavesFocus_modifySession {f : Session → Session}
    (h : ∀ session, (f session).current = session.current) :
    LeavesFocus id s (modifySession id f s) :=
  .of_eq (fun _ ho => session_modifySession_of_ne f ho) (read_modifySession h) rfl

/-- A session that has been disposed of stays so. -/
def StaysDisposed (id : SessionId) (s s' : Shell) : Prop :=
  (s.session id).disposed = true → (s'.session id).disposed = true

theorem staysDisposed_refl (s : Shell) : StaysDisposed id s s :=
  fun h => h

def IsDisposed (id : SessionId) (s : Shell) : Prop :=
  (s.session id).disposed = true

theorem stable_isDisposed : Stable (StaysDisposed id) (IsDisposed id) :=
  fun _ _ hs hr => hr hs

theorem isDisposed_modifySession {f : Session → Session}
    (h : ∀ session, (f session).disposed = session.disposed) (hs : IsDisposed id s) :
    IsDisposed id (modifySession other f s) :=
  (read_modifySession h).trans hs

theorem lt_size_of_isDisposed (h : IsDisposed id s) : id < s.sessions.size := by
  refine Nat.lt_of_not_le fun hge => ?_
  rw [IsDisposed, session_of_size_le hge] at h
  cases h

/-! ## A prompt that is woken -/

theorem upholds_awaitPermit :
    Upholds (StaysDisposed id) (LeavesFocus id) me (IsDisposed id) (awaitPermit id ticket)
      (Fate.Returns fun _ => IsDisposed id) := by
  refine upholds_await stable_isDisposed (fun _ => stable_isDisposed) fun s _ s' hs hgrant => ?_
  obtain ⟨focus, -, heq⟩ := Option.map_eq_some_iff.mp hgrant
  cases heq
  exact ⟨leavesFocus_modifySession (by exact fun _ => rfl),
    isDisposed_modifySession (by exact fun _ => rfl) hs⟩

/-- The result of a call that was refused since the session has exited. -/
def IsRefused {α : Type} (r : Except ShellError α) : Prop :=
  ∃ name, r = .error (.hasExited name)

theorem upholds_ensureLive :
    Upholds (StaysDisposed id) (LeavesFocus id) me (IsDisposed id) (ensureLive id).run
      (Fate.Returns fun r s => IsRefused r ∧ IsDisposed id s) := by
  have hrefused : ∀ session : Session, Stable (StaysDisposed id)
      fun s => session.disposed = true ∧ IsDisposed id s :=
    fun _ _ _ hs hr => ⟨hs.1, hr hs.2⟩
  refine Upholds.lift_bind (R := fun session s => session.disposed = true ∧ IsDisposed id s)
    ?_ staysDisposed_refl fun session => ?_
  · exact upholds_step stable_isDisposed hrefused fun s hs => ⟨.refl s, hs, hs⟩
  cases hd : session.isLive with
  | true =>
    intro s hs
    simp [Session.isLive, hs.1] at hd
  | false => exact upholds_pure _ (hrefused session) fun s hs => ⟨⟨_, rfl⟩, hs.2⟩

theorem upholds_askLine :
    Upholds (StaysDisposed id) (LeavesFocus id) me (IsDisposed id) (askLine id text).run
      (Fate.Returns fun r s => IsRefused r ∧ IsDisposed id s) := by
  refine Upholds.run_bind upholds_ensureLive staysDisposed_refl (fun _ s hs => ?_) fun e =>
    upholds_pure _ (fun _ _ hs hr => ⟨hs.1, hr hs.2⟩) fun s hs => ?_
  · obtain ⟨⟨name, hname⟩, -⟩ := hs
    cases hname
  · obtain ⟨⟨name, hname⟩, hd⟩ := hs
    cases hname
    exact ⟨⟨name, rfl⟩, hd⟩

theorem upholds_queuedPrompt :
    Upholds (StaysDisposed id) (LeavesFocus id) me (IsDisposed id) (queuedPrompt id ticket text).run
      (Fate.Returns fun r _ => IsRefused r) := by
  refine Upholds.lift_bind upholds_awaitPermit staysDisposed_refl fun _ => ?_
  refine Upholds.lift_bind upholds_askLine staysDisposed_refl fun outcome => ?_
  refine Upholds.lift_bind (R := fun _ _ => IsRefused outcome) ?_ staysDisposed_refl fun _ => ?_
  · exact upholds_step (fun _ _ hs hr => ⟨hs.1, hr hs.2⟩) (fun _ _ _ hs _ => hs) fun s hs =>
      ⟨leavesFocus_modifySession fun _ => rfl, hs.1⟩
  · rintro s ⟨name, rfl⟩ s' -
    exact ⟨name, rfl⟩

/-! ## A jump that is woken -/

def granted (id : SessionId) (s : Shell) : Shell :=
  modifySession id (fun session => { session with focus := session.focus.release })
    (modifySession id (fun session => { session with current := true }) s)

def jumped (id : SessionId) (index : Nat) (s : Shell) : Except ShellError Unit × Shell :=
  match s.registry.get? index with
  | none => (.error (.indexOutOfRange index s.registry.length), granted id s)
  | some target =>
    if (s.session target).disposed then
      (.error (.hasExited (s.session target).name), granted id s)
    else if target = id then (.ok (), granted id s)
    else
      (.ok (), granted target
        (modifySession id (fun session => { session with current := false }) s))

theorem runAlone?_passFocus {target : SessionId} {r : Session} :
    (passFocus id target r).run.runAlone? me s = some
      (if r.disposed then (.error (.hasExited r.name), granted id s)
      else if target = id then (.ok (), granted id s)
      else
        (.ok (),
          granted target
            (modifySession id (fun session => { session with current := false }) s))) := by
  unfold passFocus
  split
  · rfl
  · split <;> rfl

theorem runAlone?_queuedJump (h : (s.session id).focus.grant? ticket = some focus) :
    (queuedJump id ticket index).run.runAlone? me s =
      some (jumped id index (modifySession id (fun session => { session with focus }) s)) := by
  have hgrant : ((s.session id).focus.grant? ticket).map (fun focus =>
      ((), modifySession id (fun session => { session with focus }) s)) =
      some ((), modifySession id (fun session => { session with focus }) s) := by
    rw [h]
    rfl
  refine (runAlone?_ask hgrant).trans ((runAlone?_ask rfl).trans ?_)
  generalize modifySession id (fun session => { session with focus }) s = s₁
  simp only [jumped]
  cases s₁.registry.get? index with
  | none => rfl
  | some target => exact (runAlone?_ask rfl).trans runAlone?_passFocus

theorem current_granted (h : id < s.sessions.size) :
    ((granted id s).session id).current = true := by
  rw [granted, session_modifySession_self _ (by rwa [size_modifySession]),
    session_modifySession_self _ h]

theorem permits_granted (h : id < s.sessions.size) :
    ((granted id s).session id).focus.permits = (s.session id).focus.permits + 1 := by
  rw [granted, session_modifySession_self _ (by rwa [size_modifySession]),
    session_modifySession_self _ h]
  rfl

/-- Whichever way a jump goes on, it does to the focus what a session that has exited must not. -/
theorem not_leavesFocus_jumped (hcurrent : (s.session id).current = false)
    (hid : id < s.sessions.size) (hknown : ∀ target ∈ s.registry, target < s.sessions.size) :
    ¬LeavesFocus id s (jumped id index s).2 := by
  intro hleaves
  have hself : ¬LeavesFocus id s (granted id s) := fun h => by
    have := h.away (current_granted hid)
    simp [hcurrent] at this
  revert hleaves
  simp only [jumped]
  cases htarget : s.registry.get? index with
  | none => exact hself
  | some target =>
    dsimp only
    split
    · exact hself
    · split
      · exact hself
      · next hne =>
        intro hleaves
        have hlt : target < s.sessions.size := hknown target (List.mem_of_getElem? htarget)
        have hfocus := congrArg FairSemaphore.permits (hleaves.focus target hne)
        rw [permits_granted (by rwa [size_modifySession]),
          session_modifySession_of_ne _ hne] at hfocus
        exact Nat.succ_ne_self _ hfocus

/-! ## Calls that are woken -/

/-- Of the calls that wait for the focus of a session that has been disposed of, a prompt leaves the
focus and the input alone, whatever others do in between, and is refused. A jump that gets the
permit does not leave the focus alone, even when nobody else does anything. -/
theorem leavesFocus_of_woken (hs : IsDisposed id s) :
    (∀ me ticket text, Safe (StaysDisposed id) (LeavesFocus id) me
      (Fate.Returns fun r _ => IsRefused r)
      (queuedPrompt id ticket text).run s) ∧
    ∀ me ticket index focus, (s.session id).focus.grant? ticket = some focus →
      (s.session id).current = false → (∀ target ∈ s.registry, target < s.sessions.size) →
      ¬Safe Eq (LeavesFocus id) me (fun _ _ => True) (queuedJump id ticket index).run s := by
  refine ⟨fun me ticket text => upholds_queuedPrompt s hs, ?_⟩
  intro me ticket index focus hgrant hcurrent hknown hsafe
  let s₁ : Shell := modifySession id (fun session => { session with focus }) s
  have hsame : (s₁.session id).current = (s.session id).current :=
    read_modifySession (by exact fun _ => rfl)
  have hback : LeavesFocus id s₁ s :=
    .of_eq (fun other ho => (session_modifySession_of_ne _ ho).symm) hsame.symm rfl
  have hjumped : LeavesFocus id s (jumped id index s₁).2 :=
    hsafe.of_runAlone? (fun _ => rfl) .refl (fun _ _ _ => .trans) (runAlone?_queuedJump hgrant)
  have hsize : s₁.sessions.size = s.sessions.size := size_modifySession _
  exact not_leavesFocus_jumped (hsame.trans hcurrent) (hsize ▸ lt_size_of_isDisposed hs)
    (fun target ht => hsize ▸ hknown target ht) (hback.trans hjumped)

/-- Three sessions, the first of which is in focus. -/
def threeSessions : Shell :=
  let new : Shell := .new (.default 1) (.empty "") .empty ⟨[], true⟩ true false
  let one : Shell := aloneOr 0 (start 0 "calc").run (aloneOr 0 (newSession "a" none) new)
  aloneOr 0 (fork 0 {}).run (aloneOr 0 (fork 0 {}).run one)

/-- The second of three sessions has exited, while a jump of it waited with its ticket. -/
def oneGhost : Shell :=
  aloneOr 1 (exit 1 3).run (aloneOr 2 (takeTicket 1) threeSessions)

/-- The ghost of a session that waits to jump puts another session in focus, beside the one that has
the focus already. -/
theorem current_of_ghost_jump :
    (threeSessions.session 1).isLive = true ∧
    (takeTicket 1).runAlone? 2 threeSessions = some (0, aloneOr 2 (takeTicket 1) threeSessions) ∧
    IsDisposed 1 oneGhost ∧ (oneGhost.session 0).current = true ∧
    (oneGhost.session 2).current = false ∧
    ∃ s', (queuedJump 1 0 1).run.runAlone? 2 oneGhost = some (.ok (), s') ∧
      (s'.session 0).current = true ∧ (s'.session 2).current = true ∧
      ¬LeavesFocus 1 oneGhost s' := by
  have hjump : (queuedJump 1 0 1).run.runAlone? 2 oneGhost =
      some (.ok (), aloneOr 2 (queuedJump 1 0 1).run oneGhost) :=
    runAlone?_eq_aloneOr rfl
  have hbefore : (oneGhost.session 2).current = false := rfl
  have hafter : ((aloneOr 2 (queuedJump 1 0 1).run oneGhost).session 2).current = true := rfl
  refine ⟨rfl, rfl, rfl, rfl, hbefore, _, hjump, rfl, hafter, fun hleaves => ?_⟩
  have := hleaves.current 2 (by decide)
  simp [hbefore, hafter] at this

/-- A prompt of that ghost would have left the focus alone, and its jump does not. -/
theorem leavesFocus_of_woken_ghost :
    IsDisposed 1 oneGhost ∧
    Safe (StaysDisposed 1) (LeavesFocus 1) 2 (Fate.Returns fun r _ => IsRefused r)
      (queuedPrompt 1 0 "> ").run oneGhost ∧
    ¬Safe Eq (LeavesFocus 1) 2 (fun _ _ => True) (queuedJump 1 0 1).run oneGhost := by
  have hghost : IsDisposed 1 oneGhost := rfl
  have hgrant : (oneGhost.session 1).focus.grant? 0 = some ⟨0, 1, 1⟩ := rfl
  have haway : (oneGhost.session 1).current = false := rfl
  have hknown : ∀ target ∈ oneGhost.registry, target < oneGhost.sessions.size := by decide
  exact ⟨hghost, (leavesFocus_of_woken hghost).1 2 0 "> ",
    (leavesFocus_of_woken hghost).2 2 0 1 ⟨0, 1, 1⟩ hgrant haway hknown⟩

end SessionShell.Shell
