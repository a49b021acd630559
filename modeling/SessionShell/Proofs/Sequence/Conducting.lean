import SessionShell.Proofs.Sequence.Ensemble

/-!
What the host of a sequential batch does, from the start of its thread to the end of everything.

It starts one script after the other. Before it starts the next one, it has received the code of the
one before, or has found all its children gone and their codes sent. So nothing is left to be said
by them whenever the host itself writes.
-/

namespace SessionShell.Sequence

open Action Shell

/-- Who else there is: the sessions of scripts, and what the two threads that write have in hand. -/
structure Others where
  kids : List Kid
  out : Option (Queued String)
  err : Option (Queued String)

structure Kid.Launched (o : Backdrop) (k : Kid) : Prop where
  rest : k.rest? = some (program (.session k.id .entering))
  recites : Recites o k.id k.thread 3 (program (.session k.id .entering)) k.recital

structure Stage.Final (g : Stage) (tr : Dialogue.Transcript) : Prop where
  out : g.out = .page tr.out [] 1
  err : g.err = .page tr.err [] 1
  ended : g.ended = some tr.code
  exitCode : g.host.exitCode = some tr.code

def conductor (o : Backdrop) (tr : Dialogue.Transcript) (me : ThreadId) :
    Vantage Others Shell Stage where
  me := me
  holds g c s := Ensemble o g c.kids c.out c.err s ∧ g.ended = none
  moves _ c s g' s' := (g'.ended = none ∨ g'.Final tr) ∧ ∃ news : List Kid,
    s'.started = s.started ++ news.map (fun k => (k.thread, .session k.id .entering)) ∧
    (∀ k ∈ news, k.Launched o) ∧ Ensemble o g' (c.kids ++ news) c.out c.err s'
  ready g c s := (∀ k ∈ c.kids, k.recital.own.disposed = true) ∧ c.out = none ∧ c.err = none ∧
    s.console.out.queue = [] ∧ s.console.err.queue = [] ∧ g.alarm ≤ s.world.now

variable {o : Backdrop} {tr : Dialogue.Transcript} {me : ThreadId} {g g' : Stage} {c : Others}
  {s s' : Shell}
  {α : Type} {kids : List Kid} {out err : Option (Queued String)} {x : Session}

/-! ## Steps -/

abbrev Conducts (o : Backdrop) (tr : Dialogue.Transcript) (me : ThreadId)
    (p : Action Shell α) (g : Stage) (v : α) (g' : Stage) : Prop :=
  (conductor o tr me).Comes p g v g'

theorem Ensemble.moves (h : Ensemble o g' c.kids c.out c.err s')
    (hended : g'.ended = none ∨ g'.Final tr)
    (hstarted : s'.started = s.started) : (conductor o tr me).moves g c s g' s' := by
  refine ⟨hended, [], ?_, fun k hk => absurd hk List.not_mem_nil, ?_⟩
  · rw [List.map_nil, List.append_nil]
    exact hstarted
  · rw [List.append_nil]
    exact h

theorem conducts_step {f : Shell → α × Shell} {v : α} (hended : g'.ended = g.ended)
    (hf : ∀ kids out err s, Ensemble o g kids out err s → Ensemble o g' kids out err (f s).2 ∧
      (f s).1 = v ∧
      (f s).2.started = s.started) : Conducts o tr me (step f) g v g' :=
  Vantage.comes_step fun c s hs => by
    obtain ⟨hens, hv, hstarted⟩ := hf c.kids c.out c.err s hs.1
    exact ⟨hens.moves (.inl (hended.trans hs.2)) hstarted, hv⟩

theorem conducts_look {f : Shell → α} {v : α}
    (hf : ∀ kids out err s, Ensemble o g kids out err s → f s = v) :
      Conducts o tr me (Action.read f) g v g :=
  conducts_step rfl fun kids out err s hs => ⟨hs, hf kids out err s hs, rfl⟩

theorem conducts_update {f : Shell → Shell} (hended : g'.ended = g.ended)
    (hf : ∀ kids out err s, Ensemble o g kids out err s → Ensemble o g' kids out err (f s) ∧
      (f s).started = s.started) : Conducts o tr me (Action.update f) g () g' :=
  conducts_step hended fun kids out err s hs =>
    ⟨(hf kids out err s hs).1, rfl, (hf kids out err s hs).2⟩

theorem Ensemble.host_known (h : Ensemble o g kids out err s) : 0 < s.sessions.size := by
  rw [h.cast.size, Nat.add_right_comm]
  exact Nat.succ_pos _

/-! ## What a session does to itself alone -/

structure Slot (o : Backdrop) (id : SessionId) (put : Session → Stage) : Prop where
  ended : ∀ {x y}, (put x).ended = (put y).ended
  session : ∀ {x kids out err s}, Ensemble o (put x) kids out err s →
    s.session id = x ∧ id < s.sessions.size
  change : ∀ {x kids out err s} (y : Session), Ensemble o (put x) kids out err s →
    Ensemble o (put y) kids out err (modifySession id (fun _ => y) s)

variable {id : SessionId} {put : Session → Stage} {x y : Session}

theorem slot_host (o : Backdrop) (g : Stage) : Slot o 0 fun x => { g with host := x } where
  ended := rfl
  session h := ⟨h.cast.host, h.host_known⟩
  change _ h := { h with
    cast := {
      size := (size_modifySession _).trans h.cast.size
      host := session_modifySession_self _ h.host_known
      newcomer :=
        fun z hz => (session_modifySession_of_ne _ (Nat.succ_ne_zero _)).trans
        (h.cast.newcomer z hz)
      own := fun k hk => (session_modifySession_of_ne _ (h.troupe.id_ne_zero hk)).trans
        (h.cast.own k hk) } }

theorem slot_newcomer (o : Backdrop) (g : Stage) :
    Slot o (g.count + 1) fun x => { g with newcomer? := some x } where
  ended := rfl
  session h := by
    refine ⟨?_, ?_⟩
    · rw [← h.count]
      exact h.cast.newcomer _ rfl
    · rw [h.cast.size, h.count]
      exact Nat.lt_succ_self _
  change y h := { h with
    cast := {
      size := (size_modifySession _).trans h.cast.size
      host := (session_modifySession_of_ne _ (Nat.succ_ne_zero _).symm).trans h.cast.host
      newcomer := fun z hz => by
        cases hz
        rw [h.count]
        refine session_modifySession_self _ ?_
        rw [h.cast.size, h.count]
        exact Nat.lt_succ_self _
      own := fun k hk => by
        refine (session_modifySession_of_ne _ ?_).trans (h.cast.own k hk)
        exact Nat.ne_of_lt (Nat.lt_succ_of_le (h.count ▸ h.troupe.id_le hk)) } }

theorem Slot.does {Q : Fate α → Recital → Prop} {p : Action Shell α} (hput : Slot o id put)
    (h : (recital o id me).Does Q p ⟨x, []⟩) :
    (conductor o tr me).Does (fun fate g => ∃ x, Q fate ⟨x, []⟩ ∧ g = put x) p (put x) := by
  induction p generalizing x with
  | done v => exact ⟨x, h, rfl⟩
  | crash => exact ⟨x, h, rfl⟩
  | ask act next ih =>
    intro c s hs
    obtain ⟨hsession, hknown⟩ := hput.session hs.1
    have hholds : Recital.Holds o id ⟨x, []⟩ s := {
      session := hsession
      known := hknown
      backdrop := hs.1.backdrop
      leaves := fun hleave => absurd hleave List.not_mem_nil
      disposed := fun _ => rfl }
    obtain ⟨hready, hstep⟩ := h () s hholds
    refine ⟨fun _ => hready trivial, fun answer s' hact => ?_⟩
    obtain ⟨⟨y, deeds⟩, hmoves, hnext⟩ := hstep answer s' hact
    obtain ⟨deed?, hdeeds, rfl⟩ := Recital.Moves.deed hmoves
    obtain ⟨hnone, rfl⟩ := List.append_eq_nil_iff.mp hdeeds.symm
    obtain rfl := Option.toList_eq_nil_iff.mp hnone
    exact ⟨put y, (hput.change y hs.1).moves (.inl (hput.ended.trans hs.2)) rfl,
      ih answer hnext⟩

theorem Slot.conducts {p : Action Shell α} {v : α} (hput : Slot o id put)
    (h : Tells o id me p ⟨x, []⟩ v ⟨y, []⟩) : Conducts o tr me p (put x) v (put y) :=
  (hput.does h).mono fun fate g ⟨z, hz, hg⟩ => by
    cases fate with
    | returned w =>
      obtain ⟨rfl, heq⟩ := hz
      cases heq
      exact ⟨rfl, hg⟩
    | crashed => exact hz.elim
    | halted => exact hz.elim

theorem conducts_host {p : Action Shell α} {v : α} (h : Tells o 0 me p ⟨g.host, []⟩ v ⟨y, []⟩) :
    Conducts o tr me p g v { g with host := y } :=
  (slot_host o g).conducts h

theorem conducts_newcomer {p : Action Shell α} {v : α} (hx : g.newcomer? = some x)
    (h : Tells o (g.count + 1) me p ⟨x, []⟩ v ⟨y, []⟩) :
    Conducts o tr me p g v { g with newcomer? := some y } := by
  have hsame : { g with newcomer? := some x } = g := by rw [← hx]
  have hput : Conducts o tr me p { g with newcomer? := some x } v { g with newcomer? := some y } :=
    (slot_newcomer o g).conducts h
  rwa [hsame] at hput

/-! ## What it reads -/

theorem conducts_getSession : Conducts o tr me (getSession 0) g g.host g :=
  conducts_look fun _ _ _ _ h => h.cast.host

theorem conducts_isLive : Conducts o tr me (isLive 0) g g.host.isLive g :=
  conducts_look fun _ _ _ _ h => congrArg Session.isLive h.cast.host

theorem conducts_getSettings : Conducts o tr me getSettings g o.settings g :=
  conducts_look fun _ _ _ _ h => congrArg Backdrop.settings h.backdrop

theorem does_anyChildLive {run : BatchRun}
    (hchildren : run.children.map BatchChild.session = List.range' 1 g.count) :
    (conductor o tr me).Does (Fate.Returns fun live g' =>
        live = true ∧ g.gone = false ∧ g' = g ∨ live = false ∧ g' = { g with gone := true })
      (anyChildLive run) g := by
  refine Vantage.does_step fun c s hs => ?_
  have hany : run.children.any (fun child => (s.session child.session).isLive) =
      c.kids.any fun k => k.recital.own.isLive := by
    have hids : run.children.map BatchChild.session = c.kids.map Kid.id := by
      rw [hchildren, hs.1.troupe.ids, hs.1.count]
    have hmap : (run.children.map BatchChild.session).any (fun id => (s.session id).isLive) =
        (c.kids.map Kid.id).any fun id => (s.session id).isLive := by rw [hids]
    rw [List.any_map, List.any_map] at hmap
    refine hmap.trans (Bool.eq_iff_iff.mpr ?_)
    simp only [List.any_eq_true, Function.comp_apply]
    refine exists_congr fun k => and_congr_right fun hk => ?_
    rw [show s.session k.id = k.recital.own from hs.1.cast.own k hk]
  by_cases hlive : (c.kids.any fun k => k.recital.own.isLive) = true
  · have hgone : g.gone = false := by
      obtain ⟨k, hk, hklive⟩ := List.any_eq_true.mp hlive
      refine Bool.eq_false_iff.mpr fun hgone => ?_
      simp [Session.isLive, hs.1.gone hgone k hk] at hklive
    exact ⟨g, hs.1.moves (.inl hs.2) rfl, .inl ⟨hany.trans hlive, hgone, rfl⟩⟩
  · have hgone : ∀ k ∈ c.kids, k.recital.own.disposed = true := fun k hk => by
      simpa [Session.isLive] using fun hklive => hlive (List.any_eq_true.mpr ⟨k, hk, hklive⟩)
    refine ⟨{ g with gone := true }, Ensemble.moves ?_ (.inl hs.2) rfl,
      .inr ⟨hany.trans (Bool.eq_false_iff.mpr hlive), rfl⟩⟩
    exact { hs.1 with gone := fun _ => hgone, stays := .inr rfl }

/-! ## Its channel -/

variable {shares : Nat}

theorem conducts_addChannel (hshares : g.shares? = none) (hcodes : g.codes = []) :
    Conducts o tr me addChannel g channel { g with shares? := some 1 } :=
  conducts_step rfl fun kids out err s h => by
    have hmail := h.mail
    rw [hshares] at hmail
    obtain ⟨rfl, hchannels⟩ := hmail
    refine ⟨{ h with mail := ⟨[], 1, ?_, ?_, Nat.le_refl _⟩ }, ?_, rfl⟩
    · change s.channels.push _ = _
      rw [hchannels]
      rfl
    · exact hcodes.symm
    · change s.channels.size = _
      rw [hchannels]
      rfl

theorem conducts_modifyChannel {f : Channel → Channel} {shares' : Nat} (codes : List (String × Int))
    (hshares : g.shares? = some shares)
    (hf : ∀ queue senders (sent : List (String × Int)) drops, queue ++ sent = g.codes →
      shares + drops ≤ senders →
      (f ⟨queue, senders⟩).queue ++ sent = codes ∧ shares' + drops ≤ (f ⟨queue, senders⟩).senders) :
    Conducts o tr me (Action.update (modifyChannel channel f)) g ()
      { g with shares? := some shares', codes } :=
  conducts_update rfl fun kids out err s h => by
    have hmail := h.mail
    rw [hshares] at hmail
    obtain ⟨queue, senders, hchannels, hcodes, hdrops⟩ := hmail
    obtain ⟨hcodes', hdrops'⟩ := hf queue senders _ _ hcodes hdrops
    refine ⟨{ h with mail := ⟨(f ⟨queue, senders⟩).queue, (f ⟨queue, senders⟩).senders, ?_,
      hcodes', hdrops'⟩ },
      rfl⟩
    change s.channels.modify channel f = _
    rw [hchannels]
    rfl

theorem conducts_addSender (hshares : g.shares? = some shares) :
    Conducts o tr me (addSender channel) g () { g with shares? := some (shares + 1) } :=
  conducts_modifyChannel g.codes hshares fun _ _ _ _ hcodes hdrops => ⟨hcodes, by
    dsimp only
    omega⟩

theorem conducts_dropSender (hshares : g.shares? = some (shares + 1)) :
    Conducts o tr me (Action.update (dropSender channel)) g () { g with shares? := some shares } :=
  conducts_modifyChannel g.codes hshares fun _ _ _ _ hcodes hdrops => ⟨hcodes, by
    dsimp only
    omega⟩

theorem conducts_runHook (label : String) (code : Int) (hshares : g.shares? = some (shares + 1))
    (hcodes : g.codes = []) : Conducts o tr me (runHook code (.report channel label)) g ()
      { g with shares? := some shares, codes := [(label, code)] } := by
  have hsend : Conducts o tr me
      (Action.update (modifyChannel channel fun c =>
        { c with queue := c.queue ++ [(label, code)] })) g ()
      { g with shares? := some (shares + 1), codes := [(label, code)] } :=
    conducts_modifyChannel _ hshares fun queue senders sent drops hnone hdrops => by
      rw [hcodes] at hnone
      obtain ⟨rfl, rfl⟩ := List.append_eq_nil_iff.mp hnone
      exact ⟨rfl, hdrops⟩
  exact hsend.bind (conducts_dropSender rfl)

theorem does_setAlarm (ms : Nat) (polls : Bool) : (conductor o tr me).Does
    (Fate.Returns fun alarm g' => g' = { g with alarm := alarm.time })
    (worldPlace.setAlarm ms polls) g := by
  have hself : Conducts o tr me Action.self g me g := fun c s hs => by
    refine ⟨fun _ => rfl, fun answer s' hact => ?_⟩
    cases hact
    exact ⟨g, hs.1.moves (.inl hs.2) rfl, rfl, rfl⟩
  refine hself.bind (Vantage.does_step fun c s hs => ⟨_, Ensemble.moves ?_ (.inl ?_) rfl, rfl⟩)
  · exact { hs.1 with }
  · exact hs.2

theorem Ensemble.ring {alarm : Alarm} {v v' : α} (h : Ensemble o g kids out err s)
    (hring : (worldPlace.ring? alarm s).map (v, ·) = some (v', s')) :
    Ensemble o g kids out err s' ∧ s'.started = s.started ∧ v = v' := by
  obtain ⟨t, ht, heq⟩ := Option.map_eq_some_iff.mp hring
  cases heq
  rw [WorldAt.ring?] at ht
  split at ht
  · cases ht
    exact ⟨{ h with }, rfl, rfl⟩
  · cases ht

theorem does_sleep (ms : Nat) : (conductor o tr me).Does
    (Fate.Returns fun _ g' => ∃ alarm, g' = { g with alarm }) (worldPlace.sleep ms) g := by
  refine (does_setAlarm ms false).bind ?_
  rintro alarm g' rfl
  refine Vantage.does_await fun c s hs => ⟨fun hready => ?_, fun v s' hring => ?_⟩
  · have hnow : alarm.time ≤ s.world.now := hready.2.2.2.2.2
    simp [WorldAt.ring?, worldPlace, hnow]
  · obtain ⟨hens, hstarted, -⟩ := hs.1.ring hring
    exact ⟨_, hens.moves (.inl hs.2) hstarted, alarm.time, rfl⟩

/-- One of the codes that are to come is received, or none as long as the host waits for one. -/
theorem does_receive {label : String} {code : Int} (hshares : g.shares? = some (shares + 1))
    (hcodes : g.codes = [(label, code)]) : (conductor o tr me).Does
      (Fate.Returns fun received g' => ∃ alarm,
        received = .code label code ∧ g' = { g with codes := [], alarm } ∨
        received = .nothing ∧ g' = { g with alarm }) (receive channel) g := by
  refine Vantage.Does.bind (R := fun received? g' => ∃ alarm,
    received? = some (.code label code) ∧ g' = { g with codes := [], alarm } ∨
      received? = none ∧ g' = { g with alarm }) ?_ ?_
  · refine (does_setAlarm Batch.poll true).bind ?_
    rintro alarm g' rfl
    refine Vantage.does_await fun c s hs => ?_
    have hmail := hs.1.mail
    dsimp only at hmail
    rw [hshares] at hmail
    obtain ⟨queue, senders, hchannels, hqueue, hdrops⟩ := hmail
    rw [hcodes] at hqueue
    have hchannel : s.channels[channel]? = some ⟨queue, senders⟩ := by rw [hchannels]; rfl
    cases queue with
    | nil =>
      have htake : takeCode? channel s = none := by rw [takeCode?, hchannel]
      have hopen : isClosed channel s = false := by
        simp [isClosed, hchannel]
        omega
      simp only [htake, hopen, Bool.false_eq_true, if_false]
      refine ⟨fun hready => ?_, fun v s' hring => ?_⟩
      · have hnow : alarm.time ≤ s.world.now := hready.2.2.2.2.2
        simp [WorldAt.ring?, worldPlace, hnow]
      · obtain ⟨hens, hstarted, rfl⟩ := hs.1.ring hring
        exact ⟨_, hens.moves (.inl hs.2) hstarted, alarm.time, .inr ⟨rfl, rfl⟩⟩
    | cons next queue =>
      obtain ⟨rfl, hrest⟩ := List.cons.inj hqueue
      obtain ⟨rfl, hsent⟩ := List.append_eq_nil_iff.mp hrest
      have htake : takeCode? channel s =
          some ((label, code),
            { s with channels := s.channels.setIfInBounds channel ⟨[], senders⟩ }) := by
        rw [takeCode?, hchannel]
      simp only [htake]
      refine ⟨fun _ => rfl, fun v s' hv => ?_⟩
      cases hv
      refine ⟨{ g with codes := [], alarm := alarm.time },
        Ensemble.moves { hs.1 with mail := ?_ } (.inl hs.2) rfl, alarm.time, .inl ⟨rfl, rfl⟩⟩
      dsimp only
      rw [hshares]
      refine ⟨[], senders, ?_, hsent, hdrops⟩
      change s.channels.setIfInBounds channel ⟨[], senders⟩ = _
      rw [hchannels]
      rfl
  · rintro received? g' ⟨alarm, ⟨rfl, rfl⟩ | ⟨rfl, rfl⟩⟩
    · exact Vantage.does_pure ⟨alarm, .inl ⟨rfl, rfl⟩⟩
    · exact Vantage.does_pure ⟨alarm, .inr ⟨rfl, rfl⟩⟩

theorem does_takeCodes (hshares : g.shares? = some shares) (hgone : g.gone = true) :
    Conducts o tr me (takeCodes channel) g g.codes { g with codes := [] } :=
  conducts_step rfl fun kids out err s h => by
    have hmail := h.mail
    rw [hshares] at hmail
    obtain ⟨queue, senders, hchannels, hcodes, hdrops⟩ := hmail
    have hnone : awaited Deed.code? kids = [] :=
      List.flatMap_eq_nil_iff.mpr fun k hk => by rw [h.deeds_eq_nil hgone k hk]; rfl
    rw [hnone, List.append_nil] at hcodes
    refine ⟨{ h with mail := ?_ }, ?_, rfl⟩
    · rw [hshares]
      refine ⟨[], senders, ?_, hnone, hdrops⟩
      change s.channels.modify channel (fun c => { c with queue := [] }) = _
      rw [hchannels]
      rfl
    · change s.channels[channel]?.elim [] (·.queue) = _
      rw [hchannels]
      exact hcodes

/-! ## What it writes -/

theorem conducts_print (text : String) (hcodes : g.codes = []) :
    Conducts o tr me (consolePlace.print text) g
      () { g with out := g.out.enqueue (.request text) } :=
  conducts_update rfl fun _ _ _ _ h =>
    ⟨{ h with out := h.out.print (awaited_eq_nil (h.quiet hcodes) rfl rfl) }, rfl⟩

theorem conducts_printError (text : String) (hcodes : g.codes = []) :
    Conducts o tr me (consolePlace.printError text) g
      () { g with err := g.err.enqueue (.request text) } :=
  conducts_update rfl fun _ _ _ _ h =>
    ⟨{ h with err := h.err.print (awaited_eq_nil (h.quiet hcodes) rfl rfl) }, rfl⟩

theorem conducts_reportError (fault : Fault) (hcodes : g.codes = []) :
    Conducts o tr me (reportError fault) g ()
    { g with err := g.err.enqueue (.request (faultText o.settings fault)) } :=
  conducts_getSettings.bind (conducts_printError _ hcodes)

theorem conducts_sayLine (text : String) (hlive : g.host.disposed = false) (hcodes : g.codes = []) :
    Conducts o tr me (sayLine 0 text) g
      () { g with out := g.out.enqueue (.request (text ++ "\n")) } := by
  have hensure : Conducts o tr me (ensureLive 0).run g (.ok ()) g :=
    conducts_host (tells_ensureLive hlive)
  exact Vantage.Comes.discard (hensure.run_bind (Vantage.Comes.lift_bind (conducts_print _ hcodes)
    (Vantage.comes_pure _)))

def statusLines (messages : Bool) (label : String) (code : Int) : List String :=
  if messages then [label ++ ": " ++ ExitCode.describe code ++ "\n"] else []

theorem conducts_record (run : BatchRun) (label : String) (code : Int)
    (hlive : g.host.disposed = false)
    (hcodes : g.codes = []) : Conducts o tr me (record 0 run label code) g
      { run with code := Batch.fold o.settings.batch.lastCode run.code code }
      { g with out := g.out.print (statusLines o.settings.batch.messages label code) } := by
  refine conducts_getSettings.bind ?_
  by_cases hmessages : o.settings.batch.messages = true
  · simp only [statusLines, hmessages, if_true]
    exact (conducts_sayLine _ hlive hcodes).bind (Vantage.comes_pure _)
  · simp only [statusLines, hmessages, Bool.false_eq_true, if_false]
    exact Vantage.comes_pure _

/-! ## The start of a script -/

variable {target : String} {file : Nat} {turn : Turn} {name : String}

theorem Cast.push {host : Session} {sessions : Array Session} (h : Cast host none kids sessions)
    (hids : ∀ k ∈ kids, k.id ≤ kids.length) (x : Session) :
      Cast host (some x) kids (sessions.push x) := by
  have hsize : sessions.size = kids.length + 1 := h.size
  have hold : ∀ id, id ≤ kids.length → (sessions.push x)[id]? = sessions[id]? := fun id hid => by
    rw [Array.getElem?_push, if_neg (by omega)]
  constructor
  case size => simp [hsize]
  case host => rw [hold 0 (Nat.zero_le _), h.host]
  case newcomer =>
    intro y hy
    cases hy
    rw [← hsize, Array.getElem?_push_size]
    rfl
  case own => exact fun k hk => by rw [hold k.id (hids k hk), h.own k hk]

theorem conducts_newSession (name : String) (script : Option String) (hnone : g.newcomer? = none) :
    (conductor o tr me).Does (Fate.Returns fun id g' => id = g.count + 1 ∧ ∃ mailbox, g' =
      { g with newcomer? := some (Session.new name script mailbox o.settings.escapeMode) })
      (newSession name script) g := by
  refine Vantage.does_step fun c s ⟨h, hended⟩ => ?_
  have hcast := h.cast
  rw [hnone] at hcast
  have hsettings : s.settings = o.settings := congrArg Backdrop.settings h.backdrop
  refine ⟨{ g with
      newcomer? := some (Session.new name script s.console.mailboxes.size o.settings.escapeMode) },
    Ensemble.moves { h with cast := ?_ } (.inl hended) rfl, hcast.size.trans (by rw [h.count]; rfl),
    _, rfl⟩
  rw [← hsettings]
  exact hcast.push (fun k hk => h.troupe.id_le hk) _

theorem conducts_enterRegistry (henrolled : g.enrolled = false) :
    Conducts o tr me (enterRegistry (g.count + 1)) g () { g with enrolled := true } :=
  conducts_update rfl fun kids out err s h => by
    refine ⟨{ h with roll := ?_ }, rfl⟩
    change Roll g.present true kids (s.registry ++ [g.count + 1])
    have hroll := h.roll
    rw [henrolled] at hroll
    constructor
    case nodup =>
      refine List.nodup_append.mpr ⟨hroll.nodup, List.nodup_singleton _, fun id hid id' hid' => ?_⟩
      rw [List.mem_singleton] at hid'
      subst hid'
      rintro rfl
      rcases hroll.others _ hid with hzero | ⟨hno, -⟩ | ⟨k, hk, hkid, -⟩
      · exact Nat.succ_ne_zero _ hzero
      · cases hno
      · have hle := h.troupe.id_le hk
        rw [hkid, h.count] at hle
        exact Nat.not_succ_le_self _ hle
    case host => exact fun hp => List.mem_append_left _ (hroll.host hp)
    case others =>
      intro id hid
      rcases List.mem_append.mp hid with hold | hnew
      · rcases hroll.others _ hold with hzero | ⟨hno, -⟩ | hkid
        · exact .inl hzero
        · cases hno
        · exact .inr (.inr hkid)
      · exact .inr (.inl ⟨rfl, by rw [h.count]; exact List.mem_singleton.mp hnew⟩)

theorem conducts_startConsole (hout : g.out.service.started = true)
    (herr : g.err.service.started = true)
    (hinput : o.input.started = true) : Conducts o tr me consolePlace.start g () g := by
  have hstart : ∀ {ρ : Type} {slot : StreamAt Shell ρ},
      (∀ kids out err s, Ensemble o g kids out err s → (slot.get s).started = true) →
      Conducts o tr me slot.start g () g := fun hslot =>
    conducts_update rfl fun kids out err s h => by
      rw [if_pos (hslot kids out err s h)]
      exact ⟨h, rfl⟩
  refine (hstart fun kids out err s h => h.out.started.trans hout).bind
    ((hstart fun kids out err s h => h.err.started.trans herr).bind
      (hstart fun kids out err s h => ?_))
  exact (congrArg (·.input.started) h.backdrop).trans hinput

theorem conducts_startThread (hx : g.newcomer? = some x)
    (hstarted : Started name turn.target file x)
    (hpreload : o.preload.scriptFor? Language.calculator.name = none)
    (hturn : scriptTurn? o.settings o.files name (g.count + 1) turn.target file = some turn)
    (hthreads : o.refusesThreads = false) (hcodes : g.codes = [])
    (hshares : g.shares? = some (shares + 1)) (hpresent : g.present = true) :
    Conducts o tr me (startThread (g.count + 1)) g true { g with
      count := g.count + 1
      newcomer? := none
      enrolled := false
      shares? := some shares
      codes := [(turn.target, turn.code)]
      out := g.out.print (turn.sayings.filterMap Saying.out?)
      err := g.err.print (turn.sayings.filterMap Saying.err?)
      gone := false } := by
  refine Vantage.comes_step fun c s ⟨h, hended⟩ => ?_
  have hrefuses : s.refusesThreads = false :=
    (congrArg Backdrop.refusesThreads h.backdrop).trans hthreads
  let k : Kid :=
    ⟨g.count + 1, s.threads.size, ⟨x, turn.work⟩, some (program (.session (g.count + 1) .entering))⟩
  rw [if_neg (by simp [hrefuses])]
  have hjoined := h.join (k := k) hcodes hx hshares hpresent rfl rfl hstarted.ordinary.disposed
    Turn.orderly_work Turn.drops_work Turn.leave_mem_work
  rw [Turn.codes_work, Turn.outs_work, Turn.errs_work] at hjoined
  have hlaunched : k.Launched o := ⟨rfl, recites_started hstarted hpreload hturn⟩
  refine ⟨⟨.inl hended, [k], rfl, List.forall_mem_singleton.mpr hlaunched, ?_⟩, rfl⟩
  exact { hjoined with }

structure Plain (o : Backdrop) : Prop where
  languages : o.languages = .builtins
  preload : ∃ dir, o.preload = .empty dir
  started : o.input.started = true
  unasked : o.input.queue = []
  threads : o.refusesThreads = false
  ends : o.endsProcess = true
  sequential : o.settings.batch.sequential = true

theorem Plain.scriptFor? (h : Plain o) : o.preload.scriptFor? Language.calculator.name = none := by
  obtain ⟨dir, hdir⟩ := h.preload
  rw [hdir]
  rfl

theorem Plain.lookup? (h : Plain o) :
    o.languages.lookup? (o.preload.resolveAlias Language.calculator.name) = some .calculator := by
  obtain ⟨dir, hdir⟩ := h.preload
  have hresolve : (Preload.empty dir).resolveAlias Language.calculator.name =
      Language.calculator.name := by
    simp [Preload.resolveAlias, Preload.follow, Preload.empty, Table.get?]
  rw [hdir, h.languages, hresolve]
  decide +kernel

structure Presides (name : String) (x : Session) : Prop where
  named : x.name = name
  language : x.language = some .calculator
  disposed : x.disposed = false
  exitCode : x.exitCode = none
  exitHook : x.exitHook = none
  compiling : x.compiling = none
  jobs : x.jobs = []
  tasks : x.tasks = []

/-- The host is about its batch, and counts for so many senders. So much will have been printed when
all has been said that is to be said. -/
structure Stage.InSession (name : String) (outs errs : List String) (shares? : Option Nat)
    (g : Stage) :
    Prop where
  host : Presides name g.host
  newcomer : g.newcomer? = none
  enrolled : g.enrolled = false
  shares : g.shares? = shares?
  present : g.present = true
  out : g.out = .page [] outs 0
  err : g.err = .page [] errs 0

def Stage.launch (g : Stage) (turn : Turn) (shares : Nat) : Stage :=
  { g with
    count := g.count + 1
    newcomer? := none
    enrolled := false
    shares? := some shares
    codes := [(turn.target, turn.code)]
    out := g.out.print (turn.sayings.filterMap Saying.out?)
    err := g.err.print (turn.sayings.filterMap Saying.err?)
    gone := false }

structure Fresh (name label : String) (file : Nat) (x : Session) : Prop where
  ordinary : Ordinary label x
  named : x.name = name
  language : x.language = none
  main : x.main = some (.script (.file file) label .exit)

theorem conducts_startWith (ho : Plain o) (hx : g.newcomer? = some x)
    (hfresh : Fresh name turn.target file x)
    (hturn : scriptTurn? o.settings o.files name (g.count + 1) turn.target file = some turn)
    (hcodes : g.codes = []) (hshares : g.shares? = some (shares + 1)) (hpresent : g.present = true)
    (henrolled : g.enrolled = false) (hout : g.out.service.started = true)
    (herr : g.err.service.started = true) :
    Conducts o tr me (startWith (g.count + 1) Language.calculator.name false).run g (.ok ())
      (g.launch turn shares) := by
  have hlanguage : Conducts o tr me (languageFor Language.calculator.name) g (some .calculator) g :=
    conducts_look fun _ _ _ s h => by
      rw [← ho.lookup?, ← h.backdrop]
      rfl
  have hset : Tells o (g.count + 1) me (setLanguage (g.count + 1) .calculator).run ⟨x, []⟩ (.ok ())
      ⟨{ x with language := some .calculator }, []⟩ :=
    tells_tryUpdate (by simp only [Session.languageName?, hfresh.language]; rfl) (.inl rfl)
  have hpush : Tells o (g.count + 1) me (pushBoot (g.count + 1) .calculator)
      ⟨{ x with language := some .calculator }, []⟩ ()
      ⟨{ x with language := some .calculator, tasks := .boot .calculator :: x.tasks }, []⟩ :=
    tells_updateSession (.inl rfl)
  have hdrain : Tells o (g.count + 1) me (drainFocus (g.count + 1))
      ⟨{ x with language := some .calculator, tasks := .boot .calculator :: x.tasks }, []⟩ ()
      ⟨{ x with
          language := some .calculator
          tasks := .boot .calculator :: x.tasks
          focus := x.focus.drain.2 }, []⟩ :=
    tells_updateSession (.inl rfl)
  have hensure : Conducts o tr me (ensureLive (g.count + 1)).run g (.ok ()) g := by
    have h : Conducts o tr me (ensureLive (g.count + 1)).run g
        (.ok ()) { g with newcomer? := some x } :=
      conducts_newcomer hx (tells_ensureLive hfresh.ordinary.disposed)
    rwa [← hx] at h
  refine hensure.run_bind (hlanguage.lift_bind ?_)
  refine (conducts_newcomer hx hset).run_bind ?_
  refine Vantage.Comes.lift_bind (conducts_newcomer rfl hpush) ?_
  refine Vantage.Comes.lift_bind (conducts_enterRegistry henrolled) ?_
  refine Vantage.Comes.lift_bind (conducts_newcomer rfl hdrain) ?_
  refine Vantage.Comes.lift_bind (conducts_startConsole hout herr ho.started) ?_
  refine Vantage.Comes.lift_bind
    (conducts_startThread rfl ?_ ho.scriptFor? hturn ho.threads hcodes hshares
    hpresent) ?_
  · exact {
      ordinary := { hfresh.ordinary with tasks := rfl }
      named := hfresh.named
      tasks := congrArg (Task.boot .calculator :: ·) hfresh.ordinary.tasks
      main := hfresh.main }
  · exact Vantage.comes_pure _

theorem tells_setMain (main : MainTask) (hlive : x.disposed = false) :
    Tells o id me (setMain id main).run ⟨x, []⟩ (.ok ()) ⟨{ x with main := some main }, []⟩ :=
  tells_tryUpdate (if_neg (by simp [hlive])) (.inl rfl)

theorem tells_setExitHook (hook : ExitHook) (hlive : x.disposed = false) (hopen : x.exitCode = none)
    (hnone : x.exitHook = none) :
    Tells o id me (setExitHook id hook).run ⟨x, []⟩ (.ok ())
      ⟨{ x with exitHook := some hook }, []⟩ := by
  have hput : Tells o id me (putExitHook id hook).run ⟨x, []⟩ (.ok ())
      ⟨{ x with exitHook := some hook }, []⟩ := by
    refine tells_tryUpdate ?_ (.inl rfl)
    rw [if_neg (by simp [hlive, hopen]), if_neg (by simp [hnone])]
  exact hput.bind (Vantage.comes_pure _)

theorem conducts_childLanguage (ho : Plain o) (hlanguage : g.host.language = some .calculator)
    (options : ForkOptions) (hnone : options.language = none) :
    Conducts o tr me (childLanguage 0 options) g Language.calculator.name g := by
  refine conducts_look fun kids out err s h => ?_
  have hhost : (s.session 0).languageName? = some Language.calculator.name := by
    rw [show s.session 0 = g.host from h.cast.host, Session.languageName?, hlanguage]
    rfl
  have hscript : ∀ path, s.languages.forScript? path = none ∨
      s.languages.forScript? path = some .calculator := by
    intro path
    rw [show s.languages = .builtins from (congrArg Backdrop.languages h.backdrop).trans
      ho.languages]
    cases hfound : LanguageRegistry.builtins.forScript? path with
    | none => exact .inl rfl
    | some language =>
      obtain ⟨extension, -, hfind⟩ := Option.bind_eq_some_iff.mp hfound
      exact .inr (congrArg some (List.mem_singleton.mp (List.mem_of_find?_eq_some hfind)))
  rw [hnone, hhost]
  cases options.script with
  | none => rfl
  | some path =>
    rcases hscript path with hpath | hpath
    · simp [hpath]
    · simp [hpath]

theorem conducts_openScript : Conducts o tr me (openScript target) g (scriptAt? o.files target) g :=
  conducts_look fun _ _ _ s h => by
    rw [← h.backdrop]
    rfl

variable {outs errs : List String}

theorem conducts_fork (ho : Plain o) (h : g.InSession name outs errs (some (shares + 1)))
    (hcodes : g.codes = []) (hscript : scriptAt? o.files turn.target = some file)
    (hturn : scriptTurn? o.settings o.files name (g.count + 1) turn.target file = some turn) :
    Conducts o tr me (fork 0 (targetOptions turn.target true (.report channel turn.target))).run g
      (.ok (some (g.count + 1))) (g.launch turn shares) := by
  have hmain : Conducts o tr me
    (childMain (targetOptions turn.target true (.report channel turn.target))) g
      (some (.script (.file file) turn.target .exit)) g :=
    conducts_openScript.bind (by rw [hscript]; exact Vantage.comes_pure _)
  refine conducts_getSession.lift_bind ?_
  rw [if_neg (by simp [h.host.disposed])]
  refine hmain.lift_bind ?_
  let fresh : Nat → Session := fun mailbox =>
    { Session.new name (some turn.target) mailbox o.settings.escapeMode with
      main := some (.script (.file file) turn.target .exit)
      exitHook := some (.report channel turn.target) }
  have hstart : ∀ mailbox, Conducts o tr me
      (caught (startWith (g.count + 1) Language.calculator.name false)).run
      { g with newcomer? := some (fresh mailbox) } (.ok (.ok ())) (g.launch turn shares) :=
        fun mailbox => by
    refine Vantage.Comes.bind
      (conducts_startWith ho rfl ?_ hturn hcodes h.shares h.present h.enrolled ?_ ?_)
      (Vantage.comes_pure _)
    · exact ⟨⟨rfl, rfl, rfl, rfl, rfl, rfl, rfl⟩, rfl, rfl, rfl⟩
    · rw [h.out]
      rfl
    · rw [h.err]
      rfl
  refine Vantage.Does.bind (R := fun r g' => r = .ok (g.count + 1) ∧
    g' = g.launch turn shares) ?_ ?_
  · refine (conducts_childLanguage ho h.host.language _ rfl).lift_bind
      (conducts_getSession.lift_bind ?_)
    refine Vantage.Does.bind (R := fun r g' => r = .ok (g.count + 1) ∧ ∃ mailbox, g' =
      { g with newcomer? := some (Session.new name (some turn.target) mailbox o.settings.escapeMode)
        }) ?_ ?_
    · rw [h.host.named]
      refine (conducts_newSession name (some turn.target) h.newcomer).bind ?_
      rintro id g' ⟨rfl, hg⟩
      exact Vantage.does_pure ⟨rfl, hg⟩
    · rintro r g' ⟨rfl, mailbox, rfl⟩
      refine (conducts_newcomer rfl (tells_setMain _ rfl)).run_bind ?_
      refine (conducts_newcomer rfl (tells_setExitHook _ rfl rfl rfl)).run_bind ?_
      exact (hstart mailbox).run_bind (Vantage.comes_pure _)
  · rintro r g' ⟨rfl, rfl⟩
    exact Vantage.comes_pure _

theorem conducts_forkMissing (h : g.InSession name outs errs (some (shares + 1)))
    (hcodes : g.codes = []) (hscript : scriptAt? o.files target = none) :
    Conducts o tr me (fork 0 (targetOptions target true (.report channel target))).run g (.ok none)
      { g with
        shares? := some shares
        codes := [(target, ReservedCode.noFile.code)]
        err := g.err.print [faultText o.settings (invalidScript target)] } := by
  have hmain : Conducts o tr me (childMain (targetOptions target true (.report channel target))) g
      none g :=
    conducts_openScript.bind (by rw [hscript]; exact Vantage.comes_pure _)
  refine conducts_getSession.lift_bind ?_
  rw [if_neg (by simp [h.host.disposed])]
  refine hmain.lift_bind (Vantage.Comes.lift_bind (conducts_reportError _ hcodes) ?_)
  exact Vantage.Comes.lift_bind (conducts_runHook _ _ h.shares hcodes) (Vantage.comes_pure _)

theorem conducts_isScriptTarget (ho : Plain o) :
    Conducts o tr me (isScriptTarget target) g (isScript o.files target) g :=
  conducts_look fun _ _ _ s h => by
    have hlanguages : s.languages = .builtins :=
      (congrArg Backdrop.languages h.backdrop).trans ho.languages
    have hfiles : s.world.files = o.files := congrArg Backdrop.files h.backdrop
    rw [hlanguages, hfiles]
    rfl

/-! ## The end -/

theorem conducts_leaveRegistry (hgone : g.gone = true) (hpresent : g.present = true)
    (henrolled : g.enrolled = false) :
    Conducts o tr me (leaveRegistry 0) g .last { g with present := false } :=
  conducts_step rfl fun kids out err s h => by
    have hzero : ∀ id ∈ s.registry, id = 0 := fun id hid => by
      rcases h.roll.others id hid with hzero | ⟨hno, -⟩ | ⟨k, hk, -, hleave⟩
      · exact hzero
      · cases henrolled.symm.trans hno
      · rw [h.deeds_eq_nil hgone k hk] at hleave
        exact absurd hleave List.not_mem_nil
    have hregistry : s.registry = [0] := by
      have hreplicate : s.registry = List.replicate s.registry.length 0 :=
        List.eq_replicate_iff.mpr ⟨rfl, hzero⟩
      have hnodup := h.roll.nodup
      rw [hreplicate, List.nodup_replicate] at hnodup
      have hpos : 0 < s.registry.length := List.length_pos_of_mem (h.roll.host hpresent)
      rw [hreplicate, show s.registry.length = 1 by omega]
      rfl
    rw [hregistry]
    refine ⟨{ h with roll := ?_, stays := .inr hgone }, rfl, rfl⟩
    exact ⟨List.nodup_nil, nofun, nofun⟩

/-! ## All is written -/

def Others.held (c : Others) : Scribe → Option (Queued String)
  | .out => c.out
  | .err => c.err

def text? : Scribe → Deed → Option String
  | .out => Deed.out?
  | .err => Deed.err?

namespace Stage

def sheet (g : Stage) : Scribe → Sheet
  | .out => g.out
  | .err => g.err

def withSheet (g : Stage) (y : Sheet) : Scribe → Stage
  | .out => { g with out := y }
  | .err => { g with err := y }

end Stage

variable {k : Scribe} {texts : List String}

theorem Ensemble.ink (h : Ensemble o g c.kids c.out c.err s) (k : Scribe) :
    Ink (text? k) (g.sheet k) c.kids (c.held k) (k.sheet s.sheets) := by
  cases k with
  | out => exact h.out
  | err => exact h.err

theorem Ensemble.withSheet {z y : Sheet} (h : Ensemble o g c.kids c.out c.err s)
    (hink : Ink (text? k) y c.kids (c.held k) z) :
    Ensemble o (g.withSheet y k) c.kids c.out c.err (s.writing (k.put z s.sheets)) := by
  cases k with
  | out => exact { h with out := hink }
  | err => exact { h with err := hink }

theorem awaited_text_eq_nil {kids : List Kid} (h : ∀ k ∈ kids, Quiet k.recital.deeds) :
    awaited (text? k) kids = [] := by
  cases k with
  | out => exact awaited_eq_nil h rfl rfl
  | err => exact awaited_eq_nil h rfl rfl

theorem ended_withSheet {y : Sheet} : (g.withSheet y k).ended = g.ended := by
  cases k <;> rfl

theorem codes_withSheet {y : Sheet} : (g.withSheet y k).codes = g.codes := by
  cases k <;> rfl

theorem withSheet_withSheet {y z : Sheet} : (g.withSheet y k).withSheet z k = g.withSheet z k := by
  cases k <;> rfl

theorem sheet_withSheet {y : Sheet} : (g.withSheet y k).sheet k = y := by
  cases k <;> rfl

theorem conducts_startStream (hstarted : (g.sheet k).service.started = true) :
    Conducts o tr me k.place.start g () g :=
  Vantage.comes_update fun c s hs => by
    have hin : (k.place.get s).started = true := by
      have hink := (hs.1.ink k).started.trans hstarted
      cases k <;> exact hink
    rw [if_pos hin]
    exact hs.1.moves (.inl hs.2) rfl

theorem conducts_mark (hpage : g.sheet k = .page [] texts 0) (hcodes : g.codes = []) :
    Conducts o tr me
      (step fun s => ((k.place.get s).submitMark.1, k.place.set (k.place.get s).submitMark.2 s)) g 0
      (g.withSheet (Sheet.page [] texts 0).mark k) :=
  Vantage.comes_step fun c s hs => by
    obtain ⟨hfifo, htrails⟩ := (hs.1.ink k).trails (awaited_text_eq_nil (hs.1.quiet hcodes))
    rw [hpage] at hfifo htrails
    have hens : Ensemble o (g.withSheet (Sheet.page [] texts 0).mark k) c.kids c.out c.err
        (s.writing (k.put (k.sheet s.sheets).mark s.sheets)) :=
      hs.1.withSheet
        (Ink.of_trails rfl (htrails.mark hfifo) (awaited_text_eq_nil (hs.1.quiet hcodes)))
    have hset : k.place.set (k.place.get s).submitMark.2 s =
        s.writing (k.put (k.sheet s.sheets).mark s.sheets) := by
      cases k <;> rfl
    have hmark : (k.place.get s).submitMark.1 = 0 := by
      have hmarks : (k.sheet s.sheets).service.marks = 0 := htrails.marks
      cases k <;> exact hmarks
    rw [hset]
    refine ⟨hens.moves (.inl (ended_withSheet.trans hs.2)) ?_, hmark⟩
    cases k <;> rfl

theorem conducts_reached (hpage : g.sheet k = (Sheet.page [] texts 0).mark)
    (hcodes : g.codes = []) :
    Conducts o tr me (await fun s => if (k.place.get s).hasReached 0 then some ((), s) else none) g
      ()
      (g.withSheet (.page texts [] 1) k) := by
  refine Vantage.does_await fun c s hs => ?_
  have hnil := awaited_text_eq_nil (k := k) (hs.1.quiet hcodes)
  obtain ⟨-, htrails⟩ := (hs.1.ink k).trails hnil
  rw [hpage] at htrails
  have hreached : (k.place.get s).hasReached 0 = true ↔ 0 ∈ (k.sheet s.sheets).service.reached := by
    cases k <;> exact List.contains_iff_mem
  refine ⟨fun hready => ?_, fun v s' hact => ?_⟩
  · obtain ⟨-, hout, herr, houtQueue, herrQueue, -⟩ := hready
    have hheld : c.held k = none := by cases k with | out => exact hout | err => exact herr
    have hqueue : (k.sheet s.sheets).service.queue = [] := by
      cases k with
      | out => exact houtQueue
      | err => exact herrQueue
    rw [hheld] at htrails
    have hmark : (k.place.get s).hasReached 0 = true := by
      rw [hreached, htrails.eq_settled hqueue, Sheet.settled_mark]
      simp [Sheet.page]
    simp [hmark]
  · split at hact
    · rename_i hmark
      cases hact
      obtain ⟨hheld, hsheet⟩ := htrails.eq_page (hreached.mp hmark)
      have hens : Ensemble o (g.withSheet (.page texts [] 1) k) c.kids c.out c.err
          (s.writing (k.put (k.sheet s.sheets) s.sheets)) := by
        refine hs.1.withSheet (Ink.of_trails rfl ?_ hnil)
        rw [hheld, hsheet]
        exact Sheet.trails_refl
      have hsame : s.writing (k.put (k.sheet s.sheets) s.sheets) = s := by cases k <;> rfl
      rw [hsame] at hens
      exact ⟨_, hens.moves (.inl (ended_withSheet.trans hs.2)) rfl, rfl, rfl⟩
    · cases hact

theorem conducts_sync (hpage : g.sheet k = .page [] texts 0) (hcodes : g.codes = []) :
    Conducts o tr me k.place.sync g () (g.withSheet (.page texts [] 1) k) := by
  refine (conducts_startStream (by rw [hpage]; rfl)).bind ((conducts_mark hpage hcodes).bind ?_)
  have hreached : Conducts o tr me
      (await fun s => if (k.place.get s).hasReached 0 then some ((), s) else none)
      (g.withSheet (Sheet.page [] texts 0).mark k) ()
      ((g.withSheet (Sheet.page [] texts 0).mark k).withSheet (.page texts [] 1) k) :=
    conducts_reached sheet_withSheet (codes_withSheet.trans hcodes)
  rwa [withSheet_withSheet] at hreached

theorem does_terminate (ho : Plain o) {R : Unit → Stage → Prop} (hout : g.out = .page [] tr.out 0)
    (herr : g.err = .page [] tr.err 0) (hcodes : g.codes = [])
    (hexit : g.host.exitCode = some tr.code) :
    (conductor o tr me).Does (Fate.Returns R) (terminate tr.code) g := by
  let g₁ := (g.withSheet (.page tr.out [] 1) .out).withSheet (.page tr.err [] 1) .err
  have hsync : Conducts o tr me consolePlace.sync g () g₁ :=
    Vantage.Comes.bind (conducts_sync (k := .out) hout hcodes)
      (conducts_sync (k := .err) herr hcodes)
  have hends : Conducts o tr me (Action.read (·.endsProcess)) g₁ true g₁ :=
    conducts_look fun kids out err s h => (congrArg Backdrop.endsProcess h.backdrop).trans ho.ends
  refine hsync.bind (hends.bind ?_)
  rw [if_pos rfl]
  refine Vantage.Does.bind (R := fun _ g => g.ended = some tr.code)
    (Vantage.does_step fun c s hs => ?_) ?_
  · refine ⟨{ g₁ with ended := some tr.code }, ?_, rfl⟩
    exact Ensemble.moves { hs.1 with ended := rfl } (.inr ⟨rfl, rfl, rfl, hexit⟩) rfl
  · -- Nobody takes a step any more.
    intro _ g' hended c s hs
    exact absurd (hs.2.symm.trans hended) (Option.some_ne_none _).symm

theorem does_finish (ho : Plain o) {R : Except ShellError Unit → Stage → Prop} {code : Int}
    {shares? : Option Nat} (h : g.InSession name outs errs shares?) (hcodes : g.codes = [])
    (hgone : g.gone = true) (hout : tr.out = outs) (herr : tr.err = errs) (hcode : tr.code = code) :
    (conductor o tr me).Does (Fate.Returns R) (finish 0 code true true).run g := by
  subst hout herr hcode
  let coded : Session := { g.host with exitCode := some tr.code, exitHook := none }
  have hrecord : Conducts o tr me (recordCode 0 tr.code).run g
      (.ok none) { g with host := coded } := by
    have hrecord : Conducts o tr me (recordCode 0 tr.code).run g (.ok g.host.exitHook)
        { g with host := coded } :=
      conducts_host (tells_recordCode _ h.host.disposed h.host.exitCode)
    rwa [h.host.exitHook] at hrecord
  have hlose : Conducts o tr me (loseFocus 0) { g with host := coded } g.host.current
      { g with host := { coded with current := false } } :=
    conducts_host tells_loseFocus
  have hleave : Conducts o tr me (leave 0 tr.code none true) { g with host := coded } true
      { g with host := { coded with current := false }, present := false } := by
    refine hlose.bind (Vantage.Comes.bind (conducts_leaveRegistry hgone h.present h.enrolled) ?_)
    exact Vantage.comes_pure true
  refine hrecord.run_bind ?_
  rw [if_pos rfl]
  refine hleave.lift_bind (Vantage.Comes.lift_bind (conducts_host (tells_dispose ?_ rfl ?_ ?_)) ?_)
  · exact h.host.compiling
  · exact h.host.jobs
  · exact h.host.tasks
  · rw [if_pos rfl]
    exact Vantage.Does.bind (R := fun _ _ => False) (does_terminate ho h.out h.err hcodes rfl)
      fun _ _ hfalse => hfalse.elim

end SessionShell.Sequence
