import Mathlib.Logic.Relation
import SessionShell.Proofs.Focus.Exclusive

/-!
A child is registered before its permit is taken away. In between it can be found by others, and it
still has the permit it was made with.

Whoever hands the focus to the child then gives it another permit, and the child is left without any
when it is drained. Nobody is able to read after that: the child is in focus and has no permit, and
no other session has one either. In any other case the permits are accounted for again.
-/

namespace SessionShell

open Action

namespace Seating

variable {v w : Seating} {prompts prompts' : List SessionId} {id child target : SessionId}

/-- What an operation of a session does to the seating, and to the prompts that have a permit. -/
inductive Move (v : Seating) (prompts : List SessionId) (id : SessionId) :
    Seating → List SessionId → Prop where
  | stay : Move v prompts id v prompts
  | pass {target : SessionId} (hin : id ∈ v.registry) (hp : 0 < (v.seat id).permits)
      (htarget : target ∈ v.registry) : Move v prompts id ((v.yield id).grant target) prompts
  | depart : Move v prompts id (v.depart id true) prompts
  | ask (hin : id ∈ v.registry) (hp : 0 < (v.seat id).permits) :
      Move v prompts id (v.modify id .take) (id :: prompts)
  | answer (hin : id ∈ prompts) : Move v prompts id (v.modify id .give) (prompts.erase id)

theorem Move.accounted (h : v.Move prompts id w prompts') (hv : v.Accounted prompts) :
    w.Accounted prompts' := by
  cases h with
  | stay => exact hv
  | pass hin hp htarget =>
    have hcurrent := (hv.current_of_permit hin hp).1
    exact accounted_grant (accounted_yield hv hin hp) (vacant_yield hv hcurrent) htarget
  | depart => exact accounted_depart hv true
  | ask hin hp => exact accounted_take hv hin hp
  | answer hin => exact accounted_give hv hin

theorem Move.settled (h : v.Move prompts id w prompts') (hv : v.Accounted prompts)
    (hs : v.Settled) : w.Settled := by
  cases h with
  | stay => exact hs
  | pass hin hp htarget => exact fun _ => held_grant htarget
  | depart => exact settled_depart hv hs
  | ask hin hp => exact settled_modify (fun hcurrent => hcurrent) hs
  | answer hin => exact settled_modify (fun hcurrent => hcurrent) hs

theorem Move.vacant (h : v.Move prompts id w prompts') (hv : v.Accounted prompts)
    (hvacant : v.Vacant) : w.Vacant := by
  cases h with
  | stay => exact hvacant
  | pass hin hp htarget =>
    have hcurrent := (hv.current_of_permit hin hp).1
    rw [hvacant id] at hcurrent
    cases hcurrent
  | depart => exact vacant_depart hvacant true
  | ask hin hp => exact hvacant.modify (hvacant id)
  | answer hin => exact hvacant.modify (hvacant id)

/-! ## A session with a permit too many -/

theorem take_grant (hp : 0 < (v.seat child).permits) :
    (v.grant target).modify child .take = (v.modify child .take).grant target := by
  by_cases hne : target = child
  · subst hne
    have hseat : ((v.seat target).setCurrent true).give.take =
        ((v.seat target).take.setCurrent true).give := by
      simp [Seat.setCurrent, Seat.give, Seat.take, Nat.sub_add_cancel hp]
    rw [grant, grant, modify_modify, modify_modify]
    exact congrArg (fun c => { v with seat := Function.update v.seat target c }) hseat
  · exact modify_comm _ _ (Ne.symm hne)

theorem permits_grant (hp : 0 < (v.seat child).permits) :
    0 < ((v.grant target).seat child).permits := by
  by_cases hne : child = target
  · subst hne
    simp [grant, Seat.give]
  · rwa [grant, seat_modify_of_ne _ hne]

theorem take_depart (hne : id ≠ child) (hp : 0 < (v.seat child).permits) :
    (v.depart id true).modify child .take = (v.modify child .take).depart id true ∧
      0 < ((v.depart id true).seat child).permits := by
  have hcurrent : ((v.modify child .take).seat id).current = (v.seat id).current := by
    rw [seat_modify_of_ne _ hne]
  have hrest : (v.remove id fun c => c.exit.dispose).modify child .take =
      (v.modify child .take).remove id fun c => c.exit.dispose :=
    congrArg (fun w : Seating => { w with registry := v.registry.erase id })
      (modify_comm (v := v) (fun c => c.exit.dispose) Seat.take hne.symm)
  have hpermits : 0 < ((v.remove id fun c => c.exit.dispose).seat child).permits := by
    rwa [seat_remove_of_ne _ hne.symm]
  simp only [depart, hcurrent, registry_modify]
  split
  · cases v.registry.heir? id with
    | none => exact ⟨hrest, hpermits⟩
    | some heir => exact ⟨by rw [take_grant hpermits, hrest], permits_grant hpermits⟩
  · exact ⟨hrest, hpermits⟩

theorem Move.take (h : v.Move prompts id w prompts') (hne : id ≠ child)
    (hp : 0 < (v.seat child).permits) :
    (v.modify child .take).Move prompts id (w.modify child .take) prompts' ∧
      0 < (w.seat child).permits := by
  have hseat : (v.modify child .take).seat id = v.seat id := seat_modify_of_ne _ hne
  cases h with
  | stay => exact ⟨.stay, hp⟩
  | @pass target hin hpermit htarget =>
    have hyield : 0 < ((v.yield id).seat child).permits := by
      rwa [yield, seat_modify_of_ne _ hne.symm]
    refine ⟨?_, permits_grant hyield⟩
    rw [take_grant hyield, yield, modify_comm _ _ hne.symm]
    exact .pass hin (by rwa [hseat]) htarget
  | depart =>
    obtain ⟨heq, hpermits⟩ := take_depart hne hp
    exact ⟨heq ▸ .depart, hpermits⟩
  | ask hin hpermit =>
    refine ⟨?_, by rwa [seat_modify_of_ne _ hne.symm]⟩
    rw [modify_comm _ _ hne.symm]
    exact .ask hin (by rwa [hseat])
  | answer hin =>
    refine ⟨?_, by rwa [seat_modify_of_ne _ hne.symm]⟩
    rw [modify_comm _ _ hne.symm]
    exact .answer hin

theorem Move.mem_registry (h : v.Move prompts id w prompts') (hne : id ≠ child)
    (hin : child ∈ v.registry) : child ∈ w.registry := by
  cases h with
  | stay => exact hin
  | pass => exact hin
  | depart =>
    rw [registry_depart]
    exact (List.mem_erase_of_ne hne.symm).mpr hin
  | ask => exact hin
  | answer => exact hin

theorem Move.not_mem_prompts (h : v.Move prompts id w prompts') (hne : id ≠ child)
    (hout : child ∉ prompts) : child ∉ prompts' := by
  cases h with
  | stay => exact hout
  | pass => exact hout
  | depart => exact hout
  | ask => simp [hne.symm, hout]
  | answer => exact fun hin => hout (List.mem_of_mem_erase hin)

structure Undrained (v : Seating) (child : SessionId) (prompts : List SessionId) : Prop where
  registered : child ∈ v.registry
  permit : 0 < (v.seat child).permits
  unasked : child ∉ prompts
  rest : (v.modify child .take).Accounted prompts

theorem Undrained.move (h : v.Undrained child prompts) (hmove : v.Move prompts id w prompts')
    (hne : id ≠ child) : w.Undrained child prompts' := by
  obtain ⟨htake, hp⟩ := hmove.take hne h.permit
  exact ⟨hmove.mem_registry hne h.registered, hp, hmove.not_mem_prompts hne h.unasked,
    htake.accounted h.rest⟩

theorem undrained_register (h : v.Accounted prompts) (hid : child < v.count)
    (hs : (v.seat child).started = false) (hd : (v.seat child).disposed = false) :
    ({ v.modify child .start with registry := v.registry ++ [child] } : Seating).Undrained
        child prompts ∧
      ({ v.modify child .start with registry := v.registry ++ [child] } : Seating).modify
        child .take = v.join child := by
  have hout := h.not_mem_of_not_started hs
  obtain ⟨hp, ha, -⟩ := (h.seats child).fresh hout hs hd
  have hseat : (v.seat child).start.take = (v.seat child).start.drain := by
    simp [Seat.start, Seat.take, Seat.drain, hp]
  have hjoin : ({ v.modify child .start with registry := v.registry ++ [child] } : Seating).modify
      child .take = v.join child := by
    simp [join, modify, hseat]
  refine ⟨⟨List.mem_append_right _ (List.mem_singleton_self child), ?_, ?_, ?_⟩, hjoin⟩
  · simp [Seat.start, hp]
  · exact List.count_eq_zero.mp ha
  · rw [hjoin]
    exact accounted_join h hid hs hd

/-- When a child is drained all is accounted for, if it is not in focus. If it is, nobody has a
permit any more. -/
theorem Undrained.drain (h : v.Undrained child prompts) :
    ((v.seat child).current = false → v.modify child .drain = v.modify child .take) ∧
    ((v.seat child).current = true → ∀ id ∈ v.registry,
      ((v.modify child .drain).seat id).permits = 0 ∧ id ∉ prompts) := by
  have hcount : prompts.count child = 0 := List.count_eq_zero.mpr h.unasked
  have htaken : ((v.modify child .take).seat child).permits = (v.seat child).permits - 1 := by
    simp [Seat.take]
  have hflag : ((v.modify child .take).seat child).current = (v.seat child).current := by
    simp [Seat.take]
  refine ⟨fun hcurrent => ?_, fun hcurrent id hin => ?_⟩
  · have hempty := (h.rest.empty_of_not_current h.registered (hflag.trans hcurrent)).1
    have hseat : (v.seat child).drain = (v.seat child).take := by
      rw [htaken] at hempty
      simp [Seat.drain, Seat.take, hempty]
    simp [modify, hseat]
  · by_cases hid : id = child
    · subst hid
      exact ⟨by simp [Seat.drain], h.unasked⟩
    · have haway := h.rest.not_current_of_ne (hflag.trans hcurrent) hid
      obtain ⟨hp, ha⟩ := h.rest.empty_of_not_current hin haway
      rw [seat_modify_of_ne _ hid] at hp ⊢
      exact ⟨hp, List.count_eq_zero.mp ha⟩

end Seating

/-! ## Registering and draining -/

namespace Shell

variable {v : Seating} {prompts : List SessionId} {me : ThreadId} {id child : SessionId}
  {query : String}

def register (id : SessionId) (query : String) : Checked Unit := do
  ensureLive id
  match ← languageFor query with
  | none => throw (.unknownLanguage query)
  | some language =>
    setLanguage id language
    pushBoot id language
    enterRegistry id

/-- The rest of a start that does not take the focus. -/
def settleIn (id : SessionId) : Checked Unit := do
  drainFocus id
  consolePlace.start
  let started ← startThread id
  unless started do
    discard (leaveRegistry id)
    dispose id
    throw threadRefused

theorem startWith_eq_bind :
    startWith id query false = (register id query >>= fun _ => settleIn id) := by
  simp only [startWith, register, settleIn, bind_assoc]
  refine congrArg (ensureLive id >>= ·) (funext fun _ => ?_)
  refine congrArg ((liftM (languageFor query) : Checked _) >>= ·) (funext fun language? => ?_)
  cases language? with
  | none => rfl
  | some language => simp only [bind_assoc]; rfl

theorem yields_register (hid : id < v.count) :
    Yields seating me (register id query).run v fun r w =>
      (∃ e, r = .error e) ∨ (v.seat id).started = false ∧ (v.seat id).disposed = false ∧
        w = { v.modify id .start with registry := v.registry ++ [id] } := by
  refine Yields.run_bind (yields_ensureLive hid) ?_ fun e w h => .inl ⟨e, rfl⟩
  rintro _ w ⟨rfl, hlive, -⟩
  refine Yields.lift_bind (P := fun _ y => y = w) (yields_read fun _ _ => rfl) ?_
  rintro language? _ rfl
  cases language? with
  | none => exact always_pure _ (.inl ⟨_, rfl⟩)
  | some language =>
    refine Yields.run_bind (yields_setLanguage hid language) ?_ fun e w h => .inl ⟨e, rfl⟩
    rintro _ u (⟨-, _, _, he⟩ | ⟨-, hfresh, rfl⟩)
    · cases he
    refine Yields.lift_bind (yields_update_of_outline fun _ => outline_modifySession fun _ => rfl)
      ?_
    rintro _ _ rfl
    refine Yields.lift yields_enterRegistry ?_
    rintro _ _ rfl
    exact .inr ⟨hfresh, hlive rfl, rfl⟩

theorem always_settleIn (hid : id < v.count) :
    Always seating me (settleIn id).run v fun fate w =>
      fate = .returned (.ok ()) → w = v.modify id .drain := by
  refine Yields.lift_bind (yields_drainFocus hid) ?_
  rintro _ _ rfl
  refine Always.mono (always_launch (P := (· = v.modify id .drain)) (by exact hid) rfl) ?_
  rintro fate w (⟨-, hw⟩ | ⟨rfl, -⟩) hfate
  · exact hw
  · cases hfate

end Shell

namespace Floor

open Shell

variable {st st' : Floor} {me : ThreadId} {id child : SessionId} {query : String} {s s' : Shell}

/-- An operation of another session than the child. -/
inductive Beside (child : SessionId) (st : Floor) : Floor → Prop where
  | jumpTo {me : ThreadId} {id : SessionId} {s' : Shell} {index : Nat}
      {fate : Fate (Except ShellError Unit)} (hne : id ≠ child) (hid : st.Started id)
      (h : Runs seating me (jumpTo id index).run st.shell fate s') :
      Beside child st { st with shell := s' }
  | exit {me : ThreadId} {id : SessionId} {s' : Shell} {code : Int}
      {fate : Fate (Except ShellError Unit)} (hne : id ≠ child) (hid : st.Known id)
      (h : Runs seating me (exit id code).run st.shell fate s') :
      Beside child st { st with shell := s' }
  | finish {me : ThreadId} {id : SessionId} {s' : Shell} {code : Int}
      {fate : Fate (Except ShellError Unit)} (hne : id ≠ child) (hid : st.Known id)
      (h : Runs seating me (finish id code true true).run st.shell fate s') :
      Beside child st { st with shell := s' }
  | beginPrompt {me : ThreadId} {id : SessionId} {s' : Shell} (hne : id ≠ child)
      (hid : st.Started id)
      (h : Runs seating me (beginPrompt id).run st.shell (.returned (.ok ())) s') :
      Beside child st { st with shell := s', prompts := id :: st.prompts }
  | finishPrompt {me : ThreadId} {id : SessionId} {s' : Shell} {text : String}
      {r : Except ShellError ReadOutcome} (hne : id ≠ child) (hid : st.Known id)
      (hin : id ∈ st.prompts)
      (h : Runs seating me (finishPrompt id text).run st.shell (.returned r) s') :
      Beside child st { st with shell := s', prompts := st.prompts.erase id }

structure Undrained (st : Floor) (child : SessionId) : Prop where
  seats : st.shell.seating.Undrained child st.prompts
  settled : st.lost = false → (st.shell.seating.modify child .take).Settled
  vacant : st.lost = true → (st.shell.seating.modify child .take).Vacant

theorem Undrained.known (h : st.Undrained child) (hin : id ∈ st.shell.registry) : st.Known id :=
  h.seats.rest.known id hin

theorem Undrained.mem_of_started (h : st.Undrained child) (hne : id ≠ child) (hid : st.Started id)
    (hd : (st.shell.seating.seat id).disposed = false) : id ∈ st.shell.registry := by
  have hseat : (st.shell.seating.modify child .take).seat id = st.shell.seating.seat id :=
    Seating.seat_modify_of_ne _ hne
  exact h.seats.rest.mem_of_started (by rw [hseat]; exact hid.started_seat)
    (by rw [hseat]; exact hd)

theorem Undrained.current_of_permit (h : st.Undrained child) (hne : id ≠ child)
    (hin : id ∈ st.shell.registry) (hp : 0 < (st.shell.seating.seat id).permits) :
    (st.shell.seating.seat id).current = true := by
  have hseat : (st.shell.seating.modify child .take).seat id = st.shell.seating.seat id :=
    Seating.seat_modify_of_ne _ hne
  rw [← hseat] at hp ⊢
  exact (h.seats.rest.current_of_permit hin hp).1

theorem Undrained.move {prompts : List SessionId} (h : st.Undrained child) (hne : id ≠ child)
    (hmove : st.shell.seating.Move st.prompts id s'.seating prompts) :
    Undrained { st with shell := s', prompts } child := by
  have htake := (hmove.take hne h.seats.permit).1
  exact ⟨h.seats.move hmove hne, fun hkept => htake.settled h.seats.rest (h.settled hkept),
    fun hlost => htake.vacant h.seats.rest (h.vacant hlost)⟩

theorem Undrained.beside (h : st.Undrained child) (hbeside : st.Beside child st') :
    st'.Undrained child := by
  have hnodup : st.shell.seating.registry.Nodup := h.seats.rest.nodup
  have hknown : ∀ other ∈ st.shell.seating.registry, other < st.shell.seating.count :=
    h.seats.rest.known
  cases hbeside with
  | jumpTo hne hid hrun =>
    refine h.move hne ?_
    have hcurrent := fun hd hp => h.current_of_permit hne (h.mem_of_started hne hid hd) hp
    rcases always_jumpTo_passes hid.known hknown hcurrent _ _ _ _ rfl hrun with
      heq | ⟨hd, hp, target, htarget, -, heq⟩
    · exact heq ▸ .stay
    · exact heq ▸ .pass (h.mem_of_started hne hid hd) hp htarget
  | exit hne hid hrun =>
    refine h.move hne ?_
    rcases always_exit_departs hid hnodup hknown _ _ _ _ rfl hrun with heq | heq
    · exact heq ▸ .stay
    · exact heq ▸ .depart
  | finish hne hid hrun =>
    refine h.move hne ?_
    rcases always_finish hid hnodup hknown _ true _ _ _ rfl hrun with ⟨-, heq, -⟩ | ⟨-, heq⟩
    · exact heq ▸ .stay
    · exact heq ▸ .depart
  | beginPrompt hne hid hrun =>
    refine h.move hne ?_
    rcases yields_beginPrompt_takes hid.known _ _ _ rfl hrun with ⟨⟨e, he⟩, -⟩ | ⟨-, hd, hp, heq⟩
    · cases he
    · exact heq ▸ .ask (h.mem_of_started hne hid hd) hp
  | finishPrompt hne hid hin hrun =>
    refine h.move hne ?_
    have heq := always_finishPrompt_gives hid _ _ _ _ rfl hrun
    exact heq ▸ .answer hin

theorem undrained_of_register (h : st.Inv) (hid : st.Known child) (hne : st.shell.registry ≠ [])
    (hrun : Runs seating me (register child query).run st.shell (.returned (.ok ())) s) :
    Undrained { st with shell := s } child := by
  rcases yields_register hid _ _ _ rfl hrun with ⟨e, he⟩ | ⟨hs, hd, heq⟩
  · cases he
  obtain ⟨hseats, hjoin⟩ := Seating.undrained_register h.accounted hid hs hd
  refine ⟨by rw [heq]; exact hseats, fun hkept _ => ?_, fun hlost => ?_⟩
  · have hheld := h.settled hkept hne
    rw [heq, hjoin]
    exact Seating.held_join hheld (h.accounted.not_mem_of_not_started hs)
  · rw [heq, hjoin]
    exact Seating.vacant_join (h.vacant hlost)

/-- A session is in focus, and nobody has a permit. -/
structure Stranded (st : Floor) (child : SessionId) : Prop where
  registered : child ∈ st.shell.registry
  focused : (st.shell.session child).current = true
  nobody : ∀ id ∈ st.shell.registry, (st.shell.session id).focus.permits = 0 ∧ id ∉ st.prompts

theorem Stranded.not_exclusive (h : st.Stranded child) : ¬st.Exclusive := fun hexclusive => by
  have hpermit := hexclusive.permit child h.registered
  obtain ⟨hp, hprompt⟩ := h.nobody child h.registered
  simp [h.focused, hp, hprompt] at hpermit

theorem Undrained.exclusive (h : st.Undrained child)
    (hcurrent : (st.shell.seating.seat child).current = false)
    (hs' : s'.seating = st.shell.seating.modify child .drain) :
    Exclusive { st with shell := s' } := by
  have htake : s'.seating = st.shell.seating.modify child .take :=
    hs'.trans (h.seats.drain.1 hcurrent)
  refine Inv.exclusive ⟨?_, ?_, ?_⟩
  · rw [htake]
    exact h.seats.rest
  · rw [htake]
    exact h.settled
  · rw [htake]
    exact h.vacant

theorem Undrained.stranded (h : st.Undrained child)
    (hcurrent : (st.shell.seating.seat child).current = true)
    (hs' : s'.seating = st.shell.seating.modify child .drain) :
    Stranded { st with shell := s' } child := by
  have hregistry : s'.registry = st.shell.registry := congrArg Seating.registry hs'
  have hcount : s'.sessions.size = st.shell.sessions.size := congrArg Seating.count hs'
  have hseat : ∀ id ∈ st.shell.registry,
      (s'.session id).seat = (st.shell.seating.modify child .drain).seat id := fun id hin => by
    rw [← hs', seat_seating (hcount ▸ h.known hin)]
  refine ⟨hregistry ▸ h.seats.registered, ?_, fun id hin => ?_⟩
  · have hflag := congrArg Seat.current (hseat child h.seats.registered)
    rw [Seating.seat_modify_self] at hflag
    exact hflag.trans hcurrent
  · rw [hregistry] at hin
    obtain ⟨hp, hprompt⟩ := h.seats.drain.2 hcurrent id hin
    exact ⟨(congrArg Seat.permits (hseat id hin)).trans hp, hprompt⟩

theorem Undrained.besides (h : st.Undrained child)
    (hbeside : Relation.ReflTransGen (Beside child) st st') : st'.Undrained child := by
  induction hbeside with
  | refl => exact h
  | tail _ hstep ih => exact ih.beside hstep

/-- Whatever other sessions have done between the registration of a child and its draining, the
focus is exclusive and its permit accounted for if the child is not in focus by then. If it is, it
stays in focus, and there is no permit left in the shell. -/
theorem exclusive_iff_of_drained (h : st.Reachable) (hid : st.Known child)
    (hne : st.shell.registry ≠ [])
    (hregister : Runs seating me (register child query).run st.shell (.returned (.ok ())) s)
    (hbeside : Relation.ReflTransGen (Beside child) { st with shell := s } st')
    (hsettle : Runs seating me (settleIn child).run st'.shell (.returned (.ok ())) s') :
    (Exclusive { st' with shell := s' } ↔ (st'.shell.session child).current = false) ∧
    ((st'.shell.session child).current = true → Stranded { st' with shell := s' } child) := by
  have hundrained := (undrained_of_register h.inv hid hne hregister).besides hbeside
  have hknown : st'.Known child := hundrained.known hundrained.seats.registered
  have hdrained : s'.seating = st'.shell.seating.modify child .drain :=
    always_settleIn hknown _ _ _ rfl hsettle rfl
  have hflag : (st'.shell.seating.seat child).current = (st'.shell.session child).current := by
    rw [seat_seating hknown]
    rfl
  rw [← hflag]
  cases hcurrent : (st'.shell.seating.seat child).current with
  | false =>
    refine ⟨⟨fun _ => rfl, fun _ => hundrained.exclusive hcurrent hdrained⟩, fun h => ?_⟩
    cases h
  | true =>
    have hstranded := hundrained.stranded hcurrent hdrained
    refine ⟨⟨fun hexclusive => absurd hexclusive hstranded.not_exclusive, fun h => ?_⟩,
      fun _ => hstranded⟩
    cases h

/-- A child of the only session was made, and then registered. -/
def withChild : Shell :=
  aloneOr 0 (newSession "b" none) oneSession

def withRegistered : Shell :=
  aloneOr 0 (register 1 "calc").run withChild

theorem reachable_withChild : Reachable ⟨withChild, [], false⟩ := by
  have hnew : Runs seating 0 (newSession "b" none) oneSession (.returned 1) withChild :=
    runs_of_runAlone? (runAlone?_eq_aloneOr_of_map rfl)
  exact reachable_oneSession.step (show Step ⟨oneSession, [], false⟩ 0 1 withChild _ from
    .newSession hnew)

theorem runs_register_withChild :
    Runs seating 0 (register 1 "calc").run withChild (.returned (.ok ())) withRegistered :=
  runs_aloneOr rfl

/-- A session that was in focus jumps to the child before the child is drained. The child is in
focus then, and there is no permit for anybody. -/
theorem permitless_of_jump :
    let jumped := aloneOr 2 (jumpTo 0 1).run withRegistered
    let drained := aloneOr 0 (settleIn 1).run jumped
    Reachable ⟨withChild, [], false⟩ ∧
    Runs seating 0 (register 1 "calc").run withChild (.returned (.ok ())) withRegistered ∧
    Runs seating 2 (jumpTo 0 1).run withRegistered (.returned (.ok ())) jumped ∧
    Runs seating 0 (settleIn 1).run jumped (.returned (.ok ())) drained ∧
    drained.registry = [0, 1] ∧ (drained.session 1).current = true ∧
    (drained.session 0).focus.permits = 0 ∧ (drained.session 1).focus.permits = 0 :=
  ⟨reachable_withChild, runs_register_withChild, runs_aloneOr rfl,
    runs_aloneOr rfl, rfl, rfl, rfl, rfl⟩

/-- All is well when nobody comes in between, and nobody has a permit when the only other session
exits in between. -/
theorem exclusive_iff_of_drained_withChild :
    let exited := aloneOr 2 (exit 0 0).run withRegistered
    Exclusive ⟨aloneOr 0 (settleIn 1).run withRegistered, [], false⟩ ∧
    Stranded ⟨aloneOr 0 (settleIn 1).run exited, [], false⟩ 1 := by
  have hknown : 1 < withChild.sessions.size := by decide
  have hone : withChild.registry ≠ [] := by decide
  have hexit : Runs seating 2 (exit 0 0).run withRegistered (.returned (.ok ()))
      (aloneOr 2 (exit 0 0).run withRegistered) := runs_aloneOr rfl
  have hsize : 0 < withRegistered.sessions.size := by decide
  have hbeside : Beside 1 ⟨withRegistered, [], false⟩ ⟨aloneOr 2 (exit 0 0).run withRegistered,
      [], false⟩ :=
    .exit (by decide) hsize hexit
  have hsettle : Runs seating 0 (settleIn 1).run withRegistered (.returned (.ok ()))
      (aloneOr 0 (settleIn 1).run withRegistered) := runs_aloneOr rfl
  have hsettle' : Runs seating 0 (settleIn 1).run (aloneOr 2 (exit 0 0).run withRegistered)
      (.returned (.ok ())) (aloneOr 0 (settleIn 1).run (aloneOr 2 (exit 0 0).run withRegistered)) :=
    runs_aloneOr rfl
  exact ⟨(exclusive_iff_of_drained reachable_withChild hknown hone runs_register_withChild .refl
      hsettle).1.mpr rfl,
    (exclusive_iff_of_drained reachable_withChild hknown hone runs_register_withChild
      (.single hbeside) hsettle').2 rfl⟩

end Floor

end SessionShell
