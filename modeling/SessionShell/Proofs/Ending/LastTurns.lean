import SessionShell.Proofs.Action.Run
import SessionShell.Shell.Loop

/-!
The last turns of a batch.

When all targets were started, the loop waits for the codes that are still to come, one turn after
the other, and then for the children to be gone. Whatever the others do in the meantime, the code of
the batch is what comes of the codes that were counted in.
-/

namespace SessionShell.Shell

open SessionShell.Action

def policy (s : Shell) : BatchSettings :=
  s.settings.batch

section Views

variable {ω : Type} {view : Shell → ω} {x : ω} {me : ThreadId} {host : SessionId}

theorem yields_sayLine_of_console (hconsole : ∀ s console, view { s with console } = view s)
    (text : String) :
    Yields view me (sayLine host text) x fun _ y => y = x := by
  have hlive : Yields view me (ensureLive host).run x fun _ y => y = x := by
    refine Yields.lift_bind (P := fun _ y => y = x) (yields_read fun _ _ => rfl) ?_
    rintro session _ rfl
    split
    · exact always_pure _ rfl
    · exact always_pure _ rfl
  have hprint : ∀ text, Yields view me (consolePlace.print text) x fun _ y => y = x :=
    fun _ => yields_update fun s hs => (hconsole s _).trans hs
  have hout : Yields view me (outLine host text).run x fun _ y => y = x := by
    refine Yields.run_bind hlive ?_ fun e y hy => hy
    rintro _ _ rfl
    exact Yields.lift (hprint _) fun _ _ hy => hy
  exact Yields.bind hout fun _ _ hy => always_pure _ hy

variable (policyOf : ω → BatchSettings) (hpolicy : ∀ s, policyOf (view s) = s.policy)
  (hconsole : ∀ s console, view { s with console } = view s)

include hpolicy hconsole

theorem yields_record_of_policy (run : BatchRun) (label : String) (code : Int) :
    Yields view me (record host run label code) x fun run' y =>
      run' = { run with code := Batch.fold (policyOf x).lastCode run.code code } ∧ y = x := by
  unfold record
  refine Yields.bind (P := fun settings y => settings.batch = policyOf x ∧ y = x)
    (yields_read ?_) ?_
  · rintro s rfl
    exact ⟨(hpolicy s).symm, rfl⟩
  rintro settings _ ⟨hbatch, rfl⟩
  rw [hbatch]
  split
  · refine Yields.bind (yields_sayLine_of_console hconsole _) ?_
    rintro _ _ rfl
    exact always_pure _ ⟨rfl, rfl⟩
  · exact always_pure _ ⟨rfl, rfl⟩

theorem yields_recordAll_of_policy (run : BatchRun) (codes : List (String × Int)) :
    Yields view me (recordAll host run codes) x fun run' y =>
      run'.code = codes.foldl (fun code c => Batch.fold (policyOf x).lastCode code c.2) run.code ∧
        y = x := by
  unfold recordAll
  induction codes generalizing run with
  | nil => exact always_pure _ ⟨rfl, rfl⟩
  | cons c codes ih =>
    rw [List.foldlM_cons]
    refine Yields.bind (yields_record_of_policy policyOf hpolicy hconsole run c.1 c.2) ?_
    rintro _ _ ⟨rfl, rfl⟩
    exact ih _

end Views

variable {me : ThreadId} {host : SessionId} {x : BatchSettings} {s s' s'' : Shell}
  {run run' : BatchRun} {phase phase' : Phase} {codes : List (String × Int)}

/-! ## Waiting for codes -/

def collectTold (host : SessionId) (run : BatchRun) (last : Bool) :
    Action Shell (Phase × List (String × Int)) := do
  if run.pending = 0 then return (collected run last, [])
  match ← receive run.channel with
  | .code label code =>
    let run ← record host { run with pending := run.pending - 1 } label code
    return (.collecting run last, [(label, code)])
  | .closed => return (collected run last, [])
  | .nothing =>
    let hostLive ← isLive host
    if hostLive && (← anyChildLive run) then
      refocus host run
      return (.collecting run last, [])
    else
      let codes ← takeCodes run.channel
      let run ← recordAll host run codes
      return (collected { run with pending := 0 } last, codes)

theorem collect_eq (host : SessionId) (run : BatchRun) (last : Bool) :
    collect host run last = (do return (← collectTold host run last).1) := by
  unfold collect collectTold
  split
  · rfl
  rw [bind_assoc]
  congr 1
  funext received
  cases received with
  | code label code => simp only [bind_assoc, pure_bind]
  | closed => simp only [pure_bind]
  | nothing =>
    simp only [bind_assoc]
    congr 1
    funext hostLive
    congr 1
    funext childLive
    split <;> simp only [bind_assoc, pure_bind]

theorem keeps_policy_receive (channel : Nat) : Keeps policy (receive channel) := by
  refine Keeps.bind
    (Keeps.bind (Keeps.bind keeps_self fun _ => keeps_step fun _ => rfl) fun alarm =>
    keeps_await fun s _ s' hs => ?_) fun _ => keeps_pure _
  split at hs
  · next x t heq =>
    cases hs
    dsimp only at heq
    split at heq
    · next label code t' hcode =>
      cases heq
      simp only [takeCode?] at hcode
      split at hcode
      · cases hcode
        rfl
      · cases hcode
    · split at heq
      · cases heq
        rfl
      · cases heq
  · obtain ⟨s₁, hring, heq⟩ := Option.map_eq_some_iff.mp hs
    cases heq
    obtain rfl := WorldAt.eq_of_ring? hring
    rfl

theorem keeps_policy_jumpTo (id : SessionId) (index : Nat) :
    Keeps policy (jumpTo id index).run := by
  have hlive : Keeps policy (ensureLive id).run := by
    refine Keeps.run_bind (Keeps.lift (keeps_read _)) fun session => ?_
    split <;> exact keeps_pure _
  have hacquire : Keeps policy (acquire id) := by
    refine Keeps.bind (keeps_step fun _ => rfl) fun ticket => keeps_await fun s _ s' hs => ?_
    obtain ⟨focus, -, heq⟩ := Option.map_eq_some_iff.mp hs
    cases heq
    rfl
  have hgrant : ∀ other, Keeps policy (grantFocus other) := fun _ =>
    Keeps.bind (keeps_update fun _ => rfl) fun _ => keeps_update fun _ => rfl
  refine Keeps.run_bind hlive fun _ => Keeps.run_bind (Keeps.lift hacquire) fun _ =>
    Keeps.run_bind (Keeps.lift (keeps_read _)) fun target? => ?_
  cases target? with
  | none =>
    exact Keeps.run_bind (Keeps.lift (hgrant _)) fun _ =>
      Keeps.run_bind (Keeps.lift (keeps_read _)) fun _ => keeps_pure _
  | some target =>
    refine Keeps.run_bind (Keeps.lift (keeps_read _)) fun other => ?_
    split
    · exact Keeps.run_bind (Keeps.lift (hgrant _)) fun _ => keeps_pure _
    · split
      · exact Keeps.lift (hgrant _)
      · exact Keeps.run_bind (Keeps.lift (keeps_update fun _ => rfl)) fun _ =>
          Keeps.lift (hgrant _)

theorem keeps_policy_refocus (run : BatchRun) : Keeps policy (refocus host run) := by
  have hgive : ∀ child, Keeps policy (giveFocus host child) := fun child => by
    refine Keeps.bind (keeps_read _) fun session => ?_
    split
    · refine Keeps.bind (keeps_read _) fun index? => ?_
      cases index? with
      | some index => exact Keeps.bind (keeps_policy_jumpTo host index) fun _ => keeps_pure _
      | none => exact keeps_pure _
    · exact keeps_pure _
  refine Keeps.bind (keeps_read _) fun session => ?_
  split
  · refine Keeps.bind (keeps_read _) fun child? => ?_
    cases child? with
    | some child => exact hgive child.session
    | none => exact keeps_pure _
  · exact keeps_pure _

def Waits (run : BatchRun) (phase : Phase) : Prop :=
  phase = .collecting run true ∨ phase = .lingering run

/-- What comes of the codes from the code of the batch so far. -/
def Folds (x : BatchSettings) (run run' : BatchRun) (codes : List (String × Int)) : Prop :=
  run'.code = codes.foldl (fun code c => Batch.fold x.lastCode code c.2) run.code

theorem always_collectTold (run : BatchRun) :
    Always policy me (collectTold host run true) x fun fate y => y = x ∧
      ∀ phase codes, fate = .returned (phase, codes) →
        ∃ run', Waits run' phase ∧ Folds x run run' codes := by
  have hkept : ∀ {α : Type} {p : Action Shell α} {f : α →
    Action Shell (Phase × List (String × Int))},
      Keeps policy p → (∀ a, Always policy me (f a) x fun fate y => y = x ∧
        ∀ phase codes, fate = .returned (phase, codes) →
          ∃ run', Waits run' phase ∧ Folds x run run' codes) →
      Always policy me (p >>= f) x fun fate y => y = x ∧
        ∀ phase codes, fate = .returned (phase, codes) →
          ∃ run', Waits run' phase ∧ Folds x run run' codes := fun hp hf =>
    Always.bind hp.always (fun a _ hy => hy ▸ hf a) (fun _ hy => ⟨hy, nofun⟩) fun _ hy =>
      ⟨hy, nofun⟩
  have hnothing : ∀ {phase : Phase}, Waits run phase →
      Always policy me (pure (phase, []) : Action Shell (Phase × List (String × Int))) x
        fun fate y => y = x ∧ ∀ phase codes, fate = .returned (phase, codes) →
          ∃ run', Waits run' phase ∧ Folds x run run' codes := fun hphase =>
    always_pure _ ⟨rfl, fun _ _ heq => by cases heq; exact ⟨run, hphase, rfl⟩⟩
  unfold collectTold
  split
  · exact hnothing (.inr rfl)
  refine hkept (keeps_policy_receive _) fun received => ?_
  cases received with
  | closed => exact hnothing (.inr rfl)
  | code label code =>
    refine Yields.bind (yields_record_of_policy id (fun _ => rfl) (fun _ _ => rfl) _ label code) ?_
    rintro run' _ ⟨rfl, rfl⟩
    exact always_pure _ ⟨rfl, fun _ _ heq => by cases heq; exact ⟨_, .inl rfl, rfl⟩⟩
  | nothing =>
    refine hkept (keeps_read _) fun hostLive => hkept (keeps_read _) fun childLive => ?_
    split
    · exact hkept (keeps_policy_refocus run) fun _ => hnothing (.inl rfl)
    · refine hkept (keeps_step fun _ => rfl) fun codes => ?_
      refine Yields.bind (yields_recordAll_of_policy id (fun _ => rfl) (fun _ _ => rfl) run codes)
        ?_
      rintro run' _ ⟨hcode, rfl⟩
      exact always_pure _ ⟨rfl, fun _ _ heq => by cases heq; exact ⟨_, .inr rfl, hcode⟩⟩

/-! ## Waiting for children -/

theorem always_linger (run : BatchRun) :
    Always policy me (linger host run) x fun fate y =>
      ∀ phase, fate = .returned phase → phase = .lingering run ∧ y = x ∨ phase = .idle := by
  have hsleep : Keeps policy (worldPlace.sleep Batch.lingerStep) := by
    refine Keeps.bind (Keeps.bind keeps_self fun _ => keeps_step fun _ => rfl) fun alarm =>
      keeps_await fun s _ s' hs => ?_
    obtain ⟨s₁, hring, heq⟩ := Option.map_eq_some_iff.mp hs
    cases heq
    obtain rfl := WorldAt.eq_of_ring? hring
    rfl
  have hrest : ∀ y, Always policy me (rest host) y fun fate z =>
      ∀ phase, fate = .returned phase → phase = .lingering run ∧ z = x ∨ phase = .idle := fun y =>
    Always.bind (R := fun _ _ => True) (fun _ _ _ _ _ => trivial)
      (fun _ _ _ => always_pure _ fun _ heq => by cases heq; exact .inr rfl) (fun _ _ => nofun)
      fun _ _ => nofun
  unfold linger
  refine Yields.bind (P := fun _ y => y = x) (yields_read fun _ _ => rfl) ?_
  rintro hostLive _ rfl
  refine Yields.bind (P := fun _ y => y = _) (yields_read fun _ _ => rfl) ?_
  rintro childLive _ rfl
  split
  · refine Always.bind hsleep.always ?_ (fun _ _ => nofun) fun _ _ => nofun
    rintro _ _ rfl
    exact always_pure _ fun _ heq => by cases heq; exact .inl ⟨rfl, rfl⟩
  · refine Always.bind (R := fun _ _ => True) (fun _ _ _ _ _ => trivial) (fun live y _ => ?_)
      (fun _ _ => nofun) fun _ _ => nofun
    split
    · exact Always.bind (R := fun _ _ => True) (fun _ _ _ _ _ => trivial) (fun _ z _ => hrest z)
        (fun _ _ => nofun) fun _ _ => nofun
    · exact hrest y

/-! ## One turn after the other -/

/-- Turns of the loop from the last codes on, to one that waits for the children to be gone, with
the codes that are counted in. -/
inductive Closes (me : ThreadId) (host : SessionId) :
    Phase → Shell → List (String × Int) → BatchRun → Shell → Prop where
  | here {run : BatchRun} {s : Shell} : Closes me host (.lingering run) s [] run s
  | collect {run run' : BatchRun} {phase : Phase} {s s' s'' : Shell}
      {codes codes' : List (String × Int)}
      (h : Runs policy me (collectTold host run true) s (.returned (phase, codes)) s')
      (hrest : Closes me host phase s' codes' run' s'') :
      Closes me host (.collecting run true) s (codes ++ codes') run' s''
  | linger {run run' : BatchRun} {phase : Phase} {s s' s'' : Shell} {codes : List (String × Int)}
      (h : Runs policy me (linger host run) s (.returned phase) s')
      (hrest : Closes me host phase s' codes run' s'') :
      Closes me host (.lingering run) s codes run' s''

/-- Turns of the loop in which a batch waits, one after the other. -/
inductive Turns (me : ThreadId) (host : SessionId) : Phase → Shell → Phase → Shell → Prop where
  | refl {phase : Phase} {s : Shell} : Turns me host phase s phase s
  | head {run : BatchRun} {phase phase' phase'' : Phase} {s s' s'' : Shell}
      (hwaits : Waits run phase)
      (h : Runs policy me (advance host phase) s (.returned (some phase')) s')
      (hrest : Turns me host phase' s' phase'' s'') : Turns me host phase s phase'' s''

theorem Turns.exists_closes (h : Turns me host phase s (.lingering run') s') :
    ∃ codes, Closes me host phase s codes run' s' := by
  generalize hlast : Phase.lingering run' = last at h
  induction h with
  | refl =>
    subst hlast
    exact ⟨[], .here⟩
  | @head run phase phase' last s₁ s₂ s₃ hwaits h hrest ih =>
    obtain ⟨codes, hcloses⟩ := ih hlast
    rcases hwaits with rfl | rfl
    · obtain ⟨next, s, hcollect, hnext⟩ := h.exists_of_bind
      obtain ⟨heq, hs⟩ := hnext.of_pure
      cases heq
      rw [collect_eq] at hcollect
      obtain ⟨⟨next, counted⟩, t, htold, hreturn⟩ := (hcollect.extend hs).exists_of_bind
      obtain ⟨heq, ht⟩ := hreturn.of_pure
      cases heq
      exact ⟨counted ++ codes, .collect (htold.extend ht) hcloses⟩
    · obtain ⟨next, s, hlinger, hnext⟩ := h.exists_of_bind
      obtain ⟨heq, hs⟩ := hnext.of_pure
      cases heq
      exact ⟨codes, .linger (hlinger.extend hs) hcloses⟩

theorem Closes.folds (h : Closes me host phase s codes run' s') (hphase : Waits run phase) :
    s'.policy = s.policy ∧ Folds s.policy run run' codes := by
  induction h generalizing run with
  | here =>
    rcases hphase with heq | heq
    · cases heq
    · cases heq
      exact ⟨rfl, rfl⟩
  | collect h _ ih =>
    rcases hphase with heq | heq
    · cases heq
      obtain ⟨hpolicy, hturn⟩ := always_collectTold _ _ _ _ rfl h
      obtain ⟨between, hwaits, hfolds⟩ := hturn _ _ rfl
      obtain ⟨hpolicy', hfolds'⟩ := ih hwaits
      rw [hpolicy] at hpolicy' hfolds'
      refine ⟨hpolicy', ?_⟩
      rw [Folds, List.foldl_append, ← hfolds]
      exact hfolds'
    · cases heq
  | @linger between last phase s₁ s₂ s₃ codes h hrest ih =>
    rcases hphase with heq | heq
    · cases heq
    · cases heq
      rcases always_linger _ _ _ _ rfl h phase rfl with ⟨rfl, hpolicy⟩ | rfl
      case inr => cases hrest
      obtain ⟨hpolicy', hfolds'⟩ := ih (.inr rfl)
      rw [hpolicy] at hpolicy' hfolds'
      exact ⟨hpolicy', hfolds'⟩

end SessionShell.Shell
