import SessionShell.Proofs.Ending.Codes
import SessionShell.Proofs.Ending.Estate
import SessionShell.Proofs.Focus.Exclusive

/-!
What becomes of everyone when everyone is killed.

The killer ends the others, the newest first, and itself at last. A journal is kept of what is done
to end sessions, in the order in which it is done; nothing that is done depends on it.
-/

namespace SessionShell

open Action

/-- What is done to end sessions, and the shell. -/
inductive EndEvent where
  | recorded (id : SessionId) (code : Int)
  | called (id : SessionId) (hook : ExitHook) (code : Int)
  | left (id : SessionId)
  | terminated (code : Int)
  deriving DecidableEq, Repr

namespace EndEvent

def course (id : SessionId) (hook? : Option ExitHook) (code : Int) : List EndEvent :=
  recorded id code :: (hook?.toList.map fun hook => called id hook code) ++ [left id]

def noteRecorded (id : SessionId) (code : Int) :
    Shell → Except ShellError (Option ExitHook) → List EndEvent → List EndEvent
  | _, .ok _, journal => journal ++ [recorded id code]
  | _, .error _, journal => journal

def noteLeft (id : SessionId) : Shell → Removal → List EndEvent → List EndEvent
  | _, .absent, journal => journal
  | _, _, journal => journal ++ [left id]

end EndEvent

namespace Shell

abbrev Told := ExceptT ShellError (Action (Shell × List EndEvent))

abbrev tell (event : EndEvent) : Action (Shell × List EndEvent) Unit :=
  Action.record (· ++ [event])

def leaveTold (id : SessionId) (code : Int) (hook? : Option ExitHook) (handsOn : Bool) :
    Action (Shell × List EndEvent) Bool := do
  match hook? with
  | some hook =>
    tell (.called id hook code)
    silent (discard (runHook code hook).attempt)
  | none => pure ()
  let wasCurrent ← silent (loseFocus id)
  match ← noted (EndEvent.noteLeft id) (leaveRegistry id) with
  | .last => return true
  | .removed index remaining =>
    if handsOn && wasCurrent then silent (handOn index remaining)
    return false
  | .absent => return false

def finishTold (id : SessionId) (code : Int) (handsOn : Bool) : Told Unit := do
  let hook? ← ExceptT.mk (noted (EndEvent.noteRecorded id code) (recordCode id code).run)
  let wasLast ← leaveTold id code hook? handsOn
  ExceptT.lift (silent (dispose id))
  if wasLast then
    ExceptT.lift (tell (.terminated code))
    ExceptT.lift (silent (terminate code))

def killAllTold (id : SessionId) (code? : Option Int) : Told Unit := do
  ExceptT.mk (silent (ensureLive id).run)
  let code := code?.getD ReservedCode.killed.code
  let others ← ExceptT.lift (silent (othersOf id))
  others.forM fun other => discard (ExceptT.lift (finishTold other code false).run)
  finishTold id code true

/-! ## Without the journal -/

theorem erases_leaveTold_none (id : SessionId) (code : Int) (handsOn : Bool) :
    Erases (leaveTold id code none handsOn) (leave id code none handsOn) := by
  refine Erases.bind (erases_silent _) fun wasCurrent =>
    Erases.bind (Action.erases_noted _ _) fun removal => ?_
  cases removal with
  | last => exact .done _
  | absent => exact .done _
  | removed index remaining =>
    cases handsOn && wasCurrent with
    | false => exact .done _
    | true => exact Erases.bind (erases_silent _) fun _ => .done _

theorem erases_leaveTold (id : SessionId) (code : Int) (hook? : Option ExitHook) (handsOn : Bool) :
    Erases (leaveTold id code hook? handsOn) (leave id code hook? handsOn) := by
  cases hook? with
  | none => exact erases_leaveTold_none id code handsOn
  | some hook =>
    exact .note (Erases.bind (erases_silent _) fun _ => erases_leaveTold_none id code handsOn)

theorem erases_finishTold (id : SessionId) (code : Int) (handsOn : Bool) :
    Erases (finishTold id code handsOn).run (finish id code true handsOn).run := by
  refine Erases.run_bind (Action.erases_noted _ _) fun hook? =>
    Erases.run_bind (Erases.lift (erases_leaveTold id code hook? handsOn)) fun wasLast =>
    Erases.run_bind (Erases.lift (erases_silent (dispose id))) fun _ => ?_
  cases wasLast with
  | false => exact .done _
  | true =>
    refine Erases.note (f := (· ++ [EndEvent.terminated code])) ?_
    exact Erases.lift (erases_silent (terminate code))

theorem erases_killOthers (others : List SessionId) (code : Int) :
    Erases (others.forM fun other =>
        discard (ExceptT.lift (finishTold other code false).run) : Told Unit).run
      (others.forM fun other => discard (caught (finish other code true false)) :
        Checked Unit).run := by
  induction others with
  | nil => exact .done _
  | cons other others ih =>
    refine Erases.run_bind (Erases.bind (Erases.lift (erases_finishTold other code false))
      fun r => ?_) fun _ => ih
    cases r <;> exact .done _

theorem erases_killAllTold (id : SessionId) (code? : Option Int) :
    Erases (killAllTold id code?).run (killAll id code?).run :=
  Erases.run_bind (erases_silent _) fun _ =>
    Erases.run_bind (Erases.lift (erases_silent (othersOf id))) fun others =>
    Erases.run_bind (erases_killOthers others _) fun _ => erases_finishTold id _ true

/-! ## The end of one session -/

variable {v : Estate} {journal : List EndEvent} {me : ThreadId} {id other : SessionId} {code : Int}
  {handsOn : Bool}

/-- The estate, with the journal beside it. -/
def told (s : Shell × List EndEvent) : Estate × List EndEvent :=
  (s.1.estate, s.2)

theorem yields_recordTold (hid : id < v.count) :
    Yields told me (noted (EndEvent.noteRecorded id code) (recordCode id code).run) (v, journal)
      fun r w =>
        (v.holding id).IsOpen ∧ r = .ok (v.holding id).exitHook ∧
          w = (v.modify id (.record code), journal ++ [.recorded id code]) ∨
        ¬(v.holding id).IsOpen ∧ (∃ e, r = .error e) ∧ w = (v, journal) := by
  refine yields_noted_step fun s hs => ?_
  subst hs
  have hopen : (s.estate.holding id).IsOpen ↔
      ¬((s.session id).disposed ∨ (s.session id).exitCode.isSome) := by
    simp [Holding.IsOpen, estate, Session.holding, and_comm]
  by_cases hended : (s.session id).disposed ∨ (s.session id).exitCode.isSome
  · simp only [hended, if_true]
    exact .inr ⟨fun h => hopen.mp h hended, ⟨_, rfl⟩, rfl⟩
  · simp only [hended, if_false]
    exact .inl ⟨hopen.mpr hended, rfl, Prod.ext (estate_modifySession hid rfl) rfl⟩

theorem yields_leaveRegistryTold (hin : id ∈ v.registry) :
    Yields told me (noted (EndEvent.noteLeft id) (leaveRegistry id)) (v, journal) fun removal w =>
      removal = (v.registry.remove id).1 ∧
        w = ({ v with registry := v.registry.erase id }, journal ++ [.left id]) := by
  refine yields_noted_step fun s hs => ?_
  subst hs
  obtain ⟨index, hremove⟩ := Registry.remove_of_mem (r := s.registry) hin
  have hsnd : (s.registry.remove id).2 = s.registry.erase id := Registry.remove_snd
  have hnoted : EndEvent.noteLeft id s (s.registry.remove id).1 journal =
      journal ++ [.left id] := by
    rw [hremove]
    cases (s.registry.erase id).isEmpty <;> rfl
  refine ⟨rfl, Prod.ext ?_ hnoted⟩
  change ({ s with registry := (s.registry.remove id).2 } : Shell).estate = _
  rw [hsnd]
  rfl

theorem yields_leaveTold_none (code : Int) (hin : id ∈ v.registry)
    (hknown : ∀ other ∈ v.registry, other < v.count) :
    Yields told me (leaveTold id code none handsOn) (v, journal) fun wasLast w =>
      wasLast = (v.registry.erase id).isEmpty ∧
        w = (v.depart id handsOn, journal ++ [.left id]) := by
  refine Yields.bind (Yields.silent (yields_loseFocus_estate (hknown id hin))) ?_
  rintro wasCurrent ⟨w, journal'⟩ ⟨⟨rfl, rfl⟩, rfl⟩
  refine Yields.bind (yields_leaveRegistryTold (by exact hin)) ?_
  rintro removal _ ⟨hremoval, rfl⟩
  obtain ⟨index, hremove⟩ := Registry.remove_of_mem hin
  have hfst : removal = (v.registry.remove id).1 := hremoval
  cases hempty : (v.registry.erase id).isEmpty with
  | true =>
    rw [hremove, if_pos hempty] at hfst
    subst hfst
    refine always_pure _ ⟨rfl, ?_⟩
    have hheir : v.registry.heir? id = none :=
      Registry.heir?_eq_none fun index remaining => by simp [hremove, hempty]
    simp [Estate.depart, Estate.heir?, hheir, Estate.grant?]
    rfl
  | false =>
    rw [hremove, if_neg (by simp [hempty])] at hfst
    subst hfst
    have hremoved : (v.registry.remove id).1 = .removed index (v.registry.erase id).length := by
      rw [hremove, if_neg (by simp [hempty])]
    have hheir := Registry.heir?_of_removed hremoved
    cases hon : handsOn && (v.holding id).current with
    | true =>
      refine Yields.bind (Yields.silent (yields_handOn_estate ?_ _ _)) ?_
      · exact fun other ho => hknown other (List.mem_of_mem_erase ho)
      · rintro _ ⟨w, journal'⟩ ⟨rfl, rfl⟩
        refine always_pure _ ⟨rfl, ?_⟩
        simp [Estate.depart, Estate.heir?, hon, hheir]
        rfl
    | false =>
      refine always_pure _ ⟨rfl, ?_⟩
      simp [Estate.depart, Estate.heir?, hon, Estate.grant?]
      rfl

theorem yields_leaveTold (hin : id ∈ v.registry) (hknown : ∀ other ∈ v.registry, other < v.count)
    (hook? : Option ExitHook) :
    Yields told me (leaveTold id code hook? handsOn) (v, journal) fun wasLast w =>
      wasLast = (v.registry.erase id).isEmpty ∧
        w = (v.depart id handsOn,
          journal ++ (hook?.toList.map fun hook => .called id hook code) ++ [.left id]) := by
  cases hook? with
  | none => simpa using yields_leaveTold_none code hin hknown
  | some hook =>
    refine Yields.bind (yields_record _) ?_
    rintro _ _ rfl
    refine Yields.bind (Yields.silent (yields_callHook (spares_runHook code hook))) ?_
    rintro _ ⟨w, journal'⟩ ⟨hw, rfl⟩
    obtain rfl : w = v := hw
    refine Yields.mono (yields_leaveTold_none code hin hknown) ?_
    rintro _ _ ⟨rfl, rfl⟩
    exact ⟨rfl, rfl⟩

theorem always_finishTold {Q : Fate (Except ShellError Unit) → Estate × List EndEvent → Prop}
    (hopen : (v.holding id).IsOpen) (hin : id ∈ v.registry)
    (hknown : ∀ other ∈ v.registry, other < v.count)
    (hlast : v.registry.erase id = [] → Always told me
      (do ExceptT.lift (tell (.terminated code)); ExceptT.lift (silent (terminate code)) :
        Told Unit).run
      (v.finish id code handsOn, journal ++ EndEvent.course id (v.holding id).exitHook code) Q)
    (hrest : v.registry.erase id ≠ [] → Q (.returned (.ok ()))
      (v.finish id code handsOn, journal ++ EndEvent.course id (v.holding id).exitHook code)) :
    Always told me (finishTold id code handsOn).run (v, journal) Q := by
  have hcourse : journal ++ [.recorded id code] ++
      ((v.holding id).exitHook.toList.map fun hook => .called id hook code) ++ [.left id] =
      journal ++ EndEvent.course id (v.holding id).exitHook code := by
    simp [EndEvent.course]
  refine Yields.run_bind (yields_recordTold (hknown id hin)) ?_ ?_
  · rintro hook? _ (⟨-, hhook, rfl⟩ | ⟨-, ⟨e, he⟩, -⟩)
    · obtain rfl : hook? = (v.holding id).exitHook := Except.ok.inj hhook
      refine Yields.lift_bind (yields_leaveTold (by exact hin) (by exact hknown) _) ?_
      rintro wasLast ⟨w, journal'⟩ ⟨hwas, hw⟩
      obtain ⟨rfl, rfl⟩ := Prod.mk.inj hw
      have hcount : id < ((v.modify id (.record code)).depart id handsOn).count := by
        rw [Estate.count_depart]
        exact hknown id hin
      refine Yields.lift_bind (Yields.silent (yields_dispose_estate hcount)) ?_
      rintro _ ⟨w, journal'⟩ ⟨hw, rfl⟩
      obtain rfl : w = v.finish id code handsOn := hw
      rw [hcourse]
      obtain rfl : wasLast = (v.registry.erase id).isEmpty := hwas
      cases hempty : (v.registry.erase id).isEmpty with
      | true => exact hlast (List.isEmpty_iff.mp hempty)
      | false => exact always_pure _ (hrest fun h => by simp [h] at hempty)
    · cases he
  · rintro e w (⟨-, he, -⟩ | ⟨hclosed, -, -⟩)
    · cases he
    · exact absurd hopen hclosed

theorem yields_finishTold (hopen : (v.holding id).IsOpen) (hin : id ∈ v.registry)
    (hknown : ∀ other ∈ v.registry, other < v.count) (hrest : v.registry.erase id ≠ []) :
    Yields told me (finishTold id code handsOn).run (v, journal) fun r w => r = .ok () ∧
      w = (v.finish id code handsOn,
        journal ++ EndEvent.course id (v.holding id).exitHook code) :=
  always_finishTold hopen hin hknown (fun hlast => absurd hlast hrest) fun _ => ⟨rfl, rfl⟩

theorem always_finishTold_last (hopen : (v.holding id).IsOpen) (hin : id ∈ v.registry)
    (hknown : ∀ other ∈ v.registry, other < v.count) (hlast : v.registry.erase id = []) :
    Always told me (finishTold id code handsOn).run (v, journal) fun fate w =>
      w = ((v.finish id code handsOn).conclude code,
        journal ++ EndEvent.course id (v.holding id).exitHook code ++ [.terminated code]) ∧
      fate = if v.endsProcess then .halted else .returned (.ok ()) := by
  have hends : (v.finish id code handsOn).endsProcess = v.endsProcess :=
    congrArg (·.2.2.2) Estate.frame_finish
  refine always_finishTold hopen hin hknown (fun _ => ?_) fun hrest => absurd hlast hrest
  refine Yields.lift_bind (p := tell (.terminated code)) (yields_record _) ?_
  rintro _ _ rfl
  rw [← hends]
  refine Always.bind (Always.silent (always_terminate_estate code)) ?_ ?_ ?_
  · rintro _ ⟨w, journal'⟩ ⟨⟨rfl, hfate⟩, rfl⟩
    refine always_pure _ ⟨rfl, ?_⟩
    cases hp : (v.finish id code handsOn).endsProcess with
    | true => simp [hp] at hfate
    | false => rfl
  · rintro ⟨w, journal'⟩ ⟨⟨rfl, hfate⟩, rfl⟩
    split at hfate <;> cases hfate
  · rintro ⟨w, journal'⟩ ⟨⟨rfl, hfate⟩, rfl⟩
    refine ⟨rfl, ?_⟩
    cases hp : (v.finish id code handsOn).endsProcess with
    | true => rfl
    | false => simp [hp] at hfate

theorem yields_finishTold_closed (hid : id < v.count) (hclosed : ¬(v.holding id).IsOpen) :
    Yields told me (finishTold id code handsOn).run (v, journal) fun r w =>
      (∃ e, r = .error e) ∧ w = (v, journal) := by
  refine Yields.run_bind (yields_recordTold hid) ?_ ?_
  · rintro hook? w (⟨hopen, -, -⟩ | ⟨-, ⟨e, he⟩, -⟩)
    · exact absurd hopen hclosed
    · cases he
  · rintro e w (⟨-, he, -⟩ | ⟨-, -, rfl⟩)
    · cases he
    · exact ⟨⟨_, rfl⟩, rfl⟩

/-! ## The others -/

theorem discard_told {p : Told Unit} {P : Except ShellError Unit → Estate × List EndEvent → Prop}
    (h : Yields told me p.run (v, journal) P) :
    Yields told me (discard (ExceptT.lift p.run) : Told Unit).run (v, journal) fun r w =>
      r = .ok () ∧ ∃ r', P r' w :=
  Always.discard_lift h (fun r _ hr => ⟨rfl, r, hr⟩) (fun _ h => h) fun _ h => h

theorem yields_killOthersTold (hnodup : v.registry.Nodup)
    (hknown : ∀ other ∈ v.registry, other < v.count) (hid : id ∈ v.registry)
    (others : List SessionId) (hothers : others.Nodup)
    (hin : ∀ other ∈ others, other ∈ v.registry ∧ other ≠ id) :
    Yields told me
      (others.forM fun other => discard (ExceptT.lift (finishTold other code false).run) :
        Told Unit).run
      (v, journal) fun r w => r = .ok () ∧
        w = (v.finishAll (others.filter fun other => (v.holding other).IsOpen) code,
          journal ++ (others.filter fun other => (v.holding other).IsOpen).flatMap fun other =>
            EndEvent.course other (v.holding other).exitHook code) := by
  -- On the others yet to be ended, from whatever estate the ends so far have left.
  induction others generalizing v journal with
  | nil => exact always_pure _ ⟨rfl, by simp [Estate.finishAll]⟩
  | cons other others ih =>
    obtain ⟨hother, hothers⟩ := List.nodup_cons.mp hothers
    obtain ⟨hotherIn, hne⟩ := hin other List.mem_cons_self
    have hrestIn : ∀ x ∈ others, x ∈ v.registry ∧ x ≠ id := fun x hx =>
      hin x (List.mem_cons_of_mem _ hx)
    by_cases hopen : (v.holding other).IsOpen
    · have hrest : v.registry.erase other ≠ [] :=
        List.ne_nil_of_mem ((List.mem_erase_of_ne hne.symm).mpr hid)
      -- The end of this one leaves those that follow as they were.
      have hsame : ∀ x ∈ others, (v.finish other code false).holding x = v.holding x := by
        intro x hx
        have hxo : x ≠ other := fun he => hother (he ▸ hx)
        simp [Estate.holding_finish_of_ne hxo, Estate.heir?]
      have hfilter : (others.filter fun x => ((v.finish other code false).holding x).IsOpen) =
          others.filter fun x => (v.holding x).IsOpen :=
        List.filter_congr fun x hx => by rw [hsame x hx]
      refine Yields.run_bind (discard_told (yields_finishTold hopen hotherIn hknown hrest)) ?_
        fun e w hw => by cases hw.1
      rintro _ w ⟨-, hw⟩
      obtain ⟨-, -, rfl⟩ := hw
      refine Yields.mono (ih (Estate.nodup_finish hnodup) ?_ ?_ hothers ?_) ?_
      · intro x hx
        rw [Estate.registry_finish] at hx
        simpa using hknown x (List.mem_of_mem_erase hx)
      · rw [Estate.registry_finish]
        exact (List.mem_erase_of_ne hne.symm).mpr hid
      · intro x hx
        obtain ⟨hxin, hxne⟩ := hrestIn x hx
        have hxo : x ≠ other := fun he => hother (he ▸ hx)
        rw [Estate.registry_finish]
        exact ⟨(List.mem_erase_of_ne hxo).mpr hxin, hxne⟩
      · rintro r _ ⟨rfl, rfl⟩
        rw [hfilter]
        have hcourses : ((others.filter fun x => (v.holding x).IsOpen).flatMap fun x =>
            EndEvent.course x ((v.finish other code false).holding x).exitHook code) =
            (others.filter fun x => (v.holding x).IsOpen).flatMap fun x =>
              EndEvent.course x (v.holding x).exitHook code :=
          List.flatMap_congr fun x hx => by rw [hsame x (List.mem_of_mem_filter hx)]
        refine ⟨rfl, Prod.ext ?_ ?_⟩
        · simp [hopen, Estate.finishAll]
        · simp [hopen, hcourses]
    · refine Yields.run_bind (discard_told (yields_finishTold_closed (hknown other hotherIn) hopen))
        ?_
        fun e w hw => by cases hw.1
      rintro _ w ⟨-, hw⟩
      obtain ⟨-, -, rfl⟩ := hw
      refine Yields.mono (ih hnodup hknown hid hothers hrestIn) ?_
      rintro r _ ⟨rfl, rfl⟩
      exact ⟨rfl, by simp [hopen]⟩

end Shell

namespace Estate

variable {v : Estate} {id : SessionId} {code : Int}

def victims (v : Estate) (id : SessionId) : List SessionId :=
  v.registry.reverse.filter fun x => x ≠ id ∧ (v.holding x).IsOpen

def stayers (v : Estate) : List SessionId :=
  v.registry.filter fun x => ¬(v.holding x).IsOpen

/-- Everyone was killed with a code. -/
structure KilledAll (v : Estate) (id : SessionId) (code : Int)
    (fate : Fate (Except ShellError Unit)) (w : Estate) (journal : List EndEvent) : Prop where
  /-- The newest first, the killer at last, each with one call of its hook, and then the shell
  unless somebody stays. -/
  journal : journal = ((v.victims id ++ [id]).flatMap fun x =>
      EndEvent.course x (v.holding x).exitHook code) ++
    if v.stayers = [] then [.terminated code] else []
  ended : ∀ x ∈ v.registry, (v.holding x).IsOpen → w.holding x = .ended code
  stopped : ∀ x ∈ v.registry, (v.holding x).IsOpen → ∀ job ∈ (v.holding x).work,
    job < v.pool.jobs.size → w.pool.IsStopped job
  registry : w.registry = v.stayers
  /-- The focus of the killer may be handed on to somebody who stays. -/
  stayed : ∀ x ∈ v.stayers, w.holding x = v.holding x ∨
    (v.holding id).current = true ∧ w.holding x = (v.holding x).setCurrent true
  apart : ∀ x, x ∉ v.registry → w.holding x = v.holding x
  /-- If nobody stays, this is the end of the shell. -/
  last : v.stayers = [] → (w.endings, w.ended) =
      (if v.endsProcess then (v.endings, some code) else (v.endings ++ [code], v.ended)) ∧
    fate = if v.endsProcess then .halted else .returned (.ok ())
  notLast : v.stayers ≠ [] →
    (w.endings, w.ended) = (v.endings, v.ended) ∧ fate = .returned (.ok ())

theorem mem_victims {x : SessionId} :
    x ∈ v.victims id ↔ x ∈ v.registry ∧ x ≠ id ∧ (v.holding x).IsOpen := by
  simp [victims]

theorem nodup_victims (hnodup : v.registry.Nodup) : (v.victims id).Nodup :=
  (List.nodup_reverse.mpr hnodup).filter _

theorem erase_registry_finishAll (hnodup : v.registry.Nodup) (hopen : (v.holding id).IsOpen)
    (code : Int) :
    (v.finishAll (v.victims id) code).registry.erase id = v.stayers := by
  rw [registry_finishAll hnodup _ _, (hnodup.filter _).erase_eq_filter, List.filter_filter, stayers]
  refine List.filter_congr fun x hx => ?_
  by_cases hxid : x = id
  · subst hxid
    simp [hopen]
  · simp [mem_victims, hx, hxid]

theorem holding_killer (hnodup : v.registry.Nodup) (id : SessionId) (code : Int) :
    (v.finishAll (v.victims id) code).holding id = v.holding id := by
  simp [holding_finishAll hnodup (nodup_victims hnodup), mem_victims]

theorem killedAll_of_finish {w : Estate} {fate : Fate (Except ShellError Unit)}
    (hnodup : v.registry.Nodup) (hid : id ∈ v.registry) (hopen : (v.holding id).IsOpen)
    (hholding : w.holding = ((v.finishAll (v.victims id) code).finish id code true).holding)
    (hpool : w.pool = ((v.finishAll (v.victims id) code).finish id code true).pool)
    (hregistry : w.registry = ((v.finishAll (v.victims id) code).finish id code true).registry)
    (hlast : v.stayers = [] → (w.endings, w.ended) =
        (if v.endsProcess then (v.endings, some code) else (v.endings ++ [code], v.ended)) ∧
      fate = if v.endsProcess then .halted else .returned (.ok ()))
    (hnotLast : v.stayers ≠ [] →
      (w.endings, w.ended) = (v.endings, v.ended) ∧ fate = .returned (.ok ())) :
    v.KilledAll id code fate w (((v.victims id ++ [id]).flatMap fun x =>
        EndEvent.course x (v.holding x).exitHook code) ++
      if v.stayers = [] then [.terminated code] else []) := by
  generalize hu : v.finishAll (v.victims id) code = u at hholding hpool hregistry
  have hnodup' : u.registry.Nodup := by
    rw [← hu, registry_finishAll hnodup _ _]
    exact hnodup.filter _
  have hrest : u.registry.erase id = v.stayers := by
    rw [← hu]
    exact erase_registry_finishAll hnodup hopen code
  have hu_holding : ∀ x, u.holding x = if x ∈ v.victims id then .ended code else v.holding x :=
    fun x => hu ▸ holding_finishAll hnodup (nodup_victims hnodup)
  have hkiller : u.holding id = v.holding id := hu ▸ holding_killer hnodup id code
  -- The heir of the killer is one of those who stay.
  have hheir : ∀ x, u.heir? id true = some x → (v.holding id).current = true ∧ x ∈ v.stayers := by
    intro x hx
    rw [heir?, hkiller] at hx
    split at hx
    · next hcurrent => exact ⟨by simpa using hcurrent, hrest ▸ Registry.mem_of_heir? hx⟩
    · cases hx
  have hw : ∀ x, x ≠ id → w.holding x =
      if u.heir? id true = some x then (u.holding x).setCurrent true else u.holding x :=
    fun x hx => by rw [hholding, holding_finish_of_ne hx]
  refine ⟨rfl, fun x hx hxopen => ?_, fun x hx hxopen job hwork hjob => ?_, ?_, fun x hx => ?_,
    fun x hx => ?_, hlast, hnotLast⟩
  · by_cases hxid : x = id
    · rw [hxid, hholding, holding_finish_self hnodup']
    · have hno : u.heir? id true ≠ some x := fun h => by
        simpa [stayers, hxopen] using (hheir x h).2
      rw [hw x hxid, if_neg hno, hu_holding, if_pos (mem_victims.mpr ⟨hx, hxid, hxopen⟩)]
  · rw [hpool]
    by_cases hxid : x = id
    · subst hxid
      refine isStopped_finish hnodup' ?_ (by rwa [hkiller])
      rwa [← hu, size_finishAll hnodup]
    · refine isStopped_finish_of_isStopped hnodup' ?_
      rw [← hu]
      exact isStopped_finishAll hnodup (nodup_victims hnodup)
        (mem_victims.mpr ⟨hx, hxid, hxopen⟩) hjob hwork
  · rw [hregistry, registry_finish, hrest]
  · obtain ⟨hxin, hxclosed⟩ : x ∈ v.registry ∧ ¬(v.holding x).IsOpen := by simpa [stayers] using hx
    have hxid : x ≠ id := fun he => hxclosed (he ▸ hopen)
    have hsame : u.holding x = v.holding x := by simp [hu_holding, mem_victims, hxclosed]
    rw [hw x hxid, hsame]
    split
    · next h => exact .inr ⟨(hheir x h).1, rfl⟩
    · exact .inl rfl
  · have hxid : x ≠ id := fun he => hx (he ▸ hid)
    have hno : u.heir? id true ≠ some x := fun h => hx (List.mem_of_mem_filter (hheir x h).2)
    rw [hw x hxid, if_neg hno, hu_holding, if_neg fun h => hx (mem_victims.mp h).1]

end Estate

namespace Shell

variable {v : Estate} {me : ThreadId} {id : SessionId}

theorem yields_ensureLive_estate (hopen : (v.holding id).IsOpen) :
    Yields estate me (ensureLive id).run v fun r w => r = .ok () ∧ w = v := by
  refine yields_ensureLive_of_live ?_
  rintro s rfl
  exact hopen.2

theorem yields_othersOf :
    Yields estate me (othersOf id) v fun others w =>
      others = v.registry.reverse.filter (· ≠ id) ∧ w = v :=
  yields_read fun s hs => by
    subst hs
    exact ⟨rfl, rfl⟩

theorem always_finishKiller {code : Int} (hnodup : v.registry.Nodup)
    (hknown : ∀ other ∈ v.registry, other < v.count) (hid : id ∈ v.registry)
    (hopen : (v.holding id).IsOpen) :
    Always told me (finishTold id code true).run
      (v.finishAll (v.victims id) code,
        (v.victims id).flatMap fun x => EndEvent.course x (v.holding x).exitHook code)
      fun fate w => v.KilledAll id code fate w.1 w.2 := by
  have hkiller := Estate.holding_killer hnodup id code
  have hrest := Estate.erase_registry_finishAll hnodup hopen code
  have hregistry := Estate.registry_finishAll hnodup (v.victims id) code
  have hframe : (v.finishAll (v.victims id) code).frame = v.frame := Estate.frame_finishAll
  have hall := fun w fate => @Estate.killedAll_of_finish v id code w fate hnodup hid hopen
  generalize v.finishAll (v.victims id) code = u at hkiller hrest hregistry hframe hall
  obtain ⟨hcount, hendings, hended, hends⟩ :
      u.count = v.count ∧ u.endings = v.endings ∧ u.ended = v.ended ∧
        u.endsProcess = v.endsProcess := by
    simpa [Estate.frame] using hframe
  have hin : id ∈ u.registry := by
    simp [hregistry, hid, Estate.mem_victims]
  have hknown' : ∀ x ∈ u.registry, x < u.count := by
    intro x hx
    rw [hregistry] at hx
    exact hcount ▸ hknown x (List.mem_of_mem_filter hx)
  obtain ⟨-, hendings', hended', hends'⟩ : (u.finish id code true).count = u.count ∧
      (u.finish id code true).endings = u.endings ∧ (u.finish id code true).ended = u.ended ∧
      (u.finish id code true).endsProcess = u.endsProcess := by
    simpa only [Estate.frame, Prod.mk.injEq] using Estate.frame_finish
  by_cases hstay : v.stayers = []
  · refine Always.mono (always_finishTold_last (hkiller ▸ hopen) hin hknown' (hrest.trans hstay)) ?_
    rintro fate _ ⟨rfl, rfl⟩
    have hkilled := hall ((u.finish id code true).conclude code)
      (if u.endsProcess then .halted else .returned (.ok ())) Estate.holding_conclude
      Estate.pool_conclude Estate.registry_conclude (fun _ => ?_) fun h => absurd hstay h
    · simpa [hstay, hkiller] using hkilled
    · rw [Estate.endings_conclude, hendings', hended', hends', hendings, hended, hends]
      exact ⟨rfl, rfl⟩
  · refine Yields.always (yields_finishTold (hkiller ▸ hopen) hin hknown' (hrest ▸ hstay)) ?_
    rintro _ _ ⟨rfl, rfl⟩
    have hkilled := hall (u.finish id code true) (.returned (.ok ())) rfl rfl rfl
      (fun h => absurd h hstay) fun _ => ⟨by rw [hendings', hended', hendings, hended], rfl⟩
    simpa [hstay, hkiller] using hkilled

theorem always_killAllTold (hnodup : v.registry.Nodup)
    (hknown : ∀ other ∈ v.registry, other < v.count) (hid : id ∈ v.registry)
    (hopen : (v.holding id).IsOpen) (code? : Option Int) :
    Always told me (killAllTold id code?).run (v, []) fun fate w =>
      v.KilledAll id (code?.getD ReservedCode.killed.code) fate w.1 w.2 := by
  refine Yields.run_bind (Yields.silent (yields_ensureLive_estate hopen)) ?_ fun e w hw => by
    cases hw.1.1
  rintro _ ⟨w, journal⟩ ⟨⟨-, hw⟩, rfl⟩
  obtain rfl : w = v := hw
  refine Yields.lift_bind (Yields.silent yields_othersOf) ?_
  rintro others ⟨v, journal⟩ ⟨⟨rfl, hw⟩, rfl⟩
  obtain rfl : v = w := hw
  have hvictims : ((v.registry.reverse.filter (· ≠ id)).filter fun x => (v.holding x).IsOpen) =
      v.victims id := by
    rw [List.filter_filter, Estate.victims]
    exact List.filter_congr fun x _ => by simp [Bool.and_comm]
  have hothers : ∀ x ∈ v.registry.reverse.filter (· ≠ id), x ∈ v.registry ∧ x ≠ id := fun x hx => by
    simpa using hx
  refine Yields.run_bind (yields_killOthersTold hnodup hknown hid _
    ((List.nodup_reverse.mpr hnodup).filter _) hothers) ?_ fun e w hw => by cases hw.1
  rintro _ _ ⟨-, rfl⟩
  rw [hvictims]
  exact always_finishKiller hnodup hknown hid hopen

theorem feasible_killAll (code? : Option Int) : Feasible estate True (killAll id code?).run := by
  refine Feasible.run_bind feasible_ensureLive fun _ => Feasible.run_bind
    (Feasible.lift (feasible_read _)) fun others =>
    Feasible.run_bind ?_ fun _ => feasible_finish feasible_sync true
  induction others with
  | nil => exact feasible_pure _
  | cons other others ih =>
    refine Feasible.run_bind
      (Feasible.bind (Feasible.lift (feasible_finish feasible_sync false)) fun r => ?_)
      fun _ => ih
    cases r <;> exact feasible_pure _

/-- Whoever is registered was made, and is registered once. -/
structure IsEnrolled (s : Shell) : Prop where
  nodup : s.registry.Nodup
  known : ∀ id ∈ s.registry, id < s.sessions.size

theorem isEnrolled_of_reachable {st : Floor} (h : st.Reachable) : st.shell.IsEnrolled :=
  ⟨h.inv.accounted.nodup, h.inv.accounted.known⟩

theorem stayers_of_reachable {st : Floor} (h : st.Reachable) : st.shell.estate.stayers = [] := by
  refine List.filter_eq_nil_iff.mpr fun id hin => ?_
  have hknown := h.inv.accounted.known id hin
  have hseat := (h.inv.accounted.seats id).isOpen hin
  rw [seat_seating hknown] at hseat
  have hopen : (st.shell.estate.holding id).IsOpen :=
    ⟨Option.isSome_eq_false_iff.mp hseat.2.1 |> Option.isNone_iff_eq_none.mp, hseat.2.2⟩
  simpa using hopen

/-- A kill of everyone by a session that is open and registered comes to an end. Taken as one piece,
it ends everyone whose end had not begun, the newest first and the killer at last, and then the
shell unless somebody stays. -/
theorem kills_all {s : Shell} (hs : s.IsEnrolled) (hid : id ∈ s.registry)
    (hopen : (s.estate.holding id).IsOpen) (code? : Option Int) :
    (∃ fate s', Runs estate me (killAll id code?).run s fate s') ∧
    ∀ fate s', Runs estate me (killAll id code?).run s fate s' →
      ∃ journal, Runs told me (killAllTold id code?).run (s, []) fate (s', journal) ∧
        s.estate.KilledAll id (code?.getD ReservedCode.killed.code) fate s'.estate journal := by
  refine ⟨(feasible_killAll code?).exists_runs me s, fun fate s' hr => ?_⟩
  obtain ⟨journal, htold⟩ := (erases_killAllTold id code?).exists_runs (r := []) hr
  exact ⟨journal, htold,
    always_killAllTold hs.nodup hs.known hid hopen code? (s, []) fate (s', journal) rfl htold⟩

/-- Two sessions, the newer of which has an exit hook. -/
def hooked : Shell :=
  aloneOr 0 (setExitHook 1 (.note "gone" false)).run twoSessions

/-- The older of them kills both. -/
theorem kills_all_of_hooked :
    hooked.IsEnrolled ∧ 0 ∈ hooked.registry ∧ (hooked.estate.holding 0).IsOpen ∧
    ∃ fate s' journal, Runs estate 0 (killAll 0 none).run hooked fate s' ∧
      hooked.estate.KilledAll 0 127 fate s'.estate journal ∧ s'.registry = [] ∧
      journal = [.recorded 1 127, .called 1 (.note "gone" false) 127, .left 1, .recorded 0 127,
        .left 0, .terminated 127] := by
  have hnodup : hooked.registry.Nodup := by decide +kernel
  have hknown : ∀ id ∈ hooked.registry, id < hooked.sessions.size := by decide +kernel
  have hin : 0 ∈ hooked.registry := by decide +kernel
  have hopen : (hooked.estate.holding 0).IsOpen := by decide +kernel
  obtain ⟨⟨fate, s', hr⟩, hall⟩ := @kills_all 0 0 hooked ⟨hnodup, hknown⟩ hin hopen none
  obtain ⟨journal, -, hkilled⟩ := hall fate s' hr
  refine ⟨⟨hnodup, hknown⟩, hin, hopen, fate, s', journal, hr, hkilled, ?_, ?_⟩
  · exact hkilled.registry.trans rfl
  · exact hkilled.journal.trans rfl

/-- Two sessions, the newer of which has ended with 3, but is still registered. -/
def lingering : Shell :=
  aloneOr 0 (finish 1 3 false true).run twoSessions

/-- Who has ended before is left alone by a kill, and even put in focus. -/
theorem lingers_after_killAll :
    0 ∈ lingering.registry ∧ 1 ∈ lingering.registry ∧ (lingering.estate.holding 0).IsOpen ∧
    ∃ s', Runs estate 0 (killAll 0 none).run lingering (.returned (.ok ())) s' ∧
      s'.registry = [1] ∧ (s'.session 1).exitCode = some 3 ∧ (s'.session 1).current = true ∧
      s'.endedCodes = [] ∧ s'.ended = none := by
  have hin : 0 ∈ lingering.registry ∧ 1 ∈ lingering.registry := by decide
  have hopen : (lingering.estate.holding 0).IsOpen := by decide
  have hkill : (killAll 0 none).run.runAlone? 0 lingering =
      some (.ok (), aloneOr 0 (killAll 0 none).run lingering) :=
    runAlone?_eq_aloneOr (by decide +kernel)
  refine ⟨hin.1, hin.2, hopen, _, runs_of_runAlone? hkill, ?_, ?_, ?_, ?_, ?_⟩ <;> decide +kernel

end Shell

end SessionShell
