import SessionShell.Proofs.Focus.Steps

/-!
Every operation on the focus keeps the account of it, and leaves some session in focus if there is
any and one was in focus before. The one exception is a start for which no thread can be had: it has
the focus by then, and takes it along. Where nobody is in focus, nobody but a start gets there.
-/

namespace SessionShell

open Action

theorem Seat.give_take {c : Seat} (hcurrent : c.current = true) (hp : 0 < c.permits) :
    (c.take.setCurrent true).give = c := by
  cases c
  simp only [Seat.take, Seat.setCurrent, Seat.give] at *
  simp [hcurrent, Nat.sub_add_cancel hp]

namespace Seating

variable {v w : Seating} {prompts : List SessionId} {id : SessionId}

def Settled (v : Seating) : Prop :=
  v.registry ≠ [] → v.Held

/-- From one seating to the other, all permits are accounted for, and the focus is neither lost nor
found. -/
structure Keeps (v : Seating) (prompts : List SessionId) (w : Seating) : Prop where
  accounted : w.Accounted prompts
  settled : v.Settled → w.Settled
  vacant : v.Vacant → w.Vacant

theorem Keeps.refl (h : v.Accounted prompts) : v.Keeps prompts v :=
  ⟨h, fun hsettled => hsettled, fun hvacant => hvacant⟩

theorem modify_eq_self {f : Seat → Seat} (h : f (v.seat id) = v.seat id) : v.modify id f = v := by
  simp [modify, h]

theorem vacant_of_find?_eq_none (h : v.Accounted prompts)
    (hnone : v.registry.find? (fun id => (v.seat id).current) = none) : v.Vacant := by
  intro id
  cases hc : (v.seat id).current
  · rfl
  · exact absurd hc (List.find?_eq_none.mp hnone id (h.mem_of_current hc))

theorem accounted_newSession (h : v.Accounted prompts) :
    ({ v with count := v.count + 1 } : Seating).Accounted prompts :=
  ⟨h.nodup, fun other hother => Nat.lt_succ_of_lt (h.known other hother), h.seats, h.one⟩

theorem settled_modify {f : Seat → Seat}
    (hcurrent : (v.seat id).current = true → (f (v.seat id)).current = true) (h : v.Settled) :
    (v.modify id f).Settled := by
  intro hne
  obtain ⟨holder, hin, hcur⟩ := h hne
  refine ⟨holder, hin, ?_⟩
  by_cases ho : holder = id
  · subst ho
    rw [seat_modify_self]
    exact hcurrent hcur
  · rwa [seat_modify_of_ne f ho]

theorem settled_modify_of_not_mem {f : Seat → Seat} (h : v.Settled) (hout : id ∉ v.registry) :
    (v.modify id f).Settled := by
  intro hne
  obtain ⟨holder, hin, hcur⟩ := h hne
  have hother : holder ≠ id := fun he => hout (he ▸ hin)
  exact ⟨holder, hin, by rwa [seat_modify_of_ne f hother]⟩

/-- A session leaves for good, and hands the focus on if it is to do so and has it. -/
def depart (v : Seating) (id : SessionId) (handsOn : Bool) : Seating :=
  let rest := v.remove id fun c => c.exit.dispose
  if (v.seat id).current && handsOn then
    match v.registry.heir? id with
    | some heir => rest.grant heir
    | none => rest
  else rest

theorem accounted_depart (h : v.Accounted prompts) (handsOn : Bool) :
    (v.depart id handsOn).Accounted prompts := by
  have hrest : (v.remove id fun c => c.exit.dispose).Accounted prompts :=
    accounted_remove h rfl rfl
  simp only [depart]
  split
  · next hcur =>
    have hvacant : (v.remove id fun c => c.exit.dispose).Vacant :=
      vacant_remove h (Bool.and_eq_true_iff.mp hcur).1 rfl
    cases hheir : v.registry.heir? id with
    | none => exact hrest
    | some heir => exact accounted_grant hrest hvacant (Registry.mem_of_heir? hheir)
  · exact hrest

theorem registry_depart (handsOn : Bool) :
    (v.depart id handsOn).registry = v.registry.erase id := by
  simp only [depart]
  split
  · split <;> rfl
  · rfl

theorem count_depart (handsOn : Bool) : (v.depart id handsOn).count = v.count := by
  simp only [depart]
  split
  · split <;> rfl
  · rfl

theorem settled_depart (h : v.Accounted prompts) (hs : v.Settled) :
    (v.depart id true).Settled := by
  intro hrest
  rw [registry_depart] at hrest
  have hne : v.registry ≠ [] := fun hnil => hrest (by rw [hnil]; rfl)
  simp only [depart, Bool.and_true]
  split
  · next hcur =>
    obtain ⟨heir, hin, hheir⟩ := Registry.exists_heir (h.mem_of_current hcur) hrest
    rw [hheir]
    exact held_grant hin
  · next hcur => exact held_remove (hs hne) (by simpa using hcur)

theorem vacant_depart (hv : v.Vacant) (handsOn : Bool) : (v.depart id handsOn).Vacant := by
  simp only [depart, hv id, Bool.false_and, Bool.false_eq_true, if_false]
  exact hv.modify (f := fun c => c.exit.dispose) rfl

theorem keeps_depart (h : v.Accounted prompts) : v.Keeps prompts (v.depart id true) :=
  ⟨accounted_depart h true, settled_depart h, fun hv => vacant_depart hv true⟩

end Seating

namespace Shell

variable {v x : Seating} {prompts : List SessionId} {me : ThreadId} {id : SessionId}

/-! ## Ending -/

theorem yields_handOn (index remaining : Nat)
    (hknown : ∀ other ∈ v.registry, other < v.count) :
    Yields seating me (handOn index remaining) v fun _ w =>
      w = match v.registry.get? ((index + 1) % remaining) with
        | some heir => v.grant heir
        | none => v := by
  refine Yields.bind (P := fun heir? w =>
    heir? = v.registry.get? ((index + 1) % remaining) ∧ w = v) (yields_read ?_) ?_
  · rintro s rfl
    exact ⟨rfl, rfl⟩
  · rintro _ w ⟨rfl, rfl⟩
    cases hheir : w.registry.get? ((index + 1) % remaining) with
    | none => exact always_pure _ rfl
    | some heir => exact yields_grantFocus (hknown heir (List.mem_of_getElem? hheir))

/-- A session without a hook that has recorded its code leaves the registry, and is only to be
disposed of then. -/
theorem yields_leave_none (hid : id < v.count) (hnodup : v.registry.Nodup)
    (hin : ∀ other ∈ v.registry, other < v.count) (code : Int) (handsOn : Bool) :
    Yields seating me (leave id code none handsOn) (v.modify id .exit) fun wasLast w =>
      w.modify id .dispose = v.depart id handsOn ∧ w.count = v.count ∧
        (wasLast = true → w.registry = []) := by
  -- The session is out of the registry, but for its disposal.
  let out : Seating :=
    { (v.modify id .exit).modify id (.setCurrent false) with registry := v.registry.erase id }
  have hout : out.modify id .dispose = v.remove id fun c => c.exit.dispose := by
    simp [out, Seating.remove, Seating.modify, Seat.setCurrent, Seat.dispose, Seat.exit]
  have hknown : ∀ other ∈ out.registry, other < out.count := fun other hother =>
    hin other (List.mem_of_mem_erase hother)
  have hsnd : (v.registry.remove id).2 = v.registry.erase id := Registry.remove_snd
  refine Yields.bind (yields_loseFocus (by exact hid)) ?_
  rintro wasCurrent _ ⟨hwas, rfl⟩
  have hcurrent : wasCurrent = (v.seat id).current := by
    simpa [Seat.exit] using hwas
  refine Yields.bind (P := fun removal w => removal = (v.registry.remove id).1 ∧ w = out)
    yields_leaveRegistry ?_
  rintro removal _ ⟨hremoval, rfl⟩
  have hstay : v.registry.heir? id = none → out.modify id .dispose = v.depart id handsOn := by
    intro hheir
    simp only [Seating.depart, hheir, ite_self, hout]
  cases removal with
  | last =>
    refine always_pure _ ⟨hstay ?_, rfl, fun _ => Registry.erase_of_last hremoval.symm⟩
    exact Registry.heir?_eq_none fun _ _ => by simp [← hremoval]
  | absent =>
    refine always_pure _ ⟨hstay ?_, rfl, fun h => by cases h⟩
    exact Registry.heir?_eq_none fun _ _ => by simp [← hremoval]
  | removed index remaining =>
    have hheir := Registry.heir?_of_removed hremoval.symm
    by_cases hgives : (v.seat id).current && handsOn
    · have hif : (handsOn && wasCurrent) = true := by
        rw [hcurrent, Bool.and_comm]
        exact hgives
      simp only [hif, if_true]
      refine Yields.bind (yields_handOn index remaining hknown) ?_
      rintro _ w hw
      rw [show Registry.get? out.registry ((index + 1) % remaining) = v.registry.heir? id from
        hheir.symm] at hw
      cases hh : v.registry.heir? id with
      | none =>
        rw [hh] at hw
        subst hw
        exact always_pure _ ⟨hstay hh, rfl, fun h => by cases h⟩
      | some heir =>
        rw [hh] at hw
        subst hw
        refine always_pure _ ⟨?_, rfl, fun h => by cases h⟩
        have hne : heir ≠ id := fun he =>
          (hnodup.mem_erase_iff.mp (Registry.mem_of_heir? hh)).1 he
        simp only [Seating.depart, hgives, if_true, hh, ← hout]
        exact (Seating.modify_comm _ _ hne.symm)
    · have hif : (handsOn && wasCurrent) = false := by
        rw [hcurrent, Bool.and_comm]
        exact Bool.eq_false_of_not_eq_true hgives
      simp only [hif]
      refine always_pure _ ⟨?_, rfl, fun h => by cases h⟩
      rw [hout]
      simp only [Seating.depart, hgives]
      rfl

theorem yields_leave (hid : id < v.count) (hnodup : v.registry.Nodup)
    (hknown : ∀ other ∈ v.registry, other < v.count) (code : Int) (hook? : Option ExitHook)
    (handsOn : Bool) :
    Yields seating me (leave id code hook? handsOn) (v.modify id .exit) fun wasLast w =>
      w.modify id .dispose = v.depart id handsOn ∧ w.count = v.count ∧
        (wasLast = true → w.registry = []) := by
  cases hook? with
  | none => exact yields_leave_none hid hnodup hknown code handsOn
  | some hook =>
    refine Yields.bind (P := fun _ w => w = v.modify id .exit) ?_ ?_
    · exact yields_callHook (keeps_of_quiet (quiet_runHook code hook))
    · rintro _ _ rfl
      exact yields_leave_none hid hnodup hknown code handsOn

theorem always_finish (hid : id < v.count) (hnodup : v.registry.Nodup)
    (hknown : ∀ other ∈ v.registry, other < v.count) (code : Int) (handsOn : Bool) :
    Always seating me (finish id code true handsOn).run v fun fate w =>
      (∃ e, fate = .returned (.error e)) ∧ w = v ∧
          ((v.seat id).disposed = true ∨ (v.seat id).exited = true) ∨
      (fate = .returned (.ok ()) ∨ w.registry = []) ∧ w = v.depart id handsOn := by
  refine Yields.run_bind (yields_recordCode hid code) ?_ ?_
  · rintro hook? w (⟨⟨e, he⟩, -⟩ | ⟨-, rfl⟩)
    · cases he
    · refine Yields.lift_bind (yields_leave hid hnodup hknown code hook? handsOn) ?_
      rintro wasLast w ⟨hdepart, hcount, hlast⟩
      refine Yields.lift_bind (yields_dispose (by rw [hcount]; exact hid)) ?_
      rintro _ w' rfl
      rw [hdepart]
      cases wasLast
      · exact always_pure _ (.inr ⟨.inl rfl, rfl⟩)
      · have hempty : (v.depart id handsOn).registry = [] := by rw [← hdepart]; exact hlast rfl
        refine Always.bind (always_of_quiet (quiet_terminate code)) ?_ ?_ ?_
        · rintro _ w rfl
          exact always_pure _ (.inr ⟨.inl rfl, rfl⟩)
        · rintro w rfl
          exact .inr ⟨.inr hempty, rfl⟩
        · rintro w rfl
          exact .inr ⟨.inr hempty, rfl⟩
  · rintro e w (⟨-, rfl, hended⟩ | ⟨⟨_, he⟩, -⟩)
    · exact .inl ⟨⟨e, rfl⟩, rfl, hended⟩
    · cases he

theorem always_finish_keeps (hid : id < v.count) (h : v.Accounted prompts) (code : Int) :
    Always seating me (finish id code true true).run v fun _ w => v.Keeps prompts w := by
  refine Always.mono (always_finish hid h.nodup h.known code true) ?_
  rintro fate w (⟨-, rfl, -⟩ | ⟨-, rfl⟩)
  · exact Seating.Keeps.refl h
  · exact Seating.keeps_depart h

theorem always_exit_departs (hid : id < v.count) (hnodup : v.registry.Nodup)
    (hknown : ∀ other ∈ v.registry, other < v.count) (code : Int) :
    Always seating me (exit id code).run v fun _ w => w = v ∨ w = v.depart id true := by
  have hfinish : ∀ code, Always seating me (finish id code true true).run v fun _ w =>
      w = v ∨ w = v.depart id true := fun code =>
    (always_finish hid hnodup hknown code true).mono fun _ _ h => h.imp (·.2.1) (·.2)
  refine Yields.run_bind (yields_ensureLive hid) ?_ ?_
  · rintro _ v ⟨rfl, -⟩
    split
    · refine Always.lift_bind (always_of_quiet (quiet_warning _)) ?_ ?_ ?_
      · rintro _ v rfl
        exact hfinish _
      · rintro v rfl
        exact .inl rfl
      · rintro v rfl
        exact .inl rfl
    · exact hfinish _
  · rintro e v ⟨rfl, -⟩
    exact .inl rfl

theorem always_exit (hid : id < v.count) (h : v.Accounted prompts) (code : Int) :
    Always seating me (exit id code).run v fun _ w => v.Keeps prompts w := by
  refine Always.mono (always_exit_departs hid h.nodup h.known code) ?_
  rintro fate w (rfl | rfl)
  · exact Seating.Keeps.refl h
  · exact Seating.keeps_depart h

/-! ## Starting -/

theorem always_newSession (h : v.Accounted prompts) (name : String) (script : Option String) :
    Always seating me (newSession name script) v fun _ w => v.Keeps prompts w := by
  refine Yields.always (yields_newSession name script) ?_
  rintro child _ ⟨-, -, rfl⟩
  exact ⟨Seating.accounted_newSession h, fun hsettled => hsettled, fun hvacant => hvacant⟩

theorem always_launch {P : Seating → Prop} (hid : id < v.count) (hv : P v) :
    Always seating me
      (do
        consolePlace.start
        let started ← startThread id
        unless started do
          discard (leaveRegistry id)
          dispose id
          throw threadRefused : Checked Unit).run v fun fate w =>
      (∀ e, fate ≠ .returned (.error e)) ∧ P w ∨
      fate = .returned (.error threadRefused) ∧ ∃ u, P u ∧ w = u.remove id .dispose := by
  refine Always.lift_bind (always_of_quiet quiet_start) ?_ ?_ ?_
  · rintro _ w rfl
    refine Yields.lift_bind yields_startThread ?_
    rintro started w rfl
    cases started with
    | true => exact always_pure _ (.inl ⟨by simp, hv⟩)
    | false =>
      refine Yields.run_bind (P := fun r u => r = .ok () ∧
        u = { w with registry := w.registry.erase id }) ?_ ?_ ?_
      · exact Always.discard_lift yields_leaveRegistry (fun _ _ h => ⟨rfl, h.2⟩)
          (fun _ h => h.elim) fun _ h => h.elim
      · rintro _ _ ⟨-, rfl⟩
        refine Yields.lift_bind (yields_dispose (by exact hid)) ?_
        rintro _ _ rfl
        exact always_pure _ (.inr ⟨rfl, w, hv, rfl⟩)
      · rintro e _ ⟨he, -⟩
        cases he
  · rintro _ rfl
    exact .inl ⟨by simp, hv⟩
  · rintro _ rfl
    exact .inl ⟨by simp, hv⟩

/-- A start either changes nothing, or registers the session and seats it; it leaves again if no
thread can be had. -/
theorem always_startWith {P : Seating → Prop} (hid : id < v.count) (query : String)
    (takesFocus : Bool) (htakes : (v.seat id).started = false → (v.seat id).disposed = false →
      Yields seating me (if takesFocus then takeFocus id else drainFocus id)
        { v.modify id .start with registry := v.registry ++ [id] }
        fun _ w => w.count = v.count ∧ P w) :
    Always seating me (startWith id query takesFocus).run v fun fate w =>
      (∃ e, e ≠ threadRefused ∧ fate = .returned (.error e)) ∧ w = v ∨
      (∀ e, fate ≠ .returned (.error e)) ∧ P w ∨
      fate = .returned (.error threadRefused) ∧ ∃ u, P u ∧ w = u.remove id .dispose := by
  refine Yields.run_bind (yields_ensureLive hid) ?_ fun e w h => ?_
  swap
  · obtain ⟨name, rfl⟩ := h.2.2 e rfl
    exact .inl ⟨⟨_, by simp [threadRefused], rfl⟩, h.1⟩
  rintro _ w ⟨rfl, hlive, -⟩
  refine Yields.lift_bind (P := fun _ y => y = w) (yields_read fun _ _ => rfl) ?_
  rintro language? _ rfl
  split
  · exact always_pure _ (.inl ⟨⟨_, by simp [threadRefused], rfl⟩, rfl⟩)
  · next language =>
    refine Yields.run_bind (yields_setLanguage hid language) ?_ ?_
    · rintro _ u (⟨-, _, _, he⟩ | ⟨-, hfresh, rfl⟩)
      · cases he
      refine Yields.lift_bind (yields_update_of_outline fun _ => outline_modifySession fun _ => rfl)
        ?_
      rintro _ _ rfl
      refine Yields.lift_bind yields_enterRegistry ?_
      rintro _ _ rfl
      have hseated := htakes hfresh (hlive rfl)
      cases takesFocus with
      | true =>
        refine Yields.lift_bind hseated ?_
        rintro _ u ⟨hcount, hu⟩
        exact (always_launch (hcount ▸ hid) hu).mono fun _ _ h => .inr h
      | false =>
        refine Yields.lift_bind hseated ?_
        rintro _ u ⟨hcount, hu⟩
        exact (always_launch (hcount ▸ hid) hu).mono fun _ _ h => .inr h
    · rintro e u (⟨rfl, session, name, he⟩ | ⟨he, -⟩)
      · cases he
        exact .inl ⟨⟨_, by simp [threadRefused], rfl⟩, rfl⟩
      · cases he

theorem yields_takeFocus_join (hid : id < v.count) (h : v.Accounted prompts)
    (hs : (v.seat id).started = false) :
    Yields seating me (takeFocus id) { v.modify id .start with registry := v.registry ++ [id] }
      fun _ w => v.Vacant ∧ w = v.joinCurrent id ∨
        ∃ holder ∈ v.registry, holder ≠ id ∧ (v.seat holder).current = true ∧
          0 < (v.seat holder).permits ∧ w = (v.yield holder).joinCurrent id := by
  have hout := h.not_mem_of_not_started hs
  have hcurrent : (v.seat id).current = false := (h.seats id).away hout
  have hknown : ∀ other ∈ v.registry ++ [id], other < v.count :=
    fun other hother => Seating.lt_count_of_mem_append h hid hother
  have hfind := Seating.find?_current_append hcurrent
  cases hholder : v.registry.find? (fun other => (v.seat other).current) with
  | none =>
    refine Yields.mono (yields_takeFocus_of_none (by exact hid) hknown (hfind.trans hholder)) ?_
    rintro _ w rfl
    refine .inl ⟨Seating.vacant_of_find?_eq_none h hholder, ?_⟩
    simp [Seating.joinCurrent, Seating.modify]
  | some holder =>
    have hin : holder ∈ v.registry := List.mem_of_find?_eq_some hholder
    have hholds : (v.seat holder).current = true := by
      simpa using List.find?_some hholder
    have hne : holder ≠ id := fun he => hout (he ▸ hin)
    refine Yields.mono
      (yields_takeFocus_of_some (by exact hid) hknown (hfind.trans hholder) hne) ?_
    rintro _ w ⟨hp, rfl⟩
    have hpermit : 0 < (v.seat holder).permits := by
      simpa [Seating.seat_modify_of_ne _ hne] using hp
    exact .inr ⟨holder, hin, hne, hholds, hpermit, Seating.yield_joinCurrent hne⟩

theorem yields_takeFocus (hid : id < v.count) (h : v.Accounted prompts)
    (hs : (v.seat id).started = false) (hd : (v.seat id).disposed = false) :
    Yields seating me (takeFocus id) { v.modify id .start with registry := v.registry ++ [id] }
      fun _ w => w.count = v.count ∧ w.Accounted prompts ∧ id ∈ w.registry ∧
        (w.seat id).current = true := by
  refine Yields.mono (yields_takeFocus_join hid h hs) ?_
  have hin : ∀ u : Seating, id ∈ (u.joinCurrent id).registry := fun u =>
    List.mem_append_right _ (List.mem_singleton_self id)
  have hcurrent : ∀ u : Seating, ((u.joinCurrent id).seat id).current = true := fun u => by
    simp [Seating.joinCurrent, Seat.setCurrent]
  rintro _ w (⟨hvacant, rfl⟩ | ⟨holder, hholder, hne, hholds, hpermit, rfl⟩)
  · exact ⟨rfl, Seating.accounted_joinCurrent h hvacant hid hs hd, hin _, hcurrent _⟩
  · have hseat : (v.yield holder).seat id = v.seat id := Seating.seat_modify_of_ne _ hne.symm
    refine ⟨rfl, ?_, hin _, hcurrent _⟩
    exact Seating.accounted_joinCurrent (Seating.accounted_yield h hholder hpermit)
      (Seating.vacant_yield h hholds) hid (by rw [hseat]; exact hs) (by rw [hseat]; exact hd)

/-- A start is refused before it changes anything, or has the focus; it has lost it again, for
everyone, if it is refused a thread. -/
theorem always_start (hid : id < v.count) (h : v.Accounted prompts) (query : String) :
    Always seating me (start id query).run v fun fate w =>
      (∃ e, e ≠ threadRefused ∧ fate = .returned (.error e)) ∧ w = v ∨
      (∀ e, fate ≠ .returned (.error e)) ∧ w.Accounted prompts ∧ w.Held ∨
      fate = .returned (.error threadRefused) ∧ w.Accounted prompts ∧ w.Vacant := by
  refine Always.mono (always_startWith hid query true fun hs hd => yields_takeFocus hid h hs hd) ?_
  rintro fate w (hrefused | ⟨hfate, hw, hin, hcurrent⟩ | ⟨hfate, u, ⟨hu, -, hcurrent⟩, rfl⟩)
  · exact .inl hrefused
  · exact .inr (.inl ⟨hfate, hw, id, hin, hcurrent⟩)
  · exact .inr (.inr ⟨hfate, Seating.accounted_remove hu rfl rfl,
      Seating.vacant_remove hu hcurrent rfl⟩)

theorem always_startWith_false (hid : id < v.count) (h : v.Accounted prompts)
    (hne : v.registry ≠ []) (query : String) :
    Always seating me (startWith id query false).run v fun fate w =>
      w.count = v.count ∧ v.Keeps prompts w ∧
        (∀ e, fate = .returned (.error e) → id ∉ v.registry → id ∉ w.registry) := by
  have hdrain : (v.seat id).started = false → (v.seat id).disposed = false →
      Yields seating me (drainFocus id) { v.modify id .start with registry := v.registry ++ [id] }
        fun _ w => w.count = v.count ∧ w = v.join id ∧ (v.seat id).started = false ∧
          (v.seat id).disposed = false := by
    intro hs hd
    refine Yields.mono (yields_drainFocus (by exact hid)) ?_
    rintro _ w rfl
    refine ⟨rfl, ?_, hs, hd⟩
    simp [Seating.join, Seating.modify]
  refine Always.mono (always_startWith hid query false hdrain) ?_
  rintro fate w (⟨-, rfl⟩ | ⟨hfate, rfl, hs, hd⟩ | ⟨-, u, ⟨rfl, hs, hd⟩, rfl⟩)
  · exact ⟨rfl, .refl h, fun _ _ hout => hout⟩
  · refine ⟨rfl, ⟨Seating.accounted_join h hid hs hd, fun hsettled _ => ?_, Seating.vacant_join⟩,
      fun e he => absurd he (hfate e)⟩
    exact Seating.held_join (hsettled hne) (h.not_mem_of_not_started hs)
  · have hjoin := Seating.accounted_join h hid hs hd
    have hout := h.not_mem_of_not_started hs
    refine ⟨rfl, ⟨Seating.accounted_remove hjoin rfl rfl, fun hsettled _ => ?_, fun hvacant => ?_⟩,
      fun _ _ _ hin => ?_⟩
    · refine Seating.held_remove (Seating.held_join (hsettled hne) hout) ?_
      simpa [Seating.join, Seat.start, Seat.drain] using (h.seats id).away hout
    · exact (Seating.vacant_join hvacant).modify rfl
    · exact (hjoin.nodup.mem_erase_iff.mp hin).1 rfl

/-! ## Forking -/

theorem yields_tryUpdate_seat {f : Session → Except ShellError Session} (hid : id < v.count)
    (hf : ∀ session session', f session = .ok session' → session'.seat = session.seat) :
    Yields seating me (tryUpdate id f).run v fun _ w => w = v := by
  refine yields_tryUpdate hid (fun _ _ _ _ => rfl) fun session session' hseat hok => ?_
  refine Seating.modify_eq_self ?_
  rw [hf session session' hok, hseat]

theorem yields_setMain (hid : id < v.count) (main : MainTask) :
    Yields seating me (setMain id main).run v fun _ w => w = v :=
  yields_tryUpdate_seat hid fun session session' hok => by
    split at hok
    · cases hok
    · cases hok
      rfl

theorem yields_setExitHook (hid : id < v.count) (hook : ExitHook) :
    Yields seating me (setExitHook id hook).run v fun _ w => w = v := by
  refine Yields.bind (P := fun _ w => w = v) (yields_tryUpdate_seat hid ?_) ?_
  · intro session session' hok
    split at hok
    · cases hok
    · split at hok
      · cases hok
      · cases hok
        rfl
  · rintro r w rfl
    cases r with
    | ok => exact always_pure _ rfl
    | error e =>
      refine Yields.lift_bind (yields_update_of_outline (outline_dropHook hook)) ?_
      rintro _ w rfl
      exact always_pure _ rfl

theorem always_launchChild (hid : id < v.count) (h : v.Accounted prompts) (hne : v.registry ≠ [])
    (hout : id ∉ v.registry) (language : String) :
    Always seating me
      (do
        match ← caught (startWith id language false) with
        | .ok () => return id
        | .error e =>
          dispose id
          throw e : Checked SessionId).run v fun _ w =>
      v.Keeps prompts w := by
  refine Always.lift_bind (always_startWith_false hid h hne language) ?_ ?_ ?_
  · rintro r w ⟨hcount, hw, hleft⟩
    cases r with
    | ok => exact always_pure _ hw
    | error e =>
      refine Yields.lift_bind (yields_dispose (hcount ▸ hid)) ?_
      rintro _ _ rfl
      have hgone := hleft e rfl hout
      exact always_pure _ ⟨Seating.accounted_dispose hw.accounted hgone,
        fun hv => Seating.settled_modify_of_not_mem (hw.settled hv) hgone,
        fun hv => (hw.vacant hv).modify rfl⟩
  · exact fun w hw => hw.2.1
  · exact fun w hw => hw.2.1

theorem always_forkWith (hid : id < v.count) (h : v.Accounted prompts) (hne : v.registry ≠ [])
    (options : ForkOptions) (main : MainTask) :
    Always seating me (forkWith id options main).run v fun _ w =>
      v.Keeps prompts w := by
  refine Yields.lift_bind (P := fun _ y => y = v) (yields_read fun _ _ => rfl) ?_
  rintro language v rfl
  refine Yields.lift_bind (P := fun _ y => y = v) (yields_read fun _ _ => rfl) ?_
  rintro parent v rfl
  refine Yields.lift_bind (yields_newSession _ _) ?_
  rintro child _ ⟨rfl, -, rfl⟩
  have hu := Seating.accounted_newSession h
  have hout : v.count ∉ v.registry := fun hin => absurd (h.known _ hin) (lt_irrefl _)
  have hchild : v.count < v.count + 1 := Nat.lt_succ_self _
  refine Yields.run_bind (yields_setMain hchild main) ?_ ?_
  · rintro _ u rfl
    split
    · next hook _ =>
      refine Yields.run_bind (yields_setExitHook hchild hook) ?_ ?_
      · rintro _ u rfl
        exact Always.mono (always_launchChild hchild hu hne hout language) fun _ _ hw =>
          ⟨hw.accounted, hw.settled, hw.vacant⟩
      · rintro _ u rfl
        exact ⟨hu, fun hsettled => hsettled, fun hvacant => hvacant⟩
    · exact Always.mono (always_launchChild hchild hu hne hout language) fun _ _ hw =>
        ⟨hw.accounted, hw.settled, hw.vacant⟩
  · rintro _ u rfl
    exact ⟨hu, fun hsettled => hsettled, fun hvacant => hvacant⟩

theorem yields_childMain (options : ForkOptions) :
    Yields seating me (childMain options) v fun _ w => w = v := by
  simp only [childMain]
  split
  · exact always_pure _ rfl
  · refine Yields.bind (P := fun _ w => w = v) (yields_read fun _ _ => rfl) ?_
    rintro file? v rfl
    cases file? with
    | none => exact always_pure _ rfl
    | some file => exact always_pure _ rfl

theorem always_fork (hid : id < v.count) (h : v.Accounted prompts)
    (hs : (v.seat id).started = true) (options : ForkOptions) :
    Always seating me (fork id options).run v fun _ w =>
      v.Keeps prompts w := by
  refine Yields.lift_bind (yields_getSession hid) ?_
  rintro session v ⟨rfl, hseat⟩
  cases hd : session.disposed with
  | true =>
    simp only [if_true]
    refine Yields.lift_bind (yields_dropHook? _) ?_
    rintro _ v rfl
    exact always_pure _ (Seating.Keeps.refl h)
  | false =>
    have hdisposed : (v.seat id).disposed = false := by
      rw [← hseat]
      exact hd
    have hne : v.registry ≠ [] := List.ne_nil_of_mem (h.mem_of_started hs hdisposed)
    simp only [Bool.false_eq_true, if_false]
    refine Yields.lift_bind (yields_childMain options) ?_
    rintro main? v rfl
    cases main? with
    | some main =>
      refine Always.run_bind (always_forkWith hid h hne options main) ?_ ?_ ?_ ?_
      · exact fun child w hw => always_pure _ hw
      · exact fun e w hw => hw
      · exact fun w hw => hw
      · exact fun w hw => hw
    | none =>
      refine Always.lift_bind (always_of_quiet (quiet_reportError _)) ?_ ?_ ?_
      · rintro _ v rfl
        split
        · refine Always.lift_bind (always_of_quiet (quiet_runHook _ _)) ?_ ?_ ?_
          · rintro _ v rfl
            exact always_pure _ (Seating.Keeps.refl h)
          · rintro v rfl
            exact Seating.Keeps.refl h
          · rintro v rfl
            exact Seating.Keeps.refl h
        · exact always_pure _ (Seating.Keeps.refl h)
      · rintro v rfl
        exact Seating.Keeps.refl h
      · rintro v rfl
        exact Seating.Keeps.refl h

/-! ## Handing the focus on -/

/-- Whoever jumps takes its own permit first, and either gives it back or passes the focus on. -/
theorem always_jumpTo_passes (hid : id < v.count)
    (hknown : ∀ other ∈ v.registry, other < v.count)
    (hcurrent : (v.seat id).disposed = false → 0 < (v.seat id).permits → (v.seat id).current = true)
    (index : Nat) :
    Always seating me (jumpTo id index).run v fun _ w =>
      w = v ∨ (v.seat id).disposed = false ∧ 0 < (v.seat id).permits ∧
        ∃ target ∈ v.registry, target ≠ id ∧ w = (v.yield id).grant target := by
  refine Yields.run_bind (yields_ensureLive hid) ?_ fun e w h => .inl h.1
  rintro _ v ⟨rfl, hlive, -⟩
  have hd := hlive rfl
  refine Yields.lift_bind (yields_acquire hid) ?_
  rintro _ _ ⟨hp, rfl⟩
  -- The permit that was taken is given back.
  have hback : Yields seating me (grantFocus id) (v.modify id .take) fun _ w => w = v := by
    refine Yields.mono (yields_grantFocus (by exact hid)) ?_
    rintro _ _ rfl
    rw [Seating.grant, Seating.modify_modify]
    exact Seating.modify_eq_self (Seat.give_take (hcurrent hd hp) hp)
  refine Yields.lift_bind (P := fun target? w => target? = v.registry.get? index ∧
    w = v.modify id .take) (yields_read ?_) ?_
  · rintro s hseating
    exact ⟨congrArg (·.registry.get? index) hseating, rfl⟩
  rintro target? _ ⟨htarget, rfl⟩
  cases target? with
  | none =>
    refine Yields.lift_bind hback ?_
    rintro _ v rfl
    refine Yields.lift_bind (P := fun _ w => w = v) (yields_read fun _ _ => rfl) ?_
    rintro count v rfl
    exact always_pure _ (.inl rfl)
  | some target =>
    have htargetIn : target ∈ v.registry := List.mem_of_getElem? htarget.symm
    refine Yields.lift_bind (yields_getSession (by exact hknown target htargetIn)) ?_
    rintro other _ ⟨rfl, -⟩
    cases hother : other.disposed with
    | true =>
      refine Yields.lift_bind hback ?_
      rintro _ v rfl
      exact always_pure _ (.inl rfl)
    | false =>
      by_cases hself : target = id
      · simp only [hself, if_true, Bool.false_eq_true, if_false]
        refine Yields.lift hback ?_
        rintro _ v rfl
        exact .inl rfl
      · simp only [hself, Bool.false_eq_true, if_false]
        refine Yields.lift_bind (yields_setCurrent (by exact hid) false) ?_
        rintro _ _ rfl
        refine Yields.lift (yields_grantFocus (by exact hknown target htargetIn)) ?_
        rintro _ _ rfl
        have hyield : (v.modify id .take).modify id (.setCurrent false) = v.yield id :=
          Seating.modify_modify _ _
        rw [hyield]
        exact .inr ⟨hd, hp, target, htargetIn, hself, rfl⟩

theorem always_jumpTo (hid : id < v.count) (h : v.Accounted prompts)
    (hs : (v.seat id).started = true) (index : Nat) :
    Always seating me (jumpTo id index).run v fun _ w =>
      v.Keeps prompts w := by
  have hcurrent : (v.seat id).disposed = false → 0 < (v.seat id).permits →
      (v.seat id).current = true := fun hd hp =>
    (h.current_of_permit (h.mem_of_started hs hd) hp).1
  refine Always.mono (always_jumpTo_passes hid h.known hcurrent index) ?_
  rintro fate w (rfl | ⟨hd, hp, target, hin, -, rfl⟩)
  · exact Seating.Keeps.refl h
  · refine ⟨Seating.accounted_grant (Seating.accounted_yield h (h.mem_of_started hs hd) hp)
      (Seating.vacant_yield h (hcurrent hd hp)) hin, fun _ _ => Seating.held_grant hin,
      fun hv => ?_⟩
    simp [hv id] at hcurrent
    exact absurd hp (Nat.not_lt.mpr (Nat.le_of_eq (hcurrent hd)))

/-! ## Prompts -/

/-- The part of a prompt up to the permit. -/
def beginPrompt (id : SessionId) : Checked Unit := do
  ensureLive id
  acquire id

/-- The part of a prompt that has the permit, and gives it back. -/
def finishPrompt (id : SessionId) (text : String) : Checked ReadOutcome := do
  let outcome ← caught (askLine id text)
  release id
  MonadExcept.ofExcept outcome

theorem prompt_eq_bind (text : String) :
    prompt id text = (beginPrompt id >>= fun _ => finishPrompt id text) := by
  simp [prompt, beginPrompt, finishPrompt]

theorem yields_beginPrompt_takes (hid : id < v.count) :
    Yields seating me (beginPrompt id).run v fun r w =>
      (∃ e, r = .error e) ∧ w = v ∨
      r = .ok () ∧ (v.seat id).disposed = false ∧ 0 < (v.seat id).permits ∧
        w = v.modify id .take := by
  refine Yields.run_bind (yields_ensureLive hid) ?_ fun e w hw => .inl ⟨⟨e, rfl⟩, hw.1⟩
  rintro _ v ⟨rfl, hlive, -⟩
  refine Yields.lift (yields_acquire hid) ?_
  rintro _ w ⟨hp, rfl⟩
  exact .inr ⟨rfl, hlive rfl, hp, rfl⟩

theorem yields_beginPrompt (hid : id < v.count) (h : v.Accounted prompts)
    (hs : (v.seat id).started = true) :
    Yields seating me (beginPrompt id).run v fun r w =>
      (∃ e, r = .error e) ∧ w = v ∨
      r = .ok () ∧ w.Accounted (id :: prompts) ∧ (v.Settled → w.Settled) ∧
        (v.Vacant → w.Vacant) := by
  refine Yields.mono (yields_beginPrompt_takes hid) ?_
  rintro r w (hrefused | ⟨rfl, hd, hp, rfl⟩)
  · exact .inl hrefused
  · exact .inr ⟨rfl, Seating.accounted_take h (h.mem_of_started hs hd) hp,
      Seating.settled_modify fun hcurrent => hcurrent, fun hv => hv.modify (hv id)⟩

theorem always_finishPrompt_gives (hid : id < v.count) (text : String) :
    Always seating me (finishPrompt id text).run v fun fate w =>
      match fate with
      | .returned _ => w = v.modify id .give
      | _ => w = v := by
  refine Always.lift_bind (always_of_quiet (quiet_askLine text)) ?_ ?_ ?_
  · rintro outcome v rfl
    refine Yields.lift_bind (yields_release hid) ?_
    rintro _ w rfl
    cases outcome with
    | ok line => exact always_pure _ rfl
    | error e => exact always_pure _ rfl
  · exact fun _ h => h
  · exact fun _ h => h

theorem always_finishPrompt (hid : id < v.count) (h : v.Accounted prompts) (hin : id ∈ prompts)
    (text : String) :
    Always seating me (finishPrompt id text).run v fun fate w =>
      (v.Settled → w.Settled) ∧ (v.Vacant → w.Vacant) ∧
        match fate with
        | .returned _ => w.Accounted (prompts.erase id)
        | _ => w.Accounted prompts := by
  refine Always.mono (always_finishPrompt_gives hid text) ?_
  rintro (r | _ | _) w hw
  · obtain rfl : w = v.modify id .give := hw
    exact ⟨Seating.settled_modify fun hcurrent => hcurrent, fun hv => hv.modify (hv id),
      Seating.accounted_give h hin⟩
  · obtain rfl : w = v := hw
    exact ⟨fun hsettled => hsettled, fun hvacant => hvacant, h⟩
  · obtain rfl : w = v := hw
    exact ⟨fun hsettled => hsettled, fun hvacant => hvacant, h⟩

/-! ## Killing -/

theorem yields_killOther {other : SessionId} (code : Int) (h : v.Accounted prompts)
    (hid : id ∈ v.registry) (hother : other < v.count) (hne : other ≠ id) :
    Yields seating me (discard (caught (finish other code true false)) : Checked Unit).run v
      fun r w => r = .ok () ∧ w.count = v.count ∧ w.Accounted prompts ∧ (v.Vacant → w.Vacant) ∧
        id ∈ w.registry ∧ ∀ left ∈ w.registry, left ∈ v.registry ∧ left ≠ other := by
  have hleft : id ∈ v.registry.erase other := (List.mem_erase_of_ne hne.symm).mpr hid
  have hdepart : (v.depart other false).registry ≠ [] := by
    rw [Seating.registry_depart]
    exact List.ne_nil_of_mem hleft
  refine Always.discard_lift (always_finish hother h.nodup h.known code false) ?_ ?_ ?_
  · rintro r w (⟨-, rfl, hended⟩ | ⟨-, rfl⟩)
    · refine ⟨rfl, rfl, h, fun hv => hv, hid, fun left hin => ⟨hin, fun he => ?_⟩⟩
      have hopen := (h.seats other).isOpen (he ▸ hin)
      rcases hended with hd | hx
      · simp [hopen.2.2] at hd
      · simp [hopen.2.1] at hx
    · rw [Fate.Returns, Seating.registry_depart]
      refine ⟨rfl, Seating.count_depart false, Seating.accounted_depart h false,
        fun hv => Seating.vacant_depart hv false, hleft, ?_⟩
      intro left hin
      exact (h.nodup.mem_erase_iff.mp hin).symm
  · rintro w (⟨⟨e, he⟩, -⟩ | ⟨hfate | hempty, rfl⟩)
    · cases he
    · cases hfate
    · exact absurd hempty hdepart
  · rintro w (⟨⟨e, he⟩, -⟩ | ⟨hfate | hempty, rfl⟩)
    · cases he
    · cases hfate
    · exact absurd hempty hdepart

/-- The others are gone after they were killed one after the other, and the killer is
still there. -/
theorem yields_killOthers (code : Int) (h : v.Accounted prompts) (hid : id ∈ v.registry)
    (others : List SessionId) (hothers : ∀ other ∈ others, other < v.count ∧ other ≠ id) :
    Yields seating me
      (others.forM fun other => discard (caught (finish other code true false)) : Checked Unit).run
        v
      fun r w => r = .ok () ∧ w.count = v.count ∧ w.Accounted prompts ∧ (v.Vacant → w.Vacant) ∧
        id ∈ w.registry ∧ ∀ left ∈ w.registry, left ∈ v.registry ∧ left ∉ others := by
  -- On the others yet to be killed, from whatever seating the kills so far have left.
  induction others generalizing v with
  | nil =>
    exact always_pure _ ⟨rfl, rfl, h, fun hv => hv, hid, fun left hin => ⟨hin, List.not_mem_nil⟩⟩
  | cons other others ih =>
    obtain ⟨hother, hne⟩ := hothers other List.mem_cons_self
    refine Yields.run_bind (yields_killOther code h hid hother hne) ?_ fun e w hw => by cases hw.1
    rintro _ w ⟨-, hcount, hw, hvacant, hidw, hleft⟩
    refine Yields.mono (ih hw hidw fun o ho => hcount ▸ hothers o (List.mem_cons_of_mem _ ho)) ?_
    rintro r u ⟨hr, hcountu, hu, hvacantu, hidu, hleftu⟩
    refine ⟨hr, hcountu.trans hcount, hu, fun hv => hvacantu (hvacant hv), hidu, fun left hin => ?_⟩
    obtain ⟨hinw, hnot⟩ := hleftu left hin
    obtain ⟨hinv, hneother⟩ := hleft left hinw
    exact ⟨hinv, by simp [hneother, hnot]⟩

theorem always_killAll (hid : id < v.count) (h : v.Accounted prompts)
    (hs : (v.seat id).started = true) (code? : Option Int) :
    Always seating me (killAll id code?).run v fun _ w =>
      v.Keeps prompts w := by
  refine Yields.run_bind (yields_ensureLive hid) ?_ ?_
  · rintro _ v ⟨rfl, hlive, -⟩
    have hin := h.mem_of_started hs (hlive rfl)
    refine Yields.lift_bind (P := fun others w =>
      others = v.registry.reverse.filter (· ≠ id) ∧ w = v) (yields_read ?_) ?_
    · rintro s rfl
      exact ⟨rfl, rfl⟩
    rintro others v ⟨hothers, rfl⟩
    have hmem : ∀ other, other ∈ others ↔ other ∈ v.registry ∧ other ≠ id := by
      simp [hothers]
    have hknown : ∀ other ∈ others, other < v.count ∧ other ≠ id := fun other ho =>
      ⟨h.known other ((hmem other).mp ho).1, ((hmem other).mp ho).2⟩
    refine Yields.run_bind (yields_killOthers _ h hin others hknown) ?_ fun e w hw => by cases hw.1
    rintro _ w ⟨-, hcount, hw, hvacant, hidw, hleft⟩
    -- Nobody but the killer is left, who leaves as the last one.
    have hempty : (w.depart id true).registry = [] := by
      rw [Seating.registry_depart, List.eq_nil_iff_forall_not_mem]
      intro left hl
      obtain ⟨hne, hlw⟩ := hw.nodup.mem_erase_iff.mp hl
      obtain ⟨hlv, hnot⟩ := hleft left hlw
      exact hnot ((hmem left).mpr ⟨hlv, hne⟩)
    refine Always.mono (always_finish (hcount ▸ hid) hw.nodup hw.known _ true) ?_
    rintro fate u (⟨-, rfl, hended⟩ | ⟨-, rfl⟩)
    · have hopen := (hw.seats id).isOpen hidw
      rcases hended with hd | hx
      · simp [hopen.2.2] at hd
      · simp [hopen.2.1] at hx
    · exact ⟨Seating.accounted_depart hw true, fun _ hne => absurd hempty hne,
        fun hv => Seating.vacant_depart (hvacant hv) true⟩
  · rintro e v ⟨rfl, -⟩
    exact Seating.Keeps.refl h

end Shell

end SessionShell
