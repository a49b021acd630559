import SessionShell.Proofs.Sequence.Reciting
import SessionShell.Proofs.Turns.Printing

/-!
All that a sequential batch is made of: its host, the sessions of its scripts so far, and the two
threads that write.

The deeds that these sessions have still to do are counted in. So what will have been printed in the
end, and which codes come to the batch, does not depend on how far each of them is.
-/

namespace SessionShell

open Action Shell

def Shell.sheets (s : Shell) : Writing :=
  ⟨⟨s.console.out, s.console.outWritten⟩, ⟨s.console.err, s.console.errWritten⟩, s.started⟩

def Sheet.print (texts : List String) (x : Sheet) : Sheet :=
  texts.foldl (fun x text => x.enqueue (.request text)) x

namespace Sheet

variable {x : Sheet} {texts texts' written waiting : List String} {marks : Nat}

theorem print_append : x.print (texts ++ texts') = (x.print texts).print texts' :=
  List.foldl_append

theorem print_page : (page written waiting marks).print texts = page written
    (waiting ++ texts) marks := by
  induction texts generalizing waiting with
  | nil => simp [print]
  | cons text texts ih =>
    have hnew : (page written waiting marks).enqueue (.request text) =
        page written (waiting ++ [text]) marks := by
      simp [enqueue, StreamService.enqueue, page]
    change Sheet.print texts ((page written waiting marks).enqueue (.request text)) = _
    rw [hnew, ih, List.append_assoc, List.singleton_append]

theorem discipline_enqueue (q : Queued String) :
    (x.enqueue q).service.discipline = x.service.discipline := by
  cases h : x.service.discipline <;> simp [enqueue, StreamService.enqueue, h]

theorem started_print : (x.print texts).service.started = x.service.started := by
  induction texts generalizing x with
  | nil => rfl
  | cons text texts ih =>
    refine (ih (x := x.enqueue (.request text))).trans ?_
    cases h : x.service.discipline <;> simp [enqueue, StreamService.enqueue, h]

end Sheet

namespace Sequence

/-! ## What is still to come -/

namespace Deed

def out? : Deed → Option String
  | .say w => w.out?
  | _ => none

def err? : Deed → Option String
  | .say w => w.err?
  | _ => none

def code? : Deed → Option (String × Int)
  | .send label code => some (label, code)
  | _ => none

def drop? : Deed → Option Unit
  | .drop => some ()
  | _ => none

end Deed

def Quiet (deeds : List Deed) : Prop :=
  ∀ deed ∈ deeds, deed = .drop ∨ deed = .leave

def Orderly : List Deed → Prop
  | [] => True
  | .say _ :: deeds => (∃ label code, .send label code ∈ deeds) ∧ Orderly deeds
  | _ :: deeds => Orderly deeds

variable {deeds deeds' : List Deed} {β : Type} {f : Deed → Option β}

theorem Orderly.of_append (h : Orderly (deeds ++ deeds')) : Orderly deeds' := by
  induction deeds with
  | nil => exact h
  | cons deed deeds ih =>
    cases deed with
    | say => exact ih h.2
    | send => exact ih h
    | drop => exact ih h
    | leave => exact ih h

theorem Orderly.quiet (h : Orderly deeds) (hcodes : deeds.filterMap Deed.code? = []) :
    Quiet deeds := by
  induction deeds with
  | nil => exact nofun
  | cons deed deeds ih =>
    cases deed with
    | say w =>
      obtain ⟨⟨label, code, hin⟩, -⟩ := h
      have hsent : (label, code) ∈ deeds.filterMap Deed.code? :=
        List.mem_filterMap.mpr ⟨_, hin, rfl⟩
      rw [show deeds.filterMap Deed.code? = [] from hcodes] at hsent
      exact absurd hsent List.not_mem_nil
    | send => cases hcodes
    | drop => exact List.forall_mem_cons.mpr ⟨.inl rfl, ih h hcodes⟩
    | leave => exact List.forall_mem_cons.mpr ⟨.inr rfl, ih h hcodes⟩

namespace Turn

def work (turn : Turn) : List Deed :=
  turn.sayings.map .say ++ [.send turn.target turn.code, .drop, .leave]

variable {turn : Turn}

theorem orderly_work : Orderly turn.work := by
  obtain ⟨target, sayings, code⟩ := turn
  induction sayings with
  | nil => trivial
  | cons w sayings ih => exact ⟨⟨target, code, by simp⟩, ih⟩

theorem filterMap_work : turn.work.filterMap f =
    turn.sayings.filterMap (fun w => f (.say w)) ++
      [.send turn.target turn.code, .drop, .leave].filterMap f := by
  rw [work, List.filterMap_append, List.filterMap_map]
  rfl

theorem outs_work : turn.work.filterMap Deed.out? = turn.sayings.filterMap Saying.out? :=
  filterMap_work.trans (List.append_nil _)

theorem errs_work : turn.work.filterMap Deed.err? = turn.sayings.filterMap Saying.err? :=
  filterMap_work.trans (List.append_nil _)

theorem codes_work : turn.work.filterMap Deed.code? = [(turn.target, turn.code)] := by
  have hnone : turn.sayings.filterMap (fun w => Deed.code? (.say w)) = [] :=
    List.filterMap_eq_nil_iff.mpr fun _ _ => rfl
  rw [filterMap_work, hnone]
  rfl

theorem drops_work : turn.work.filterMap Deed.drop? = [()] := by
  have hnone : turn.sayings.filterMap (fun w => Deed.drop? (.say w)) = [] :=
    List.filterMap_eq_nil_iff.mpr fun _ _ => rfl
  rw [filterMap_work, hnone]
  rfl

theorem leave_mem_work : .leave ∈ turn.work := by
  simp [work]

end Turn

theorem Quiet.filterMap_eq_nil (h : Quiet deeds) (hdrop : f .drop = none)
    (hleave : f .leave = none) :
    deeds.filterMap f = [] := by
  refine List.filterMap_eq_nil_iff.mpr fun deed hdeed => ?_
  rcases h deed hdeed with rfl | rfl
  · exact hdrop
  · exact hleave

structure Kid where
  id : SessionId
  thread : ThreadId
  recital : Recital
  rest? : Option (Action Shell (Option Role))

def awaited (f : Deed → Option β) (kids : List Kid) : List β :=
  kids.flatMap fun k => k.recital.deeds.filterMap f

variable {kids before after : List Kid} {k : Kid} {a : Recital} {deed? : Option Deed}
  {rest? : Option (Action Shell (Option Role))}

theorem awaited_append (kids kids' : List Kid) :
    awaited f (kids ++ kids') = awaited f kids ++ awaited f kids' :=
  List.flatMap_append

theorem awaited_cons : awaited f (k :: kids) = k.recital.deeds.filterMap f ++ awaited f kids :=
  List.flatMap_cons

theorem awaited_eq_nil (h : ∀ k ∈ kids, Quiet k.recital.deeds) (hdrop : f .drop = none)
    (hleave : f .leave = none) : awaited f kids = [] :=
  List.flatMap_eq_nil_iff.mpr fun k hk => (h k hk).filterMap_eq_nil hdrop hleave

theorem filterMap_deeds (h : deeds = deed?.toList ++ deeds') :
    deeds.filterMap f = (deed?.bind f).toList ++ deeds'.filterMap f := by
  subst h
  cases deed? with
  | none => rfl
  | some deed => cases hf : f deed <;> simp [hf]

theorem awaited_step (f : Deed → Option β) (rest? : Option (Action Shell (Option Role)))
    (hquiet : ∀ k ∈ before, Quiet k.recital.deeds) (hdrop : f .drop = none)
    (hleave : f .leave = none) (hdeeds : k.recital.deeds = deed?.toList ++ a.deeds) :
    awaited f (before ++ k :: after) =
      (deed?.bind f).toList ++ awaited f (before ++ { k with recital := a, rest? } :: after) := by
  rw [awaited_append, awaited_append, awaited_cons, awaited_cons,
    awaited_eq_nil hquiet hdrop hleave, filterMap_deeds hdeeds]
  simp

theorem length_awaited_step (f : Deed → Option β) (rest? : Option (Action Shell (Option Role)))
    (hdeeds : k.recital.deeds = deed?.toList ++ a.deeds) :
    (awaited f (before ++ k :: after)).length =
      (deed?.bind f).toList.length +
        (awaited f (before ++ { k with recital := a, rest? } :: after)).length := by
  rw [awaited_append, awaited_append, awaited_cons, awaited_cons, filterMap_deeds hdeeds]
  simp only [List.length_append]
  omega

/-! ## The sessions of scripts -/

/-- The sessions of the scripts so far. Only the last one can have something to say or to send. -/
structure Troupe (kids : List Kid) : Prop where
  ids : kids.map Kid.id = List.range' 1 kids.length
  orderly : ∀ k ∈ kids, Orderly k.recital.deeds
  quiet : kids.Pairwise fun k _ => Quiet k.recital.deeds
  disposed : ∀ k ∈ kids, k.recital.own.disposed = true → k.recital.deeds = []

namespace Troupe

theorem before_quiet (h : Troupe (before ++ k :: after)) : ∀ k ∈ before, Quiet k.recital.deeds :=
  fun k' hk' => (List.pairwise_append.mp h.quiet).2.2 k' hk' k List.mem_cons_self

theorem ids_nodup (h : Troupe kids) : (kids.map Kid.id).Nodup := by
  rw [h.ids]
  exact List.nodup_range'

theorem id_ne_zero (h : Troupe kids) (hk : k ∈ kids) : k.id ≠ 0 := by
  have hin : k.id ∈ List.range' 1 kids.length := h.ids ▸ List.mem_map_of_mem hk
  exact Nat.pos_iff_ne_zero.mp (List.mem_range'_1.mp hin).1

theorem id_le (h : Troupe kids) (hk : k ∈ kids) : k.id ≤ kids.length := by
  have hin : k.id ∈ List.range' 1 kids.length := h.ids ▸ List.mem_map_of_mem hk
  exact Nat.lt_one_add_iff.mp (List.mem_range'_1.mp hin).2

theorem id_ne (h : Troupe (before ++ k :: after)) {k' : Kid} (hk' : k' ∈ before ++ after) :
    k'.id ≠ k.id := by
  have hnodup := h.ids_nodup
  rw [List.map_append, List.map_cons, List.nodup_middle, ← List.map_append,
    List.nodup_cons] at hnodup
  exact fun heq => hnodup.1 (heq ▸ List.mem_map_of_mem hk')

theorem step (h : Troupe (before ++ k :: after))
    (hdeeds : k.recital.deeds = deed?.toList ++ a.deeds)
    (hdisposed : a.own.disposed = true → a.deeds = []) :
    Troupe (before ++ { k with recital := a, rest? } :: after) where
  ids := by simpa using h.ids
  orderly := by
    have horderly := h.orderly
    simp only [List.forall_mem_append, List.forall_mem_cons] at horderly ⊢
    exact ⟨horderly.1, (hdeeds ▸ horderly.2.1 : Orderly (deed?.toList ++ a.deeds)).of_append,
      horderly.2.2⟩
  quiet := by
    have hquiet := h.quiet
    simp only [List.pairwise_append, List.pairwise_cons, List.forall_mem_cons] at hquiet ⊢
    obtain ⟨hbefore, ⟨hk, hafter⟩, hacross⟩ := hquiet
    refine ⟨hbefore, ⟨fun k' hk' deed hdeed => hk k' hk' deed ?_, hafter⟩, hacross⟩
    rw [hdeeds]
    exact List.mem_append_right _ hdeed
  disposed := by
    have hold := h.disposed
    simp only [List.forall_mem_append, List.forall_mem_cons] at hold ⊢
    exact ⟨hold.1, hdisposed, hold.2.2⟩

theorem join (h : Troupe kids) (hquiet : ∀ k ∈ kids, Quiet k.recital.deeds)
    (hid : k.id = kids.length + 1)
    (horderly : Orderly k.recital.deeds) (hlive : k.recital.own.disposed = false) :
      Troupe (kids ++ [k]) where
  ids := by
    rw [List.map_append, h.ids, List.length_append, List.length_singleton, List.range'_1_concat,
      List.map_singleton, hid, Nat.add_comm]
  orderly := by
    simp only [List.forall_mem_append, List.forall_mem_singleton]
    exact ⟨h.orderly, horderly⟩
  quiet := by
    simp only [List.pairwise_append, List.pairwise_singleton, List.forall_mem_singleton]
    exact ⟨h.quiet, trivial, hquiet⟩
  disposed := by
    simp only [List.forall_mem_append, List.forall_mem_singleton]
    exact ⟨h.disposed, fun hd => nomatch hlive.symm.trans hd⟩

end Troupe

/-- How the sessions stand in the shell. The newcomer has no thread yet. -/
structure Cast (host : Session) (newcomer? : Option Session) (kids : List Kid)
    (sessions : Array Session) :
    Prop where
  size : sessions.size = kids.length + 1 + newcomer?.toList.length
  host : sessions[0]?.getD default = host
  newcomer : ∀ x, newcomer? = some x → sessions[kids.length + 1]?.getD default = x
  own : ∀ k ∈ kids, sessions[k.id]?.getD default = k.recital.own

/-! ## Codes -/

def Mail (shares? : Option Nat) (codes : List (String × Int)) (kids : List Kid)
    (channels : Array Channel) :
    Prop :=
  match shares? with
  | none => kids = [] ∧ channels = #[]
  | some shares =>
    ∃ queue senders, channels = #[⟨queue, senders⟩] ∧ queue ++ awaited Deed.code? kids = codes ∧
      shares + (awaited Deed.drop? kids).length ≤ senders

/-! ## Output -/

def Ink (f : Deed → Option String) (total : Sheet) (kids : List Kid) (held : Option (Queued String))
    (x : Sheet) : Prop :=
  ∃ c, c.service.discipline = .fifo ∧ x.Trails held c ∧ c.print (awaited f kids) = total

namespace Ink

variable {g : Deed → Option String} {total x x' : Sheet} {kids' : List Kid}
  {held held' : Option (Queued String)} {text : String}

theorem congr (h : Ink g total kids held x) (hsame : awaited g kids = awaited g kids') :
    Ink g total kids' held x := by
  rwa [Ink, ← hsame]

theorem say (h : Ink g total kids held x) (hnext : awaited g kids = text :: awaited g kids') :
    Ink g total kids' held (x.enqueue (.request text)) := by
  obtain ⟨c, hfifo, htrails, hprint⟩ := h
  refine ⟨c.enqueue (.request text), (c.discipline_enqueue _).trans hfifo,
    htrails.enqueue hfifo, ?_⟩
  rw [← hprint, hnext]
  rfl

theorem trails (h : Ink g total kids held x) (hnil : awaited g kids = []) :
    total.service.discipline = .fifo ∧ x.Trails held total := by
  obtain ⟨c, hfifo, htrails, hprint⟩ := h
  rw [hnil] at hprint
  subst hprint
  exact ⟨hfifo, htrails⟩

theorem of_trails (hfifo : total.service.discipline = .fifo) (htrails : x.Trails held total)
    (hnil : awaited g kids = []) : Ink g total kids held x :=
  ⟨total, hfifo, htrails, by rw [hnil]; rfl⟩

theorem print (h : Ink g total kids held x) (hnil : awaited g kids = []) :
    Ink g (total.enqueue (.request text)) kids held (x.enqueue (.request text)) :=
  of_trails ((total.discipline_enqueue _).trans (h.trails hnil).1)
    ((h.trails hnil).2.enqueue (h.trails hnil).1)
    hnil

theorem join (h : Ink g total kids held x) (kids' : List Kid) :
    Ink g (total.print (awaited g kids')) (kids ++ kids') held x := by
  obtain ⟨c, hfifo, htrails, hprint⟩ := h
  refine ⟨c, hfifo, htrails, ?_⟩
  rw [awaited_append, Sheet.print_append, hprint]

theorem started (h : Ink g total kids held x) : x.service.started = total.service.started := by
  obtain ⟨c, -, htrails, hprint⟩ := h
  rw [← hprint, Sheet.started_print, htrails.started]

theorem scribe (h : Ink g total kids held x) (hx : ∀ c, x.Trails held c → x'.Trails held' c) :
    Ink g total kids held' x' := by
  obtain ⟨c, hfifo, htrails, hprint⟩ := h
  exact ⟨c, hfifo, hx c htrails, hprint⟩

end Ink

/-! ## All together -/

/-- Who is registered: the host, and whoever has been started and has not left. -/
structure Roll (present enrolled : Bool) (kids : List Kid) (registry : Registry) : Prop where
  nodup : registry.Nodup
  host : present = true → 0 ∈ registry
  others : ∀ id ∈ registry, id = 0 ∨ (enrolled = true ∧ id = kids.length + 1) ∨
    ∃ k ∈ kids, k.id = id ∧ .leave ∈ k.recital.deeds

structure Stage where
  host : Session
  count : Nat
  newcomer? : Option Session
  enrolled : Bool
  shares? : Option Nat
  codes : List (String × Int)
  out : Sheet
  err : Sheet
  present : Bool
  gone : Bool
  alarm : Nat
  ended : Option Int

structure Ensemble (o : Backdrop) (g : Stage) (kids : List Kid) (out err : Option (Queued String))
    (s : Shell) :
    Prop where
  backdrop : s.backdrop = o
  ended : s.ended = g.ended
  count : kids.length = g.count
  troupe : Troupe kids
  cast : Cast g.host g.newcomer? kids s.sessions
  mail : Mail g.shares? g.codes kids s.channels
  out : Ink Deed.out? g.out kids out s.sheets.out
  err : Ink Deed.err? g.err kids err s.sheets.err
  roll : Roll g.present g.enrolled kids s.registry
  gone : g.gone = true → ∀ k ∈ kids, k.recital.own.disposed = true
  stays : g.present = true ∨ g.gone = true

namespace Ensemble

variable {o : Backdrop} {g : Stage} {out err : Option (Queued String)} {s s' : Shell}

theorem holds (h : Ensemble o g kids out err s) (hk : k ∈ kids) : k.recital.Holds o k.id s where
  session := h.cast.own k hk
  known := by
    rw [h.cast.size, Nat.add_assoc]
    exact Nat.lt_of_le_of_lt (h.troupe.id_le hk)
      (Nat.lt_add_of_pos_right (Nat.add_pos_left Nat.one_pos _))
  backdrop := h.backdrop
  leaves := fun hleave => by
    refine ⟨h.roll.host (h.stays.resolve_right fun hgone => ?_), h.troupe.id_ne_zero hk⟩
    rw [h.troupe.disposed k hk (h.gone hgone k hk)] at hleave
    exact List.not_mem_nil hleave
  disposed := h.troupe.disposed k hk

theorem quiet (h : Ensemble o g kids out err s) (hcodes : g.codes = []) :
    ∀ k ∈ kids, Quiet k.recital.deeds := by
  have hmail := h.mail
  rw [hcodes] at hmail
  cases hshares : g.shares? with
  | none =>
    rw [hshares] at hmail
    rw [hmail.1]
    exact fun k hk => absurd hk List.not_mem_nil
  | some shares =>
    rw [hshares] at hmail
    obtain ⟨queue, senders, -, hnone, -⟩ := hmail
    have hsent := (List.append_eq_nil_iff.mp hnone).2
    exact fun k hk => (h.troupe.orderly k hk).quiet (List.flatMap_eq_nil_iff.mp hsent k hk)

theorem deeds_eq_nil (h : Ensemble o g kids out err s) (hgone : g.gone = true) :
    ∀ k ∈ kids, k.recital.deeds = [] :=
  fun k hk => h.troupe.disposed k hk (h.gone hgone k hk)

theorem join (h : Ensemble o g kids out err s) (hcodes : g.codes = []) {x : Session}
    (hx : g.newcomer? = some x)
    {shares : Nat} (hshares : g.shares? = some (shares + 1)) (hpresent : g.present = true)
    (hid : k.id = g.count + 1) (hown : k.recital.own = x) (hlive : x.disposed = false)
    (horderly : Orderly k.recital.deeds) (hdrops : k.recital.deeds.filterMap Deed.drop? = [()])
    (hleave : .leave ∈ k.recital.deeds) :
    Ensemble o { g with
        count := g.count + 1
        newcomer? := none
        enrolled := false
        shares? := some shares
        codes := k.recital.deeds.filterMap Deed.code?
        out := g.out.print (k.recital.deeds.filterMap Deed.out?)
        err := g.err.print (k.recital.deeds.filterMap Deed.err?)
        gone := false } (kids ++ [k]) out err s := by
  have hone : ∀ {β : Type} (f : Deed → Option β), awaited f [k] = k.recital.deeds.filterMap f :=
    fun f => by
    rw [awaited_cons]
    exact List.append_nil _
  have hlength : (kids ++ [k]).length = g.count + 1 := by rw [List.length_append, h.count]; rfl
  constructor
  case backdrop => exact h.backdrop
  case ended => exact h.ended
  case count => exact hlength
  case troupe => exact h.troupe.join (h.quiet hcodes) (h.count ▸ hid) horderly (hown ▸ hlive)
  case cast =>
    have hcast := h.cast
    rw [hx] at hcast
    refine ⟨?_, hcast.host, fun y hy => absurd hy.symm (Option.some_ne_none y),
      List.forall_mem_append.mpr ⟨hcast.own, List.forall_mem_singleton.mpr ?_⟩⟩
    · rw [hcast.size, hlength, h.count]
      rfl
    · rw [hown, hid, ← h.count]
      exact hcast.newcomer x rfl
  case mail =>
    have hmail := h.mail
    rw [hshares, hcodes] at hmail
    obtain ⟨queue, senders, hchannels, hnone, hsenders⟩ := hmail
    refine ⟨queue, senders, hchannels, ?_, ?_⟩
    · rw [awaited_append, ← List.append_assoc, hnone, hone]
      rfl
    · rw [awaited_append, hone, List.length_append, hdrops, List.length_singleton]
      omega
  case out =>
    have hout := h.out.join [k]
    rwa [hone] at hout
  case err =>
    have herr := h.err.join [k]
    rwa [hone] at herr
  case roll =>
    refine ⟨h.roll.nodup, h.roll.host, fun id hin => ?_⟩
    rcases h.roll.others id hin with hzero | ⟨-, hnew⟩ | ⟨k', hk', hk'id, hk'leave⟩
    · exact .inl hzero
    · exact .inr (.inr ⟨k, by simp, by rw [hnew, hid, h.count], hleave⟩)
    · exact .inr (.inr ⟨k', List.mem_append_left _ hk', hk'id, hk'leave⟩)
  case gone => exact fun hgone => absurd hgone Bool.false_ne_true
  case stays => exact .inl hpresent

end Ensemble

/-! ## Steps of the sessions -/

theorem beside_perform (deed? : Option Deed) (id : SessionId) (s : Shell) :
    (deed?.elim s (·.perform id s)).backdrop = s.backdrop ∧
      (deed?.elim s (·.perform id s)).ended = s.ended ∧
      (deed?.elim s (·.perform id s)).sessions = s.sessions ∧
      (deed?.elim s (·.perform id s)).started = s.started := by
  match deed? with
  | none => exact ⟨rfl, rfl, rfl, rfl⟩
  | some (.say (.out _)) => exact ⟨rfl, rfl, rfl, rfl⟩
  | some (.say (.err _)) => exact ⟨rfl, rfl, rfl, rfl⟩
  | some (.send ..) => exact ⟨rfl, rfl, rfl, rfl⟩
  | some .drop => exact ⟨rfl, rfl, rfl, rfl⟩
  | some .leave => exact ⟨rfl, rfl, rfl, rfl⟩

section

variable {o : Backdrop} {g : Stage} {out err : Option (Queued String)} {s s' : Shell}
  {host own : Session}
  {newcomer? : Option Session} {shares? : Option Nat} {codes : List (String × Int)} {total : Sheet}
  {present enrolled : Bool}

theorem Cast.step {t : Shell} (h : Cast host newcomer? (before ++ k :: after) s.sessions)
    (htroupe : Troupe (before ++ k :: after)) (ht : t.sessions = s.sessions) :
    Cast host newcomer? (before ++ { k with recital := a, rest? } :: after)
      (modifySession k.id (fun _ => a.own) t).sessions := by
  have hin : k ∈ before ++ k :: after := by simp
  have hle := htroupe.id_le hin
  have hread : ∀ id, t.session id = s.session id := fun id => by simp only [session, ht]
  have hlength :
      (before ++ { k with recital := a, rest? } :: after).length =
      (before ++ k :: after).length := by
    simp
  constructor
  case size =>
    rw [size_modifySession, ht, h.size, hlength]
  case host =>
    exact ((session_modifySession_of_ne _ (htroupe.id_ne_zero hin).symm).trans (hread 0)).trans
      h.host
  case newcomer =>
    intro x hx
    rw [hlength]
    exact ((session_modifySession_of_ne _ (Nat.ne_of_gt (Nat.lt_succ_of_le hle))).trans
      (hread _)).trans
      (h.newcomer x hx)
  case own =>
    have hothers : ∀ k' ∈ before ++ after,
        (modifySession k.id (fun _ => a.own) t).session k'.id = k'.recital.own := fun k' hk' => by
      refine ((session_modifySession_of_ne _ (htroupe.id_ne hk')).trans (hread _)).trans
        (h.own k' ?_)
      simp only [List.mem_append, List.mem_cons] at hk' ⊢
      tauto
    have hself : (modifySession k.id (fun _ => a.own) t).session k.id = a.own := by
      refine session_modifySession_self _ ?_
      rw [ht, h.size, Nat.add_assoc]
      exact Nat.lt_of_le_of_lt hle (Nat.lt_add_of_pos_right (Nat.add_pos_left Nat.one_pos _))
    simp only [List.forall_mem_append, List.forall_mem_cons] at hothers ⊢
    exact ⟨hothers.1, hself, hothers.2⟩

theorem Mail.step (h : Mail shares? codes (before ++ k :: after) s.channels)
    (hquiet : ∀ k ∈ before, Quiet k.recital.deeds)
    (hdeeds : k.recital.deeds = deed?.toList ++ a.deeds) :
    Mail shares? codes (before ++ { k with recital := a, rest? } :: after)
      (deed?.elim s (·.perform k.id s)).channels := by
  cases shares? with
  | none => exact absurd h.1 (by simp)
  | some shares =>
    obtain ⟨queue, senders, hchannels, hcodes, hdrops⟩ := h
    rw [awaited_step Deed.code? rest? hquiet rfl rfl hdeeds] at hcodes
    rw [length_awaited_step Deed.drop? rest? hdeeds] at hdrops
    match deed? with
    | none => exact ⟨queue, senders, hchannels, hcodes, by simpa using hdrops⟩
    | some (.say (.out _)) =>
      exact ⟨queue, senders, hchannels, hcodes, by simpa [Deed.drop?] using hdrops⟩
    | some (.say (.err _)) =>
      exact ⟨queue, senders, hchannels, hcodes, by simpa [Deed.drop?] using hdrops⟩
    | some (.send label code) =>
      refine ⟨queue ++ [(label, code)], senders, ?_, ?_, by simpa [Deed.drop?] using hdrops⟩
      · simp [Deed.perform, modifyChannel, hchannels, channel]
      · simpa [Deed.code?] using hcodes
    | some .drop =>
      refine ⟨queue, senders - 1, ?_, hcodes, ?_⟩
      · simp [Deed.perform, dropSender, modifyChannel, hchannels, channel]
      · simp only [Deed.drop?, Option.bind_some, Option.toList_some,
          List.length_singleton] at hdrops
        omega
    | some .leave => exact ⟨queue, senders, hchannels, hcodes, by simpa [Deed.drop?] using hdrops⟩

theorem Ink.step_out (h : Ink Deed.out? total (before ++ k :: after) out s.sheets.out)
    (hquiet : ∀ k ∈ before, Quiet k.recital.deeds)
    (hdeeds : k.recital.deeds = deed?.toList ++ a.deeds) :
    Ink Deed.out? total (before ++ { k with recital := a, rest? } :: after) out
      (deed?.elim s (·.perform k.id s)).sheets.out := by
  have hstep : awaited Deed.out? (before ++ k :: after) = _ :=
    awaited_step Deed.out? rest? hquiet rfl rfl hdeeds
  match deed? with
  | none => exact h.congr hstep
  | some (.say (.out text)) => exact h.say hstep
  | some (.say (.err _)) => exact h.congr hstep
  | some (.send ..) => exact h.congr hstep
  | some .drop => exact h.congr hstep
  | some .leave => exact h.congr hstep

theorem Ink.step_err (h : Ink Deed.err? total (before ++ k :: after) err s.sheets.err)
    (hquiet : ∀ k ∈ before, Quiet k.recital.deeds)
    (hdeeds : k.recital.deeds = deed?.toList ++ a.deeds) :
    Ink Deed.err? total (before ++ { k with recital := a, rest? } :: after) err
      (deed?.elim s (·.perform k.id s)).sheets.err := by
  have hstep : awaited Deed.err? (before ++ k :: after) = _ :=
    awaited_step Deed.err? rest? hquiet rfl rfl hdeeds
  match deed? with
  | none => exact h.congr hstep
  | some (.say (.out _)) => exact h.congr hstep
  | some (.say (.err text)) => exact h.say hstep
  | some (.send ..) => exact h.congr hstep
  | some .drop => exact h.congr hstep
  | some .leave => exact h.congr hstep

theorem Roll.step (h : Roll present enrolled (before ++ k :: after) s.registry)
    (htroupe : Troupe (before ++ k :: after)) (hdeeds : k.recital.deeds = deed?.toList ++ a.deeds) :
    Roll present enrolled (before ++ { k with recital := a, rest? } :: after)
      (deed?.elim s (·.perform k.id s)).registry := by
  have hothers : ∀ id ∈ s.registry, (deed? = some .leave → id ≠ k.id) → id = 0 ∨
      (enrolled = true ∧ id = (before ++ { k with recital := a, rest? } :: after).length + 1) ∨
      ∃ k' ∈ before ++ { k with recital := a, rest? } :: after, k'.id = id ∧
        .leave ∈ k'.recital.deeds := by
    intro id hid hne
    rcases h.others id hid with hzero | ⟨hnew, hlength⟩ | ⟨k', hk', rfl, hleave⟩
    · exact .inl hzero
    · exact .inr (.inl ⟨hnew, by simpa using hlength⟩)
    · refine .inr (.inr ?_)
      rcases List.mem_append.mp hk' with hbefore | hrest
      · exact ⟨k', List.mem_append_left _ hbefore, rfl, hleave⟩
      rcases List.mem_cons.mp hrest with rfl | hafter
      · refine ⟨_, List.mem_append_right _ List.mem_cons_self, rfl, ?_⟩
        rw [hdeeds] at hleave
        refine (List.mem_append.mp hleave).resolve_left fun hin => ?_
        exact hne (Option.mem_toList.mp hin) rfl
      · exact ⟨k', List.mem_append_right _ (List.mem_cons_of_mem _ hafter), rfl, hleave⟩
  by_cases hleave : deed? = some .leave
  · subst hleave
    have hregistry : (Deed.perform k.id .leave s).registry = s.registry.erase k.id :=
      Registry.remove_snd
    change Roll _ _ _ (Deed.perform k.id .leave s).registry
    rw [hregistry]
    refine ⟨h.nodup.erase _, fun hp => ?_, fun id hid => ?_⟩
    · exact (List.mem_erase_of_ne (htroupe.id_ne_zero (by simp)).symm).mpr (h.host hp)
    · obtain ⟨hne, hid⟩ := (h.nodup.mem_erase_iff).mp hid
      exact hothers id hid fun _ => hne
  · have hregistry : (deed?.elim s (·.perform k.id s)).registry = s.registry := by
      match deed?, hleave with
      | none, _ => rfl
      | some (.say (.out _)), _ => rfl
      | some (.say (.err _)), _ => rfl
      | some (.send ..), _ => rfl
      | some .drop, _ => rfl
      | some .leave, hleave => exact absurd rfl hleave
    rw [hregistry]
    exact ⟨h.nodup, h.host, fun id hid => hothers id hid fun heq => absurd heq hleave⟩

end

namespace Ensemble

variable {o : Backdrop} {g : Stage} {out err : Option (Queued String)} {s s' : Shell}

theorem step (h : Ensemble o g (before ++ k :: after) out err s)
    (hmoves : k.recital.Moves k.id s a s') :
    Ensemble o g (before ++ { k with recital := a, rest? } :: after) out err s' := by
  obtain ⟨⟨deed?, hdeeds, rfl⟩, hdisposed, hlasting⟩ := hmoves
  have hquiet := h.troupe.before_quiet
  obtain ⟨hbackdrop, hended, hsessions, -⟩ := beside_perform deed? k.id s
  exact {
    backdrop := hbackdrop.trans h.backdrop
    ended := hended.trans h.ended
    count := by simpa using h.count
    troupe := h.troupe.step hdeeds hdisposed
    cast := h.cast.step h.troupe hsessions
    mail := h.mail.step hquiet hdeeds
    out := h.out.step_out hquiet hdeeds
    err := h.err.step_err hquiet hdeeds
    roll := h.roll.step h.troupe hdeeds
    gone := fun hgone => by
      have hold := h.gone hgone
      simp only [List.forall_mem_append, List.forall_mem_cons] at hold ⊢
      exact ⟨hold.1, hlasting hold.2.1, hold.2.2⟩
    stays := h.stays }

end Ensemble

end Sequence

end SessionShell
