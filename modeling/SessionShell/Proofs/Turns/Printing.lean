import SessionShell.Proofs.Action.Run
import SessionShell.Proofs.Turns.Path

/-!
What a thread does on its turns, as one piece.

A thread may go on as long as all others have to wait. Where it has to wait itself, the others have
their turns, until it can go on.
-/

namespace SessionShell

open Action Shell

/-- The part of a thread: when it is its turn, and what the others do while it waits at an act. -/
structure Part where
  me : ThreadId
  mayGo : Shell → Prop
  aside : Act Shell → Shell → Writing → Shell → Writing → Prop

inductive Plays (part : Part) {α : Type} :
    Action Shell α → Shell → Writing → Fate α → Shell → Writing → Prop where
  | done (a : α) (b : Shell) (w : Writing) : Plays part (.done a) b w (.returned a) b w
  | crash (b : Shell) (w : Writing) : Plays part .crash b w .crashed b w
  | halt {act : Act Shell} {next : act.Answer → Action Shell α} {b : Shell} {w : Writing}
      (h : ∀ s, act.run part.me s = none) : Plays part (.ask act next) b w .halted b w
  | take {act : Act Shell} {next : act.Answer → Action Shell α} {b b₁ b' : Shell}
      {w w₁ w' : Writing} {answer : act.Answer} {fate : Fate α} (hgo : part.mayGo b)
      (h : Takes part.me act b w answer b₁ w₁) (hrest : Plays part (next answer) b₁ w₁ fate b' w') :
      Plays part (.ask act next) b w fate b' w'
  | aside {act : Act Shell} {next : act.Answer → Action Shell α} {b b₁ b' : Shell}
      {w w₁ w' : Writing} {fate : Fate α} (h : part.aside act b w b₁ w₁)
      (hrest : Plays part (.ask act next) b₁ w₁ fate b' w') : Plays part
      (.ask act next) b w fate b' w'

variable {part : Part} {α β ε : Type} {p : Action Shell α} {f : α → Action Shell β} {a : α}
  {b b₁ b' : Shell} {w w₁ w' : Writing}

/-! ## Sequences -/

theorem Plays.bind {fate : Fate β} (hp : Plays part p b w (.returned a) b₁ w₁)
    (hf : Plays part (f a) b₁ w₁ fate b' w') : Plays part (p >>= f) b w fate b' w' := by
  generalize hfate : Fate.returned a = first at hp
  induction hp with
  | done a' =>
    cases hfate
    exact hf
  | crash => cases hfate
  | halt => cases hfate
  | take hgo h _ ih => exact .take hgo h (ih hf hfate)
  | aside h _ ih => exact .aside h (ih hf hfate)

theorem Plays.bind_halted (hp : Plays part p b w .halted b' w') :
    Plays part (p >>= f) b w .halted b' w' := by
  generalize hfate : Fate.halted = first at hp
  induction hp with
  | done a' => cases hfate
  | crash => cases hfate
  | halt h => exact .halt h
  | take hgo h _ ih => exact .take hgo h (ih hfate)
  | aside h _ ih => exact .aside h (ih hfate)

theorem Plays.assoc {γ : Type} {g : β → Action Shell γ} {fate : Fate γ}
    (hp : Plays part (p >>= fun a => f a >>= g) b w fate b' w') :
      Plays part ((p >>= f) >>= g) b w fate b' w' := by
  have hassoc : (p >>= f) >>= g = p >>= fun a => f a >>= g := Program.bind_assoc p f g
  rwa [hassoc]

def attempted : Fate α → Fate (Option α)
  | .returned a => .returned (some a)
  | .crashed => .returned none
  | .halted => .halted

theorem Plays.attempt {fate : Fate α} (hp : Plays part p b w fate b' w') :
    Plays part (Program.attempt p) b w (attempted fate) b' w' := by
  induction hp with
  | done a b w => exact .done (some a) b w
  | crash b w => exact .done none b w
  | halt h => exact .halt h
  | take hgo h _ ih => exact .take hgo h ih
  | aside h _ ih => exact .aside h ih

theorem plays_pure (a : α) : Plays part (pure a) b w (.returned a) b w :=
  .done a b w

theorem Plays.discard (hp : Plays part p b w (.returned a) b' w') :
    Plays part (discard p) b w (.returned ()) b' w' :=
  hp.bind (plays_pure ())

theorem Plays.discard_halted (hp : Plays part p b w .halted b' w') :
    Plays part (Functor.discard p) b w .halted b' w' :=
  hp.bind_halted

section Failing

variable {p : ExceptT ε (Action Shell) α} {f : α → ExceptT ε (Action Shell) β}

theorem Plays.run_bind {fate : Fate (Except ε β)}
    (hp : Plays part p.run b w (.returned (.ok a)) b₁ w₁)
    (hf : Plays part (f a).run b₁ w₁ fate b' w') : Plays part (p >>= f).run b w fate b' w' :=
  Plays.bind hp hf

theorem Plays.lift_bind {p : Action Shell α} {fate : Fate (Except ε β)}
    (hp : Plays part p b w (.returned a) b₁ w₁) (hf : Plays part (f a).run b₁ w₁ fate b' w') :
    Plays part ((liftM p : ExceptT ε (Action Shell) α) >>= f).run b w fate b' w' := by
  rw [run_lift_bind]
  exact Plays.bind hp hf

end Failing

/-! ## Single acts -/

theorem takes_of_run {me : ThreadId} {act : Act Shell} {answer : act.Answer}
    (h : ∀ x, act.run me (b.writing x) = some (answer, b'.writing x)) :
      Takes me act b w answer b' w where
  same out err x answer' s hx hact := by
    rw [h x] at hact
    cases hact
    exact ⟨rfl, x, rfl, hx, rfl⟩
  ready x _ _ _ := by rw [h x]; rfl

theorem plays_await {g : Shell → Option (α × Shell)} (hgo : part.mayGo b)
    (h : ∀ x, g (b.writing x) = some (a, b'.writing x)) :
    Plays part (await g) b w (.returned a) b' w :=
  .take hgo (takes_of_run h) (.done a b' w)

theorem plays_step {g : Shell → α × Shell} (hgo : part.mayGo b)
    (h : ∀ x, g (b.writing x) = (a, b'.writing x)) : Plays part (step g) b w (.returned a) b' w :=
  plays_await hgo fun x => congrArg some (h x)

theorem plays_read {g : Shell → α} (hgo : part.mayGo b) (h : ∀ x, g (b.writing x) = a) :
    Plays part (read g) b w (.returned a) b w :=
  plays_step hgo fun x => by rw [h x]

theorem plays_update {g : Shell → Shell} (hgo : part.mayGo b)
    (h : ∀ x, g (b.writing x) = b'.writing x) :
    Plays part (update g) b w (.returned ()) b' w :=
  plays_step hgo fun x => by rw [h x]

theorem plays_self (hgo : part.mayGo b) :
    Plays part (self : Action Shell ThreadId) b w (.returned part.me) b w :=
  .take hgo (takes_of_run fun _ => rfl) (.done _ b w)

theorem plays_halt : Plays part (halt : Action Shell α) b w .halted b w :=
  .halt fun _ => rfl

/-! ## Paths -/

def onward : Action Shell (Option Role) → Action Shell (Option Role)
  | .done (some role) => program role
  | p => p

theorem resumes_onward (p : Action Shell (Option Role)) : Resumes p (onward p) := by
  cases p with
  | done role? =>
    cases role? with
    | none => exact .here _
    | some role => exact .next role
  | crash => exact .here _
  | ask act next => exact .here _

inductive Ends (me : ThreadId) : Fate (Option Role) → Action Shell (Option Role) → Prop where
  | returned (role? : Option Role) : Ends me (.returned role?) (onward (.done role?))
  | crashed : Ends me .crashed .crash
  | halted {act : Act Shell} {next : act.Answer → Action Shell (Option Role)}
      (h : ∀ s, act.run me s = none) : Ends me .halted (.ask act next)

theorem Plays.exists_path {p : Action Shell (Option Role)} {fate : Fate (Option Role)}
    {before after : List (Thread Shell Role)} (hp : Plays part p b w fate b' w')
    (hopen : ∀ b, part.mayGo b → b.ended = none)
    (hothers : ∀ b, part.mayGo b → ∀ t ∈ before ++ after, Blocked b t)
    (haside : ∀ act next b w b' w', part.aside act b w b' w' →
      Path ⟨b, w, before ++ ⟨part.me, .ask act next⟩ :: after⟩
        ⟨b', w', before ++ ⟨part.me, .ask act next⟩ :: after⟩) :
    ∃ q, Ends part.me fate q ∧ Path ⟨b, w, before ++ ⟨part.me, onward p⟩ :: after⟩
      ⟨b', w', before ++ ⟨part.me, q⟩ :: after⟩ := by
  induction hp with
  | done role? b w => exact ⟨_, .returned role?, .refl _⟩
  | crash b w => exact ⟨_, .crashed, .refl _⟩
  | halt h => exact ⟨_, .halted h, .refl _⟩
  | take hgo h _ ih =>
    obtain ⟨q, hq, hpath⟩ := ih
    exact ⟨q, hq, .head (.take (hopen _ hgo) (hothers _ hgo) h (resumes_onward _)) hpath⟩
  | aside h _ ih =>
    obtain ⟨q, hq, hpath⟩ := ih
    exact ⟨q, hq, (haside _ _ _ _ _ _ h).trans hpath⟩

end SessionShell

/-!
What a thread that has its turn prints, and how it waits until all is written.
-/

namespace SessionShell

open Action Shell

variable {part : Part} {b : Shell} {w : Writing} {k : Scribe} {written waiting : List String}
  {marks : Nat} {held : Option (Queued String)} {x c : Sheet}

namespace Sheet

/-- A sheet that is written so far, with texts that wait and so many marks that were all reached. -/
def page (written waiting : List String) (marks : Nat) : Sheet where
  service := ⟨.fifo, waiting.map .request, true, marks, (List.range marks).reverse⟩
  written := written.toArray

theorem finishAll_requests (texts : List String) (x : Sheet) :
    x.finishAll (texts.map .request) = { x with written := x.written ++ texts.toArray } := by
  induction texts generalizing x with
  | nil => simp [finishAll]
  | cons text texts ih =>
    refine (ih (x.finish (.request text))).trans ?_
    simp [finish]

def withMarks (marks : Nat) (x : Sheet) : Sheet :=
  { x with service := { x.service with marks } }

def mark (x : Sheet) : Sheet :=
  (x.enqueue (.mark x.service.marks)).withMarks (x.service.marks + 1)

theorem Trails.mark (h : x.Trails held c) (hfifo : c.service.discipline = .fifo) :
    x.mark.Trails held c.mark := by
  have hmarks := h.marks
  obtain ⟨done, hc, hx⟩ := h.enqueue (q := .mark c.service.marks) hfifo
  refine ⟨done, ?_, ?_⟩
  · rw [Sheet.mark, Sheet.mark, hmarks]
    exact hc
  · rw [Sheet.mark, Sheet.mark, hmarks, finishAll_comm fun q _ => by cases q <;> rfl]
    conv_lhs => rw [hx]
    rfl

theorem mark_page : (page written waiting marks).mark =
    ⟨⟨.fifo, waiting.map .request ++ [.mark marks], true, marks + 1, (List.range marks).reverse⟩,
      written.toArray⟩ := by
  simp [mark, enqueue, StreamService.enqueue, page, withMarks]

theorem settled_mark : (page written waiting marks).mark.settled =
    page (written ++ waiting) [] (marks + 1) := by
  rw [mark_page, settled, finishAll_snoc, finishAll_requests]
  simp [finish, withQueue, StreamService.reach, page, List.range_succ]

theorem Trails.eq_page (h : x.Trails held (page written waiting marks).mark)
    (hmark : marks ∈ x.service.reached) : held = none ∧ x = page (written ++ waiting) []
    (marks + 1) := by
  rw [← settled_mark]
  exact h.settled_of_reached (congrArg (·.service.queue) mark_page) (by simp)
    (by simp [mark_page]) hmark

end Sheet

namespace Scribe

def place : Scribe → StreamAt Shell String
  | .out => consolePlace.out
  | .err => consolePlace.err

theorem started_put : (k.put x w).started = w.started := by
  cases k <;> rfl

theorem sheet_put : k.sheet (k.put x w) = x := by
  cases k <;> rfl

theorem takes_of_sheet {me : ThreadId} {act : Act Shell} {answer : act.Answer} (g : Sheet → Sheet)
    (h : ∀ y held, (k.sheet y).Trails held (k.sheet w) →
      act.run me (b.writing y) = some (answer, b.writing (k.put (g (k.sheet y)) y)))
    (hg : ∀ x held, x.Trails held (k.sheet w) → (g x).Trails held c) :
    Takes me act b w answer b (k.put c w) := by
  have htrails : ∀ y out err, Writing.Trails out err y w →
      ∃ held, (k.sheet y).Trails held (k.sheet w) := by
    intro y out err hy
    cases k with
    | out => exact ⟨out, hy.out⟩
    | err => exact ⟨err, hy.err⟩
  refine ⟨fun out err y answer' s hy hact => ?_, fun y hy _ _ => ?_⟩
  · obtain ⟨held, hheld⟩ := htrails y out err hy
    rw [h y held hheld] at hact
    cases hact
    refine ⟨rfl, _, rfl, ?_, started_put⟩
    cases k with
    | out => exact ⟨hg _ _ hy.out, hy.err⟩
    | err => exact ⟨hy.out, hg _ _ hy.err⟩
  · obtain ⟨held, hheld⟩ := htrails y none none hy
    rw [h y held hheld]
    rfl

theorem plays_submit (text : String) (hgo : part.mayGo b)
    (hpage : k.sheet w = .page written waiting marks) :
    Plays part (k.place.submit text) b w (.returned ()) b
      (k.put (.page written (waiting ++ [text]) marks) w) := by
  have hnew : (Sheet.page written waiting marks).enqueue (.request text) =
      .page written (waiting ++ [text]) marks := by
    simp [Sheet.enqueue, StreamService.enqueue, Sheet.page]
  refine .take hgo (takes_of_sheet (Sheet.enqueue (.request text)) ?_ fun x held hx => ?_)
    (.done ..)
  · cases k <;> exact fun y held hy => rfl
  · rw [← hnew, ← hpage]
    exact hx.enqueue (by rw [hpage]; rfl)

theorem plays_start (hgo : part.mayGo b) (hpage : k.sheet w = .page written waiting marks) :
    Plays part k.place.start b w (.returned ()) b w := by
  have hput : k.put (k.sheet w) w = w := by cases k <;> rfl
  have htakes : Takes part.me ⟨Unit, fun _ s => some ((), if (k.place.get s).started then s else
      k.place.launch (k.place.set { k.place.get s with started := true } s))⟩ b w () b
      (k.put (k.sheet w) w) := by
    refine takes_of_sheet id (fun y held hy => ?_) fun x held hx => hx
    have hstarted : (k.sheet y).service.started = true := by rw [hy.started, hpage]; rfl
    cases k <;> simp_all [place, ConsoleAt.out, ConsoleAt.err, consolePlace,
      Shell.writing, sheet, put]
  rw [hput] at htakes
  exact .take hgo htakes (.done ..)

theorem plays_mark (hgo : part.mayGo b) (hpage : k.sheet w = .page written waiting marks) :
    Plays part (step fun s =>
      ((k.place.get s).submitMark.1, k.place.set (k.place.get s).submitMark.2 s)) b w
      (.returned marks) b (k.put (Sheet.page written waiting marks).mark w) := by
  refine .take hgo (takes_of_sheet Sheet.mark (fun y held hy => ?_) fun x held hx => ?_) (.done ..)
  · have hmarks : (k.sheet y).service.marks = marks := by rw [hy.marks, hpage]; rfl
    cases k <;> cases hmarks <;> rfl
  · rw [← hpage]
    exact hx.mark (by rw [hpage]; rfl)

theorem plays_reached (hgo : part.mayGo b)
    (hpage : k.sheet w = (Sheet.page written waiting marks).mark) :
    Plays part (await fun s => if (k.place.get s).hasReached marks then some ((), s) else none) b w
      (.returned ()) b (k.put (.page (written ++ waiting) [] (marks + 1)) w) := by
  have hreached : ∀ y, (k.place.get (b.writing y)).hasReached marks = true ↔
      marks ∈ (k.sheet y).service.reached := by
    intro y
    cases k <;> exact List.contains_iff_mem
  refine .take hgo ⟨fun out err y answer' s hy hact => ?_, fun y hy hout herr => ?_⟩ (.done ..)
  · change (if _ then _ else _) = _ at hact
    split at hact
    · rename_i hmark
      cases hact
      refine ⟨rfl, y, rfl, ?_, rfl⟩
      rw [hreached] at hmark
      cases k with
      | out =>
        have htrails : y.out.Trails out w.out := hy.out
        rw [show w.out = _ from hpage] at htrails
        obtain ⟨rfl, hsheet⟩ := htrails.eq_page hmark
        exact ⟨hsheet ▸ Sheet.trails_refl, hy.err⟩
      | err =>
        have htrails : y.err.Trails err w.err := hy.err
        rw [show w.err = _ from hpage] at htrails
        obtain ⟨rfl, hsheet⟩ := htrails.eq_page hmark
        exact ⟨hy.out, hsheet ▸ Sheet.trails_refl⟩
    · cases hact
  · have hmark : (k.place.get (b.writing y)).hasReached marks = true := by
      have hsettled : k.sheet y = (k.sheet w).settled := by
        cases k with
        | out => exact hy.out.eq_settled hout
        | err => exact hy.err.eq_settled herr
      rw [hreached, hsettled, hpage, Sheet.settled_mark]
      simp [Sheet.page]
    simp [hmark]

theorem plays_sync (hgo : part.mayGo b) (hpage : k.sheet w = .page written waiting marks) :
    Plays part k.place.sync b w (.returned ()) b
      (k.put (.page (written ++ waiting) [] (marks + 1)) w) := by
  have hput : ∀ x y : Sheet, k.put x (k.put y w) = k.put x w := fun x y => by cases k <;> rfl
  refine (plays_start hgo hpage).bind ((plays_mark hgo hpage).bind ?_)
  rw [← hput (.page (written ++ waiting) [] (marks + 1)) (Sheet.page written waiting marks).mark]
  exact plays_reached hgo sheet_put

end Scribe

/-- What was printed on a stream: what is written of it, what waits, and the marks reached
between. -/
structure Draft where
  written : List String
  waiting : List String
  marks : Nat
  deriving DecidableEq, Repr

namespace Draft

def texts (d : Draft) : List String :=
  d.written ++ d.waiting

def add (texts : List String) (d : Draft) : Draft :=
  { d with waiting := d.waiting ++ texts }

def sync (d : Draft) : Draft :=
  ⟨d.texts, [], d.marks + 1⟩

def write (text : String) (d : Draft) : Draft :=
  { d with written := d.written ++ [text] }

def sheet (d : Draft) : Sheet :=
  .page d.written d.waiting d.marks

@[simp] theorem texts_add (texts : List String) (d : Draft) :
    (d.add texts).texts = d.texts ++ texts := by
  simp [Draft.texts, add]

@[simp] theorem add_nil (d : Draft) : d.add [] = d := by
  simp [add]

@[simp] theorem add_add (texts texts' : List String) (d : Draft) :
    (d.add texts).add texts' = d.add (texts ++ texts') := by
  simp [add]

@[simp] theorem texts_sync (d : Draft) : d.sync.texts = d.texts := by
  simp [Draft.texts, sync]

@[simp] theorem waiting_sync (d : Draft) : d.sync.waiting = [] := rfl

theorem texts_write (text : String) {d : Draft} (h : d.waiting = []) :
    (d.write text).texts = d.texts ++ [text] := by
  simp [Draft.texts, write, h]

end Draft

/-- What was printed on both streams. -/
structure Drafts where
  out : Draft
  err : Draft
  started : List (ThreadId × Role)

namespace Drafts

variable {d : Drafts}

def writing (d : Drafts) : Writing :=
  ⟨d.out.sheet, d.err.sheet, d.started⟩

def print (texts : List String) (d : Drafts) : Drafts :=
  { d with out := d.out.add texts }

def printError (texts : List String) (d : Drafts) : Drafts :=
  { d with err := d.err.add texts }

def sync (d : Drafts) : Drafts :=
  { d with out := d.out.sync, err := d.err.sync }

def write (text : String) (d : Drafts) : Drafts :=
  { d with out := d.out.write text }

@[simp] theorem print_nil (d : Drafts) : d.print [] = d := by
  simp [print]

@[simp] theorem printError_nil (d : Drafts) : d.printError [] = d := by
  simp [printError]

@[simp] theorem print_print (texts texts' : List String) (d : Drafts) :
    (d.print texts).print texts' = d.print (texts ++ texts') := by
  simp [print]

theorem plays_print (text : String) (hgo : part.mayGo b) :
    Plays part (consolePlace.print text) b d.writing (.returned ()) b (d.print [text]).writing :=
  Scribe.plays_submit (k := .out) text hgo rfl

theorem plays_printError (text : String) (hgo : part.mayGo b) :
    Plays part (consolePlace.printError text) b d.writing (.returned ()) b
      (d.printError [text]).writing :=
  Scribe.plays_submit (k := .err) text hgo rfl

theorem plays_sync (hgo : part.mayGo b) :
    Plays part consolePlace.sync b d.writing (.returned ()) b d.sync.writing :=
  (Scribe.plays_sync (k := .out) hgo rfl).bind (Scribe.plays_sync (k := .err) hgo rfl)

theorem plays_write (text : String) (hgo : part.mayGo b) (hwaiting : d.out.waiting = []) :
    Plays part (consolePlace.writeOut text) b d.writing (.returned ()) b
      (d.write text).writing := by
  refine .take hgo (Scribe.takes_of_sheet (k := .out)
    (fun x => { x with written := x.written.push text })
    (fun _ _ _ => rfl) fun x held hx => ?_) (.done ..)
  have hqueue : (Scribe.out.sheet d.writing).service.queue = [] := by
    simp [Scribe.sheet, writing, Draft.sheet, Sheet.page, hwaiting]
  obtain ⟨done, hnone, hsame⟩ := hx
  rw [hqueue, eq_comm, List.append_eq_nil_iff] at hnone
  obtain ⟨rfl, hnone⟩ := hnone
  refine ⟨[], ?_, ?_⟩
  · simpa [write, Draft.write, Draft.sheet, Sheet.page, hwaiting] using hnone
  · rw [hsame]
    simp [Sheet.finishAll, Sheet.withQueue, Scribe.sheet, writing, Draft.sheet, write,
      Draft.write, Sheet.page]

end Drafts

end SessionShell
