import SessionShell.Proofs.Markup.Terminal

/-!
How a browser shows text.

A browser takes one character after the other. Text may hold no sign that begins or ends something
else: such a sign is spelt by an entity. A span gives a style to the text up to its end, and no span
may stand in another one.
-/

namespace SessionShell

inductive Browser.Reading where
  | text
  | entity (name : List Char)
  | tag (name : List Char)
  /-- The style of a span so far, and a declaration that has not come to its end. -/
  | style (style : Style) (declaration : List Char)
  | styled (style : Style)
  deriving DecidableEq, Repr

structure Browser where
  shown : List (Char × Style)
  span : Option Style
  reading : Browser.Reading
  deriving DecidableEq, Repr

namespace Browser

def blank : Browser :=
  ⟨[], none, .text⟩

def entity? (name : List Char) : Option Char :=
  if name = "lt".toList then some '<'
  else if name = "gt".toList then some '>'
  else if name = "amp".toList then some '&'
  else if name = "quot".toList then some '"'
  else none

def colours : List String :=
  ["black", "maroon", "green", "olive", "navy", "purple", "teal", "silver",
    "gray", "red", "lime", "yellow", "blue", "fuchsia", "aqua", "white"]

def colour? (name : List Char) : Option Nat :=
  (colours.map String.toList).idxOf? name

def declare? (declaration : List Char) (s : Style) : Option Style :=
  let property := declaration.takeWhile (· != ':')
  let value := declaration.drop (property.length + 1)
  if property = "color".toList then (colour? value).map fun n => { s with fg := some n }
  else if property = "background-color".toList then (colour? value).map fun n =>
    { s with bg := some n }
  else if declaration = "font-weight:bold".toList then some { s with flags.bold := true }
  else if declaration = "opacity:0.6".toList then some { s with flags.dim := true }
  else if declaration = "font-style:italic".toList then some { s with flags.italic := true }
  else if declaration = "text-decoration:underline".toList then some
    { s with flags.underline := true }
  else if declaration = "filter:invert(100%)".toList then some { s with flags.reverse := true }
  else none

def put (p : Browser) (c : Char) : Option Browser :=
  match p.reading with
  | .text =>
    if c = '<' then some { p with reading := .tag [] }
    else if c = '&' then some { p with reading := .entity [] }
    else if c = '>' ∨ c = '"' then none
    else some { p with shown := p.shown ++ [(c, p.span.getD .plain)] }
  | .entity name =>
    if c = ';' then
      (entity? name).map fun c => ⟨p.shown ++ [(c, p.span.getD .plain)], p.span, .text⟩
    else some { p with reading := .entity (name ++ [c]) }
  | .tag name =>
    if c = '"' then
      if name = "span style=".toList ∧
        p.span = none then some { p with reading := .style .plain [] }
      else none
    else if c = '>' then
      if name = "/span".toList ∧ p.span.isSome then some ⟨p.shown, none, .text⟩ else none
    else some { p with reading := .tag (name ++ [c]) }
  | .style s declaration =>
    if c = '"' then if declaration = [] then some { p with reading := .styled s } else none
    else if c = ';' then (declare? declaration s).map fun s => { p with reading := .style s [] }
    else some { p with reading := .style s (declaration ++ [c]) }
  | .styled s => if c = '>' then some ⟨p.shown, some s, .text⟩ else none

def feed (p : Browser) (s : List Char) : Option Browser :=
  s.foldlM put p

/-- What a browser shows, when all spans are closed. -/
def read? (s : String) : Option (List (Char × Style)) :=
  (blank.feed s.toList).bind fun p => if p.reading = .text ∧
    p.span = none then some p.shown else none

variable {shown : List (Char × Style)} {span : Option Style} {style : Style} {p p' : Browser}

theorem feed_append {s s' : List Char} (h : p.feed s = some p') :
    p.feed (s ++ s') = p'.feed s' := by
  rw [feed, List.foldlM_append, ← feed, h]
  rfl

/-! ## Text -/

theorem feed_escapeHtmlChar (c : Char) :
    feed ⟨shown, span, .text⟩ (Markup.escapeHtmlChar c).toList =
      some ⟨shown ++ [(c, span.getD .plain)], span, .text⟩ := by
  unfold Markup.escapeHtmlChar
  split
  · rfl
  · rfl
  · rfl
  · rfl
  · rename_i hlt hgt hamp hquot
    have hput : put ⟨shown, span, .text⟩ c = some
        ⟨shown ++ [(c, span.getD .plain)], span, .text⟩ := by
      exact (if_neg hlt).trans ((if_neg hamp).trans (if_neg (not_or.mpr ⟨hgt, hquot⟩)))
    simp [feed, hput]

theorem feed_text (s : List Char) :
    feed ⟨shown, span, .text⟩ (String.join (s.map Markup.escapeHtmlChar)).toList =
      some ⟨shown ++ styledChars (span.getD .plain) s, span, .text⟩ := by
  induction s generalizing shown with
  | nil => simp [feed, styledChars]
  | cons c s ih =>
    rw [List.map_cons, String.join_cons, String.toList_append,
      feed_append (feed_escapeHtmlChar c), ih]
    simp [styledChars]

/-! ## Spans -/

theorem feed_gather (gathered : List Char → Browser.Reading) {rest : List Char}
    (h : ∀ before, ∀ c ∈ rest, put ⟨shown, span, gathered before⟩ c =
      some ⟨shown, span, gathered (before ++ [c])⟩) (before : List Char) :
    feed ⟨shown, span, gathered before⟩ rest = some ⟨shown, span, gathered (before ++ rest)⟩ := by
  induction rest generalizing before with
  | nil => simp [feed]
  | cons c rest ih =>
    rw [feed, List.foldlM_cons, h before c List.mem_cons_self]
    refine (ih (fun before c hc => h before c (List.mem_cons_of_mem _ hc)) (before ++ [c])).trans ?_
    simp

theorem feed_tag {name : List Char} (h : name.all fun c => c != '"' && c != '>') :
    feed ⟨shown, span, .tag []⟩ name = some ⟨shown, span, .tag name⟩ := by
  refine feed_gather .tag (fun before c hc => ?_) []
  have hne := List.all_eq_true.mp h c hc
  simp only [Bool.and_eq_true, bne_iff_ne] at hne
  exact (if_neg hne.1).trans (if_neg hne.2)

def isOpen (declaration : List Char) : Bool :=
  declaration.all fun c => c != '"' && c != ';'

theorem feed_declaration {style' : Style} {declaration : List Char} (h : isOpen declaration)
    (hdeclare : declare? declaration style = some style') :
    feed ⟨shown, span, .style style []⟩ (declaration ++ [';']) =
      some ⟨shown, span, .style style' []⟩ := by
  have hread : feed ⟨shown, span, .style style []⟩ declaration =
      some ⟨shown, span, .style style declaration⟩ := by
    refine feed_gather (.style style) (fun before c hc => ?_) []
    have hne := List.all_eq_true.mp h c hc
    simp only [Bool.and_eq_true, bne_iff_ne] at hne
    exact (if_neg hne.1).trans (if_neg hne.2)
  rw [feed_append hread]
  simp [feed, put, hdeclare]

theorem declare?_color (n : Nat) (style : Style) :
    declare? ("color:" ++ Markup.colourName n).toList style =
      some { style with fg := some (n % 16) } := by
  have hn : n % 16 < 16 := Nat.mod_lt _ (by decide)
  rw [Markup.colourName]
  generalize n % 16 = k at hn
  interval_cases k <;> rfl

theorem declare?_background (n : Nat) (style : Style) :
    declare? ("background-color:" ++ Markup.colourName n).toList style =
      some { style with bg := some (n % 16) } := by
  have hn : n % 16 < 16 := Nat.mod_lt _ (by decide)
  rw [Markup.colourName]
  generalize n % 16 = k at hn
  interval_cases k <;> rfl

theorem isOpen_colourName (n : Nat) : isOpen (Markup.colourName n).toList := by
  have hn : n % 16 < 16 := Nat.mod_lt _ (by decide)
  rw [Markup.colourName]
  generalize n % 16 = k at hn
  interval_cases k <;> rfl

theorem feed_colour? {property : String} {n? : Option Nat} (select : Nat → Style → Style)
    (hproperty : isOpen property.toList)
    (h : ∀ n, declare? (property ++ Markup.colourName n).toList style =
      some (select (n % 16) style)) :
    feed ⟨shown, span, .style style []⟩
        (n?.elim "" fun n => property ++ Markup.colourName n ++ ";").toList =
      some ⟨shown, span, .style (n?.elim style fun n => select (n % 16) style) []⟩ := by
  cases n? with
  | none => rfl
  | some n =>
    have hopen : isOpen (property ++ Markup.colourName n).toList := by
      rw [isOpen, String.toList_append, List.all_append, Bool.and_eq_true]
      exact ⟨hproperty, isOpen_colourName n⟩
    refine (congrArg _ ?_).trans (feed_declaration hopen (h n))
    exact String.toList_append

theorem feed_textIf (text declaration : String) (change : Style → Style) (b : Bool)
    (htext : text.toList = declaration.toList ++ [';']) (h : isOpen declaration.toList)
    (hdeclare : ∀ s, declare? declaration.toList s = some (change s)) :
    feed ⟨shown, span, .style style []⟩ (Markup.textIf b text).toList =
      some ⟨shown, span, .style (if b then change style else style) []⟩ := by
  cases b with
  | false => rfl
  | true => exact (congrArg _ htext).trans (feed_declaration h (hdeclare style))

theorem feed_flags (fg bg : Option Nat) (flags : StyleFlags) :
    feed ⟨shown, span, .style ⟨fg, bg, .empty⟩ []⟩
        ((Markup.textIf flags.bold "font-weight:bold;").toList
          ++ ((Markup.textIf flags.dim "opacity:0.6;").toList
          ++ ((Markup.textIf flags.italic "font-style:italic;").toList
          ++ ((Markup.textIf flags.underline "text-decoration:underline;").toList
          ++ ((Markup.textIf flags.reverse "filter:invert(100%);").toList
          ++ "\">".toList))))) =
      some ⟨shown, some ⟨fg, bg, flags⟩, .text⟩ := by
  rw [feed_append (feed_textIf "font-weight:bold;" "font-weight:bold"
      (fun s => { s with flags.bold := true }) _ rfl rfl fun _ => rfl),
    feed_append (feed_textIf "opacity:0.6;" "opacity:0.6"
      (fun s => { s with flags.dim := true }) _ rfl rfl fun _ => rfl),
    feed_append (feed_textIf "font-style:italic;" "font-style:italic"
      (fun s => { s with flags.italic := true }) _ rfl rfl fun _ => rfl),
    feed_append (feed_textIf "text-decoration:underline;" "text-decoration:underline"
      (fun s => { s with flags.underline := true }) _ rfl rfl fun _ => rfl),
    feed_append (feed_textIf "filter:invert(100%);" "filter:invert(100%)"
      (fun s => { s with flags.reverse := true }) _ rfl rfl fun _ => rfl)]
  obtain ⟨bold, dim, italic, underline, reverse⟩ := flags
  cases bold <;> cases dim <;> cases italic <;> cases underline <;> cases reverse <;> rfl

theorem put_attribute {name : List Char} (h : name = "span style=".toList) :
    put ⟨shown, none, .tag name⟩ '"' = some ⟨shown, none, .style .plain []⟩ :=
  if_pos ⟨h, rfl⟩

theorem feed_spanBegin :
    feed ⟨shown, none, .text⟩ "<span style=\"".toList = some ⟨shown, none, .style .plain []⟩ := by
  have hbegin : feed ⟨shown, none, .text⟩ ['<'] = some ⟨shown, none, .tag []⟩ := rfl
  have htag : feed ⟨shown, none, .tag []⟩ "span style=".toList =
      some ⟨shown, none, .tag "span style=".toList⟩ :=
    feed_tag rfl
  have hchars : "<span style=\"".toList = ['<'] ++ ("span style=".toList ++ ['"']) := rfl
  rw [hchars, feed_append hbegin, feed_append htag, feed, List.foldlM_cons, put_attribute rfl]
  rfl

theorem feed_openHtml (s : Style) :
    feed ⟨shown, none, .text⟩ (Markup.openHtml s).toList = some
      ⟨shown, some s.onPalette, .text⟩ := by
  obtain ⟨fg, bg, flags⟩ := s
  unfold Markup.openHtml
  simp only [String.toList_append, List.append_assoc]
  rw [feed_append feed_spanBegin,
    feed_append (feed_colour? Prompt.setForeground rfl fun n => declare?_color n _),
    feed_append (feed_colour? Prompt.setBackground rfl fun n => declare?_background n _)]
  cases fg <;> cases bg <;> exact feed_flags _ _ flags

theorem feed_closing (s : Style) :
    feed ⟨shown, some s, .text⟩ "</span>".toList = some ⟨shown, none, .text⟩ :=
  rfl

end Browser

end SessionShell
