import SessionShell.Calc.Token
import SessionShell.Number.Read
import SessionShell.Text.Blank
import SessionShell.Text.Letter

/-!
From source text to tokens.

Line ends and semicolons separate statements, `#` starts a comment that runs to the end of its
line, and blanks separate tokens. Texts stand between quotes of either kind and may span lines.
-/

namespace SessionShell.Calc

/-- The ways in which a source has no tokens. -/
inductive LexFault where
  | unterminated (line : Nat)
  | unexpected (c : Char) (line : Nat)
  | badNumber (text : String) (line : Nat)
  deriving DecidableEq, Repr

def LexFault.message : LexFault → String
  | .unterminated _ => "unterminated string"
  | .unexpected c _ => "unexpected character '" ++ c.toString ++ "'"
  | .badNumber text _ => "bad number '" ++ text ++ "'"

def LexFault.line : LexFault → Nat
  | .unterminated line | .unexpected _ line | .badNumber _ line => line

def isSymbol (c : Char) : Bool :=
  c ∈ ['+', '-', '*', '/', '%', '^', '(', ')', ',', '.', '=']

def insideComment (c : Char) : Bool :=
  c != '\n'

def startsName (c : Char) : Bool :=
  Text.isAlphabetic c || c == '_'

def continuesName (c : Char) : Bool :=
  Text.isAlphanumeric c || c == '_'

def unescaped (c : Char) : Char :=
  match c with
  | 'n' => '\n'
  | 't' => '\t'
  | c => c

/-- A text read up to its closing quote: its characters, the lines it has passed, and the rest of
the source. -/
structure Quotation where
  text : List Char
  lines : Nat
  rest : List Char
  deriving Repr

/-- Reads behind an opening quote, which is never a backslash. A line end behind a backslash does
not count as a line. -/
def quotation? (quote : Char) (text : List Char) (lines : Nat) : List Char → Option Quotation
  | [] => none
  | '\\' :: [] => none
  | '\\' :: c :: cs => quotation? quote (unescaped c :: text) lines cs
  | c :: cs =>
    if c = quote then some ⟨text.reverse, lines, cs⟩
    else quotation? quote (c :: text) (if c = '\n' then lines + 1 else lines) cs

theorem rest_length_lt_of_quotation? {quote : Char} {text cs : List Char} {lines : Nat}
    {q : Quotation} (h : quotation? quote text lines cs = some q) :
    q.rest.length < cs.length := by
  fun_induction quotation? quote text lines cs with
  | case1 => simp at h
  | case2 => simp at h
  | case3 _ _ _ _ ih =>
    have := ih h
    simp only [List.length_cons]
    omega
  | case4 =>
    simp only [Option.some.injEq] at h
    subst h
    simp
  | case5 _ _ _ _ _ _ _ ih =>
    have := ih h
    simp only [List.length_cons]
    omega

/-- Digits behind a point that has at least one digit after it, and the rest. -/
def fraction (cs : List Char) : List Char × List Char :=
  match cs with
  | '.' :: d :: rest =>
    if Number.isDigit d then (d :: rest.takeWhile Number.isDigit, rest.dropWhile Number.isDigit)
    else ([], cs)
  | cs => ([], cs)

theorem length_dropWhile_le (p : Char → Bool) (cs : List Char) :
    (cs.dropWhile p).length ≤ cs.length :=
  (List.dropWhile_sublist p).length_le

theorem length_fraction_le (cs : List Char) : (fraction cs).2.length ≤ cs.length := by
  unfold fraction
  split
  · rename_i d rest
    split
    · have := length_dropWhile_le Number.isDigit rest
      simp only [List.length_cons]
      omega
    · simp
  · simp

/-- The digits behind the point, with the point if there are any. -/
def pointed : List Char → List Char
  | [] => []
  | d :: ds => '.' :: d :: ds

/-- Tokens of `cs`, whose first character stands on `line`, behind those already read. -/
def lexFrom (line : Nat) (read : Array Lexeme) (cs : List Char) :
    Except LexFault (Array Lexeme) :=
  match cs with
  | [] => .ok read
  | c :: rest =>
    if c = '\n' then lexFrom (line + 1) (read.push ⟨.sep, line⟩) rest
    else if c = ';' then lexFrom line (read.push ⟨.sep, line⟩) rest
    else if c = '#' then
      have := length_dropWhile_le insideComment rest
      lexFrom line read (rest.dropWhile insideComment)
    else if Text.isBlank c then lexFrom line read rest
    else if Number.isDigit c then
      let whole := c :: rest.takeWhile Number.isDigit
      let text := String.ofList (whole ++ pointed (fraction (rest.dropWhile Number.isDigit)).1)
      match Number.read? text with
      | none => .error (.badNumber text line)
      | some x =>
        have := length_fraction_le (rest.dropWhile Number.isDigit)
        have := length_dropWhile_le Number.isDigit rest
        lexFrom line (read.push ⟨.num x, line⟩) (fraction (rest.dropWhile Number.isDigit)).2
    else if c = '"' ∨ c = '\'' then
      match h : quotation? c [] 0 rest with
      | none => .error (.unterminated line)
      | some q =>
        have := rest_length_lt_of_quotation? h
        lexFrom (line + q.lines) (read.push ⟨.str (String.ofList q.text), line⟩) q.rest
    else if startsName c then
      have := length_dropWhile_le continuesName rest
      lexFrom line (read.push ⟨.ident (String.ofList (c :: rest.takeWhile continuesName)), line⟩)
        (rest.dropWhile continuesName)
    else if isSymbol c then lexFrom line (read.push ⟨.sym c, line⟩) rest
    else .error (.unexpected c line)
termination_by cs.length

def lex (source : String) : Except LexFault (List Lexeme) :=
  (lexFrom 1 #[] source.toList).map Array.toList

end SessionShell.Calc
