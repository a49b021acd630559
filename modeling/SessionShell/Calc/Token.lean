import SessionShell.Number.Layout
import SessionShell.Text.Printable

/-!
Tokens of calc and the lines they stand on.
-/

namespace SessionShell.Calc

inductive Token where
  | num (x : Float)
  | str (s : String)
  | ident (name : String)
  | sym (c : Char)
  | sep
  deriving Repr, Inhabited

def Token.shown : Token → String
  | .num x => "Num(" ++ Number.exact x ++ ")"
  | .str s => "Str(" ++ Text.Quoted.quote s ++ ")"
  | .ident name => "Ident(" ++ Text.Quoted.quote name ++ ")"
  | .sym c => "Sym('" ++ c.toString ++ "')"
  | .sep => "Sep"

structure Lexeme where
  token : Token
  line : Nat
  deriving Repr, Inhabited

end SessionShell.Calc
