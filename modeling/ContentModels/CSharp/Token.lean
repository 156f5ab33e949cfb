import ContentModels.CSharp.Punctuation

/-!
# Tokens

The words of a source text: identifiers and keywords, literals, numbers and
punctuation, each with the line on which it starts.
-/

namespace ContentModels
namespace CSharp

/-- What a token is. -/
inductive TokenKind where
  /-- An identifier or keyword; written with a leading at sign it is verbatim and never a keyword. -/
  | ident (text : String) (verbatim : Bool)
  /-- A string literal by its value; the holes of an interpolated one stay as text. -/
  | str (value : String) (interpolated raw : Bool)
  /-- A character literal by its value. -/
  | character (value : String)
  /-- A number as written. -/
  | number (text : String)
  /-- An operator or punctuation mark. -/
  | punct (p : Punct)
deriving DecidableEq, Repr

/-- A token and the line of its first character, counted from one. -/
structure Token where
  kind : TokenKind
  line : Nat
deriving DecidableEq, Repr

namespace TokenKind

/-- The text of an identifier that may be a keyword. -/
def keyword? : TokenKind → Option String
  | .ident text false => some text
  | _ => none

/-- The text of an identifier. -/
def ident? : TokenKind → Option String
  | .ident text _ => some text
  | _ => none

/-- How a token is named in a diagnostic. -/
def describe : TokenKind → String
  | .ident text _ => text
  | .str _ _ _ => "string literal"
  | .character _ => "character literal"
  | .number text => text
  | .punct p => p.text

/-- A token that needs a space between it and another such token. -/
def isWord : TokenKind → Bool
  | .ident _ _ | .number _ => true
  | _ => false

end TokenKind

end CSharp
end ContentModels
