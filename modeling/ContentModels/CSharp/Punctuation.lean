/-!
# Punctuation

The operators and punctuation marks of the language.  Marks of two characters are
read before marks of one; `?.` in front of a digit is two marks, for a number may
start with its point.
-/

namespace ContentModels
namespace CSharp

/-- An operator or punctuation mark. -/
inductive Punct where
  | arrow
  | equal
  | notEqual
  | lessEqual
  | greaterEqual
  | doubleColon
  | conditionalAnd
  | conditionalOr
  | coalesce
  | conditionalAccess
  | increment
  | decrement
  | addAssign
  | subtractAssign
  | multiplyAssign
  | divideAssign
  | remainderAssign
  | andAssign
  | orAssign
  | xorAssign
  | pointerAccess
  | range
  | openBrace
  | closeBrace
  | openParen
  | closeParen
  | openBracket
  | closeBracket
  | less
  | greater
  | semicolon
  | comma
  | dot
  | colon
  | assign
  | question
  | plus
  | minus
  | star
  | slash
  | percent
  | ampersand
  | bar
  | caret
  | bang
  | tilde
deriving DecidableEq, Repr

namespace Punct

/-- The characters of a mark. -/
def text : Punct → String
  | .arrow => "=>"
  | .equal => "=="
  | .notEqual => "!="
  | .lessEqual => "<="
  | .greaterEqual => ">="
  | .doubleColon => "::"
  | .conditionalAnd => "&&"
  | .conditionalOr => "||"
  | .coalesce => "??"
  | .conditionalAccess => "?."
  | .increment => "++"
  | .decrement => "--"
  | .addAssign => "+="
  | .subtractAssign => "-="
  | .multiplyAssign => "*="
  | .divideAssign => "/="
  | .remainderAssign => "%="
  | .andAssign => "&="
  | .orAssign => "|="
  | .xorAssign => "^="
  | .pointerAccess => "->"
  | .range => ".."
  | .openBrace => "\x7b"
  | .closeBrace => "\x7d"
  | .openParen => "("
  | .closeParen => ")"
  | .openBracket => "["
  | .closeBracket => "]"
  | .less => "<"
  | .greater => ">"
  | .semicolon => ";"
  | .comma => ","
  | .dot => "."
  | .colon => ":"
  | .assign => "="
  | .question => "?"
  | .plus => "+"
  | .minus => "-"
  | .star => "*"
  | .slash => "/"
  | .percent => "%"
  | .ampersand => "&"
  | .bar => "|"
  | .caret => "^"
  | .bang => "!"
  | .tilde => "~"

/-- The marks of two characters. -/
def double : List Punct :=
  [.arrow, .equal, .notEqual, .lessEqual, .greaterEqual, .doubleColon, .conditionalAnd,
    .conditionalOr, .coalesce, .conditionalAccess, .increment, .decrement, .addAssign,
    .subtractAssign, .multiplyAssign, .divideAssign, .remainderAssign, .andAssign, .orAssign,
    .xorAssign, .pointerAccess, .range]

/-- The marks of one character. -/
def single : List Punct :=
  [.openBrace, .closeBrace, .openParen, .closeParen, .openBracket, .closeBracket, .less,
    .greater, .semicolon, .comma, .dot, .colon, .assign, .question, .plus, .minus, .star,
    .slash, .percent, .ampersand, .bar, .caret, .bang, .tilde]

/-- The mark that one character stands for. -/
def ofChar? (c : Char) : Option Punct :=
  single.find? fun p => p.text.toList == [c]

/-- The mark that two characters stand for. -/
def ofChars? (c d : Char) : Option Punct :=
  double.find? fun p => p.text.toList == [c, d]

theorem text_ofChar?
    {c : Char} {p : Punct}
    (h : ofChar? c = some p) :
    p.text.toList = [c] := by
  simpa using List.find?_some h

theorem text_ofChars?
    {c d : Char} {p : Punct}
    (h : ofChars? c d = some p) :
    p.text.toList = [c, d] := by
  simpa using List.find?_some h

/-- The mark that closes a group opened by this mark. -/
def closer? : Punct → Option Punct
  | .openParen => some .closeParen
  | .openBracket => some .closeBracket
  | .openBrace => some .closeBrace
  | _ => none

/-- Whether a mark closes a group. -/
def isCloser : Punct → Bool
  | .closeParen | .closeBracket | .closeBrace => true
  | _ => false

end Punct

end CSharp
end ContentModels
