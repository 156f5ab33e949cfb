import ContentModels.CSharp.Punctuation
import ContentModels.CSharp.Version

/-!
# Diagnostics

Everything that can be wrong with C# source, as causes; the wording of a cause is
the function `Fault.message`.  A diagnostic places a fault on a line.
-/

namespace ContentModels
namespace CSharp

/-- Why source text is refused. -/
inductive Fault where
  | unterminatedComment
  | characterTooLong
  | newlineInConstant
  | emptyCharacter
  | unterminatedString
  | missingHoleEnd
  | unterminatedRawString
  | unexpectedCharacter (c : Char)
  | identifierExpected
  | expected (p : Punct)
  | unexpectedClosing (p : Punct)
  | unavailable (feature : Feature) (version : LanguageVersion)
  | namespaceMember
  | invalidMember (token : String)
  | chainKeywordExpected
  | accessorExpected
  | invalidExpression
  | duplicateType (container name : String)
  | argumentCount (marker : String) (count : Nat)
  | argumentType (position : Nat) (given wanted : String)
  | misplacedMarker
deriving DecidableEq, Repr

namespace Fault

/-- The message for a mark that is missing. -/
def expectedMessage : Punct → String
  | .semicolon => "CS1002: ; expected"
  | .closeParen => "CS1026: ) expected"
  | .openBrace => "CS1514: \x7b expected"
  | .closeBrace => "CS1513: \x7d expected"
  | p => "CS1003: Syntax error, '" ++ p.text ++ "' expected"

/-- The wording of a fault, with its code in front. -/
def message : Fault → String
  | .unterminatedComment => "CS1035: End-of-file found, '*/' expected"
  | .characterTooLong => "CS1012: Too many characters in character literal"
  | .newlineInConstant => "CS1010: Newline in constant"
  | .emptyCharacter => "CS1011: Empty character literal"
  | .unterminatedString => "CS1039: Unterminated string literal"
  | .missingHoleEnd =>
    "CS8076: Missing close delimiter '\x7d' for interpolated expression"
  | .unterminatedRawString => "CS8997: Unterminated raw string literal"
  | .unexpectedCharacter c => "CS1056: Unexpected character '" ++ c.toString ++ "'"
  | .identifierExpected => "CS1001: Identifier expected"
  | .expected p => expectedMessage p
  | .unexpectedClosing p => "CS1513: Unexpected '" ++ p.text ++ "'"
  | .unavailable feature version =>
    "CS8059: Feature '" ++ feature.displayName ++ "' is not available in C# " ++
      version.display ++ ". Please use language version " ++
      feature.requiredVersion.display ++ " or greater."
  | .namespaceMember =>
    "CS0116: A namespace cannot directly contain members such as fields, methods or statements"
  | .invalidMember token =>
    "CS1519: Invalid token '" ++ token ++
      "' in class, record, struct, or interface member declaration"
  | .chainKeywordExpected => "CS1018: Keyword 'this' or 'base' expected"
  | .accessorExpected => "CS1014: A get or set accessor expected"
  | .invalidExpression => "CS1525: Invalid expression term"
  | .duplicateType container name =>
    "CS0101: The namespace '" ++ container ++ "' already contains a definition for '" ++
      name ++ "'"
  | .argumentCount marker count =>
    "CS1729: '" ++ marker ++ "Attribute' does not contain a constructor that takes " ++
      toString count ++ " arguments"
  | .argumentType position given wanted =>
    "CS1503: Argument " ++ toString position ++ ": cannot convert from '" ++ given ++
      "' to '" ++ wanted ++ "'"
  | .misplacedMarker =>
    "CS0592: Attribute 'ImplementPropertyType' is not valid on this declaration type. " ++
      "It is only valid on 'property, indexer, method' declarations."

end Fault

/-- A fault and the line on which it is reported, counted from one. -/
structure Diagnostic where
  line : Nat
  fault : Fault
deriving DecidableEq, Repr

end CSharp
end ContentModels
