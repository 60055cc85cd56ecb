import LineCalc.Text.Quoted
import LineCalc.Text.Utf8
import LineCalc.Token.Basic

set_option autoImplicit false

/- Why a text is no expression. Where the text stops making sense, a fragment that would mean
something in a larger language is named for what it would be there. -/
namespace LineCalc

inductive Construct where
  | name
  | keyword
  | booleanOperator
  | comparison
  | stringLiteral
  | attributeAccess
  | subscript
  | call
  | collection
  | assignment
  | bitwiseOperator
  | unaryPlus
  | matrixMultiply
  | multipleStatements
  | sliceOrAscription
  deriving DecidableEq, Repr

namespace Construct

def all : List Construct :=
  [.name, .keyword, .booleanOperator, .comparison, .stringLiteral, .attributeAccess, .subscript,
    .call, .collection, .assignment, .bitwiseOperator, .unaryPlus, .matrixMultiply,
    .multipleStatements, .sliceOrAscription]

def label : Construct → String
  | .name => "name"
  | .keyword => "keyword"
  | .booleanOperator => "boolean_operator"
  | .comparison => "comparison"
  | .stringLiteral => "string_literal"
  | .attributeAccess => "attribute_access"
  | .subscript => "subscript"
  | .call => "call"
  | .collection => "collection"
  | .assignment => "assignment"
  | .bitwiseOperator => "bitwise_operator"
  | .unaryPlus => "unary_plus"
  | .matrixMultiply => "matrix_multiply"
  | .multipleStatements => "multiple_statements"
  | .sliceOrAscription => "slice_or_annotation"

def keywords : List String :=
  ["False", "None", "True", "as", "assert", "async", "await", "break", "class", "continue", "def",
    "del", "elif", "else", "except", "finally", "for", "from", "global", "if", "import", "lambda",
    "nonlocal", "pass", "raise", "return", "try", "while", "with", "yield"]

def ofWord (word : List Char) : Construct :=
  let word := String.ofList word
  if word ∈ ["and", "or", "not"] then .booleanOperator
  else if word ∈ ["is", "in"] then .comparison
  else if word ∈ keywords then .keyword
  else .name

/-- The construct of a fragment that starts with a character no word starts with. -/
def ofSymbol? (c : Char) (rest : List Char) : Option (Construct × List Char) :=
  match c, rest with
  | '\x27', _ => some (.stringLiteral, [c])
  | '\x22', _ => some (.stringLiteral, [c])
  | '.', d :: rest =>
    if Token.isWordStart d then some (.attributeAccess, c :: d :: rest.takeWhile Token.isWordPart)
    else none
  | '=', '=' :: _ => some (.comparison, [c, '='])
  | '!', '=' :: _ => some (.comparison, [c, '='])
  | '<', '=' :: _ => some (.comparison, [c, '='])
  | '>', '=' :: _ => some (.comparison, [c, '='])
  | ':', '=' :: _ => some (.assignment, [c, '='])
  | '=', _ => some (.assignment, [c])
  | '<', '<' :: _ => some (.bitwiseOperator, [c, '<'])
  | '>', '>' :: _ => some (.bitwiseOperator, [c, '>'])
  | '&', _ => some (.bitwiseOperator, [c])
  | '|', _ => some (.bitwiseOperator, [c])
  | '~', _ => some (.bitwiseOperator, [c])
  | '<', _ => some (.comparison, [c])
  | '>', _ => some (.comparison, [c])
  | '[', _ => some (.subscript, [c])
  | '(', _ => some (.call, [c])
  | '{', _ => some (.collection, [c])
  | ',', _ => some (.collection, [c])
  | ';', _ => some (.multipleStatements, [c])
  | '\n', _ => some (.multipleStatements, [c])
  | '\r', _ => some (.multipleStatements, [c])
  | ':', _ => some (.sliceOrAscription, [c])
  | '@', _ => some (.matrixMultiply, [c])
  | '+', _ => some (.unaryPlus, [c])
  | _, _ => none

/-- The construct at the start of a text, with the longest fragment that shows it. -/
def ofText? : List Char → Option (Construct × List Char)
  | [] => none
  | c :: rest =>
    if Token.isWordStart c then
      let word := c :: rest.takeWhile Token.isWordPart
      some (ofWord word, word)
    else ofSymbol? c rest

end Construct

/-- What could have continued the text. Where one token is tried for, all that is known is that
it is not there. -/
inductive Expectation where
  | operand
  | closing
  | continuation
  | token
  deriving DecidableEq, Repr

def Expectation.label : Expectation → String
  | .operand => "operand"
  | .closing => "')'"
  | .continuation => "operator or end of input"
  | .token => "valid token"

/-- What is wrong at a position: something unexpected is there, or what is wrong is told in
words. -/
inductive Complaint where
  | unexpected (found : Option Char) (expected : Expectation)
  | worded (message : String)
  deriving DecidableEq, Repr

def Complaint.message : Complaint → String
  | .unexpected (some c) expected =>
    "Unexpected token " ++ String.ofList (Text.quotedChar c) ++ ", expected " ++ expected.label
  | .unexpected none expected => "Unexpected end of input, expected " ++ expected.label
  | .worded message => message

/-- Positions count bytes of the text in UTF-8. -/
inductive Rejection where
  | malformed (position : Nat) (complaint : Complaint)
  | unsupported (position : Nat) (construct : Construct) (fragment : String)
  | tooComplex (limit : Nat)
  deriving DecidableEq, Repr

def Rejection.message : Rejection → String
  | .malformed position complaint => s!"Syntax Error at offset {position}: " ++ complaint.message
  | .unsupported position construct fragment =>
    s!"Unsupported Construct at offset {position}: " ++ construct.label ++ " \"" ++ fragment ++ "\""
  | .tooComplex limit => s!"Expression Too Complex: nesting exceeds {limit}"

end LineCalc
