import SheetLint.Position

namespace SheetLint

inductive ParseError.Cause where
  | unclosedBlock
  | unexpectedBrace
  | nestingTooDeep
  | unclosedComment
  | unclosedString
  | unclosedInterpolation
  | unknownWord
  | mixedIndentation
  | unexpectedIndentation
deriving DecidableEq, Repr

/-- The refusal of a text: its cause and where the cause stands. -/
structure ParseError where
  cause : ParseError.Cause
  pos : Position
deriving DecidableEq, Repr

def ParseError.Cause.message : ParseError.Cause → String
  | unclosedBlock => "Unclosed block"
  | unexpectedBrace => "Unexpected \x7d"
  | nestingTooDeep => "Nesting too deep"
  | unclosedComment => "Unclosed comment"
  | unclosedString => "Unclosed string"
  | unclosedInterpolation => "Unclosed interpolation"
  | unknownWord => "Unknown word"
  | mixedIndentation => "Mixed tabs and spaces are not allowed"
  | unexpectedIndentation => "Unexpected indentation"

def ParseError.message (e : ParseError) : String :=
  e.cause.message

end SheetLint
