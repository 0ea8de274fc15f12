import Intrinsics.Token.Punctuator

namespace Intrinsics

structure Span where
  start : Nat
  stop : Nat
  deriving DecidableEq

namespace Span

def length (span : Span) : Nat := span.stop - span.start

def isEmpty (span : Span) : Bool := span.start == span.stop

end Span

inductive TokenKind where
  | whitespace | lineComment | blockComment | string | keyword | identifier | punctuation
  deriving DecidableEq

namespace TokenKind

-- The order in which the kinds are tried at one place. Comments stand before the symbols
-- they begin with, and reserved words before identifiers.
def precedence : List TokenKind :=
  [.whitespace, .lineComment, .blockComment, .string, .keyword, .identifier, .punctuation]

def name : TokenKind → String
  | .whitespace => "whitespace"
  | .lineComment => "single-line-comment"
  | .blockComment => "multi-line-comment"
  | .string => "string"
  | .keyword => "keyword"
  | .identifier => "identifier"
  | .punctuation => "punctuation"

def ofName? (name : String) : Option TokenKind := precedence.find? (·.name == name)

def isComment : TokenKind → Bool
  | .lineComment | .blockComment => true
  | _ => false

def isTrivia : TokenKind → Bool
  | .whitespace => true
  | kind => kind.isComment

end TokenKind

structure Lexeme where
  kind : TokenKind
  body : Text
  deriving DecidableEq

namespace Lexeme

def text (lexeme : Lexeme) : Text :=
  match lexeme.kind with
  | .lineComment => '/' :: '/' :: lexeme.body
  | .blockComment => '/' :: '*' :: (lexeme.body ++ ['*', '/'])
  | .string => '"' :: (lexeme.body ++ ['"'])
  | _ => lexeme.body

def isKeyword (word : Text) (lexeme : Lexeme) : Bool :=
  lexeme.kind == .keyword && lexeme.body == word

def punctuator? (lexeme : Lexeme) : Option Punctuator :=
  match lexeme.kind with
  | .punctuation => Punctuator.ofSymbol? lexeme.body
  | _ => none

end Lexeme

-- The span covers the delimiters.
structure Token extends Lexeme where
  span : Span
  deriving DecidableEq

end Intrinsics
