import Intrinsics.Text.Basic

namespace Intrinsics

-- The symbols between words. They are listed longest first; of two symbols where one begins
-- the other, the longer one is met first, which makes the first hit the longest.
inductive Punctuator where
  | shiftRightUnsignedAssign | logicalOrAssign | logicalXorAssign | shiftRightUnsigned
  | shiftRightAssign | strictEquals | shiftLeftAssign | ellipsis | logicalAndAssign
  | strictNotEquals | divideAssign | logicalOr | bitOrAssign | logicalXor | bitXorAssign
  | shiftRight | greaterEquals | equals | lessEquals | shiftLeft | minusAssign | decrement
  | plusAssign | increment | multiplyAssign | bitAndAssign | logicalAnd | moduloAssign
  | notEquals | divide | bitNot | closeBrace | bitOr | openBrace | bitXor | closeBracket
  | openBracket | question | greater | assign | less | semicolon | colon | dot | minus | comma
  | plus | multiply | closeParen | openParen | bitAnd | modulo | logicalNot
  deriving DecidableEq

namespace Punctuator

def all : List Punctuator :=
  [.shiftRightUnsignedAssign, .logicalOrAssign, .logicalXorAssign, .shiftRightUnsigned,
   .shiftRightAssign, .strictEquals, .shiftLeftAssign, .ellipsis, .logicalAndAssign,
   .strictNotEquals, .divideAssign, .logicalOr, .bitOrAssign, .logicalXor, .bitXorAssign,
   .shiftRight, .greaterEquals, .equals, .lessEquals, .shiftLeft, .minusAssign, .decrement,
   .plusAssign, .increment, .multiplyAssign, .bitAndAssign, .logicalAnd, .moduloAssign,
   .notEquals, .divide, .bitNot, .closeBrace, .bitOr, .openBrace, .bitXor, .closeBracket,
   .openBracket, .question, .greater, .assign, .less, .semicolon, .colon, .dot, .minus, .comma,
   .plus, .multiply, .closeParen, .openParen, .bitAnd, .modulo, .logicalNot]

def symbol : Punctuator → Text
  | .shiftRightUnsignedAssign => ">>>=".toList
  | .logicalOrAssign => "||=".toList
  | .logicalXorAssign => "^^=".toList
  | .shiftRightUnsigned => ">>>".toList
  | .shiftRightAssign => ">>=".toList
  | .strictEquals => "===".toList
  | .shiftLeftAssign => "<<=".toList
  | .ellipsis => "...".toList
  | .logicalAndAssign => "&&=".toList
  | .strictNotEquals => "!==".toList
  | .divideAssign => "/=".toList
  | .logicalOr => "||".toList
  | .bitOrAssign => "|=".toList
  | .logicalXor => "^^".toList
  | .bitXorAssign => "^=".toList
  | .shiftRight => ">>".toList
  | .greaterEquals => ">=".toList
  | .equals => "==".toList
  | .lessEquals => "<=".toList
  | .shiftLeft => "<<".toList
  | .minusAssign => "-=".toList
  | .decrement => "--".toList
  | .plusAssign => "+=".toList
  | .increment => "++".toList
  | .multiplyAssign => "*=".toList
  | .bitAndAssign => "&=".toList
  | .logicalAnd => "&&".toList
  | .moduloAssign => "%=".toList
  | .notEquals => "!=".toList
  | .divide => "/".toList
  | .bitNot => "~".toList
  | .closeBrace => "\x7d".toList
  | .bitOr => "|".toList
  | .openBrace => "\x7b".toList
  | .bitXor => "^".toList
  | .closeBracket => "]".toList
  | .openBracket => "[".toList
  | .question => "?".toList
  | .greater => ">".toList
  | .assign => "=".toList
  | .less => "<".toList
  | .semicolon => ";".toList
  | .colon => ":".toList
  | .dot => ".".toList
  | .minus => "-".toList
  | .comma => ",".toList
  | .plus => "+".toList
  | .multiply => "*".toList
  | .closeParen => ")".toList
  | .openParen => "(".toList
  | .bitAnd => "&".toList
  | .modulo => "%".toList
  | .logicalNot => "!".toList

def name : Punctuator → String
  | .shiftRightUnsignedAssign => "RShiftUnsignedAssign"
  | .logicalOrAssign => "OrAssign"
  | .logicalXorAssign => "XOrAssign"
  | .shiftRightUnsigned => "RShiftUnsigned"
  | .shiftRightAssign => "RShiftAssign"
  | .strictEquals => "Same"
  | .shiftLeftAssign => "LShiftAssign"
  | .ellipsis => "Ellipsis"
  | .logicalAndAssign => "AndAssign"
  | .strictNotEquals => "NotSame"
  | .divideAssign => "DivideAssign"
  | .logicalOr => "Or"
  | .bitOrAssign => "BitOrAssign"
  | .logicalXor => "XOr"
  | .bitXorAssign => "BitXOrAssign"
  | .shiftRight => "RShift"
  | .greaterEquals => "GreaterEquals"
  | .equals => "Equals"
  | .lessEquals => "LessEquals"
  | .shiftLeft => "LShift"
  | .minusAssign => "MinusAssign"
  | .decrement => "Decrement"
  | .plusAssign => "PlusAssign"
  | .increment => "Increment"
  | .multiplyAssign => "MultiplyAssign"
  | .bitAndAssign => "BitAndAssign"
  | .logicalAnd => "And"
  | .moduloAssign => "ModuloAssign"
  | .notEquals => "NotEquals"
  | .divide => "Divide"
  | .bitNot => "BitNot"
  | .closeBrace => "RBrace"
  | .bitOr => "BitOr"
  | .openBrace => "LBrace"
  | .bitXor => "BitXOr"
  | .closeBracket => "RBracket"
  | .openBracket => "LBracket"
  | .question => "Hook"
  | .greater => "Greater"
  | .assign => "Assign"
  | .less => "Less"
  | .semicolon => "Semicolon"
  | .colon => "Colon"
  | .dot => "Dot"
  | .minus => "Minus"
  | .comma => "Comma"
  | .plus => "Plus"
  | .multiply => "Multiply"
  | .closeParen => "RParen"
  | .openParen => "LParen"
  | .bitAnd => "BitAnd"
  | .modulo => "Modulo"
  | .logicalNot => "Not"

def ofSymbol? (symbol : Text) : Option Punctuator := all.find? (·.symbol == symbol)

def longest? (text : Text) : Option Punctuator := all.find? (·.symbol.isPrefixOf text)

end Punctuator
end Intrinsics
