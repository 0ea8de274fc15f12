import Intrinsics.Text.Basic

namespace Intrinsics.Text

def escapeChar : Char → Text
  | '\\' => ['\\', '\\']
  | '"' => ['\\', '"']
  | '\n' => ['\\', 'n']
  | '\t' => ['\\', 't']
  | c => [c]

def escape (text : Text) : Text := text.flatMap escapeChar

-- A body is read once from left to right, so an escaped backslash never opens an escape.
def unescape : Text → Text
  | '\\' :: '\\' :: text => '\\' :: unescape text
  | '\\' :: '"' :: text => '"' :: unescape text
  | '\\' :: 'n' :: text => '\n' :: unescape text
  | '\\' :: 't' :: text => '\t' :: unescape text
  | '\\' :: c :: text => '\\' :: c :: unescape text
  | c :: text => c :: unescape text
  | [] => []

end Intrinsics.Text
