import Intrinsics.Token.Lexer

namespace Intrinsics

-- Tokens on demand. A source is split when the first token is asked for; tokens put back
-- are served first and leave the source alone.
structure TokenBuffer where
  source : Text
  pending : List Token := []
  filled : Bool := false

namespace TokenBuffer

def ofSource (source : Text) : TokenBuffer := ⟨source, [], false⟩

def fill (buffer : TokenBuffer) : TokenBuffer :=
  if buffer.pending.isEmpty && !buffer.filled then
    ⟨buffer.source, tokens buffer.source, true⟩
  else buffer

def peek (buffer : TokenBuffer) : Option Token × TokenBuffer :=
  let ready := buffer.fill
  (ready.pending.head?, ready)

def next (buffer : TokenBuffer) : Option Token × TokenBuffer :=
  let ready := buffer.fill
  (ready.pending.head?, ⟨ready.source, ready.pending.tail, ready.filled⟩)

def putBack (token : Token) (buffer : TokenBuffer) : TokenBuffer :=
  ⟨buffer.source, token :: buffer.pending, buffer.filled⟩

def reset (buffer : TokenBuffer) : TokenBuffer := ofSource buffer.source

def resetSource (source : Text) (buffer : TokenBuffer) : TokenBuffer :=
  reset ⟨source, buffer.pending, buffer.filled⟩

def take : Nat → TokenBuffer → List Token × TokenBuffer
  | 0, buffer => ([], buffer)
  | count + 1, buffer =>
    match buffer.next with
    | (none, buffer) => ([], buffer)
    | (some token, buffer) =>
      let (served, buffer) := take count buffer
      (token :: served, buffer)

def upcoming (buffer : TokenBuffer) : List Token :=
  buffer.pending ++ if buffer.filled then [] else tokens buffer.source

def drain (buffer : TokenBuffer) : List Token × TokenBuffer := buffer.take (buffer.upcoming.length + 1)

end TokenBuffer
end Intrinsics
