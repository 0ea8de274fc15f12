import Intrinsics.Scan.Run
import Intrinsics.Stub.Basic

namespace Intrinsics

structure Emitter where
  publicOnly : Bool
  stub : Stub := {}

namespace Emitter

def start (emitter : Emitter) : Emitter := ⟨emitter.publicOnly, {}⟩

def declare (declaration : Declaration) (emitter : Emitter) : Emitter :=
  if emitter.publicOnly && declaration.isHidden then emitter
  else
    ⟨emitter.publicOnly, declaration.typeName?.or emitter.stub.typeName,
      emitter.stub.text ++ declaration.stub⟩

-- The closing brace is written even where no header opened one.
def complete (emitter : Emitter) : Emitter :=
  ⟨emitter.publicOnly, emitter.stub.typeName, emitter.stub.text ++ "\x7d\n".toList⟩

def listener : Listener Emitter := ⟨start, declare, complete⟩

def scan (source : Text) (emitter : Emitter) : Emitter := (listener.scan source emitter).1

end Emitter

def Stub.render (publicOnly : Bool) (source : Text) : Stub :=
  (Emitter.scan source ⟨publicOnly, {}⟩).stub

end Intrinsics
