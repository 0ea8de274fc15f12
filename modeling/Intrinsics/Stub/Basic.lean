import Intrinsics.Declaration.Basic

namespace Intrinsics

def Access.stub (access : Access) : Text :=
  '\t' :: access.visibility.word ++ if access.isStatic then " static".toList else []

def typeMark : Option QualifiedName → Text
  | none => []
  | some type => ':' :: type.text

def baseMark : Option QualifiedName → Text
  | none => []
  | some base => " extends ".toList ++ base.text

def interfacesMark : Option Text → Text
  | none => []
  | some list => " implements ".toList ++ list

def ClassHeader.stub (header : ClassHeader) : Text :=
  "intrinsic".toList ++ (if header.isDynamic then " dynamic".toList else []) ++ " class ".toList ++
    header.name.text ++ baseMark header.base ++ interfacesMark header.interfaces ++ " \x7b\n".toList

def InterfaceHeader.stub (header : InterfaceHeader) : Text :=
  "interface ".toList ++ header.name.text ++ baseMark header.base ++ " \x7b\n".toList

def Signature.stub (signature : Signature) (accessor params : Text) : Text :=
  signature.access.stub ++ " function ".toList ++ accessor ++ signature.name ++ '(' :: params ++
    ')' :: typeMark signature.result ++ ";\n".toList

def Property.stub (var : Property) : Text :=
  var.access.stub ++ " var ".toList ++ var.name ++ typeMark var.type ++ ";\n".toList

-- A getter is written without parameters, whatever its source says.
def Declaration.stub : Declaration → Text
  | .importing target => "import ".toList ++ target.text ++ ";\n".toList
  | .classHeader header => header.stub
  | .interfaceHeader header => header.stub
  | .method signature => signature.stub [] signature.params
  | .getter signature => signature.stub "get ".toList []
  | .setter signature => signature.stub "set ".toList signature.params
  | .property var => var.stub

-- A stub is filed under the last type that its source declares.
structure Stub where
  typeName : Option QualifiedName := none
  text : Text := []
  deriving DecidableEq

end Intrinsics
