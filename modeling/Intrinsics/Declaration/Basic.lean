import Intrinsics.Declaration.Name

namespace Intrinsics

inductive Visibility where
  | exposed | hidden
  deriving DecidableEq

namespace Visibility

def word : Visibility → Text
  | .exposed => "public".toList
  | .hidden => "private".toList

def ofAttributes (attributes : List Text) : Visibility :=
  if attributes.contains Visibility.hidden.word then .hidden else .exposed

end Visibility

structure Access where
  visibility : Visibility
  isStatic : Bool
  deriving DecidableEq

def Access.ofAttributes (attributes : List Text) : Access :=
  ⟨Visibility.ofAttributes attributes, attributes.contains "static".toList⟩

structure ClassHeader where
  isDynamic : Bool
  name : QualifiedName
  base : Option QualifiedName
  -- The list behind `implements`, as it is written.
  interfaces : Option Text
  deriving DecidableEq

structure InterfaceHeader where
  name : QualifiedName
  base : Option QualifiedName
  deriving DecidableEq

structure Signature where
  access : Access
  name : Text
  params : Text
  result : Option QualifiedName
  deriving DecidableEq

structure Property where
  access : Access
  name : Text
  type : Option QualifiedName
  deriving DecidableEq

inductive Declaration where
  | importing (target : QualifiedName)
  | classHeader (header : ClassHeader)
  | interfaceHeader (header : InterfaceHeader)
  | method (signature : Signature)
  | getter (signature : Signature)
  | setter (signature : Signature)
  | property (var : Property)
  deriving DecidableEq

namespace Declaration

def kind : Declaration → String
  | .importing _ => "import"
  | .classHeader _ => "class"
  | .interfaceHeader _ => "interface"
  | .method _ => "method"
  | .getter _ => "getter"
  | .setter _ => "setter"
  | .property _ => "property"

def name : Declaration → Text
  | .importing target => target.name
  | .classHeader header => header.name.name
  | .interfaceHeader header => header.name.name
  | .method signature | .getter signature | .setter signature => signature.name
  | .property var => var.name

def visibility? : Declaration → Option Visibility
  | .importing _ | .classHeader _ | .interfaceHeader _ => none
  | .method signature | .getter signature | .setter signature => some signature.access.visibility
  | .property var => some var.access.visibility

def typeName? : Declaration → Option QualifiedName
  | .classHeader header => some header.name
  | .interfaceHeader header => some header.name
  | _ => none

def isHidden (declaration : Declaration) : Bool := declaration.visibility? == some .hidden

end Declaration
end Intrinsics
