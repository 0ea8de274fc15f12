import Intrinsics.Disk.Basic
import Intrinsics.Settings.Basic

namespace Intrinsics

inductive Failure where
  | io (path : Path) (fault : Fault)
  | setting (fault : SettingFault)
  | malformedDocument
  | noPaths
  deriving DecidableEq

def Failure.message : Failure → Text
  | .io path fault => path ++ ": ".toList ++ fault.message
  | .setting fault => "Invalid configuration: ".toList ++ fault.message
  | .malformedDocument => "Invalid configuration file: malformed settings document".toList
  | .noPaths => "No input paths given".toList

end Intrinsics
