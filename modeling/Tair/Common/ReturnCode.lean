/-
Return codes of the servers and the engines.
-/

import Mathlib

namespace Tair.Common

inductive ReturnCode where
  | success
  | failed
  | dataNotExist
  | versionError
  | itemsizeError
  | dataExpired
  | serverCanNotWork
  | invalidArgument
  | cannotOverride
  | shouldProxy
  | dupWaitRsp
  | duplicateBusy
  | duplicateIdmixed
  | duplicateDelay
  | duplicateReack
  | duplicateAckWait
deriving DecidableEq, Repr

def ReturnCode.code : ReturnCode → Int
  | .success => 0
  | .dupWaitRsp => 133
  | .shouldProxy => -3967
  | .failed => -3999
  | .dataNotExist => -3998
  | .versionError => -3997
  | .itemsizeError => -3991
  | .dataExpired => -3988
  | .serverCanNotWork => -3987
  | .duplicateBusy => -3985
  | .invalidArgument => -3982
  | .cannotOverride => -3981
  | .duplicateIdmixed => -5001
  | .duplicateDelay => -5002
  | .duplicateReack => -5003
  | .duplicateAckWait => -5004

end Tair.Common
