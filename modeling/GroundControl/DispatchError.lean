import GroundControl.Settings

/-!
# Errors

What callers of the control centre are told at once if a call cannot be carried out.

* `LinkError`, the ways a link refuses a frame;
* `DispatchError`, with its wording and `DispatchError.isBackpressure`.
-/

namespace GroundControl

/-- Why a link refused a frame. -/
inductive LinkError
  /-- the link is down -/
  | closed
  /-- the link could not take this frame -/
  | refused (reason : String)
  deriving DecidableEq, Repr

/-- The wording of a refusal. -/
def LinkError.message : LinkError → String
  | .closed => "link closed"
  | .refused reason => "send failed: " ++ reason

/-- Why a call was not carried out. -/
inductive DispatchError
  | unknownNetwork (network : NetworkId)
  | unknownAgent (network : NetworkId) (agent : AgentId)
  | queueFull (network : NetworkId) (agent : AgentId) (depth : Nat)
  | rateLimited (network : NetworkId)
  | transport (network : NetworkId) (source : LinkError)
  | networkClosed (network : NetworkId)
  | duplicateNetwork (network : NetworkId)
  | config (source : SettingsError)
  deriving DecidableEq, Repr

namespace DispatchError

/-- The wording of an error. -/
def message : DispatchError → String
  | .unknownNetwork network => "unknown network: " ++ network
  | .unknownAgent network agent =>
      "unknown agent " ++ toString agent ++ " on network " ++ network
  | .queueFull network agent depth =>
      "command queue full for agent " ++ toString agent ++ " on network " ++ network ++
        " (depth " ++ toString depth ++ ")"
  | .rateLimited network => "broadcast rate limit exceeded on network " ++ network
  | .transport network source =>
      "transport error on network " ++ network ++ ": " ++ source.message
  | .networkClosed network => "network " ++ network ++ " is closed"
  | .duplicateNetwork network => "network " ++ network ++ " already exists"
  | .config source => "invalid configuration: " ++ source.message

/-- Whether the call may succeed later because a queue is full now. -/
def isBackpressure : DispatchError → Bool
  | .queueFull .. => true
  | _ => false

end DispatchError

end GroundControl
