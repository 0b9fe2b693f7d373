import ConnectionBroker.Errno

/-!
# Broker errors

Every failure of the broker is one of eight kinds with a text. An error is plain data: a failed
construction hands the same error to every caller that waited for it.
-/

namespace ConnectionBroker

/-- A failure of the broker. -/
inductive BrokerError where
  /-- The request does not say which database is meant. -/
  | configInvalid (reason : String)
  /-- The SSH session or the local listener of a tunnel could not be opened. -/
  | tunnelStartFailed (reason : String)
  /-- The factory did not produce a service. -/
  | serviceConstructionFailed (reason : String)
  /-- The tunnel or session in use is gone. -/
  | tunnelDead (name : String)
  /-- The job subsystem no longer knows the task. -/
  | taskNotFound (id : String)
  /-- The SSH session failed. -/
  | transport (reason : String)
  | io (reason : String)
  /-- The settings file could not be read, parsed or accepted. -/
  | settings (reason : String)
  deriving DecidableEq, Repr

namespace BrokerError

/-- The wording of an error. -/
def message : BrokerError → String
  | configInvalid reason => "Invalid connection config: " ++ reason
  | tunnelStartFailed reason => "Tunnel start failed: " ++ reason
  | serviceConstructionFailed reason => "Service construction failed: " ++ reason
  | tunnelDead name => "Tunnel to " ++ name ++ " is dead"
  | taskNotFound id => "No task with id '" ++ id ++ "'"
  | transport reason => "SSH transport error: " ++ reason
  | io reason => "IO error: " ++ reason
  | settings reason => "Settings error: " ++ reason

/-- The error of a failed system call. -/
def ofErrno (e : Errno) : BrokerError :=
  io e.message

end BrokerError

end ConnectionBroker
