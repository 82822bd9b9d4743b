import RingOverlay.Log
import RingOverlay.Message.Basic
import RingOverlay.Registry.Phase

/-!
# Registry — what it logs

Every event of the registry, and the record it is logged as.
-/

namespace RingOverlay

/-- How a membership changed, or was asked to. -/
inductive Admission where
  | register
  | deregister
  | disconnect
  deriving DecidableEq, Repr

/-- The name of an admission. -/
def Admission.name : Admission → String
  | register => "register"
  | deregister => "deregister"
  | disconnect => "disconnect"

/-- What the registry logs. -/
inductive RegistryEvent where
  /-- A node joined or left, or was refused. -/
  | admission (action : Admission) (id : Option NodeId) (address : PeerAddress) (accepted : Bool)
      (info : String)
  /-- The registry entered a phase. -/
  | phase (phase : Phase) (note : String)
  | overlayAbandoned (address : PeerAddress) (phase : Phase) (reason : String)
  | lateSetupStatus (phase : Phase) (status : Int32)
  | setupFailed (peer : String) (info : String)
  | unexpectedFinish (address : PeerAddress) (id : NodeId)
  | nobodyToSummarise
  | unexpectedSummary (id : NodeId)
  | notSent (address : PeerAddress) (kind : Kind) (error : String)
  | registrationUnanswered (error : String)
  | deregistrationUnanswered (error : String)
  | unexpectedMessage (kind : Kind) (peer : String)
  /-- A stream ended in a fault. -/
  | streamFault (peer : String) (error : String)
  deriving DecidableEq, Repr

namespace RegistryEvent

open Log

/-- A warning of the registry. -/
def warning (message : String) (fields : List (String × Value)) : Record :=
  ⟨.warn, .registry, fields ++ [("message", .text message)]⟩

/-- The record of an event. -/
def record : RegistryEvent → Record
  | admission action id address accepted info =>
    ⟨.info, .registry,
      ("action", .text action.name) :: idField? "id" (id.map Fin.val) ++
        [("address", .text address.text), ("accepted", .flag accepted), ("info", .text info)]⟩
  | phase p note => ⟨.info, .registry, [("phase", .text p.name), ("message", .text note)]⟩
  | overlayAbandoned address p reason =>
    warning "overlay abandoned"
      [("address", .text address.text), ("phase", .text p.name), ("reason", .text reason)]
  | lateSetupStatus p status =>
    warning "ignoring setup status outside of setup"
      [("phase", .text p.name), ("status", .number status.toInt)]
  | setupFailed peer info =>
    warning "node failed to set up its connections" [("peer", .text peer), ("info", .text info)]
  | unexpectedFinish address id =>
    warning "unexpected task finished" [("address", .text address.text), ("id", .number id.val)]
  | nobodyToSummarise => warning "no node could be asked for a traffic summary" []
  | unexpectedSummary id => warning "unexpected traffic summary" [("id", .number id.val)]
  | notSent address kind error =>
    warning "could not send"
      [("address", .text address.text), ("kind", .text kind.name), ("error", .text error)]
  | registrationUnanswered error =>
    warning "could not answer registration" [("error", .text error)]
  | deregistrationUnanswered error =>
    warning "could not answer deregistration" [("error", .text error)]
  | unexpectedMessage kind peer =>
    warning "unexpected message" [("kind", .text kind.name), ("peer", .text peer)]
  | streamFault peer error =>
    ⟨.warn, .connection, [("peer", .text peer), ("error", .text error)]⟩

end RegistryEvent

end RingOverlay
