set_option autoImplicit false

namespace ProtocolStubs

inductive TransportError where
  | attachFailed (reason : String)
  | closed
deriving DecidableEq, Repr

namespace TransportError

def message : TransportError → String
  | .attachFailed reason => "attach failed: " ++ reason
  | .closed => "transport closed"

def causes (_ : TransportError) : List String := []

end TransportError

inductive SessionError where
  | notAttached (domain : String)
  | attach (cause : TransportError)
deriving DecidableEq, Repr

namespace SessionError

def message : SessionError → String
  | .notAttached domain => "Cannot create " ++ domain ++ " domain: debugger is not attached"
  | .attach cause => "failed to attach debugger: " ++ cause.message

def causes : SessionError → List String
  | .notAttached _ => []
  | .attach cause => cause.message :: cause.causes

end SessionError

structure ProtocolError where
  text : String
  code : Int
  method : String
deriving DecidableEq, Repr

namespace ProtocolError

def message (e : ProtocolError) : String :=
  e.text ++ " (" ++ toString e.code ++ ") while calling " ++ e.method

def causes (_ : ProtocolError) : List String := []

end ProtocolError

inductive PayloadError where
  | encode (reason : String)
  | decode (reason : String)
deriving DecidableEq, Repr

namespace PayloadError

def message : PayloadError → String
  | .encode reason => "encode error: " ++ reason
  | .decode reason => "decode error: " ++ reason

def causes (_ : PayloadError) : List String := []

end PayloadError

inductive CallError where
  | protocol (cause : ProtocolError)
  | transport (cause : TransportError)
  | payload (cause : PayloadError)
deriving DecidableEq, Repr

namespace CallError

def message : CallError → String
  | .protocol cause => "protocol error: " ++ cause.message
  | .transport cause => "transport error: " ++ cause.message
  | .payload cause => "payload error: " ++ cause.message

def causes : CallError → List String
  | .protocol cause => cause.message :: cause.causes
  | .transport cause => cause.message :: cause.causes
  | .payload cause => cause.message :: cause.causes

end CallError

end ProtocolStubs
