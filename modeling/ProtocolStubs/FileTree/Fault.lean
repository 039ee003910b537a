set_option autoImplicit false

namespace ProtocolStubs

-- Creating the ancestors of a directory hangs on whether something was missing; every other reason only
-- has its text.
inductive Fault where
  | missing
  | other (reason : String)
deriving DecidableEq, Repr

namespace Fault

def message : Fault → String
  | .missing => "No such file or directory"
  | .other reason => reason

def notDirectory : Fault := .other "Not a directory"

def isDirectory : Fault := .other "Is a directory"

def present : Fault := .other "File exists"

def invalid : Fault := .other "Invalid argument"

def nameTooLong : Fault := .other "File name too long"

def notText : Fault := .other "stream did not contain valid UTF-8"

end Fault

end ProtocolStubs
