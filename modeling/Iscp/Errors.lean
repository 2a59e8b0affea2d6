import Iscp.Go.Text

/-!
# Errors

The error codes of the protocol, and the errors its functions return: an error made by
`New`, `Wrap` or `Retryable`, or an error of a library that is passed on as it is. Of the
latter only the format is kept, without the arguments printed into it: no handler looks
at more than the code and the message of the outermost error.
-/

namespace Iscp

open Go

/-- The error codes. -/
inductive Code where
  | canonicalInvalid
  | schemaInvalid
  | signatureInvalid
  | keyInvalid
  | trustInvalid
  | sessionInvalid
  | envelopeInvalid
  | replayDetected
  | accessInvalid
  | provisionInvalid
  | configInvalid
  | storageInvalid
  deriving DecidableEq

/-- A code as it is shown. -/
def Code.text : Code → String
  | .canonicalInvalid => "ISCPCAN001"
  | .schemaInvalid => "ISCPCAN002"
  | .signatureInvalid => "ISCPSIG001"
  | .keyInvalid => "ISCPKEY001"
  | .trustInvalid => "ISCPTRUST001"
  | .sessionInvalid => "ISCPSESSION001"
  | .envelopeInvalid => "ISCPENV001"
  | .replayDetected => "ISCPENV002"
  | .accessInvalid => "ISCPACCESS001"
  | .provisionInvalid => "ISCPPROV001"
  | .configInvalid => "ISCPCFG001"
  | .storageInvalid => "ISCPDB001"

/-- **An error.** -/
inductive Error where
  /-- `New(code, message)`. -/
  | new (code : Code) (message : Str)
  /-- `Wrap(code, message, err)`. -/
  | wrap (code : Code) (message : Str) (err : Error)
  /-- `Retryable(code, message)`. -/
  | retryable (code : Code) (message : Str)
  /-- An error of a library, by its format. -/
  | plain (format : String)
  deriving DecidableEq

namespace Error

/-- The code of an error of the protocol. -/
def code : Error → Option Code
  | .new c _ | .wrap c _ _ | .retryable c _ => some c
  | .plain _ => none

end Error

end Iscp
