import Mathlib.Data.Nat.Notation
/-!
# Ui — what a failed call says of the line to the server

A refusal of the credentials, a function the server ran and refused, or no
word from the server at all.
-/

namespace Dependaboard

namespace Ui

/-- How a call of a server function fails. -/
inductive ServerFnError where
  /-- A status the server answered with, the body as its message. -/
  | serverError (message : String) (code : ℕ)
  /-- The round trip got no answer, or one that could not be read. -/
  | other (cause : String)
  deriving DecidableEq, Repr

/-- What a failed call says of the line to the server. -/
inductive Fault where
  /-- The credentials are no longer accepted. -/
  | signedOut
  /-- The server ran the function and refused it. -/
  | refused (message : String)
  | unreachable
  deriving DecidableEq, Repr

/-- The status the auth edge refuses the credentials with. -/
def credentialsRefused : ℕ := 401

/-- The status a server function's own failure comes back with. -/
def serverFunctionFailure : ℕ := 500

/-- A failed call is told apart by its status: the auth edge and a server
function fail each under its own. -/
def fault : ServerFnError → Fault
  | .serverError message code =>
    if code = credentialsRefused then .signedOut
    else if code = serverFunctionFailure then .refused message
    else .unreachable
  | .other _ => .unreachable

/-- What every surface says of refused credentials, whichever
call met them. -/
def signedOutMessage : String := "You are no longer signed in — reload to sign in again"

/-- What is said of a call no server function answered. -/
def unreachableMessage : String := "The dashboard server could not be reached"

instance : ToString Fault where
  toString
    | .signedOut => signedOutMessage
    | .refused message => message
    | .unreachable => unreachableMessage

end Ui

end Dependaboard
