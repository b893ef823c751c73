/-!
# Server errors

What a database reports when a statement fails. Whoever is told of one may mark it as
handled, and take that back; nothing else about it changes.
-/

namespace SqlBoundary

structure ServerError where
  /-- The vendor's own number for the error. -/
  code : Int
  /-- The SQL state. -/
  state : String
  message : String
  handled : Bool
deriving DecidableEq

namespace ServerError

def raised (code : Int) (state message : String) : ServerError := ⟨code, state, message, false⟩

def setHandled (e : ServerError) (handled : Bool) : ServerError := { e with handled := handled }

def display (e : ServerError) : String :=
  e.message ++ " (code: " ++ toString e.code ++ ", state: " ++ e.state ++ ")"

end ServerError

end SqlBoundary
