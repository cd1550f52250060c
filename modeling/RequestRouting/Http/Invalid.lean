/-!
# Invalid values

Why a value is no part of an HTTP message. Each reason keeps the text that was
refused.
-/

namespace RequestRouting.Http

/-- A value that was refused. -/
inductive InvalidValue
  | headerName (text : String)
  | headerValue (text : String)
  | method (text : String)
  | status (code : Nat)
  | uri (text : String)
  deriving DecidableEq, Repr

namespace InvalidValue

/-- The name of the reason. -/
def kind : InvalidValue → String
  | headerName _ => "InvalidHeaderName"
  | headerValue _ => "InvalidHeaderValue"
  | method _ => "InvalidMethod"
  | status _ => "InvalidStatusCode"
  | uri _ => "InvalidUri"

/-- The refused text. -/
def message : InvalidValue → String
  | headerName text | headerValue text | method text | uri text => text
  | status code => toString code

/-- The reason with the refused text. -/
def report (value : InvalidValue) : String := value.kind ++ ": " ++ value.message

end InvalidValue

end RequestRouting.Http
