import PageBindings.Settings.Basic
import PageBindings.Json.Printer
import PageBindings.Text.FormEncoding

/-!
# Requests

The parameters of an action are sent as one query parameter that holds the JSON text of their list, and the client
makes itself known by a header.
-/

namespace PageBindings

/-- A request that is ready to be sent. -/
structure Request where
  method : String
  url : String
  headers : List (String × String)
deriving DecidableEq, Repr

/-- The end of a request. -/
structure Response where
  status : Nat
  body : String
deriving DecidableEq, Repr

/-- The query that carries the parameters, with the separator before it; nothing if there are none. -/
def parameterQuery (parameterKey path : String) : List Json → String
  | [] => ""
  | parameters =>
    (if path.toList.contains '?' then "&" else "?") ++ Text.formEncoded parameterKey ++ "=" ++
      Text.formEncoded (Json.array parameters).render

/-- The request of an endpoint: its path, with the parameters if there are any. -/
def Request.forEndpoint (settings : Settings) (clientId path : String) (parameters : List Json) : Request where
  method := "GET"
  url := path ++ parameterQuery settings.parameterKey path parameters
  headers := [(settings.idHeader, clientId)]

end PageBindings
