import PageBindings.Binding.Action

/-!
# Failures

What can go wrong between an event and the patch it asks for.  Every failure is local: it ends the action, request or
patch it belongs to and nothing else.
-/

namespace PageBindings

open Text (quoted)

/-- The page refused something it was asked for. -/
structure PageError where
  operation : String
  detail : String
deriving DecidableEq, Repr

/-- The wording of the error. -/
def PageError.message (error : PageError) : String :=
  error.operation ++ " failed: " ++ error.detail

/-- What an action or fragment refers to is not there. -/
inductive LookupError where
  | missingTarget
  | noMatch (selector : String)
  | unknownResolver (name : String)
  | badArguments (resolver expected : String)
  | noParameterMatch (selector : String)
  | noValue (selector what : String)
  | missingViewId
  | unknownView (id : String)
  | page (cause : PageError)
deriving DecidableEq, Repr

/-- The wording of the error. -/
def LookupError.message : LookupError → String
  | .missingTarget => "action has no explicit target and its element carries no view id"
  | .noMatch selector => "target selector " ++ quoted selector ++ " matched no elements"
  | .unknownResolver name => "unknown dynamic parameter resolver " ++ quoted name
  | .badArguments resolver expected => "dynamic parameter resolver " ++ quoted resolver ++ " expects " ++ expected
  | .noParameterMatch selector => "dynamic parameter selector " ++ quoted selector ++ " matched no elements"
  | .noValue selector what => "element matched by " ++ quoted selector ++ " has no " ++ what
  | .missingViewId => "fragment root carries no view id"
  | .unknownView id => "no element with view id " ++ quoted id
  | .page cause => cause.message

/-- A fragment does not give the element that a patch needs. -/
inductive ContentError where
  | missing (kind : PatchKind)
  | noElement
deriving DecidableEq, Repr

/-- The wording of the error. -/
def ContentError.message : ContentError → String
  | .missing kind => kind.name ++ " requires a fragment but none was provided"
  | .noElement => "fragment contains no element"

/-- Why a patch was given up. -/
inductive PatchError where
  | lookup (cause : LookupError)
  | content (cause : ContentError)
  | page (cause : PageError)
deriving DecidableEq, Repr

/-- The wording of the error. -/
def PatchError.message : PatchError → String
  | .lookup cause => cause.message
  | .content cause => cause.message
  | .page cause => cause.message

/-- A request or the push stream failed. -/
inductive ConnectionError where
  | status (code : Nat)
  | request (detail : String)
  | stream (detail : String)
  | page (cause : PageError)
deriving DecidableEq, Repr

/-- The wording of the error. -/
def ConnectionError.message : ConnectionError → String
  | .status code => "unexpected response status " ++ toString code
  | .request detail => "request failed: " ++ detail
  | .stream detail => "stream failed: " ++ detail
  | .page cause => cause.message

end PageBindings
