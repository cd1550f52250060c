import RequestRouting.Handler
import RequestRouting.Http.Call

/-!
# Routes

Handlers for calls, put together from pattern texts. A route matches whole paths and
asks for a method; groups, filters and final steps match the start of a path, so that
they cover everything below it, whatever the method.
-/

namespace RequestRouting.Http

variable {W : Type}

/-- The predicate of a route. The full set of methods sets no condition. -/
def routePredicate (methods : MethodSet) (pattern : Pattern) : Predicate Call :=
  if methods.isAll then ⟨pattern, none⟩
  else
    Predicate.withCondition ⟨pattern, none⟩ fun call => methods.accepts call.request.method

namespace Route

/-- Handles requests with one of the methods on paths of a pattern. -/
def onPattern (methods : MethodSet) (pattern : Pattern) (callback : Callback Call W) :
    Handler Call W :=
  .on (routePredicate methods pattern) callback

/-- Handles requests with one of the methods on paths of a pattern text. -/
def on (methods : MethodSet) (text : String) (callback : Callback Call W) :
    Except PatternError (Handler Call W) :=
  (Pattern.parse text .whole).map fun pattern => onPattern methods pattern callback

/-- Handles requests with a method. -/
def onMethod (method : Method) (text : String) (callback : Callback Call W) :
    Except PatternError (Handler Call W) :=
  on (MethodSet.ofMethod method) text callback

/-- The predicate of everything below a pattern text. -/
def scope (text : String) : Except PatternError (Predicate Call) :=
  (Pattern.parse text .leading).map (routePredicate MethodSet.all)

/-- Groups handlers below a pattern text. -/
def group (text : String) (handlers : List (Handler Call W)) :
    Except PatternError (Handler Call W) := do
  let predicate ← scope text
  Handler.groupOf predicate handlers

/-- Wraps the handlers behind it below a pattern text. -/
def filter (text : String) (callback : Callback Call W) :
    Except PatternError (Handler Call W) :=
  (scope text).map fun predicate => .filter predicate callback

/-- Runs a callback once the handlers behind it, below a pattern text, are done. -/
def after (text : String) (callback : Callback Call W) :
    Except PatternError (Handler Call W) :=
  (scope text).map fun predicate => .after predicate callback

/-- Handles the exceptions of one kind that the handlers behind it leave. -/
def recover (matcher : Matcher) (callback : Callback Call W) : Handler Call W :=
  .recover Predicate.any matcher.accepts callback true

end Route

end RequestRouting.Http
