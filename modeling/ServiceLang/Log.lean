/-!
# Log entries

What a component reports while it works, in the form in which it is shown: a level, a fixed message,
and named details that are already text. The components keep typed events of their own; each of them
says how it is shown as an `Entry`.
-/

namespace ServiceLang.Log

inductive Level where
  | trace
  | debug
  deriving DecidableEq, Inhabited

def Level.text : Level → String
  | .trace => "TRACE"
  | .debug => "DEBUG"

structure Entry where
  level : Level
  message : String
  details : List (String × String)
  deriving DecidableEq, Inhabited

end ServiceLang.Log
