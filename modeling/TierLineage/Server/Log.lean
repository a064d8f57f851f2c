import TierLineage.Config.Setting

/-!
# Logs

In which form a server writes its log.
-/

namespace TierLineage.Server

open TierLineage.Text

/-- The forms of a log. -/
inductive LogFormat where
  | pretty
  | json
  deriving Repr, DecidableEq

/-- The form that the environment asks for; letter case does not count. -/
def LogFormat.ofEnvironment (env : Environment) : LogFormat :=
  match env.lookup "BRONZELINE_LOG_FORMAT" with
  | some value => if sameStringIgnoringCase value "json" then .json else .pretty
  | none => .pretty

end TierLineage.Server
