import TierLineage.Json.Value
import TierLineage.Number.Decimal

/-!
# Usage

How often a model was asked, how many tokens it reported and how many of its answers could not be
read.  The counters are words of 64 bits with a sign, which wrap around.
-/

namespace TierLineage

open TierLineage.Number

/-- The counters of a model's use. -/
structure Usage where
  requests : Int
  promptTokens : Int
  completionTokens : Int
  fallbacks : Int
  deriving Repr, DecidableEq, Inhabited

namespace Usage

/-- Nothing was counted. -/
def zero : Usage := ⟨0, 0, 0, 0⟩

/-- An integer as a word of 64 bits with a sign. -/
def wrapped (n : Int) : Int :=
  Int.bmod n 0x10000000000000000

/-- Count a request. -/
def countRequest (u : Usage) : Usage :=
  { u with requests := wrapped (u.requests + 1) }

/-- Count tokens. -/
def countTokens (u : Usage) (prompt completion : Int) : Usage :=
  { u with
    promptTokens := wrapped (u.promptTokens + prompt)
    completionTokens := wrapped (u.completionTokens + completion) }

/-- Count an answer that could not be read. -/
def countFallback (u : Usage) : Usage :=
  { u with fallbacks := wrapped (u.fallbacks + 1) }

/-- The data of the counters. -/
def toJson (u : Usage) : Json :=
  Json.obj [("requests", Json.int u.requests), ("prompt_tokens", Json.int u.promptTokens),
    ("completion_tokens", Json.int u.completionTokens), ("parse_fallbacks", Json.int u.fallbacks)]

/-- The counters as a text for logs. -/
def logText (u : Usage) : String :=
  "UsageTracker \x7b requests: " ++ integerText u.requests ++
    ", prompt_tokens: " ++ integerText u.promptTokens ++
    ", completion_tokens: " ++ integerText u.completionTokens ++
    ", parse_fallbacks: " ++ integerText u.fallbacks ++ " \x7d"

end Usage

end TierLineage
