import TierLineage.Model.Line

/-!
# Analysts

Who answers questions about procedures: nobody, a script, or a model.  A script waits for a while
before every answer, fails for some procedures, gives canned answers for others, and for the rest
makes up a plain copy of one column.  A model answers when the request is sent, which may have to wait
for others.
-/

namespace TierLineage

/-- The answers of a scripted analyst. -/
structure Script where
  delay : Nat
  failing : List String
  answers : List (String × String)
  deriving Repr, DecidableEq

/-- Who answers questions about procedures. -/
inductive Analyst where
  | absent
  | scripted (script : Script)
  /-- A model, with the requests to it that have not been sent. -/
  | model (line : Model.Line)

namespace Script

/-- Answers at once, and makes up every answer. -/
def plain : Script := ⟨0, [], []⟩

/-- The answer that is made up. -/
def madeUp (r : AnalysisRequest) : Analysis :=
  let connection := r.identity.connection
  { summary := "Analyzed " ++ r.identity.name ++ " (" ++
      Number.integerText r.definition.utf8ByteSize ++ " chars)."
    target := some ⟨connection, "", "stg", "target_table"⟩
    columns := [⟨"id", "id", .ofList [⟨connection, "", "dbo", "source_table"⟩], .direct⟩]
    fallback := false }

/-- The answer to a question. -/
def answer (s : Script) (r : AnalysisRequest) : Outcome Analysis :=
  let name := r.identity.name
  if s.failing.contains name then
    .error (.analysis (.requestFailed "recording" 502 ("analysis of " ++ name ++ " failed")))
  else match s.answers.lookup name with
    | some raw => .ok (Answer.analyze raw r.identity.connection Answer.standardFallback)
    | none => .ok (madeUp r)

end Script

namespace Analyst

/-- The answer to a question. -/
def answer (a : Analyst) (r : AnalysisRequest) : Outcome Analysis :=
  match a with
  | absent => .error (.analysis .noProvider)
  | scripted s => s.answer r
  | model l => l.answer r

/-- The moment at which a question that was asked since a moment is answered; nobody knows it of a
request to a model that waits in line. -/
def ready? (a : Analyst) (number since : Nat) : Option Nat :=
  match a with
  | absent => some since
  | scripted s => some (since + s.delay)
  | model l => (l.passage? number).map (·.due)

/-! ### What the analyst keeps of questions -/

/-- A question is asked. -/
def hear (a : Analyst) (number shown now : Nat) : Analyst :=
  match a with
  | model l => model (l.enter number shown now)
  | a => a

/-- A question is answered. -/
def reply (a : Analyst) (number : Nat) (r : AnalysisRequest) (shown now : Nat) : Analyst :=
  match a with
  | model l =>
    match l.passage? number with
    | some p => model (l.send p r shown now)
    | none => a
  | a => a

/-- Nobody waits for the answer to a question any more. -/
def dismiss (a : Analyst) (number shown now : Nat) : Analyst :=
  match a with
  | model l => model (l.leave number shown now)
  | a => a

/-- How a model was used. -/
def usage : Analyst → Usage
  | model l => l.usage
  | _ => Usage.zero

end Analyst

end TierLineage
