import TierLineage.Server.Start

/-!
# The command line

The server reads its settings from the file behind `--config`, or from the one that the environment
names, and then answers the requests on standard input, one a line: a method, an address, and after
a blank the body, which is data.  What is kept lasts until the input ends.
-/

namespace TierLineage.Server

open TierLineage.Web

/-- The names in the environment that settings look at. -/
def environmentNames : List String :=
  [Settings.pathName, "BRONZELINE_ACCEPTANCE_THRESHOLD", "BRONZELINE_TIE_EPSILON",
   "BRONZELINE_TOP_K", "BRONZELINE_WORKER_POOL_SIZE", "BRONZELINE_CATALOG_TIMEOUT_MS",
   "BRONZELINE_ANALYSIS_TIMEOUT_MS", "AZURE_OPENAI_ENDPOINT", "AZURE_OPENAI_DEPLOYMENT",
   "AZURE_OPENAI_API_VERSION"]

/-- What the environment says under some names. -/
def environment (names : List String) : IO Environment :=
  names.filterMapM fun n => return (← IO.getEnv n).map (n, ·)

/-- The files at some paths, where there are any. -/
def filesAt (paths : List String) : IO Files :=
  paths.filterMapM fun (p : String) => do
    try
      let text ← IO.FS.readFile p
      return some (p, text)
    catch _ => return none

/-- The request of a line. -/
def requestOf (line : String) : Request :=
  let cs := line.toList.takeWhile (· != '\n')
  let rest (cs : List Char) : List Char := (cs.dropWhile (· != ' ')).drop 1
  let word (cs : List Char) : String := String.ofList (cs.takeWhile (· != ' '))
  .ofAddress (.ofName (word cs)) (word (rest cs)) [("content-type", "application/json")]
    (String.ofList (rest (rest cs)))

/-- The line of a response. -/
def lineOf (r : Response) : String :=
  toString r.status ++ match r.body with
    | .empty => ""
    | .text t => " " ++ t
    | .json v => " " ++ Json.compact v

/-- The site at a moment; what has been waited for lies behind it. -/
def siteAt (site : Site) (moment : Nat) : Site :=
  { site with world := { site.world with clock := max site.world.clock moment } }

/-- Answer requests until the input ends; the time is counted from a start. -/
partial def serve (input output : IO.FS.Stream) (started : Nat) (site : Site) : IO Unit := do
  let line ← input.getLine
  if line.isEmpty then return ()
  let moment := (← IO.monoMsNow) - started
  let (response, site) := (siteAt site moment).respond (requestOf line)
  output.putStrLn (lineOf response)
  output.flush
  serve input output started site

/-- Refuse to start. -/
def refuse (p : Problem) : IO UInt32 := do
  IO.eprintln ("Error: " ++ p.text)
  return 1

/-- Load the settings, start the server and answer requests. -/
def run (arguments : List String) : IO UInt32 := do
  let env ← environment environmentNames
  let files ← filesAt (Settings.path? arguments env).toList
  match Settings.load arguments env files with
  | .error e => refuse (.invalidInput e.message)
  | .ok s =>
    let files := files ++ (← filesAt s.snapshot.toList)
    let env := env ++ (← environment [s.analyst.keyName])
    let supply : Supply := ⟨1, ⟨0, 0⟩⟩
    match start s ⟨files, env, Store.empty s.storage.backend, fun _ => none, supply⟩ with
    | .error p => refuse p
    | .ok site =>
      serve (← IO.getStdin) (← IO.getStdout) (← IO.monoMsNow) site
      return 0

end TierLineage.Server

/-- The server. -/
def main (arguments : List String) : IO UInt32 :=
  TierLineage.Server.run arguments
