import TierLineage.Catalog.Visit
import TierLineage.Flight
import TierLineage.Config.Registry
import TierLineage.Analyst

/-!
# The state of the service

What the service works with: the configured connections and settings, the catalogs, the store and
the analyses under way, the analyst, and the time.
-/

namespace TierLineage

/-- The state of the service. -/
structure World where
  registry : Registry
  engine : Engine
  surroundings : Surroundings
  desk : Flight.Desk
  analyst : Analyst
  supply : Supply
  /-- The moment, as the timers tell it. -/
  clock : Nat
  /-- What the clock of the analyst's client shows at a moment. -/
  watch : Nat → Nat

namespace World

/-- A service in which nothing has happened. -/
def idle (r : Registry) (e : Engine) (c : Catalog) (s : Store) (a : Analyst) (supply : Supply) :
    World where
  registry := r
  engine := e
  surroundings := ⟨c, Faults.none⟩
  desk := Flight.Desk.empty e.inFlightPolicy s
  analyst := a
  supply := supply
  clock := 0
  watch := id

/-- A service at its start; its settings have to be within their bounds. -/
def start (r : Registry) (e : Engine) (c : Catalog) (s : Store) (a : Analyst) (supply : Supply) :
    Outcome World := do
  e.validate
  return idle r e c s a supply

/-- The store. -/
def store (w : World) : Store := w.desk.store

/-- The service with another store. -/
def withStore (w : World) (s : Store) : World :=
  { w with desk := { w.desk with store := s } }

/-- The service with another catalog. -/
def withCatalog (w : World) (change : Catalog → Catalog) : World :=
  { w with surroundings := { w.surroundings with catalog := change w.surroundings.catalog } }

/-- The service with other faults. -/
def withFaults (w : World) (change : Faults → Faults) : World :=
  { w with surroundings := { w.surroundings with faults := change w.surroundings.faults } }

/-- How often the analyst was asked, about one procedure or about any. -/
def callCount (w : World) (name : Option String) : Nat :=
  match w.analyst with
  | .scripted _ => w.desk.asked.countP fun r => name.all (· == r.identity.name)
  | _ => 0

/-- What the clock of the analyst's client shows now. -/
def shown (w : World) : Nat := w.watch w.clock

/-- How the model was used. -/
def usage (w : World) : Usage := w.analyst.usage

end World

end TierLineage
