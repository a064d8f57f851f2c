import TierLineage.Proofs.Service.Sides

/-!
# Checks

What the checks of requests find while nothing changes.  A table means the first one that its
connection lists under its name up to letter case, or itself where tables are not looked up.  The
rows of a batch are checked one after the other, each as if it were alone: what was listed for the
rows before it saves calls and changes nothing.
-/

namespace TierLineage

namespace Visit

variable {α β : Type} {s : Surroundings} {v : Visit α}

/-- A visit whose failures are told in another way. -/
theorem inRow_fst (index : Nat) (v : Visit α) (s : Surroundings) (t : Nat) :
    (Mappings.inRow index v (fun _ => s) t).1 =
      (v (fun _ => s) t).1.mapError (Mappings.rowFailure index) := rfl

theorem Steady.inRow (hv : v.Steady) (index : Nat) : (Mappings.inRow index v).Steady := by
  intro s t
  rw [inRow_fst, hv]
  rfl

theorem found_inRow (index : Nat) (v : Visit α) (s : Surroundings) :
    (Mappings.inRow index v).found s = (v.found s).mapError (Mappings.rowFailure index) := rfl

end Visit

/-- Whether a listed table is one that a table means: schema and name agree up to letter case, and so
does the database if it is given. -/
def Table.means (t u : Table) : Bool :=
  u.sameObject t && (t.database.isEmpty || Text.sameStringIgnoringCase u.database t.database)

namespace Mappings

variable {e : Engine} {r : Registry} {s : Surroundings} {t : Table}

/-! ### One table -/

theorem listed_eq (ts : List Table) (t : Table) : listed ts t =
    match ts.find? t.means with
    | some u => .ok u
    | none => .error (Catalog.notFound t.connection t.qualified) := rfl

/-- A listing has a table that is meant, or it is told that there is none. -/
theorem listed_cases (ts : List Table) (t : Table) :
    (∃ u ∈ ts, listed ts t = .ok u ∧ t.means u = true) ∨
      listed ts t = .error (Catalog.notFound t.connection t.qualified) ∧ ∀ u ∈ ts, ¬ t.means u = true := by
  rw [listed_eq]
  cases hfind : ts.find? t.means with
  | some u => exact .inl ⟨u, List.mem_of_find?_eq_some hfind, rfl, List.find?_some hfind⟩
  | none => exact .inr ⟨rfl, List.find?_eq_none.mp hfind⟩

/-- The table that a table means: the listed one, or itself where tables are not looked up. -/
def meant (e : Engine) (s : Surroundings) (t : Table) : Outcome Table :=
  if e.verifyConfirmedTables then (listTables e t.connection).found s >>= fun ts => listed ts t
  else .ok t

theorem steady_catalogTable (e : Engine) (t : Table) : (catalogTable e t).Steady :=
  (steady_listTables e t.connection).bind fun _ => Visit.steady_ofOutcome _

theorem found_catalogTable (he : e.verifyConfirmedTables = true) (s : Surroundings) (t : Table) :
    (catalogTable e t).found s = meant e s t := by
  rw [meant, if_pos he, catalogTable, Visit.Steady.found_bind (steady_listTables e t.connection)
    fun _ => Visit.steady_ofOutcome _]
  simp only [Visit.found_ofOutcome]

/-! ### Requests to confirm -/

/-- What the check of a request to confirm finds. -/
def checkedRequest (e : Engine) (r : Registry) (s : Surroundings) (q : ConfirmRequest) :
    Outcome ConfirmRequest := do
  (checkPair r q.hop q.source q.target).mapError .refused
  (checkConfidence (q.confidence.getD (Number.Binary.ofNat 1))).mapError .refused
  let source ← meant e s q.source
  let target ← meant e s q.target
  return { q with source := source, target := target }

/-- The tables of a request as they are to be stored. -/
def lookUp (e : Engine) (q : ConfirmRequest) : Visit ConfirmRequest :=
  if e.verifyConfirmedTables then do
    let source ← catalogTable e q.source
    let target ← catalogTable e q.target
    return { q with source := source, target := target }
  else return q

theorem checkRequest_eq (e : Engine) (r : Registry) (q : ConfirmRequest) : checkRequest e r q =
    Visit.ofOutcome ((checkPair r q.hop q.source q.target).mapError .refused) >>= fun _ =>
      Visit.ofOutcome ((checkConfidence (q.confidence.getD (Number.Binary.ofNat 1))).mapError
        .refused) >>= fun _ => lookUp e q := rfl

theorem steady_lookUp (e : Engine) (q : ConfirmRequest) : (lookUp e q).Steady := by
  rw [lookUp]
  split
  · exact (steady_catalogTable e q.source).bind fun _ =>
      (steady_catalogTable e q.target).bind fun _ => Visit.steady_pure _
  · exact Visit.steady_pure q

theorem found_lookUp (e : Engine) (s : Surroundings) (q : ConfirmRequest) : (lookUp e q).found s =
    meant e s q.source >>= fun source => meant e s q.target >>= fun target =>
      .ok { q with source := source, target := target } := by
  rw [lookUp]
  split
  · next he =>
    rw [(steady_catalogTable e q.source).found_bind fun _ =>
      (steady_catalogTable e q.target).bind fun _ => Visit.steady_pure _]
    simp only [(steady_catalogTable e q.target).found_bind fun _ => Visit.steady_pure _,
      found_catalogTable he, Visit.found_pure]
  · next he =>
    rw [meant, meant, if_neg he, if_neg he]
    rfl

theorem steady_checkRequest (e : Engine) (r : Registry) (q : ConfirmRequest) :
    (checkRequest e r q).Steady := by
  rw [checkRequest_eq]
  exact (Visit.steady_ofOutcome _).bind fun _ => (Visit.steady_ofOutcome _).bind fun _ =>
    steady_lookUp e q

theorem found_checkRequest (e : Engine) (r : Registry) (s : Surroundings) (q : ConfirmRequest) :
    (checkRequest e r q).found s = checkedRequest e r s q := by
  rw [checkRequest_eq, (Visit.steady_ofOutcome _).found_bind fun _ =>
    (Visit.steady_ofOutcome _).bind fun _ => steady_lookUp e q]
  simp only [(Visit.steady_ofOutcome _).found_bind fun _ => steady_lookUp e q,
    Visit.found_ofOutcome, found_lookUp]
  rfl

/-! ### Rows -/

/-- A row may leave its confidence open. -/
def checkedConfidence : Option Number.Single → Outcome Unit
  | some x => (checkConfidence x).mapError .refused
  | none => .ok ()

/-- What the check of a row finds. -/
def checkedRow (e : Engine) (r : Registry) (s : Surroundings) (row : MappingRow) :
    Outcome MappingRow := do
  (checkPair r row.hop row.source row.target).mapError .refused
  checkedConfidence row.confidence
  let source ← meant e s row.source
  let target ← meant e s row.target
  return { row with source := source, target := target }

/-- Whether the listings that are known are those that connections give. -/
def Known (e : Engine) (s : Surroundings) (known : Listings) : Prop :=
  ∀ p ∈ known, (listTables e p.1).found s = .ok p.2

theorem steady_listedTable (e : Engine) (known : Listings) (t : Table) :
    (listedTable e known t).Steady := by
  rw [listedTable]
  split
  · exact (Visit.steady_ofOutcome _).bind fun _ => Visit.steady_pure _
  · exact (steady_listTables e t.connection).bind fun _ =>
      (Visit.steady_ofOutcome _).bind fun _ => Visit.steady_pure _

/-- A table means what it means, whatever is known of listings. -/
theorem found_listedTable (he : e.verifyConfirmedTables = true) {known : Listings}
    (hknown : Known e s known) (t : Table) : ∃ known', Known e s known' ∧
      (listedTable e known t).found s = (meant e s t).map (·, known') := by
  have hlisted : ∀ (ts : List Table) (known' : Listings),
      (Visit.ofOutcome (listed ts t) >>= fun u => (pure (u, known') : Visit _)).found s =
        (listed ts t).map (·, known') := by
    intro ts known'
    rw [(Visit.steady_ofOutcome _).found_bind fun _ => Visit.steady_pure _, Visit.found_ofOutcome]
    cases listed ts t <;> rfl
  rw [meant, if_pos he, listedTable]
  split
  · next ts hlookup =>
    obtain ⟨before, after, rfl, -⟩ := List.lookup_eq_some_iff.mp hlookup
    have hts := hknown (t.connection, ts) (List.mem_append_right _ (List.mem_cons_self ..))
    refine ⟨_, hknown, (hlisted ts _).trans ?_⟩
    rw [hts]
    rfl
  · rw [(steady_listTables e t.connection).found_bind fun _ =>
      (Visit.steady_ofOutcome _).bind fun _ => Visit.steady_pure _]
    cases hts : (listTables e t.connection).found s with
    | error f => exact ⟨known, hknown, rfl⟩
    | ok ts =>
      refine ⟨(t.connection, ts) :: known, List.forall_mem_cons.mpr ⟨hts, hknown⟩, ?_⟩
      exact hlisted ts _

/-- The tables of a row as they are to be stored. -/
def lookUpRow (e : Engine) (known : Listings) (row : MappingRow) : Visit (MappingRow × Listings) :=
  if e.verifyConfirmedTables then do
    let (source, known) ← listedTable e known row.source
    let (target, known) ← listedTable e known row.target
    return ({ row with source := source, target := target }, known)
  else return (row, known)

theorem checkRow_eq (e : Engine) (r : Registry) (known : Listings) (row : MappingRow) :
    checkRow e r known row =
      Visit.ofOutcome ((checkPair r row.hop row.source row.target).mapError .refused) >>= fun _ =>
        Visit.ofOutcome (checkedConfidence row.confidence) >>= fun _ => lookUpRow e known row := by
  obtain ⟨hop, source, target, confidence, provenance, notes⟩ := row
  cases confidence <;> rfl

theorem steady_lookUpRow (e : Engine) (known : Listings) (row : MappingRow) :
    (lookUpRow e known row).Steady := by
  rw [lookUpRow]
  split
  · exact (steady_listedTable e known row.source).bind fun p =>
      (steady_listedTable e p.2 row.target).bind fun _ => Visit.steady_pure _
  · exact Visit.steady_pure _

theorem steady_checkRow (e : Engine) (r : Registry) (known : Listings) (row : MappingRow) :
    (checkRow e r known row).Steady := by
  rw [checkRow_eq]
  exact (Visit.steady_ofOutcome _).bind fun _ => (Visit.steady_ofOutcome _).bind fun _ =>
    steady_lookUpRow e known row

theorem found_lookUpRow {known : Listings} (hknown : Known e s known) (row : MappingRow) :
    ∃ known', Known e s known' ∧ (lookUpRow e known row).found s =
      (meant e s row.source >>= fun source => meant e s row.target >>= fun target =>
        .ok { row with source := source, target := target }).map (·, known') := by
  rw [lookUpRow]
  split
  · next he =>
    obtain ⟨known₁, hknown₁, hsource⟩ := found_listedTable he hknown row.source
    obtain ⟨known₂, hknown₂, htarget⟩ := found_listedTable he hknown₁ row.target
    refine ⟨known₂, hknown₂, ?_⟩
    rw [(steady_listedTable e known row.source).found_bind fun p =>
      (steady_listedTable e p.2 row.target).bind fun _ => Visit.steady_pure _, hsource]
    cases meant e s row.source with
    | error f => rfl
    | ok source =>
      change Visit.found (listedTable e known₁ row.target >>= _) s = _
      rw [(steady_listedTable e known₁ row.target).found_bind fun _ => Visit.steady_pure _, htarget]
      cases meant e s row.target <;> rfl
  · next he =>
    refine ⟨known, hknown, ?_⟩
    rw [meant, meant, if_neg he, if_neg he]
    rfl

/-- A row is checked as if it were alone, whatever is known of listings. -/
theorem found_checkRow (r : Registry) {known : Listings} (hknown : Known e s known)
    (row : MappingRow) : ∃ known', Known e s known' ∧
      (checkRow e r known row).found s = (checkedRow e r s row).map (·, known') := by
  obtain ⟨known', hknown', hlookUp⟩ := found_lookUpRow hknown row
  refine ⟨known', hknown', ?_⟩
  rw [checkRow_eq, (Visit.steady_ofOutcome _).found_bind fun _ =>
    (Visit.steady_ofOutcome _).bind fun _ => steady_lookUpRow e known row]
  simp only [(Visit.steady_ofOutcome _).found_bind fun _ => steady_lookUpRow e known row,
    Visit.found_ofOutcome, hlookUp, checkedRow]
  cases (checkPair r row.hop row.source row.target).mapError Failure.refused with
  | error f => rfl
  | ok _ => cases checkedConfidence row.confidence <;> rfl

/-! ### Batches -/

/-- What the check of the rows of a batch finds. -/
def checkedRows (e : Engine) (r : Registry) (s : Surroundings) :
    Nat → List SlotKey → List MappingRow → Outcome (List MappingRow)
  | _, _, [] => .ok []
  | index, seen, row :: rest => do
    let row ← (checkedRow e r s row).mapError (rowFailure index)
    if seen.contains ⟨row.hop, row.source⟩ then
      throw (.refused (.invalid (rowField index)
        (row.source.display ++ " appears more than once for " ++ row.hop.name)))
    let rows ← checkedRows e r s (index + 1) (⟨row.hop, row.source⟩ :: seen) rest
    return row :: rows

/-- What follows when a row was checked. -/
def checkRest (e : Engine) (r : Registry) (index : Nat) (seen : List SlotKey)
    (rest : List MappingRow) (p : MappingRow × Listings) : Visit (List MappingRow) :=
  if seen.contains ⟨p.1.hop, p.1.source⟩ then
    Visit.fail (.refused (.invalid (rowField index)
      (p.1.source.display ++ " appears more than once for " ++ p.1.hop.name)))
  else
    checkRows e r (index + 1) (⟨p.1.hop, p.1.source⟩ :: seen) p.2 rest >>= fun rows =>
      pure (p.1 :: rows)

theorem checkRows_cons (e : Engine) (r : Registry) (index : Nat) (seen : List SlotKey)
    (known : Listings) (row : MappingRow) (rest : List MappingRow) :
    checkRows e r index seen known (row :: rest) =
      inRow index (checkRow e r known row) >>= checkRest e r index seen rest := rfl

theorem steady_checkRows (e : Engine) (r : Registry) (index : Nat) (seen : List SlotKey)
    (known : Listings) (rows : List MappingRow) : (checkRows e r index seen known rows).Steady := by
  induction rows generalizing index seen known with
  | nil => exact Visit.steady_pure _
  | cons row rest ih =>
    rw [checkRows_cons]
    refine ((steady_checkRow e r known row).inRow index).bind fun p => ?_
    rw [checkRest]
    split
    · exact Visit.steady_fail _
    · exact (ih _ _ _).bind fun _ => Visit.steady_pure _

theorem steady_checkRest (e : Engine) (r : Registry) (index : Nat) (seen : List SlotKey)
    (rest : List MappingRow) (p : MappingRow × Listings) :
    (checkRest e r index seen rest p).Steady := by
  rw [checkRest]
  split
  · exact Visit.steady_fail _
  · exact (steady_checkRows e r _ _ _ rest).bind fun _ => Visit.steady_pure _

/-- The rows of a batch are checked as if nothing were known of listings. -/
theorem found_checkRows (r : Registry) {known : Listings} (hknown : Known e s known) (index : Nat)
    (seen : List SlotKey) (rows : List MappingRow) :
    (checkRows e r index seen known rows).found s = checkedRows e r s index seen rows := by
  induction rows generalizing index seen known with
  | nil => rfl
  | cons row rest ih =>
    obtain ⟨known', hknown', hrow⟩ := found_checkRow r hknown row
    rw [checkRows_cons, ((steady_checkRow e r known row).inRow index).found_bind
      (steady_checkRest e r index seen rest), Visit.found_inRow, hrow, checkedRows]
    cases checkedRow e r s row with
    | error f => rfl
    | ok row' =>
      change (checkRest e r index seen rest (row', known')).found s = _
      rw [checkRest]
      split
      · next hseen =>
        simp only [Except.mapError, bind, Except.bind, hseen, if_true]
        rfl
      · next hseen =>
        rw [(steady_checkRows e r _ _ _ rest).found_bind fun _ => Visit.steady_pure _, ih hknown']
        simp only [Except.mapError, bind, Except.bind, hseen]
        rfl

theorem steady_checkBatch (e : Engine) (r : Registry) (rows : List MappingRow) :
    (checkBatch e r rows).Steady :=
  steady_checkRows e r 0 [] [] rows

theorem found_checkBatch (e : Engine) (r : Registry) (s : Surroundings) (rows : List MappingRow) :
    (checkBatch e r rows).found s = checkedRows e r s 0 [] rows :=
  found_checkRows r (fun _ h => by cases h) 0 [] rows

end Mappings

end TierLineage
