import Mathlib.Data.Nat.Find
import TierLineage.Proofs.Service.Automatic
import TierLineage.Proofs.Service.Checks
import TierLineage.Proofs.Store.Settled

/-!
# Batches are all or nothing

A batch is accepted if all its rows are valid and no two of them come to stand under one key.  Then
all rows are stored as they were resolved, and every one of them is counted; otherwise the first row
at fault is named and nothing is stored.  The store call itself is one transaction, so nothing is
stored either if a ledger fails in the middle of it.
-/

namespace TierLineage

open TierLineage.Number TierLineage.Mappings

/-! ### Valid rows -/

/-- The key of a row. -/
def MappingRow.key (row : MappingRow) : SlotKey := ⟨row.hop, row.source⟩

namespace World

/-- Whether the catalog lists a table that a table means; it is not asked where tables are not looked
up. -/
def Finds (w : World) (t : Table) : Prop :=
  w.engine.verifyConfirmedTables = true → ∃ ts,
    (listTables w.engine t.connection).found w.surroundings = .ok ts ∧ ∃ u ∈ ts, t.means u = true

/-- Whether a row is valid on its own. -/
structure ValidRow (w : World) (row : MappingRow) : Prop where
  pair : checkPair w.registry row.hop row.source row.target = .ok ()
  confidence : ∀ x, row.confidence = some x →
    (Binary.ofNat 0 : Single).atMost x = true ∧ x.atMost (Binary.ofNat 1) = true
  source : w.Finds row.source
  target : w.Finds row.target

/-- The table that a table is stored as: the one that it means, if there is one. -/
def resolved (w : World) (t : Table) : Table :=
  match meant w.engine w.surroundings t with
  | .ok u => u
  | .error _ => t

/-- The row as it is stored. -/
def resolvedRow (w : World) (row : MappingRow) : MappingRow :=
  { row with source := w.resolved row.source, target := w.resolved row.target }

/-- Whether a batch is accepted: all rows are valid, and no two come to stand under one key. -/
structure Accepts (w : World) (rows : List MappingRow) : Prop where
  valid : ∀ row ∈ rows, w.ValidRow row
  distinct : (rows.map fun row => (w.resolvedRow row).key).Nodup

/-- Whether a row of a batch is at fault: it is not valid, or has the key of an earlier one. -/
def AtFault (w : World) (rows : List MappingRow) (i : Nat) : Prop :=
  ∃ row, rows[i]? = some row ∧ (¬ w.ValidRow row ∨
    ∃ earlier ∈ rows.take i, (w.resolvedRow earlier).key = (w.resolvedRow row).key)

/-- Whether the connections of the rows whose tables are looked up can be listed. -/
def Listing (w : World) (rows : List MappingRow) : Prop :=
  w.engine.verifyConfirmedTables = true → ∀ row ∈ rows,
    checkPair w.registry row.hop row.source row.target = .ok () →
      (∃ ts, (listTables w.engine row.source.connection).found w.surroundings = .ok ts) ∧
        ∃ ts, (listTables w.engine row.target.connection).found w.surroundings = .ok ts

variable {w : World} {row : MappingRow} {rows : List MappingRow} {t u : Table}

/-! ### Tables -/

theorem meant_of_finds (h : w.Finds t) :
    meant w.engine w.surroundings t = .ok (w.resolved t) := by
  have hok : ∃ u, meant w.engine w.surroundings t = .ok u := by
    rw [meant]
    split
    · next he =>
      obtain ⟨ts, hts, u, hu, hmeans⟩ := h he
      rw [hts]
      rcases listed_cases ts t with ⟨v, -, hv, -⟩ | ⟨-, hnone⟩
      · exact ⟨v, hv⟩
      · exact absurd hmeans (hnone u hu)
    · exact ⟨t, rfl⟩
  obtain ⟨u, hu⟩ := hok
  rw [resolved, hu]

/-- A table that means one is found. -/
theorem finds_of_meant (h : meant w.engine w.surroundings t = .ok u) : w.Finds t := by
  intro he
  rw [meant, if_pos he] at h
  obtain ⟨ts, hts, hlisted⟩ := bind_eq_ok.mp h
  rcases listed_cases ts t with ⟨v, hv, -, hmeans⟩ | ⟨herror, -⟩
  · exact ⟨ts, hts, v, hv, hmeans⟩
  · rw [herror] at hlisted
    cases hlisted

/-- Where a listing succeeds and no table in it is meant, this is what is told. -/
theorem meant_of_not_finds (h : ¬ w.Finds t)
    (hts : w.engine.verifyConfirmedTables = true →
      ∃ ts, (listTables w.engine t.connection).found w.surroundings = .ok ts) :
    meant w.engine w.surroundings t = .error (Catalog.notFound t.connection t.qualified) := by
  obtain ⟨he, hnone⟩ := Classical.not_imp.mp h
  obtain ⟨ts, hlist⟩ := hts he
  rw [meant, if_pos he, hlist]
  rcases listed_cases ts t with ⟨u, hu, -, hmeans⟩ | ⟨herror, -⟩
  · exact absurd ⟨ts, hlist, u, hu, hmeans⟩ hnone
  · exact herror

/-! ### Rows -/

theorem checkConfidence_eq_ok {x : Single} : checkConfidence x = .ok () ↔
    (Binary.ofNat 0 : Single).atMost x = true ∧ x.atMost (Binary.ofNat 1) = true := by
  rw [checkConfidence, ← Bool.and_eq_true]
  split
  · next h => exact iff_of_true rfl h
  · next h => exact iff_of_false (fun heq => by cases heq) h

theorem checkedConfidence_eq_ok {o : Option Single} : checkedConfidence o = .ok () ↔
    ∀ x, o = some x → (Binary.ofNat 0 : Single).atMost x = true ∧ x.atMost (Binary.ofNat 1) = true := by
  cases o with
  | none => exact iff_of_true rfl fun x hx => by cases hx
  | some x =>
    simp only [Option.some.injEq, forall_eq', ← checkConfidence_eq_ok, checkedConfidence]
    exact ⟨ok_of_mapError, fun h => by rw [h]; rfl⟩

theorem kind_of_checkedConfidence {o : Option Single} {f : Failure}
    (h : checkedConfidence o = .error f) : f.kind = .invalidInput := by
  cases o with
  | none => cases h
  | some x =>
    rw [checkedConfidence] at h
    cases hx : checkConfidence x with
    | error refusal => rw [hx] at h; cases h; rfl
    | ok _ => rw [hx] at h; cases h

/-- A valid row is stored as it is resolved. -/
theorem ValidRow.checkedRow_eq (h : w.ValidRow row) :
    checkedRow w.engine w.registry w.surroundings row = .ok (w.resolvedRow row) := by
  rw [checkedRow, h.pair, checkedConfidence_eq_ok.mpr h.confidence, meant_of_finds h.source,
    meant_of_finds h.target]
  rfl

/-- A failure that is the fault of a row is told of the row. -/
theorem rowFailure_eq {index : Nat} {f : Failure} (h : f.kind = .invalidInput ∨ f.kind = .notFound) :
    rowFailure index f = .refused (.invalid (rowField index) f.message) := by
  rw [rowFailure]
  rcases h with h | h <;> rw [h]

/-- A row that is not valid is told of, if its connections can be listed. -/
theorem exists_checkedRow_eq_error (h : ¬ w.ValidRow row)
    (hlist : w.engine.verifyConfirmedTables = true →
      checkPair w.registry row.hop row.source row.target = .ok () →
        (∃ ts, (listTables w.engine row.source.connection).found w.surroundings = .ok ts) ∧
          ∃ ts, (listTables w.engine row.target.connection).found w.surroundings = .ok ts) :
    ∃ f, checkedRow w.engine w.registry w.surroundings row = .error f ∧
      (f.kind = .invalidInput ∨ f.kind = .notFound) := by
  rw [checkedRow]
  cases hpair : checkPair w.registry row.hop row.source row.target with
  | error refusal => exact ⟨_, rfl, .inl rfl⟩
  | ok _ =>
    cases hconfidence : checkedConfidence row.confidence with
    | error f => exact ⟨f, rfl, .inl (kind_of_checkedConfidence hconfidence)⟩
    | ok _ =>
      by_cases hsource : w.Finds row.source
      · have htarget : ¬ w.Finds row.target := fun htarget =>
          h ⟨hpair, checkedConfidence_eq_ok.mp hconfidence, hsource, htarget⟩
        rw [meant_of_finds hsource, meant_of_not_finds htarget fun he => (hlist he hpair).2]
        exact ⟨_, rfl, .inr rfl⟩
      · rw [meant_of_not_finds hsource fun he => (hlist he hpair).1]
        exact ⟨_, rfl, .inr rfl⟩

/-! ### Batches -/

/-- A valid row with a new key is passed. -/
theorem checkedRows_cons (hvalid : w.ValidRow row) {seen : List SlotKey}
    (hseen : (w.resolvedRow row).key ∉ seen) (index : Nat) (rest : List MappingRow) :
    checkedRows w.engine w.registry w.surroundings index seen (row :: rest) =
      (checkedRows w.engine w.registry w.surroundings (index + 1) ((w.resolvedRow row).key :: seen)
        rest).map (w.resolvedRow row :: ·) := by
  have hcontains : seen.contains (w.resolvedRow row).key = false := by simpa using hseen
  rw [MappingRow.key] at hcontains
  rw [checkedRows, hvalid.checkedRow_eq]
  simp only [Except.mapError, bind, Except.bind, hcontains, Bool.false_eq_true, if_false]
  rfl

/-- Valid rows of different keys are stored as they are resolved. -/
theorem checkedRows_eq (hvalid : ∀ row ∈ rows, w.ValidRow row)
    (hdistinct : (rows.map fun row => (w.resolvedRow row).key).Nodup) {seen : List SlotKey}
    (hseen : ∀ row ∈ rows, (w.resolvedRow row).key ∉ seen) (index : Nat) :
    checkedRows w.engine w.registry w.surroundings index seen rows =
      .ok (rows.map w.resolvedRow) := by
  induction rows generalizing index seen with
  | nil => rfl
  | cons row rest ih =>
    obtain ⟨hrow, hrest⟩ := List.forall_mem_cons.mp hvalid
    obtain ⟨hnew, hdistinct⟩ := List.nodup_cons.mp hdistinct
    obtain ⟨hkey, hseen⟩ := List.forall_mem_cons.mp hseen
    rw [checkedRows_cons hrow hkey, ih hrest hdistinct]
    · rfl
    · intro other hother hmem
      rcases List.mem_cons.mp hmem with heq | hmem
      · exact hnew (List.mem_map.mpr ⟨other, hother, heq⟩)
      · exact hseen other hother hmem

/-- The first row at fault is told of. -/
theorem exists_checkedRows_eq_error {before : List MappingRow} {row : MappingRow}
    (hvalid : ∀ b ∈ before, w.ValidRow b)
    (hdistinct : (before.map fun b => (w.resolvedRow b).key).Nodup) {seen : List SlotKey}
    (hseen : ∀ b ∈ before, (w.resolvedRow b).key ∉ seen)
    (hrow : (∃ f, checkedRow w.engine w.registry w.surroundings row = .error f ∧
        (f.kind = .invalidInput ∨ f.kind = .notFound)) ∨
      w.ValidRow row ∧ ((w.resolvedRow row).key ∈ seen ∨
        ∃ b ∈ before, (w.resolvedRow b).key = (w.resolvedRow row).key))
    (after : List MappingRow) (index : Nat) :
    ∃ reason, checkedRows w.engine w.registry w.surroundings index seen (before ++ row :: after) =
      .error (.refused (.invalid (rowField (index + before.length)) reason)) := by
  -- the keys of the rows that were passed are in what was seen, so a repeated key is met there
  induction before generalizing index seen with
  | nil =>
    rcases hrow with ⟨f, hf, hkind⟩ | ⟨hrow, hkey | ⟨b, hb, -⟩⟩
    · refine ⟨f.message, ?_⟩
      rw [List.nil_append, checkedRows, hf, Except.mapError, rowFailure_eq hkind]
      rfl
    · have hcontains : seen.contains (w.resolvedRow row).key = true := by simpa using hkey
      rw [MappingRow.key] at hcontains
      refine ⟨(w.resolvedRow row).source.display ++ " appears more than once for " ++
        (w.resolvedRow row).hop.name, ?_⟩
      rw [List.nil_append, checkedRows, hrow.checkedRow_eq]
      simp only [Except.mapError, bind, Except.bind, hcontains, if_true]
      rfl
    · cases hb
  | cons b before ih =>
    obtain ⟨hb, hvalid⟩ := List.forall_mem_cons.mp hvalid
    obtain ⟨hnew, hdistinct⟩ := List.nodup_cons.mp hdistinct
    obtain ⟨hkey, hseen⟩ := List.forall_mem_cons.mp hseen
    have hseen' : ∀ c ∈ before, (w.resolvedRow c).key ∉ (w.resolvedRow b).key :: seen := by
      intro c hc hmem
      rcases List.mem_cons.mp hmem with heq | hmem
      · exact hnew (List.mem_map.mpr ⟨c, hc, heq⟩)
      · exact hseen c hc hmem
    have hrow' : (∃ f, checkedRow w.engine w.registry w.surroundings row = .error f ∧
        (f.kind = .invalidInput ∨ f.kind = .notFound)) ∨
      w.ValidRow row ∧ ((w.resolvedRow row).key ∈ (w.resolvedRow b).key :: seen ∨
        ∃ c ∈ before, (w.resolvedRow c).key = (w.resolvedRow row).key) := by
      refine hrow.imp_right fun hrow => ⟨hrow.1, ?_⟩
      rcases hrow.2 with hmem | ⟨c, hc, heq⟩
      · exact .inl (List.mem_cons_of_mem _ hmem)
      · rcases List.mem_cons.mp hc with rfl | hc
        · exact .inl (List.mem_cons.mpr (.inl heq.symm))
        · exact .inr ⟨c, hc, heq⟩
    obtain ⟨reason, herror⟩ := ih hvalid hdistinct hseen' hrow' (index + 1)
    refine ⟨reason, ?_⟩
    rw [List.cons_append, checkedRows_cons hb hkey, herror, List.length_cons,
      Nat.add_right_comm, Nat.add_assoc index before.length 1]
    rfl

/-- The rows before the first one at fault are accepted. -/
theorem accepts_take {i : Nat} (h : ∀ j < i, ¬ w.AtFault rows j) : w.Accepts (rows.take i) := by
  constructor
  · intro row hrow
    obtain ⟨j, hj, rfl⟩ := List.mem_take_iff_getElem.mp hrow
    by_contra hvalid
    exact h j (by omega) ⟨_, List.getElem?_eq_getElem (by omega), .inl hvalid⟩
  · refine List.pairwise_map.mpr (List.pairwise_iff_getElem.mpr fun a b ha hb hab heq => ?_)
    rw [List.length_take] at hb
    rw [List.getElem_take, List.getElem_take] at heq
    refine h b (by omega) ⟨_, List.getElem?_eq_getElem (by omega), .inr ⟨_, ?_, heq⟩⟩
    exact List.mem_take_iff_getElem.mpr ⟨a, by omega, rfl⟩

/-- A batch that is not accepted has a first row at fault. -/
theorem exists_first_atFault (h : ¬ w.Accepts rows) :
    ∃ i, w.AtFault rows i ∧ ∀ j < i, ¬ w.AtFault rows j := by
  have hfault : ∃ i, w.AtFault rows i := by
    by_contra hnone
    refine h ?_
    have haccepts := accepts_take (i := rows.length) fun j _ hj => hnone ⟨j, hj⟩
    rwa [List.take_length] at haccepts
  classical
  exact ⟨Nat.find hfault, Nat.find_spec hfault, fun j hj => Nat.find_min hfault hj⟩

/-- The check of a batch passes the rows as they are resolved, or tells of the first one at fault. -/
theorem checkedRows_spec (hlist : w.Listing rows) :
    (w.Accepts rows → checkedRows w.engine w.registry w.surroundings 0 [] rows =
      .ok (rows.map w.resolvedRow)) ∧
    (¬ w.Accepts rows → ∃ i reason, w.AtFault rows i ∧ (∀ j < i, ¬ w.AtFault rows j) ∧
      checkedRows w.engine w.registry w.surroundings 0 [] rows =
        .error (.refused (.invalid (rowField i) reason))) := by
  constructor
  · exact fun h => checkedRows_eq h.valid h.distinct (fun _ _ => List.not_mem_nil) 0
  · -- the rows before the first one at fault are a batch that is passed
    intro h
    obtain ⟨i, hi, hfirst⟩ := exists_first_atFault h
    have hbefore := accepts_take hfirst
    obtain ⟨row, hrow, hfault⟩ := hi
    obtain ⟨hlt, rfl⟩ := List.getElem?_eq_some_iff.mp hrow
    have hsplit : rows.take i ++ rows[i] :: rows.drop (i + 1) = rows := by
      rw [← List.drop_eq_getElem_cons hlt, List.take_append_drop]
    have hfault' : (∃ f, checkedRow w.engine w.registry w.surroundings rows[i] = .error f ∧
        (f.kind = .invalidInput ∨ f.kind = .notFound)) ∨
      w.ValidRow rows[i] ∧ ((w.resolvedRow rows[i]).key ∈ ([] : List SlotKey) ∨
        ∃ b ∈ rows.take i, (w.resolvedRow b).key = (w.resolvedRow rows[i]).key) := by
      by_cases hvalid : w.ValidRow rows[i]
      · exact .inr ⟨hvalid, .inr (hfault.resolve_left fun hnot => hnot hvalid)⟩
      · exact .inl (exists_checkedRow_eq_error hvalid fun he =>
          hlist he rows[i] (List.getElem_mem hlt))
    obtain ⟨reason, herror⟩ := exists_checkedRows_eq_error hbefore.valid hbefore.distinct
      (fun _ _ => List.not_mem_nil) hfault' (rows.drop (i + 1)) 0
    rw [hsplit, List.length_take, Nat.min_eq_left (Nat.le_of_lt hlt), Nat.zero_add] at herror
    exact ⟨i, reason, ⟨rows[i], hrow, hfault⟩, hfirst, herror⟩

end World

/-! ### The store call -/

namespace BatchCount

/-- The number of mappings that were counted. -/
def total (n : BatchCount) : Nat := n.inserted + n.updated + n.unchanged

theorem total_add (n : BatchCount) (c : Confirmation) : (n.add c).total = n.total + 1 := by
  cases c <;> simp only [add, total] <;> omega

end BatchCount

/-- A shelf counts every mapping of a batch. -/
theorem Shelf.total_upsertAll (s : Shelf) (ms : List Mapping) :
    (s.upsertAll ms).1.total = ms.length := by
  have hcount : ∀ n : BatchCount, (ms.foldl (fun (p : BatchCount × Shelf) m =>
      (p.1.add (p.2.upsert m).1, (p.2.upsert m).2)) (n, s)).1.total = n.total + ms.length := by
    induction ms generalizing s with
    | nil => exact fun n => rfl
    | cons m ms ih =>
      intro n
      rw [List.foldl_cons, ih, BatchCount.total_add, List.length_cons, Nat.add_right_comm,
        Nat.add_assoc]
  exact (hcount .zero).trans (Nat.zero_add _)

/-- A ledger that does not fail counts every mapping of a batch. -/
theorem Ledger.total_foldlM {ms : List Mapping} {p p' : BatchCount × Ledger}
    (h : ms.foldlM batchStep p = .ok p') : p'.1.total = p.1.total + ms.length := by
  induction ms generalizing p with
  | nil =>
    cases h
    rfl
  | cons m ms ih =>
    rw [List.foldlM_cons, bind_eq_ok] at h
    obtain ⟨_, hstep, h⟩ := h
    obtain ⟨c, l, -, rfl⟩ := batchStep_eq_ok.mp hstep
    rw [ih h, BatchCount.total_add, List.length_cons, Nat.add_right_comm, Nat.add_assoc]

namespace Store

variable {s s' : Store} {ms : List Mapping}

theorem total_upsertAll {n : BatchCount} (h : s.upsertAll ms = (.ok n, s')) :
    n.total = ms.length := by
  cases s with
  | memory shelf =>
    cases h
    exact shelf.total_upsertAll ms
  | ledger l =>
    rw [upsertAll, Ledger.upsertAll_eq] at h
    split at h
    · next hfold =>
      cases h
      exact (Ledger.total_foldlM hfold).trans (Nat.zero_add _)
    · cases h

/-- A store in which a batch fails stays as it is, wherever it fails. -/
theorem eq_of_upsertAll_error {f : Failure} (h : s.upsertAll ms = (.error f, s')) : s' = s := by
  cases s with
  | memory shelf => cases h
  | ledger l =>
    rw [upsertAll, Ledger.upsertAll_eq] at h
    split at h <;> cases h
    rfl

end Store

/-! ### Batches of a service -/

namespace World

variable {w : World} {rows : List MappingRow}

/-- The mappings that a batch is to be stored as. -/
def made (w : World) (rows : List MappingRow) : List Mapping :=
  (rows.map w.resolvedRow).mapIdx fun i row => row.decided (w.supply.advance i).stamp

theorem length_made (w : World) (rows : List MappingRow) : (w.made rows).length = rows.length := by
  rw [made, List.length_mapIdx, List.length_map]

theorem key_made (w : World) (rows : List MappingRow) :
    (w.made rows).map Mapping.key = rows.map fun row => (w.resolvedRow row).key := by
  refine List.ext_getElem ?_ fun i hi hi' => ?_
  · rw [List.length_map, length_made, List.length_map]
  · simp only [made, List.getElem_map, List.getElem_mapIdx]
    rfl

/-- A valid row is stored with a confidence between zero and one. -/
theorem inUnit_of_mem_made (h : w.Accepts rows) {m : Mapping} (hm : m ∈ w.made rows) :
    m.confidence.InUnit := by
  obtain ⟨i, hi, rfl⟩ := List.mem_mapIdx.mp hm
  rw [List.length_map] at hi
  have hvalid := (h.valid rows[i] (List.getElem_mem hi)).confidence
  have hunit : (rows[i].confidence.getD (Binary.ofNat 1)).InUnit := by
    cases hx : rows[i].confidence with
    | none => decide +kernel
    | some x => exact hvalid x hx
  rw [List.getElem_map]
  exact Binary.inUnit_clamp hunit.ne_nan

/-- Whether a batch is found again where it is stored.  In memory it is; a ledger has to read back
what it holds and what is written to it, and rows of one slot take each other's place there. -/
def Retains (w : World) (rows : List MappingRow) : Prop :=
  w.store.backend = .ledger → w.store.Readable ∧ (∀ m ∈ w.made rows, m.Legible) ∧
    w.store.backend.Apart ((w.made rows).map Mapping.key)

/-- What becomes of a batch. -/
structure AllOrNothing (w : World) (rows : List MappingRow) : Prop where
  /-- It succeeds exactly if it is accepted and the store confirms it. -/
  ok_iff : (∃ n w', (Errand.upsert rows).run w = (.ok n, w')) ↔
    w.Accepts rows ∧ ∃ n s', w.store.upsertAll (w.made rows) = (.ok n, s')
  /-- A store that can be read confirms it, if no key is too long for a ledger. -/
  confirms : w.store.Readable → (∀ m ∈ w.made rows, w.store.Keeps m.key (Slot.holding m)) →
    ∃ n s', w.store.upsertAll (w.made rows) = (.ok n, s')
  /-- One that succeeds is stored as it is resolved, and every row is counted. -/
  stored : ∀ {n : BatchCount} {w' : World}, (Errand.upsert rows).run w = (.ok n, w') →
    w.store.upsertAll (w.made rows) = (.ok n, w'.store) ∧
      n.inserted + n.updated + n.unchanged = rows.length
  /-- After one that succeeds every row is confirmed under its key, with the content it has. -/
  confirmed : ∀ {n : BatchCount} {w' : World}, (Errand.upsert rows).run w = (.ok n, w') →
    w.Retains rows → ∀ m ∈ w.made rows,
      ∃ p, w'.store.confirmed? m.key = .ok (some p) ∧ p.sameContent m = true
  /-- One that is not accepted is refused with the name of the first row at fault. -/
  refused : ¬ w.Accepts rows → ∃ i reason w', w.AtFault rows i ∧ (∀ j < i, ¬ w.AtFault rows j) ∧
    (Errand.upsert rows).run w = (.error (.refused (.invalid (rowField i) reason)), w')
  /-- One that fails, for whatever reason and wherever, leaves the store. -/
  unchanged : ∀ {f : Failure} {w' : World}, (Errand.upsert rows).run w = (.error f, w') →
    w'.store = w.store

/-- A batch that is accepted comes to the store as it is resolved. -/
theorem Accepts.run_eq (h : w.Accepts rows) (hlist : w.Listing rows) :
    ∃ clock, (Errand.upsert rows).run w = ((w.store.upsertAll (w.made rows)).1,
      { w with supply := w.supply.advance rows.length, clock := clock }.withStore
        (w.store.upsertAll (w.made rows)).2) := by
  obtain ⟨clock, hrun⟩ := Errand.exists_run_eq (q := .upsert rows)
    (steady_checkBatch w.engine w.registry rows)
    ((found_checkBatch w.engine w.registry w.surroundings rows).trans
      ((checkedRows_spec hlist).1 h))
  refine ⟨clock, hrun.trans ?_⟩
  change Mappings.upsert { w with clock := clock } (rows.map w.resolvedRow) = _
  rw [Mappings.upsert, List.length_map]
  rfl

/-- The rows of a batch that is accepted are confirmed under their keys once the store confirms them. -/
theorem Accepts.exists_confirmed? (h : w.Accepts rows) (hretains : w.Retains rows) {n : BatchCount}
    {s : Store} (hstored : w.store.upsertAll (w.made rows) = (.ok n, s)) :
    ∀ m ∈ w.made rows, ∃ p, s.confirmed? m.key = .ok (some p) ∧ p.sameContent m = true := by
  have hmade : ∀ m ∈ w.made rows,
      (w.store.backend = .ledger → m.Legible) ∧ m.confidence.InUnit := fun m hm =>
    ⟨fun hb => (hretains hb).2.1 m hm, inUnit_of_mem_made h hm⟩
  have hstore : w.store.Readable ∧ w.store.backend.Apart ((w.made rows).map Mapping.key) := by
    cases hb : w.store.backend with
    | memory =>
      rw [key_made]
      exact ⟨Store.readable_of_memory hb, Backend.apart_memory h.distinct⟩
    | ledger => exact ⟨(hretains hb).1, hb ▸ (hretains hb).2.2⟩
  intro m hm
  exact (Store.settledOn_of_upsertAll hstore.1 hmade hstored hstore.2 m hm).exists_confirmed?

/-- A batch that is not accepted does not come to the store. -/
theorem exists_run_eq_refused (h : ¬ w.Accepts rows) (hlist : w.Listing rows) :
    ∃ i reason clock, w.AtFault rows i ∧ (∀ j < i, ¬ w.AtFault rows j) ∧
      (Errand.upsert rows).run w =
        (.error (.refused (.invalid (rowField i) reason)), { w with clock := clock }) := by
  obtain ⟨i, reason, hi, hfirst, herror⟩ := (checkedRows_spec hlist).2 h
  obtain ⟨clock, hrun⟩ := Errand.exists_run_eq_error (q := .upsert rows)
    (steady_checkBatch w.engine w.registry rows)
    ((found_checkBatch w.engine w.registry w.surroundings rows).trans herror)
  exact ⟨i, reason, clock, hi, hfirst, hrun⟩

/-- **A batch is all or nothing**, and exactly the valid batches are accepted, if the connections of
their rows can be listed. -/
theorem upsert_all_or_nothing (hlist : w.Listing rows) : w.AllOrNothing rows := by
  by_cases h : w.Accepts rows
  · obtain ⟨clock, hrun⟩ := h.run_eq hlist
    have hstored : ∀ {n w'}, (Errand.upsert rows).run w = (.ok n, w') →
        w.store.upsertAll (w.made rows) = (.ok n, w'.store) := fun heq => by
      obtain ⟨hcount, rfl⟩ := Prod.mk.inj (hrun.symm.trans heq)
      exact Prod.ext hcount rfl
    refine ⟨?_, fun hw hkeeps => hw.exists_upsertAll hkeeps, fun heq => ⟨hstored heq, ?_⟩,
      fun heq hretains => h.exists_confirmed? hretains (hstored heq), absurd h, ?_⟩
    · rw [hrun]
      constructor
      · rintro ⟨n, w', heq⟩
        exact ⟨h, n, _, Prod.ext (Prod.mk.inj heq).1 rfl⟩
      · rintro ⟨-, n, s', heq⟩
        rw [heq]
        exact ⟨n, _, rfl⟩
    · exact (Store.total_upsertAll (hstored heq)).trans (w.length_made rows)
    · intro f w' heq
      obtain ⟨hfails, rfl⟩ := Prod.mk.inj (hrun.symm.trans heq)
      exact Store.eq_of_upsertAll_error (Prod.ext hfails rfl)
  · obtain ⟨i, reason, clock, hi, hfirst, hrun⟩ := exists_run_eq_refused h hlist
    refine ⟨iff_of_false ?_ fun hok => h hok.1, fun hw hkeeps => hw.exists_upsertAll hkeeps,
      fun heq => ?_, fun heq _ => ?_, fun _ => ⟨i, reason, _, hi, hfirst, hrun⟩, ?_⟩
    · rintro ⟨n, w', heq⟩
      cases congrArg Prod.fst (hrun.symm.trans heq)
    · cases congrArg Prod.fst (hrun.symm.trans heq)
    · cases congrArg Prod.fst (hrun.symm.trans heq)
    · intro f w' heq
      obtain ⟨-, rfl⟩ := Prod.mk.inj (hrun.symm.trans heq)
      rfl

end World

/-! ### Samples -/

/-- A row of a batch that names a sample table in some spelling. -/
def sampleRow (name : String) : MappingRow :=
  ⟨.sourceToStage, ⟨Warehouse.erp, "", "dbo", name⟩, ⟨Warehouse.stage, "", "DBO", "orders"⟩, none,
    none, none⟩

namespace World

/-- The tables of the sample service, one on each side. -/
theorem found_sampleTables :
    (listTables (sampleShop .ledger sampleTables).engine Warehouse.erp).found
        (sampleShop .ledger sampleTables).surroundings = .ok [⟨Warehouse.erp, "", "dbo", "orders"⟩] ∧
      (listTables (sampleShop .ledger sampleTables).engine Warehouse.stage).found
        (sampleShop .ledger sampleTables).surroundings =
          .ok [⟨Warehouse.stage, "", "dbo", "orders"⟩] := by
  decide +kernel

theorem listing_sampleRow (names : List String) :
    (sampleShop .ledger sampleTables).Listing (names.map sampleRow) := by
  intro _ row hrow _
  obtain ⟨name, -, rfl⟩ := List.mem_map.mp hrow
  exact ⟨⟨_, found_sampleTables.1⟩, _, found_sampleTables.2⟩

theorem validRow_sampleRow : (sampleShop .ledger sampleTables).ValidRow (sampleRow "ORDERS") where
  pair := by decide +kernel
  confidence x hx := by cases hx
  source _ := ⟨_, found_sampleTables.1, _, List.mem_singleton_self _, by decide⟩
  target _ := ⟨_, found_sampleTables.2, _, List.mem_singleton_self _, by decide⟩

theorem made_sampleRow : (sampleShop .ledger sampleTables).made [sampleRow "ORDERS"] =
    [.decided ⟨⟨0⟩, ⟨0, 0⟩⟩ .sourceToStage ⟨Warehouse.erp, "", "dbo", "orders"⟩
      ⟨Warehouse.stage, "", "dbo", "orders"⟩ (Binary.ofNat 1) .manual none] := by
  have hresolved : (sampleShop .ledger sampleTables).resolvedRow (sampleRow "ORDERS") =
      { sampleRow "ORDERS" with
        source := ⟨Warehouse.erp, "", "dbo", "orders"⟩
        target := ⟨Warehouse.stage, "", "dbo", "orders"⟩ } := by
    decide +kernel
  rw [made, List.map_singleton, hresolved, List.mapIdx_singleton]
  simp only [MappingRow.decided, sampleRow, Option.getD_none]
  rfl

/-- The sample row is inserted into an empty store. -/
theorem upsert_sampleRow : ((Errand.upsert [sampleRow "ORDERS"]).run
    (sampleShop .ledger sampleTables)).1 = .ok ⟨1, 0, 0⟩ := by
  decide +kernel

end World

/-- Two spellings of one table are one key, and the second row is at fault. -/
theorem World.upsert_all_or_nothing_sample :
    (∃ reason w', (Errand.upsert [sampleRow "ORDERS", sampleRow "Orders"]).run
        (sampleShop .ledger sampleTables) =
          (.error (.refused (.invalid "mappings[1]" reason)), w') ∧
        w'.store = (sampleShop .ledger sampleTables).store) ∧
      ∃ n w' p, (Errand.upsert [sampleRow "ORDERS"]).run (sampleShop .ledger sampleTables) =
        (.ok n, w') ∧ n.inserted + n.updated + n.unchanged = 1 ∧
          w'.store.confirmed? ⟨.sourceToStage, ⟨Warehouse.erp, "", "dbo", "orders"⟩⟩ = .ok (some p) ∧
          p.target = ⟨Warehouse.stage, "", "dbo", "orders"⟩ := by
  let w := sampleShop .ledger sampleTables
  have hshared : (w.resolvedRow (sampleRow "ORDERS")).key =
      (w.resolvedRow (sampleRow "Orders")).key := by
    decide +kernel
  constructor
  · have hbatch := World.upsert_all_or_nothing (World.listing_sampleRow ["ORDERS", "Orders"])
    have hrefused : ¬ w.Accepts [sampleRow "ORDERS", sampleRow "Orders"] := fun h =>
      (List.nodup_cons.mp h.distinct).1 (List.mem_singleton.mpr hshared)
    obtain ⟨i, reason, w', hi, hfirst, hrun⟩ := hbatch.refused hrefused
    have hzero : ¬ w.AtFault [sampleRow "ORDERS", sampleRow "Orders"] 0 := by
      rintro ⟨row, hrow, hnot | ⟨_, hmem, -⟩⟩
      · cases hrow
        exact hnot World.validRow_sampleRow
      · cases hmem
    have hone : w.AtFault [sampleRow "ORDERS", sampleRow "Orders"] 1 :=
      ⟨_, rfl, .inr ⟨_, List.mem_singleton_self _, hshared⟩⟩
    obtain rfl : i = 1 := by
      rcases Nat.lt_trichotomy i 1 with hlt | heq | hgt
      · exact absurd (Nat.lt_one_iff.mp hlt ▸ hi) hzero
      · exact heq
      · exact absurd hone (hfirst 1 hgt)
    exact ⟨reason, w', hrun, hbatch.unchanged hrun⟩
  · have hbatch := World.upsert_all_or_nothing (World.listing_sampleRow ["ORDERS"])
    have haccepts : w.Accepts [sampleRow "ORDERS"] :=
      ⟨List.forall_mem_singleton.mpr World.validRow_sampleRow, List.nodup_singleton _⟩
    have hlegible : ∀ m ∈ w.made [sampleRow "ORDERS"], m.Legible := by
      rw [World.made_sampleRow]
      exact List.forall_mem_singleton.mpr (legible_decided_one (by decide) ..)
    have hfits : ∀ m ∈ w.made [sampleRow "ORDERS"],
        (Ledger.slotKey m.key).utf8ByteSize ≤ Ledger.keyLimit := by
      rw [World.made_sampleRow]
      exact List.forall_mem_singleton.mpr (by decide)
    have hreadable : w.store.Readable := Store.readable_empty .ledger
    obtain ⟨n, w', hrun⟩ := hbatch.ok_iff.mpr ⟨haccepts, hbatch.confirms hreadable fun m hm _ =>
      ⟨hfits m hm, Slot.legible_holding (hlegible m hm)⟩⟩
    have hretains : w.Retains [sampleRow "ORDERS"] := fun _ =>
      ⟨hreadable, hlegible, by rw [World.made_sampleRow]; exact List.pairwise_singleton _ _⟩
    obtain ⟨p, hp, hcontent⟩ := hbatch.confirmed hrun hretains _
      (World.made_sampleRow ▸ List.mem_singleton_self _)
    exact ⟨n, w', p, hrun, (hbatch.stored hrun).2, hp, Mapping.target_eq_of_sameContent hcontent⟩

end TierLineage
