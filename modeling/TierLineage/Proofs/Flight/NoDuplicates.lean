import TierLineage.Proofs.Flight.History

/-!
# No question is asked twice

If the analyst succeeds twice with one text of a procedure, a record of another text was stored in
between.  If all calls for a procedure are about one text, nothing of it is stored and nobody gives
up, the calls wait for a single question, whose answer all of them get.
-/

namespace TierLineage.Flight

open TierLineage.Digest

/-- Whether the analyst was not asked for a call and the call is not ended. -/
def Phase.early : Phase → Bool
  | fresh => true
  | queued _ => true
  | holding _ => true
  | _ => false

theorem Phase.early_of_owing {p : Phase} (h : p.owing = true) : p.early = false := by
  cases p <;> simp_all [early, owing]

theorem Phase.ended_of_early {p : Phase} (h : p.early = true) : p.ended = false := by
  cases p <;> simp_all [early, ended]

theorem Phase.ended_of_owing {p : Phase} (h : p.owing = true) : p.ended = false := by
  cases p <;> simp_all [owing, ended]

theorem Phase.early_or_owing_or_ended (p : Phase) :
    p.early = true ∨ p.owing = true ∨ p.ended = true := by
  cases p <;> simp [early, owing, ended]

theorem occurrence?_of_ended {r : AnalysisRequest} {p : Phase} (h : p.ended = true) :
    occurrence? r p p = none := by
  cases p <;> simp_all [occurrence?, Phase.ended]

theorem occurrence?_of_early {r : AnalysisRequest} {p q : Phase} (hp : p.early = true)
    (hq : q ≠ .dropped) : occurrence? r p q = none := by
  cases p <;> cases q <;> simp_all [occurrence?, Phase.early]

namespace Desk

variable {d : Desk} {t : Ticket} {c : Call} {e : Event}

/-! ### Two successes -/

/-- Between two successes with one text of a procedure, a record of another text is stored. -/
theorem Works.stored_between (hd : d.Works) {moves : List Move}
    (hm : ∀ m ∈ moves, d.store.backend.Admits m)
    (hdrop : ∀ r l a, .dropped r (.storing l a) ∉ d.history moves)
    {before mid after : List Occurrence} {r r' : AnalysisRequest} {a a' : Analysis}
    (h : d.history moves =
      before ++ .concluded r (.ok a) :: (mid ++ .concluded r' (.ok a') :: after))
    (hid : r'.identity = r.identity)
    (hdigest : contentHash r'.definition = contentHash r.definition) :
    ∃ f, .stored f ∈ mid ∧ f.identity = r.identity ∧
      f.definitionHash ≠ contentHash r.definition := by
  obtain ⟨ms, m, ns, rfl, -, hfirst, hrest⟩ := history_eq_append h
  obtain ⟨ls, l, ks, rfl, hmid, hsecond, -⟩ := history_eq_append hrest
  have hm₁ : ∀ n ∈ ms, d.store.backend.Admits n := fun n hn => hm n (by simp [hn])
  obtain ⟨hd₁, hbackend₁⟩ := hd.run hm₁
  obtain ⟨hd₂, hbackend₂⟩ := hd₁.move (m := m) (by rw [hbackend₁]; exact hm m (by simp))
  have hm₂ : ∀ n ∈ ls, ((d.run ms).move m).store.backend.Admits n := fun n hn => by
    rw [hbackend₂, hbackend₁]
    exact hm n (by simp [hn])
  have hdrop₂ : ∀ r l a, .dropped r (.storing l a) ∉ ((d.run ms).move m).history ls :=
    fun r l a hmem => hdrop r l a (by rw [h, ← hmid]; simp [hmem])
  rcases hd₂.kept_run (kept_of_concluded hd₁.consistent hfirst) hm₂ hdrop₂ with hkept | hstored
  · exact absurd hsecond ((hd₂.run hm₂).1.not_concluded hkept hid hdigest)
  · rwa [hmid] at hstored

/-! ### One text -/

/-- What the analyst was asked about a procedure. -/
def askedAbout (d : Desk) (p : ProcedureId) : List AnalysisRequest :=
  d.asked.filter (·.identity == p)

/-- How far the calls for a procedure have come that are all about one text, after what has happened
so far. -/
inductive Progress (d : Desk) (p : ProcedureId) (digest : String) (past : List Occurrence) :
    Prop where
  /-- The analyst was not asked. -/
  | untouched (hasked : d.askedAbout p = []) (hnone : d.stored? p digest = .ok none)
    (hearly : ∀ {t : Ticket} {c : Call}, d.calls[t]? = some c → c.request.identity = p →
      c.phase.early = true)
    (hpast : ∀ {r : AnalysisRequest} {o : Outcome Analysis}, .concluded r o ∈ past → r.identity ≠ p)
  /-- The analyst was asked once, and the call for which it was asked goes on. -/
  | underWay {t : Ticket} {c : Call} (hc : d.calls[t]? = some c) (hid : c.request.identity = p)
    (howing : c.phase.owing = true) (hasked : d.askedAbout p = [c.request])
    (hearly : ∀ {u : Ticket} {w : Call}, d.calls[u]? = some w → w.request.identity = p → u ≠ t →
      w.phase.early = true)
    (hpast : (∃ l since, c.phase = .analyzing l since) →
      ∀ {r : AnalysisRequest} {o : Outcome Analysis}, .concluded r o ∈ past → r.identity ≠ p)
  /-- The analyst was asked once, and its answer is stored. -/
  | finished {t : Ticket} {c : Call} {f : Finding} {r : AnalysisRequest}
    (hc : d.calls[t]? = some c) (hid : c.request.identity = p) (hdone : c.phase = .done (.ok f))
    (hcached : f.cached = false) (hasked : d.askedAbout p = [r])
    (hstored : ∃ f, d.stored? p digest = .ok (some f))
    (hother : ∀ {u : Ticket} {w : Call}, d.calls[u]? = some w → w.request.identity = p → u ≠ t →
      w.phase.early = true ∨ ∃ f, w.phase = .done (.ok f) ∧ f.cached = true)

/-- What happens to a call for which the analyst was not asked. -/
theorem Works.turn_of_early (hd : d.Works) (hpolicy : d.policy = .wait)
    (hvalid : c.request.identity.validate = .ok ()) (hearly : c.phase.early = true) {q : Phase}
    {s : Store} {asked : List AnalysisRequest} (h : Turn d c.request e c.phase q s asked)
    (hdrop : q ≠ .dropped) : s = d.store ∧
      ((q.early = true ∧ asked = d.asked) ∨
      (∃ f, d.stored? c.request.identity (contentHash c.request.definition) = .ok (some f) ∧
        q = .done (.ok ⟨f, true⟩) ∧ asked = d.asked) ∨
      (d.stored? c.request.identity (contentHash c.request.definition) = .ok none ∧
        (∃ l, c.phase.held? = some l) ∧ (∃ l since, q = .analyzing l since) ∧
          asked = c.request :: d.asked)) := by
  generalize hp : c.phase = p at h hearly
  cases h with
  | idle hfit => exact ⟨rfl, .inl ⟨hearly, rfl⟩⟩
  | refused he => cases hvalid.symm.trans he
  | unread he => exact absurd he (stored?_ne_error hd.sound)
  | found hf => exact ⟨rfl, .inr (.inl ⟨_, hf, rfl, rfl⟩)⟩
  | entered hs => exact ⟨rfl, .inl ⟨rfl, rfl⟩⟩
  | waited hs hw => exact ⟨rfl, .inl ⟨rfl, rfl⟩⟩
  | rejected hs hr => cases hpolicy.symm.trans hr
  | unreadAgain he => exact absurd he (stored?_ne_error hd.sound)
  | foundAgain hf => exact ⟨rfl, .inr (.inl ⟨_, hf, rfl, rfl⟩)⟩
  | questioned hs => exact ⟨rfl, .inr (.inr ⟨hs, ⟨_, rfl⟩, ⟨_, _, rfl⟩, rfl⟩)⟩
  | dropped hended => exact absurd rfl hdrop
  | _ => cases hearly

/-- What happens to a call for which the analyst was asked. -/
theorem Works.turn_of_owing (hd : d.Works) (hc : d.calls[e.ticket]? = some c)
    (he : d.store.backend.Admits (.happen e)) (howing : c.phase.owing = true) {q : Phase}
    {s : Store} {asked : List AnalysisRequest} (h : Turn d c.request e c.phase q s asked)
    (hdrop : q ≠ .dropped) : asked = d.asked ∧
      ((q.owing = true ∧ s = d.store ∧ ((∃ l since, q = .analyzing l since) → q = c.phase)) ∨
      (∃ r, (∃ l since, c.phase = .analyzing l since) ∧ q = .done (.error r)) ∨
      ∃ a now, q = .done (.ok ⟨recordOf c.request a now, false⟩) ∧
        d.store.backend.Holds (recordOf c.request a now) ∧
        d.store.putRecord (recordOf c.request a now) = (.ok (), s)) := by
  generalize hp : c.phase = p at h howing
  cases h with
  | idle hfit => exact ⟨rfl, .inl ⟨howing, rfl, fun _ => rfl⟩⟩
  | analyzed =>
    refine ⟨rfl, .inl ⟨rfl, rfl, ?_⟩⟩
    rintro ⟨l, since, ⟨⟩⟩
  | failed => exact ⟨rfl, .inr (.inl ⟨_, ⟨_, _, rfl⟩, rfl⟩)⟩
  | saved hput =>
    exact ⟨rfl, .inr (.inr ⟨_, _, rfl, Backend.holds_recordOf (hd.takes hc) he _, hput⟩)⟩
  | unsaved hput =>
    exact absurd hput (Store.putRecord_ne_error (Backend.holds_recordOf (hd.takes hc) he _))
  | dropped hended => exact absurd rfl hdrop
  | _ => cases howing

/-- A call that is there after an event about another one has not gone on without being early. -/
theorem Stepped.back {q : Phase} {d' : Desk} (h : Stepped d t c q d') {u : Ticket} {w : Call}
    (hw : d'.calls[u]? = some w) (hu : u ≠ t) : w.phase.early = true ∨ d.calls[u]? = some w := by
  rcases h.origin hw with ⟨ht, -⟩ | ⟨-, w', hw', -, rfl | ⟨l, -, hl⟩⟩
  · exact absurd ht hu
  · exact .inr hw'
  · exact .inl (by rw [hl]; rfl)

/-- A call that is not early stays as it is at an event about another one. -/
theorem Stepped.forth {q : Phase} {d' : Desk} (h : Stepped d t c q d') {u : Ticket} {w : Call}
    (hw : d.calls[u]? = some w) (hu : u ≠ t) (hearly : w.phase.early = false) :
    d'.calls[u]? = some w := by
  rcases h.calls_ne hu with heq | ⟨w', l, hw', hq, -⟩
  · exact heq.trans hw
  · cases hw.symm.trans hw'
    rw [hq] at hearly
    cases hearly

section Progress

variable {p : ProcedureId} {digest : String} {past : List Occurrence}

/-- As long as calls come to be early or stay as they are, the calls have come as far as before. -/
theorem Progress.frame {d' : Desk} (h : Progress d p digest past)
    (hasked : d'.askedAbout p = d.askedAbout p) (hstored : d'.stored? p digest = d.stored? p digest)
    (hback : ∀ {u : Ticket} {w : Call}, d'.calls[u]? = some w → w.request.identity = p →
      w.phase.early = true ∨ d.calls[u]? = some w)
    (hforth : ∀ {u : Ticket} {w : Call}, d.calls[u]? = some w → w.request.identity = p →
      w.phase.early = false → d'.calls[u]? = some w) {more : List Occurrence}
    (hmore : ∀ {r : AnalysisRequest} {o : Outcome Analysis}, .concluded r o ∈ more →
      r.identity ≠ p) : Progress d' p digest (past ++ more) := by
  cases h with
  | untouched ha hnone hearly hpast =>
    refine .untouched (hasked.trans ha) (hstored.trans hnone) (fun hw hid => ?_) fun hx => ?_
    · exact (hback hw hid).elim id fun hw' => hearly hw' hid
    · exact (List.mem_append.mp hx).elim hpast hmore
  | underWay hc hid howing ha hearly hpast =>
    have hlate : Phase.early _ = false := Phase.early_of_owing howing
    refine .underWay (hforth hc hid hlate) hid howing (hasked.trans ha) (fun hw hid hu => ?_)
      fun hp {r o} hx => ?_
    · exact (hback hw hid).elim id fun hw' => hearly hw' hid hu
    · exact (List.mem_append.mp hx).elim (hpast hp) hmore
  | finished hc hid hdone hcached ha hs hother =>
    refine .finished (hforth hc hid (by rw [hdone]; rfl)) hid hdone hcached (hasked.trans ha)
      (hstored ▸ hs) fun hw hid hu => ?_
    exact (hback hw hid).elim .inl fun hw' => hother hw' hid hu

theorem askedAbout_congr {d' : Desk} (h : d'.asked = d.asked) :
    d'.askedAbout p = d.askedAbout p := by
  rw [askedAbout, askedAbout, h]

theorem askedAbout_cons {d' : Desk} {r : AnalysisRequest} (h : d'.asked = r :: d.asked) :
    d'.askedAbout p = if r.identity = p then r :: d.askedAbout p else d.askedAbout p := by
  rw [askedAbout, askedAbout, h, List.filter_cons]
  simp

/-- What is asked with an event is what its call requests. -/
theorem Turn.asked_eq {r : AnalysisRequest} {p q : Phase} {s : Store}
    {asked : List AnalysisRequest} (h : Turn d r e p q s asked) :
    asked = d.asked ∨ asked = r :: d.asked := by
  cases h with
  | questioned hs => exact .inr rfl
  | _ => exact .inl rfl

theorem request_of_concluded {r r' : AnalysisRequest} {p q : Phase} {o : Outcome Analysis}
    (h : occurrence? r p q = some (.concluded r' o)) : r' = r := by
  rw [occurrence?.eq_def] at h
  split at h
  · cases h
    rfl
  · cases h
    rfl
  · cases h
  · split at h <;> cases h
  · cases h

/-- An event about another procedure. -/
theorem Progress.step_other (h : Progress d p digest past) (hd : d.Works)
    (hc : d.calls[e.ticket]? = some c) (he : d.store.backend.Admits (.happen e))
    (hid : c.request.identity ≠ p) :
    Progress (d.step e) p digest (past ++ (d.occurs? (.happen e)).toList) := by
  obtain ⟨q, hq, hturn⟩ := step_spec hd.consistent hc
  obtain ⟨-, -, hrecord⟩ := hd.record?_step hc he hturn
  refine h.frame ?_ ?_ (fun {u w} hw hw' => ?_) (fun {u w} hw hw' hearly => ?_) fun {r o} hx => ?_
  · rcases hturn.asked_eq with hasked | hasked
    · exact askedAbout_congr hasked
    · rw [askedAbout_cons hasked, if_neg hid]
  · exact stored?_congr ((hrecord p).resolve_right fun h => hid h.1.symm) digest
  · refine hq.back hw ?_
    rintro rfl
    cases hq.calls_self.symm.trans hw
    exact hid hw'
  · refine hq.forth hw ?_ hearly
    rintro rfl
    cases hc.symm.trans hw
    exact hid hw'
  · rw [occurs?_eq hc hq] at hx
    rwa [request_of_concluded (Option.mem_toList.mp hx)]

section Early

variable {d' : Desk} {q : Phase} (h : Progress d p digest past) (hd : d.Works)
  (hc : d.calls[t]? = some c) (hid : c.request.identity = p) (hearly : c.phase.early = true)
  (hq : Stepped d t c q d')

include h hc hearly hq

/-- A call that comes to be early. -/
theorem Progress.wait (hstored : d'.stored? p digest = d.stored? p digest)
    (hqearly : q.early = true) (hasked : d'.asked = d.asked) : Progress d' p digest past := by
  rw [← List.append_nil past]
  refine h.frame (askedAbout_congr hasked) hstored (fun {u w} hw _ => ?_)
    (fun {u w} hw _ hlate => ?_) (by simp)
  · by_cases hu : u = t
    · subst hu
      cases hq.calls_self.symm.trans hw
      exact .inl hqearly
    · exact hq.back hw hu
  · refine hq.forth hw ?_ hlate
    rintro rfl
    cases hc.symm.trans hw
    cases hearly.symm.trans hlate

include hd

/-- A call that is answered from the store. -/
theorem Progress.answer (hstored : d'.stored? p digest = d.stored? p digest)
    (htext : ∀ {u : Ticket} {w : Call}, d.calls[u]? = some w → w.request.identity = p →
      contentHash w.request.definition = digest) {f : Record}
    (hf : d.stored? p digest = .ok (some f)) (hqdone : q = .done (.ok ⟨f, true⟩))
    (hasked : d'.asked = d.asked) : Progress d' p digest past := by
  cases h with
  | untouched ha hnone hearly' hpast => cases hf.symm.trans hnone
  | underWay hc' hid' howing ha hearly' hpast =>
    have hnone := hd.missing hc' howing
    rw [htext hc' hid', hid'] at hnone
    cases hf.symm.trans hnone
  | @finished t' c' _ _ hc' hid' hdone hcached ha hs hother =>
    have hne : t' ≠ t := by
      rintro rfl
      cases hc.symm.trans hc'
      rw [hdone] at hearly
      cases hearly
    refine .finished (hq.forth hc' hne (by rw [hdone]; rfl)) hid' hdone hcached
      ((askedAbout_congr hasked).trans ha) (hstored ▸ hs) fun {u w} hw hw' hu => ?_
    by_cases hut : u = t
    · subst hut
      cases hq.calls_self.symm.trans hw
      exact .inr ⟨_, hqdone, rfl⟩
    · exact (hq.back hw hut).elim .inl fun hold => hother hold hw' hu

include hid

/-- A call for which the analyst is asked. -/
theorem Progress.ask (hnone : d.stored? p digest = .ok none) {l : LockId}
    (hl : c.phase.held? = some l) (howing : q.owing = true)
    (hasked : d'.asked = c.request :: d.asked) : Progress d' p digest past := by
  cases h with
  | untouched ha hnone' hearly' hpast =>
    refine .underWay hq.calls_self hid howing ?_ (fun {u w} hw hw' hu => ?_) fun _ => hpast
    · rw [askedAbout_cons hasked, if_pos hid, ha]
    · exact (hq.back hw hu).elim id fun hold => hearly' hold hw'
  | underWay hc' hid' howing' ha hearly' hpast =>
    obtain ⟨l', hl'⟩ := Phase.held?_of_owing howing'
    have ht := hd.consistent.eq_of_identity_eq hc hc' (hid.trans hid'.symm) hl hl'
    subst ht
    cases hc.symm.trans hc'
    cases hearly.symm.trans (Phase.early_of_owing howing')
  | finished hc' hid' hdone hcached ha hs hother =>
    obtain ⟨f, hf⟩ := hs
    cases hnone.symm.trans hf

end Early

/-- An event about a call for which the analyst was not asked. -/
theorem Progress.step_early (h : Progress d p digest past) (hd : d.Works)
    (hpolicy : d.policy = .wait) (hvalid : p.validate = .ok ())
    (hc : d.calls[e.ticket]? = some c) (hid : c.request.identity = p)
    (htext : ∀ {u : Ticket} {w : Call}, d.calls[u]? = some w → w.request.identity = p →
      contentHash w.request.definition = digest) (hearly : c.phase.early = true)
    (hdrop : ∀ r q, d.occurs? (.happen e) = some (.dropped r q) → r.identity ≠ p) :
    Progress (d.step e) p digest (past ++ (d.occurs? (.happen e)).toList) := by
  obtain ⟨q, hq, hturn⟩ := step_spec hd.consistent hc
  have hq' : q ≠ .dropped := by
    rintro rfl
    refine hdrop c.request c.phase ?_ hid
    rw [occurs?_eq hc hq]
    cases hp : c.phase <;> simp_all [occurrence?, Phase.early, Phase.ended]
  rw [occurs?_eq hc hq, occurrence?_of_early hearly hq', Option.toList_none,
    List.append_nil]
  obtain ⟨hstore, hcases⟩ := hd.turn_of_early hpolicy (hid ▸ hvalid) hearly hturn hq'
  rw [htext hc hid, hid] at hcases
  have hstored : (d.step e).stored? p digest = d.stored? p digest := by
    rw [stored?, stored?, hstore]
  rcases hcases with ⟨hqearly, hasked⟩ | ⟨f, hf, hqdone, hasked⟩ | ⟨hnone, ⟨l, hl⟩, howing, hasked⟩
  · exact h.wait hc hearly hq hstored hqearly hasked
  · exact h.answer hd hc hearly hq hstored htext hf hqdone hasked
  · refine h.ask hd hc hid hearly hq hnone hl ?_ hasked
    obtain ⟨l', since, rfl⟩ := howing
    rfl

/-- An event about a call for which the analyst was asked. -/
theorem Progress.step_owing (h : Progress d p digest past) (hd : d.Works)
    (hc : d.calls[e.ticket]? = some c) (hid : c.request.identity = p)
    (hdigest : contentHash c.request.definition = digest)
    (he : d.store.backend.Admits (.happen e)) (howing : c.phase.owing = true)
    (hdrop : ∀ r q, d.occurs? (.happen e) = some (.dropped r q) → r.identity ≠ p)
    (hfail : ∀ r o, d.occurs? (.happen e) = some (.concluded r (.error o)) → r.identity = p →
      ∃ r' a, .concluded r' (.ok a) ∈ past ∧ r'.identity = p) :
    Progress (d.step e) p digest (past ++ (d.occurs? (.happen e)).toList) := by
  obtain ⟨q, hq, hturn⟩ := step_spec hd.consistent hc
  have hlate := Phase.early_of_owing howing
  rw [occurs?_eq hc hq] at hdrop hfail ⊢
  have hq' : q ≠ .dropped := by
    rintro rfl
    refine hdrop c.request c.phase ?_ hid
    cases hp : c.phase <;> simp_all [occurrence?, Phase.owing, Phase.ended]
  obtain ⟨hasked, hcases⟩ := hd.turn_of_owing hc he howing hturn hq'
  cases h with
  | untouched ha hnone hearly hpast => cases hlate.symm.trans (hearly hc hid)
  | @finished t' c' _ _ hc' hid' hdone hcached ha hs hother =>
    by_cases ht : e.ticket = t'
    · subst ht
      cases hc.symm.trans hc'
      rw [hdone] at howing
      cases howing
    · rcases hother hc hid ht with hearly | ⟨f, hf, -⟩
      · cases hlate.symm.trans hearly
      · rw [hf] at howing
        cases howing
  | @underWay t' c' hc' hid' howing' ha hearly hpast =>
    by_cases ht : e.ticket = t'
    · subst ht
      cases hc.symm.trans hc'
      have hother : ∀ {u : Ticket} {w : Call}, (d.step e).calls[u]? = some w →
          w.request.identity = p → u ≠ e.ticket → w.phase.early = true := fun {u w} hw hw' hu =>
        (hq.back hw hu).elim id fun hold => hearly hold hw' hu
      rcases hcases with ⟨hqowing, -, hsame⟩ | ⟨r, hanalyzing, rfl⟩ | ⟨a, now, rfl, hholds, hput⟩
      · refine .underWay hq.calls_self hid hqowing ((askedAbout_congr hasked).trans ha) hother
          fun hanalyzing {r o} hx => ?_
        obtain ⟨l, since, hl⟩ := hanalyzing
        have hl : q = .analyzing l since := hl
        have hc'' : c.phase = .analyzing l since := (hsame ⟨l, since, hl⟩).symm.trans hl
        rw [hc'', hl] at hx
        exact hpast ⟨l, since, hc''⟩ (by simpa [occurrence?] using hx)
      · obtain ⟨l, since, hl⟩ := hanalyzing
        obtain ⟨r', a, hmem, hr'⟩ := hfail c.request r (by rw [hl]; rfl) hid
        exact absurd hr' (hpast ⟨l, since, hl⟩ hmem)
      · obtain ⟨-, hself, -⟩ := Store.record?_of_putRecord hholds hput
        have hstored := stored?_recordOf hself
        rw [hid, hdigest] at hstored
        exact .finished hq.calls_self hid rfl rfl ((askedAbout_congr hasked).trans ha)
          ⟨_, hstored⟩ fun hw hw' hu => .inl (hother hw hw' hu)
    · cases hlate.symm.trans (hearly hc hid ht)

/-- An event takes the calls on in the one way there is. -/
theorem Progress.step (h : Progress d p digest past) (hd : d.Works) (hpolicy : d.policy = .wait)
    (hvalid : p.validate = .ok ())
    (htext : ∀ {u : Ticket} {w : Call}, d.calls[u]? = some w → w.request.identity = p →
      contentHash w.request.definition = digest) (he : d.store.backend.Admits (.happen e))
    (hdrop : ∀ r q, d.occurs? (.happen e) = some (.dropped r q) → r.identity ≠ p)
    (hfail : ∀ r o, d.occurs? (.happen e) = some (.concluded r (.error o)) → r.identity = p →
      ∃ r' a, .concluded r' (.ok a) ∈ past ∧ r'.identity = p) :
    Progress (d.step e) p digest (past ++ (d.occurs? (.happen e)).toList) := by
  cases hc : d.calls[e.ticket]? with
  | none =>
    have hoccurs : d.occurs? (.happen e) = none := by simp [occurs?, hc]
    rwa [step_of_calls_eq_none hc, hoccurs, Option.toList_none, List.append_nil]
  | some c =>
    by_cases hid : c.request.identity = p
    · rcases c.phase.early_or_owing_or_ended with hearly | howing | hended
      · exact h.step_early hd hpolicy hvalid hc hid htext hearly hdrop
      · exact h.step_owing hd hc hid (htext hc hid) he howing hdrop hfail
      · have hoccurs : d.occurs? (.happen e) = none := by
          simp [occurs?, step_of_ended hc hended, hc, occurrence?_of_ended hended]
        rwa [step_of_ended hc hended, hoccurs, Option.toList_none, List.append_nil]
    · exact h.step_other hd hc he hid

/-- A new call does not take the others on. -/
theorem Progress.submit (h : Progress d p digest past) (hd : d.Consistent) (r : AnalysisRequest) :
    Progress (d.submit r).2 p digest past := by
  rw [← List.append_nil past]
  have hasked : (d.submit r).2.askedAbout p = d.askedAbout p := rfl
  refine h.frame hasked rfl (fun {u w} hw _ => ?_) (fun {u w} hw _ _ => ?_)
    fun hx => absurd hx (List.not_mem_nil)
  · rw [Desk.submit, getElem?_insert_eq] at hw
    split at hw
    · cases hw
      exact .inl rfl
    · exact .inr hw
  · rw [Desk.submit, getElem?_insert_eq, if_neg, hw]
    rintro rfl
    exact Nat.lt_irrefl _ (hd.ticket_lt hw)

theorem Progress.run (h : Progress d p digest past) (hd : d.Works) (hpolicy : d.policy = .wait)
    (hvalid : p.validate = .ok ())
    (htext : ∀ {u : Ticket} {w : Call}, d.calls[u]? = some w → w.request.identity = p →
      contentHash w.request.definition = digest) {moves : List Move}
    (hm : ∀ m ∈ moves, d.store.backend.Admits m)
    (hsubmit : ∀ r, .submit r ∈ moves → r.identity = p → contentHash r.definition = digest)
    (hdrop : ∀ r q, .dropped r q ∈ d.history moves → r.identity ≠ p)
    (hfail : ∀ {before after : List Occurrence} {r : AnalysisRequest} {o : Failure},
      d.history moves = before ++ .concluded r (.error o) :: after → r.identity = p →
        ∃ r' a, .concluded r' (.ok a) ∈ past ++ before ∧ r'.identity = p) :
    Progress (d.run moves) p digest (past ++ d.history moves) := by
  induction moves generalizing d past with
  | nil => simpa [history, Desk.run] using h
  | cons m ms ih =>
    have hm' := hm m (List.mem_cons_self ..)
    obtain ⟨hd', hbackend⟩ := hd.move hm'
    have hmove : Progress (d.move m) p digest (past ++ (d.occurs? m).toList) := by
      cases m with
      | submit r => simpa [occurs?, Desk.move] using h.submit hd.consistent r
      | happen e =>
        refine h.step hd hpolicy hvalid htext hm' (fun r q hx => ?_) fun r o hx => ?_
        · exact hdrop r q (by simp [history, hx])
        · intro hr
          have hfull : d.history (.happen e :: ms) =
              [] ++ .concluded r (.error o) :: (d.move (.happen e)).history ms := by
            rw [history, hx]
            rfl
          simpa using hfail hfull hr
    rw [history, ← List.append_assoc]
    refine ih hmove hd' ?_ ?_ (fun n hn => ?_) (fun r hr => ?_) (fun r q hx => ?_) ?_
    · exact (hd.consistent.policy_move m).trans hpolicy
    · intro u w hw hid
      rcases hd.consistent.request_move hw with rfl | ⟨w', hw', hrequest⟩
      · exact hsubmit _ (List.mem_cons_self ..) hid
      · rw [← hrequest] at hid ⊢
        exact htext hw' hid
    · rw [hbackend]
      exact hm n (List.mem_cons_of_mem m hn)
    · exact hsubmit r (List.mem_cons_of_mem m hr)
    · exact hdrop r q (by rw [history]; exact List.mem_append_right _ hx)
    · intro before after r o hx hr
      have hfull : d.history (m :: ms) =
          ((d.occurs? m).toList ++ before) ++ .concluded r (.error o) :: after := by
        rw [history, hx, List.append_assoc]
      simpa using hfail hfull hr

end Progress

/-! ### Complete runs -/

/-- Whether nothing can happen to any call but that it is given up. -/
def Settled (d : Desk) : Prop :=
  ∀ {e : Event} {c : Call}, d.calls[e.ticket]? = some c → e.fits c.phase = true → ∃ t, e = .drop t

/-- Nothing is left to happen only when all calls have ended: whoever waits, waits for a call that
can go on. -/
theorem Consistent.ended_of_settled (hd : d.Consistent) (hs : d.Settled)
    (hc : d.calls[t]? = some c) : c.phase.ended = true := by
  have hheld : ∀ {u : Ticket} {w : Call} {l : LockId}, d.calls[u]? = some w →
      w.phase.held? ≠ some l := by
    intro u w l hw hl
    cases hp : w.phase with
    | holding m =>
      obtain ⟨t, ht⟩ := hs (e := .recheck u 0) hw (by rw [hp]; rfl)
      cases ht
    | analyzing m since =>
      obtain ⟨t, ht⟩ := hs (e := .conclude u (.error (.refused (.missing "")))) hw (by rw [hp]; rfl)
      cases ht
    | storing m a =>
      obtain ⟨t, ht⟩ := hs (e := .save u default) hw (by rw [hp]; rfl)
      cases ht
    | _ =>
      rw [hp] at hl
      cases hl
  cases hp : c.phase with
  | fresh =>
    obtain ⟨u, hu⟩ := hs (e := .look t) hc (by rw [hp]; rfl)
    cases hu
  | queued l =>
    have hin := hd.inFlight_eq hc (Phase.lock?_eq_some_iff.mpr (.inr hp))
    obtain ⟨u, hu⟩ := Option.ne_none_iff_exists'.mp (hd.holder_ne_none hin)
    obtain ⟨w, hw, hl⟩ := hd.holder_iff.mp hu
    exact absurd hl (hheld hw)
  | done o => rfl
  | dropped => rfl
  | _ => exact absurd (by rw [hp]; rfl) (hheld hc)

theorem settled_of_ended (h : ∀ {t : Ticket} {c : Call}, d.calls[t]? = some c →
    c.phase.ended = true) : d.Settled := by
  intro e c hc hfit
  have hended := h hc
  cases e <;> cases hp : c.phase <;> simp_all [Event.fits, Phase.ended]

/-- What the calls for a procedure are answered when there was a single question. -/
structure OneQuestion (d : Desk) (p : ProcedureId) : Prop where
  /-- The analyst was asked once. -/
  asked : ∃ r, d.askedAbout p = [r]
  /-- One call is answered with a new record, and all others from the store. -/
  answered : ∃ (t : Ticket) (c : Call) (f : Finding), d.calls[t]? = some c ∧
    c.request.identity = p ∧ c.phase = .done (.ok f) ∧ f.cached = false ∧
      ∀ {u : Ticket} {w : Call}, d.calls[u]? = some w → w.request.identity = p → u ≠ t →
        ∃ f, w.phase = .done (.ok f) ∧ f.cached = true

/-- When all calls have ended, there was one question. -/
theorem Progress.oneQuestion {p : ProcedureId} {digest : String} {past : List Occurrence}
    (h : Progress d p digest past) (hd : d.Consistent) (hs : d.Settled)
    (hc : d.calls[t]? = some c) (hid : c.request.identity = p) : d.OneQuestion p := by
  have hlate : ∀ {u : Ticket} {w : Call}, d.calls[u]? = some w → w.phase.early ≠ true := by
    intro u w hw hearly
    cases (Phase.ended_of_early hearly).symm.trans (hd.ended_of_settled hs hw)
  cases h with
  | untouched ha hnone hearly hpast => exact absurd (hearly hc hid) (hlate hc)
  | underWay hc' hid' howing ha hearly hpast =>
    cases (Phase.ended_of_owing howing).symm.trans (hd.ended_of_settled hs hc')
  | finished hc' hid' hdone hcached ha hstored hother =>
    refine ⟨⟨_, ha⟩, _, _, _, hc', hid', hdone, hcached, fun hw hw' hu => ?_⟩
    exact (hother hw hw' hu).resolve_left (hlate hw)

/-- **No question twice**: in every run on a store that works, in which no call is given up while
its record is stored, a record of another text is stored between two successes with one text of a
procedure.  If the calls for a procedure are all about one text that is not stored, none of them is
given up and the first conclusion about the procedure is a success, then under the policy to wait
and once nothing can happen any more there was one question, and one call has a new record. -/
theorem no_question_twice (policy : InFlightPolicy) {s : Store} (hs : s.Sound) {moves : List Move}
    (hm : ∀ m ∈ moves, s.backend.Admits m)
    (hstoring : ∀ r l a, .dropped r (.storing l a) ∉ (empty policy s).history moves) :
    (∀ {before mid after : List Occurrence} {r r' : AnalysisRequest} {a a' : Analysis},
      (empty policy s).history moves =
        before ++ .concluded r (.ok a) :: (mid ++ .concluded r' (.ok a') :: after) →
      r'.identity = r.identity → contentHash r'.definition = contentHash r.definition →
      ∃ f, .stored f ∈ mid ∧ f.identity = r.identity ∧
        f.definitionHash ≠ contentHash r.definition) ∧
    ∀ {p : ProcedureId} {text : String}, policy = .wait → p.validate = .ok () →
      (∀ f, s.record? p = .ok (some f) → f.definitionHash ≠ contentHash text) →
      (∀ r, .submit r ∈ moves → r.identity = p → r.definition = text) →
      (∀ r q, .dropped r q ∈ (empty policy s).history moves → r.identity ≠ p) →
      (∀ {before after : List Occurrence} {r : AnalysisRequest} {e : Failure},
        (empty policy s).history moves = before ++ .concluded r (.error e) :: after →
        r.identity = p → ∃ r' a, .concluded r' (.ok a) ∈ before ∧ r'.identity = p) →
      (∃ (t : Ticket) (c : Call), ((empty policy s).run moves).calls[t]? = some c ∧
        c.request.identity = p) →
      ((empty policy s).run moves).Settled → ((empty policy s).run moves).OneQuestion p := by
  have hd := works_empty policy hs
  refine ⟨fun h hid hdigest => hd.stored_between hm hstoring h hid hdigest, ?_⟩
  intro p text hpolicy hvalid hnone htext hdrop hfirst hsome hsettled
  obtain ⟨t, c, hc, hid⟩ := hsome
  have hstart : Progress (empty policy s) p (contentHash text) [] := by
    refine .untouched rfl ?_ (fun {t c} hc => by simp [empty] at hc) (by simp)
    exact stored?_eq_none hs hnone
  have hprogress := hstart.run hd hpolicy hvalid (fun {u w} hw => by simp [empty] at hw) hm
    (fun r hr hid => by rw [htext r hr hid]) hdrop fun h hr => hfirst h hr
  exact hprogress.oneQuestion (hd.run hm).1.consistent hsettled hc hid

/-! ### Samples -/

/-- A new record of a text. -/
def sampleRecord (text : String) : Record :=
  recordOf (sampleRequest text) sampleAnalysis ⟨0, 0⟩

/-- Three calls one after the other, the second of which is about another text. -/
def alternatingMoves : List Move :=
  [.submit (sampleRequest "a"), .submit (sampleRequest "b"), .submit (sampleRequest "a"),
    .happen (.look 0), .happen (.look 1), .happen (.look 2)] ++ sampleMoves 0 ++ sampleMoves 1 ++
    [.happen (.recheck 2 0), .happen (.conclude 2 (.ok sampleAnalysis))]

/-- Two calls with one text. -/
def agreeingMoves : List Move :=
  [.submit (sampleRequest "a"), .submit (sampleRequest "a"), .happen (.look 0),
    .happen (.look 1)] ++ sampleMoves 0 ++ [.happen (.recheck 1 0)]

theorem history_alternatingMoves : (empty .wait (.empty .memory)).history alternatingMoves =
    [] ++ .concluded (sampleRequest "a") (.ok sampleAnalysis) ::
      ([.stored (sampleRecord "a"), .concluded (sampleRequest "b") (.ok sampleAnalysis),
        .stored (sampleRecord "b")] ++
      .concluded (sampleRequest "a") (.ok sampleAnalysis) :: []) := by
  decide +kernel

theorem history_agreeingMoves : (empty .wait (.empty .memory)).history agreeingMoves =
      [.concluded (sampleRequest "a") (.ok sampleAnalysis), .stored (sampleRecord "a")] ∧
    ((empty .wait (.empty .memory)).run agreeingMoves).nextTicket = 2 ∧
    ∀ t < 2, (((empty .wait (.empty .memory)).run agreeingMoves).calls[t]?).map
      (fun c => (c.request, c.phase.ended)) = some (sampleRequest "a", true) := by
  decide +kernel

/-- Between two questions with one text there was another text; and two calls make one question. -/
theorem no_question_twice_samples :
    (∃ f, .stored f ∈ ([.stored (sampleRecord "a"),
        .concluded (sampleRequest "b") (.ok sampleAnalysis),
        .stored (sampleRecord "b")] : List Occurrence) ∧
      f.identity = (sampleRequest "a").identity ∧ f.definitionHash ≠ contentHash "a") ∧
    ((empty .wait (.empty .memory)).run agreeingMoves).OneQuestion (sampleRequest "a").identity := by
  have hs := Store.sound_empty .memory
  have hm : ∀ {moves : List Move}, ∀ m ∈ moves, Backend.memory.Admits m := fun _ _ => trivial
  constructor
  · refine (no_question_twice .wait hs hm fun r l a h => ?_).1 history_alternatingMoves rfl rfl
    simp [history_alternatingMoves] at h
  · obtain ⟨hhistory, hnext, hended⟩ := history_agreeingMoves
    have hnone : ∀ f, (Store.empty .memory).record? (sampleRequest "a").identity = .ok (some f) →
        f.definitionHash ≠ contentHash "a" := by
      intro f hf
      simp [Store.empty, Store.record?, Shelf.record?, Shelf.empty] at hf
    have htext : ∀ r, .submit r ∈ agreeingMoves → r.identity = (sampleRequest "a").identity →
        r.definition = "a" := by
      intro r hr _
      simp only [agreeingMoves, sampleMoves, List.mem_append, List.mem_cons, Move.submit.injEq,
        reduceCtorEq, List.not_mem_nil, or_false, or_self] at hr
      rw [hr]
      rfl
    have hsome : ∃ (t : Ticket) (c : Call), ((empty .wait (.empty .memory)).run
        agreeingMoves).calls[t]? = some c ∧ c.request.identity = (sampleRequest "a").identity := by
      obtain ⟨c, hc, hrequest⟩ := Option.map_eq_some_iff.mp (hended 0 (by decide))
      exact ⟨0, c, hc, by rw [(Prod.mk.inj hrequest).1]⟩
    have hsettled : ((empty .wait (.empty .memory)).run agreeingMoves).Settled := by
      refine settled_of_ended fun {t c} hc => ?_
      have ht := ((works_empty .wait hs).run hm).1.consistent.ticket_lt hc
      rw [hnext] at ht
      have hmap := hended t ht
      rw [hc] at hmap
      exact (Prod.mk.inj (Option.some.inj hmap)).2
    refine (no_question_twice .wait hs hm fun r l a h => ?_).2 rfl (by decide) hnone htext
      (fun r q h => ?_) (fun {before after r e} h => ?_) hsome hsettled
    · simp [hhistory] at h
    · simp [hhistory] at h
    · have hmem : .concluded r (.error e) ∈ before ++ .concluded r (.error e) :: after := by simp
      rw [← h, hhistory] at hmem
      simp at hmem

end Desk

end TierLineage.Flight
