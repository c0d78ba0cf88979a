/-
Replays of inbound webhooks across the cleanup of old events.

While the row of an event is in the table nobody persists the event again, and only a
cleanup removes the row.  A signed request can still verify as long as its timestamp is
in the replay window, which reaches the tolerance into the past and into the future; if
the retention time is longer than the whole window, with the time that requests take,
then its event is still in the table when it could be persisted again for the last time.
-/
import StarterBackend.Webhooks.Runs

namespace StarterBackend.Webhooks

open Lib App

/-! ### Rows of events -/

namespace World

variable {K : Type} {w : World K} {provider eventId : String}

lemma event_isSome_iff : (w.event provider eventId).isSome = true ↔
    ∃ row, w.events.row row.id = some row ∧ row.isOf provider eventId = true := by
  constructor
  · intro h
    obtain ⟨row, hrow⟩ := Option.isSome_iff_exists.1 h
    exact ⟨row, Table.mem_select.1 (List.mem_of_head? hrow)⟩
  · rintro ⟨row, hrow, hof⟩
    have hmem : row ∈ w.events.select fun row => row.isOf provider eventId :=
      Table.mem_select.2 ⟨hrow, hof⟩
    rw [event, List.isSome_head?]
    cases hselect : w.events.select fun row => row.isOf provider eventId with
    | nil => simp [hselect] at hmem
    | cons r rs => simp

variable [LinearOrder K] {time : K}

/-- The table has a row of the event that was received at `time` or later. -/
def ReceivedSince (w : World K) (provider eventId : String) (time : K) : Prop :=
  ∃ row, w.events.row row.id = some row ∧ row.isOf provider eventId = true ∧ time ≤ row.receivedAt

lemma ReceivedSince.event_ne_none (h : w.ReceivedSince provider eventId time) :
    w.event provider eventId ≠ none := by
  obtain ⟨row, hrow, hof, -⟩ := h
  exact Option.isSome_iff_ne_none.1 (event_isSome_iff.2 ⟨row, hrow, hof⟩)

variable [Field K] {e : Env K} {c : Command K}

/-- Only the removal of old events removes a row. -/
lemma row_exec (hc : ∀ cutoff, c ≠ .deleteEventsBefore cutoff) {row : WebhookEvent K}
    (h : w.events.row row.id = some row) : (c.exec e w).2.events.row row.id = some row := by
  cases c with
  | deleteEventsBefore cutoff => exact absurd rfl (hc cutoff)
  | insertEvent provider eventId payloadHash =>
      simp only [Command.exec]
      split_ifs
      · exact h
      · simp only [World.insertEvent]
        exact Table.row_insert_of_some h
  | insertRecord scopeKey statusCode body expiresAt =>
      simp only [Command.exec]
      split_ifs <;> exact h
  | redisIncr key =>
      simp only [Command.exec, unlessFails]
      split
      · exact h
      · split_ifs <;> exact h
  | redisExpire key ttl | redisSetNx key ttl | redisDelete key =>
      simp only [Command.exec, unlessFails]
      split_ifs <;> exact h
  | _ => exact h

/-- A row stays, or it is removed because it was received before the cutoff. -/
lemma receivedSince_exec (h : w.ReceivedSince provider eventId time) :
    (c.exec e w).2.ReceivedSince provider eventId time ∨
      ∃ cutoff, c = .deleteEventsBefore cutoff ∧ time < cutoff := by
  obtain ⟨row, hrow, hof, htime⟩ := h
  by_cases hc : ∀ cutoff, c ≠ .deleteEventsBefore cutoff
  · exact .inl ⟨row, row_exec hc hrow, hof, htime⟩
  · push Not at hc
    obtain ⟨cutoff, rfl⟩ := hc
    by_cases hcutoff : row.receivedAt < cutoff
    · exact .inr ⟨cutoff, rfl, htime.trans_lt hcutoff⟩
    · refine .inl ⟨row, ?_, hof, htime⟩
      simp [Command.exec, hrow, Option.filter, not_lt.1 hcutoff]

end World

namespace Traffic

variable {K : Type} [Field K] [LinearOrder K] [FloorRing K] {ι : Type} [DecidableEq ι]
  {crypto : Crypto} {settings : WebhookSettings} {w₀ : World K}
  {as bs : List (PoolAction ι (WebhookCall K) (Env K))}
  {a b : PoolAction ι (WebhookCall K) (Env K)} {s s' u u' : Traffic ι K}
  {request request' : InboundRequest} {provider eventId provider' eventId' : String}

/-- The step newly persists an event, for a request. -/
def Persists (s : Traffic ι K) (a : PoolAction ι (WebhookCall K) (Env K)) (request : InboundRequest)
    (provider eventId : String) : Prop :=
  ∃ i e arrivedAt payloadHash k, a = .step i e ∧
    s.calls i = some (.inbound arrivedAt request, .call (.insertEvent provider eventId payloadHash) k) ∧
    s.store.event provider eventId = none

/-- The step is the one of a cleanup that removes old events. -/
def RemovesEvents (s : Traffic ι K) (a : PoolAction ι (WebhookCall K) (Env K)) : Prop :=
  ∃ i e cutoff k, a = .step i e ∧
    s.calls i = some (.cleanupEvents, .call (.deleteEventsBefore cutoff) k)

/-- A request takes its steps after its arrival, and commits its event at most `d` later, with a time
of receipt that is not before its arrival. -/
def Timely (d : K) (q : WebhookCall K) (c : Command K) (e : Env K) : Prop :=
  ∀ arrivedAt request, q = .inbound arrivedAt request → arrivedAt ≤ e.now ∧
    ∀ provider eventId payloadHash, c = .insertEvent provider eventId payloadHash →
      e.now ≤ arrivedAt + d ∧ arrivedAt ≤ e.databaseNow

/-- The steps of a run are timely. -/
def AllTimely (d : K) (s : Traffic ι K) (a : PoolAction ι (WebhookCall K) (Env K)) : Prop :=
  ∀ i e q c k, a = .step i e → s.calls i = some (q, .call c k) → Timely d q c e

/-- The processes are sound, with steps that meet a condition. -/
abbrev SoundWith (crypto : Crypto) (settings : WebhookSettings)
    (steps : WebhookCall K → Command K → Env K → Prop) (s : Traffic ι K) : Prop :=
  (protocol fun _ _ => True).Sound interp (Considered crypto (fun _ _ => True) False steps)
    (fun q c e _ _ _ => GoodStep crypto settings steps q c e) (Outcomes crypto False) s

omit [FloorRing K] [Field K] [DecidableEq ι] in
lemma considered {steps : WebhookCall K → Command K → Env K → Prop}
    (h : ∀ i e q c k, a = .step i e → s.calls i = some (q, .call c k) → steps q c e) :
    Protocol.Allows (Considered crypto (fun _ _ => True) False steps) s a :=
  fun i e q p ha hp => ⟨by cases q <;> simp [AskedBy], fun c k hcall => h i e q c k ha (hcall ▸ hp),
    nofun⟩

/-- The step of a process, and its world after it. -/
lemma store_step {i : ι} {e : Env K} {q : WebhookCall K} {c : Command K}
    {k : c.Reply → WebhookProg K (Option (Response K))}
    (hstep : step crypto settings s (.step i e) = some s') (hi : s.calls i = some (q, .call c k)) :
    s.store.clock ≤ e.now ∧ s'.store = { (c.exec e s.store).2 with clock := e.now } := by
  rcases Pool.next_step_cases hi hstep with ⟨x, hexec, -⟩ | ⟨r, hexec, -⟩
  · exact ⟨(interp_eq_some hexec).1, (interp_eq_some hexec).2.2⟩
  · exact ⟨(interp_eq_some hexec).1, (interp_eq_some hexec).2.2⟩

/-- A row of an event stays, or a cleanup removes it after the retention time. -/
lemma receivedSince_step {steps : WebhookCall K → Command K → Env K → Prop}
    [IsStrictOrderedRing K]
    (hs : SoundWith crypto settings steps s)
    (hG : Protocol.Allows (Considered crypto (fun _ _ => True) False steps) s a)
    (hstep : step crypto settings s a = some s') {time : K}
    (h : s.store.ReceivedSince provider eventId time) :
    s'.store.ReceivedSince provider eventId time ∨
      RemovesEvents s a ∧ time + ((settings.eventRetentionDays * 86400 : ℕ) : K) < s'.store.clock := by
  obtain ⟨-, -, hgood⟩ := hs.step (fun q w hw => safe_program q w hw) hG hstep
  rcases Pool.next_cases hstep with ⟨i, q, rfl, hi, rfl⟩ |
    ⟨i, e, q, c, k, p', w, rfl, hi, rfl, -⟩ | ⟨i, q, p, rfl, hi, rfl⟩
  · exact .inl h
  · obtain ⟨hclock, hstore⟩ := store_step hstep hi
    obtain ⟨x, -, hgoodc⟩ := hgood i e q c k rfl hi
    rcases World.receivedSince_exec (e := e) (c := c) h with hkept | ⟨cutoff, rfl, htime⟩
    · left
      rw [hstore]
      exact hkept
    · right
      obtain ⟨rfl, hcutoff⟩ := hgoodc
      refine ⟨⟨i, e, cutoff, k, rfl, hi⟩, ?_⟩
      rw [hstore]
      show time + _ < e.now
      linarith
  · exact .inl h

/-- What the persistence of an event shows of its request. -/
lemma verified_of_persists {steps : WebhookCall K → Command K → Env K → Prop}
    (hs : SoundWith crypto settings steps s)
    (hG : Protocol.Allows (Considered crypto (fun _ _ => True) False steps) s a)
    (hstep : step crypto settings s a = some s') (ha : Persists s a request provider eventId) :
    ∃ i e arrivedAt payloadHash k, a = .step i e ∧ s.calls i =
        some (.inbound arrivedAt request, .call (.insertEvent provider eventId payloadHash) k) ∧
      Verified crypto settings steps (.inbound arrivedAt request) e.now ∧
      Names crypto (.inbound arrivedAt request) provider eventId := by
  obtain ⟨i, e, arrivedAt, payloadHash, k, rfl, hi, -⟩ := ha
  obtain ⟨-, -, hgood⟩ := hs.step (fun q w hw => safe_program q w hw) hG hstep
  obtain ⟨x, -, hverified, hnames⟩ := hgood i e _ _ _ rfl hi
  exact ⟨i, e, arrivedAt, payloadHash, k, rfl, hi, hverified, hnames⟩

variable (crypto) in
omit [Field K] [FloorRing K] [DecidableEq ι] in
lemma along_considered {stepFn : Traffic ι K → PoolAction ι (WebhookCall K) (Env K) → Option (Traffic ι K)}
    {steps : WebhookCall K → Command K → Env K → Prop}
    (h : Along stepFn (fun s a => ∀ i e q c k, a = .step i e → s.calls i = some (q, .call c k) →
      steps q c e) s as) :
    Along stepFn (Protocol.Allows (Considered crypto (fun _ _ => True) False steps)) s as :=
  h.imp fun _ _ => considered

/-- What a persisted event leaves behind: its row, or a time after which it can be removed. -/
def Remembered (settings : WebhookSettings) (provider eventId : String) (time : K)
    (s : Traffic ι K) : Prop :=
  s.store.ReceivedSince provider eventId time ∨
    time + ((settings.eventRetentionDays * 86400 : ℕ) : K) < s.store.clock

lemma remembered_step [IsStrictOrderedRing K] {steps : WebhookCall K → Command K → Env K → Prop}
    (hs : SoundWith crypto settings steps s)
    (hG : Protocol.Allows (Considered crypto (fun _ _ => True) False steps) s a)
    (hstep : step crypto settings s a = some s') {time : K}
    (h : Remembered settings provider eventId time s) :
    Remembered settings provider eventId time s' := by
  have hclock := (hs.step (fun q w hw => safe_program q w hw) hG hstep).2.1.clock
  rcases h with hrow | hlate
  · rcases receivedSince_step hs hG hstep hrow with hkept | ⟨-, hlate⟩
    · exact .inl hkept
    · exact .inr hlate
  · exact .inr (hlate.trans_le hclock)

/-- After its persistence an event has a row. -/
lemma receivedSince_of_persists {i : ι} {e : Env K} {q : WebhookCall K} {payloadHash : String}
    {k : Option ℕ → WebhookProg K (Option (Response K))} {time : K}
    (hstep : step crypto settings s (.step i e) = some s')
    (hi : s.calls i = some (q, .call (.insertEvent provider eventId payloadHash) k))
    (hnone : s.store.event provider eventId = none) (htime : time ≤ e.databaseNow) :
    s'.store.ReceivedSince provider eventId time := by
  obtain ⟨-, hstore⟩ := store_step hstep hi
  rw [hstore]
  simp only [Command.exec, hnone, Option.isSome_none, Bool.false_eq_true, if_false]
  exact ⟨⟨s.store.events.freshId e.gap, provider, eventId, payloadHash, e.databaseNow⟩,
    by simp [World.insertEvent], by simp [WebhookEvent.isOf], htime⟩

/-- A row that is there stays until a cleanup removes it. -/
lemma removed_of_persists_again [IsStrictOrderedRing K] (h₀ : w₀.Initial)
    (hs : exec (step crypto settings) (Pool.initial w₀) as = some s)
    (ht : exec (step crypto settings) s bs = some u)
    (hrow : s.store.event provider eventId ≠ none) (hnone : u.store.event provider eventId = none) :
    ∃ cs c ds v v', bs = cs ++ c :: ds ∧ exec (step crypto settings) s cs = some v ∧
      step crypto settings v c = some v' ∧ RemovesEvents v c ∧
      v.store.event provider eventId ≠ none ∧ v'.store.event provider eventId = none := by
  obtain ⟨cs, c, ds, v, v', rfl, hv, hstep, hbefore, hafter⟩ := exists_step_of_change
    (P := fun v : Traffic ι K => v.store.event provider eventId ≠ none) ht hrow (by simpa using hnone)
  have hall : ∀ (s : Traffic ι K) cs, Along (step crypto settings) (Protocol.Allows (Considered crypto
      (fun _ _ => True) False fun _ _ _ => True)) s cs := fun s cs =>
    along_considered crypto (along_of_forall fun _ _ _ _ _ _ _ _ _ => trivial)
  have hsound := sound (fun _ _ => True) False (fun _ _ _ => True) h₀ (hall _ _)
    (exec_append_eq_some.2 ⟨s, hs, hv⟩)
  obtain ⟨row, hrow, hof⟩ := World.event_isSome_iff.1 (Option.isSome_iff_ne_none.2 hbefore)
  rcases receivedSince_step hsound (considered fun _ _ _ _ _ _ _ => trivial) hstep
    ⟨row, hrow, hof, le_rfl⟩ with hkept | ⟨hremoves, -⟩
  · exact absurd hkept.event_ne_none hafter
  · exact ⟨cs, c, ds, v, v', rfl, hv, hstep, hremoves, hbefore, not_not.1 hafter⟩

omit [Field K] [LinearOrder K] [FloorRing K] in
/-- A timestamp that is in the window of two requests: the second is committed before the event of
the first can be removed. -/
lemma commit_le_of_window [Field K] [LinearOrder K] [FloorRing K] [IsStrictOrderedRing K]
    {arrivedAt arrivedAt' verifiedAt verifiedAt' committedAt committedAt' d : K} {t : ℤ}
    {tolerance retention : ℕ} (hverified : verifiedAt ≤ committedAt)
    (hcommitted : committedAt ≤ arrivedAt + d) (harrived : arrivedAt' ≤ verifiedAt')
    (hcommitted' : committedAt' ≤ arrivedAt' + d) (hwindow : |⌊verifiedAt⌋ - t| ≤ tolerance)
    (hwindow' : |⌊verifiedAt'⌋ - t| ≤ tolerance)
    (hretention : 2 * (tolerance : K) + 2 * d + 1 ≤ (retention : K)) :
    committedAt' ≤ arrivedAt + (retention : K) := by
  have hfloors : ⌊verifiedAt'⌋ ≤ ⌊verifiedAt⌋ + 2 * tolerance := by
    have := (abs_le.1 hwindow).1
    have := (abs_le.1 hwindow').2
    omega
  have hcast : (⌊verifiedAt'⌋ : K) ≤ ⌊verifiedAt⌋ + 2 * (tolerance : K) := by exact_mod_cast hfloors
  have hfloor := Int.floor_le verifiedAt
  have hfloor' := Int.lt_floor_add_one verifiedAt'
  linarith

omit [DecidableEq ι] in
/-- A timely request that has verified did so after its arrival, in the window of its timestamp. -/
lemma window_of_verified {d arrivedAt time : K}
    (h : Verified crypto settings (Timely d) (.inbound arrivedAt request) time) :
    ∃ verifiedAt t, arrivedAt ≤ verifiedAt ∧ verifiedAt ≤ time ∧
      effectiveTimestamp crypto request.signature request.timestamp = some t ∧
      |⌊verifiedAt⌋ - t| ≤ settings.signatureToleranceSeconds := by
  obtain ⟨_, _, e, t, hq, hsteps, htime, hverdict⟩ := h
  obtain ⟨rfl, rfl⟩ := WebhookCall.inbound.inj hq
  obtain ⟨htimestamp, hwindow⟩ := verifyInbound_eq_ok hverdict
  exact ⟨e.now, t, (hsteps _ _ rfl).1, htime, htimestamp, hwindow⟩

/-- In a run of timely requests the removal of an event does not come before it is too late to
persist it again. -/
lemma not_persists_again [IsStrictOrderedRing K] {d : K} (h₀ : w₀.Initial)
    (hs : exec (step crypto settings) (Pool.initial w₀) as = some s)
    (ha : step crypto settings s a = some s') (ht : exec (step crypto settings) s' bs = some u)
    (hb : step crypto settings u b = some u') (hpa : Persists s a request provider eventId)
    (hpb : Persists u b request' provider' eventId')
    (htimely : Along (step crypto settings) (AllTimely d) (Pool.initial w₀) (as ++ a :: (bs ++ [b])))
    (hretention : 2 * (settings.signatureToleranceSeconds : K) + 2 * d + 1 ≤
      ((settings.eventRetentionDays * 86400 : ℕ) : K))
    (hbody : request.body = request'.body)
    (htimestamp : effectiveTimestamp crypto request.signature request.timestamp =
      effectiveTimestamp crypto request'.signature request'.timestamp) : False := by
  have hall := along_considered crypto htimely
  have hsound := sound (fun _ _ => True) False (Timely d) h₀
    (hall.of_isPrefix (List.prefix_append as _)) hs
  have hafter := hall.append hs
  obtain ⟨hstep, hrest⟩ := hafter
  obtain ⟨i, e, arrivedAt, payloadHash, k, rfl, hi, hverified, hnames⟩ :=
    verified_of_persists hsound hstep ha hpa
  obtain ⟨harrived, hcommit⟩ := (hstep i e _ _ rfl hi).steps _ _ rfl arrivedAt request rfl
  obtain ⟨hcommitted, hreceived⟩ := hcommit _ _ _ rfl
  -- the event of the first request is remembered up to the second
  have hu : SoundWith crypto settings (Timely d) u ∧
      Remembered settings provider eventId arrivedAt u := by
    refine exec_invariant_along (I := fun v => SoundWith crypto settings (Timely d) v ∧
      Remembered settings provider eventId arrivedAt v) (fun v c v' hv hG hc => ⟨(hv.1.step (fun q w hw =>
      safe_program q w hw) hG hc).1, remembered_step hv.1 hG hc hv.2⟩) ⟨?_, ?_⟩
      ((hrest _ ha).of_isPrefix (List.prefix_append bs [b])) ht
    · exact (hsound.step (fun q w hw => safe_program q w hw) hstep ha).1
    · obtain ⟨_, _, _, _, _, heq, hi', hnone⟩ := hpa
      obtain ⟨rfl, rfl⟩ := PoolAction.step.inj heq
      exact .inl (receivedSince_of_persists ha hi hnone hreceived)
  obtain ⟨hsoundu, hremembered⟩ := hu
  have hstepb := ((hrest _ ha).append ht).1
  obtain ⟨j, e', arrivedAt', payloadHash', k', rfl, hj, hverified', hnames'⟩ :=
    verified_of_persists hsoundu hstepb hb hpb
  obtain ⟨hcommitted', -⟩ :=
    ((hstepb j e' _ _ rfl hj).steps _ _ rfl arrivedAt' request' rfl).2 _ _ _ rfl
  -- both requests name one event and have verified one timestamp
  obtain ⟨verifiedAt, t, -, hverifiedAt, ht, hwindow⟩ := window_of_verified hverified
  obtain ⟨verifiedAt', t', harrived', -, ht', hwindow'⟩ := window_of_verified hverified'
  obtain rfl : t = t' := Option.some.inj (ht.symm.trans (htimestamp.trans ht'))
  have hlate := commit_le_of_window hverifiedAt hcommitted harrived' hcommitted' hwindow hwindow'
    hretention
  obtain ⟨rfl, rfl⟩ : provider = provider' ∧ eventId = eventId' := by
    obtain ⟨_, _, payload, hq, hpayload, rfl, rfl⟩ := hnames
    obtain ⟨_, _, payload', hq', hpayload', rfl, rfl⟩ := hnames'
    obtain ⟨-, rfl⟩ := WebhookCall.inbound.inj hq
    obtain ⟨-, rfl⟩ := WebhookCall.inbound.inj hq'
    simp only [InboundRequest.payload, hbody] at hpayload hpayload'
    obtain rfl : payload = payload' := Option.some.inj (hpayload.symm.trans hpayload')
    exact ⟨rfl, rfl⟩
  obtain ⟨_, _, _, _, _, -, -, hnone⟩ := hpb
  rcases hremembered with hrow | hafter
  · exact hrow.event_ne_none hnone
  · exact absurd (store_step hb hj).1 (not_le.2 (hlate.trans_lt hafter))

/-- **Replay is impossible.**  When an event is persisted twice, a cleanup has removed its row in
between; and one signed pair of timestamp and body persists its event at most once, if the
retention time is longer than the replay window with the time that requests take. -/
theorem replay_impossible [IsStrictOrderedRing K] (h₀ : w₀.Initial)
    (hs : exec (step crypto settings) (Pool.initial w₀) as = some s)
    (ha : step crypto settings s a = some s') (ht : exec (step crypto settings) s' bs = some u)
    (hb : step crypto settings u b = some u') (hpa : Persists s a request provider eventId)
    (hpb : Persists u b request' provider' eventId') :
    (provider = provider' → eventId = eventId' → ∃ cs c ds v v', bs = cs ++ c :: ds ∧
      exec (step crypto settings) s' cs = some v ∧ step crypto settings v c = some v' ∧
      RemovesEvents v c ∧ v.store.event provider eventId ≠ none ∧
      v'.store.event provider eventId = none) ∧
    ∀ d : K, Along (step crypto settings) (AllTimely d) (Pool.initial w₀) (as ++ a :: (bs ++ [b])) →
      2 * (settings.signatureToleranceSeconds : K) + 2 * d + 1 ≤
        ((settings.eventRetentionDays * 86400 : ℕ) : K) →
      ¬ (request.body = request'.body ∧
        effectiveTimestamp crypto request.signature request.timestamp =
          effectiveTimestamp crypto request'.signature request'.timestamp) := by
  constructor
  · rintro rfl rfl
    obtain ⟨i, e, arrivedAt, payloadHash, k, rfl, hi, hnone⟩ := hpa
    obtain ⟨_, _, _, _, _, -, -, hnone'⟩ := hpb
    have hs' : exec (step crypto settings) (Pool.initial w₀) (as ++ [.step i e]) = some s' :=
      exec_append_eq_some.2 ⟨s, hs, exec_cons_eq_some.2 ⟨s', ha, rfl⟩⟩
    exact removed_of_persists_again h₀ hs' ht
      (receivedSince_of_persists ha hi hnone le_rfl).event_ne_none hnone'
  · rintro d htimely hretention ⟨hbody, htimestamp⟩
    exact not_persists_again h₀ hs ha ht hb hpa hpb htimely hretention hbody htimestamp

/-- The executable form of `Persists`. -/
def persists (s : Traffic ℕ ℚ) (a : PoolAction ℕ (WebhookCall ℚ) (Env ℚ)) (request : InboundRequest)
    (provider eventId : String) : Bool :=
  match a with
  | .step i _ =>
      match s.calls i with
      | some (.inbound _ request', .call (.insertEvent provider' eventId' _) _) =>
          request' == request && provider' == provider && eventId' == eventId &&
            (s.store.event provider eventId).isNone
      | _ => false
  | _ => false

lemma persists_of_check {s : Traffic ℕ ℚ} {a : PoolAction ℕ (WebhookCall ℚ) (Env ℚ)}
    (h : persists s a request provider eventId = true) : Persists s a request provider eventId := by
  unfold persists at h
  split at h
  · rename_i i e
    split at h
    · rename_i arrivedAt request' provider' eventId' payloadHash k hcalls
      obtain ⟨⟨⟨rfl, rfl⟩, rfl⟩, hnone⟩ : ((request' = request ∧ provider' = provider) ∧
          eventId' = eventId) ∧ s.store.event provider eventId = none := by simpa using h
      exact ⟨i, e, arrivedAt, payloadHash, k, rfl, hcalls, hnone⟩
    · simp at h
  · simp at h

/-- The executable form of `AllTimely`. -/
def timely (d : ℚ) (s : Traffic ℕ ℚ) (a : PoolAction ℕ (WebhookCall ℚ) (Env ℚ)) : Bool :=
  match a with
  | .step i e =>
      match s.calls i with
      | some (.inbound arrivedAt _, .call (.insertEvent _ _ _) _) =>
          decide (arrivedAt ≤ e.now) && decide (e.now ≤ arrivedAt + d) &&
            decide (arrivedAt ≤ e.databaseNow)
      | some (.inbound arrivedAt _, _) => decide (arrivedAt ≤ e.now)
      | _ => true
  | _ => true

lemma allTimely_of_check {d : ℚ} {s : Traffic ℕ ℚ} {a : PoolAction ℕ (WebhookCall ℚ) (Env ℚ)}
    (h : timely d s a = true) : AllTimely d s a := by
  rintro i e q c k rfl hi arrivedAt request rfl
  simp only [timely, hi] at h
  cases c with
  | insertEvent provider eventId payloadHash =>
      obtain ⟨⟨harrived, hcommitted⟩, hreceived⟩ : (arrivedAt ≤ e.now ∧ e.now ≤ arrivedAt + d) ∧
          arrivedAt ≤ e.databaseNow := by simpa using h
      exact ⟨harrived, fun _ _ _ _ => ⟨hcommitted, hreceived⟩⟩
  | _ => exact ⟨of_decide_eq_true h, nofun⟩

/-- The delivery of `sampleRequest` with a new timestamp, after the retention time. -/
def repeatedRequest : InboundRequest :=
  { sampleRequest with
    signature := some "bf94374aa2a0c131daffd5d3c366fa9fbfb649c917eea50d78c12f60dee8ab9a"
    timestamp := some "7777001" }

/-- The run between the two persistences: the cleanup, and the second request up to its insertion. -/
def cleanupRun : List (PoolAction ℕ (WebhookCall ℚ) (Env ℚ)) :=
  [.start 1 .cleanupEvents] ++ List.replicate 2 (.step 1 (sampleEnv 7777001)) ++
    ([.start 2 (.inbound 7777001 repeatedRequest)] ++ List.replicate 8 (.step 2 (sampleEnv 7777001)))

/-- After the retention time an event can be persisted again, with a new timestamp only. -/
theorem replay_impossible_repeatedRequest :
    ∃ (as : List (PoolAction ℕ (WebhookCall ℚ) (Env ℚ))) (s s' u u' : Traffic ℕ ℚ),
      exec (step sampleCrypto sampleSettings) (Pool.initial sampleWorld) as = some s ∧
      step sampleCrypto sampleSettings s (.step 0 (sampleEnv 1000)) = some s' ∧
      exec (step sampleCrypto sampleSettings) s' cleanupRun = some u ∧
      step sampleCrypto sampleSettings u (.step 2 (sampleEnv 7777001)) = some u' ∧
      Persists s (.step 0 (sampleEnv 1000)) sampleRequest "payments" "evt_1" ∧
      Persists u (.step 2 (sampleEnv 7777001)) repeatedRequest "payments" "evt_1" ∧
      (∃ cs c ds v v', cleanupRun = cs ++ c :: ds ∧
        exec (step sampleCrypto sampleSettings) s' cs = some v ∧
        step sampleCrypto sampleSettings v c = some v' ∧ RemovesEvents v c ∧
        v.store.event "payments" "evt_1" ≠ none ∧ v'.store.event "payments" "evt_1" = none) ∧
      ¬ (sampleRequest.body = repeatedRequest.body ∧
        effectiveTimestamp sampleCrypto sampleRequest.signature sampleRequest.timestamp =
          effectiveTimestamp sampleCrypto repeatedRequest.signature repeatedRequest.timestamp) := by
  let first : List (PoolAction ℕ (WebhookCall ℚ) (Env ℚ)) :=
    [.start 0 (.inbound 1000 sampleRequest)] ++ List.replicate 8 (.step 0 (sampleEnv 1000))
  let a : PoolAction ℕ (WebhookCall ℚ) (Env ℚ) := .step 0 (sampleEnv 1000)
  let b : PoolAction ℕ (WebhookCall ℚ) (Env ℚ) := .step 2 (sampleEnv 7777001)
  have hrun : ((exec (step sampleCrypto sampleSettings) (Pool.initial sampleWorld) first).any fun s =>
      (step sampleCrypto sampleSettings s a).any fun s' =>
        (exec (step sampleCrypto sampleSettings) s' cleanupRun).any fun u =>
          (step sampleCrypto sampleSettings u b).isSome &&
            persists s a sampleRequest "payments" "evt_1" &&
            persists u b repeatedRequest "payments" "evt_1") = true := by
    decide +kernel
  have htimely : checkAlong (step sampleCrypto sampleSettings) (timely 1) (Pool.initial sampleWorld)
      (first ++ a :: (cleanupRun ++ [b])) = true := by
    decide +kernel
  obtain ⟨s, hs, hrun⟩ := (Option.any_eq_true _ _).1 hrun
  obtain ⟨s', ha, hrun⟩ := (Option.any_eq_true _ _).1 hrun
  obtain ⟨u, ht, hrun⟩ := (Option.any_eq_true _ _).1 hrun
  obtain ⟨⟨hb, hpa⟩, hpb⟩ : ((step sampleCrypto sampleSettings u b).isSome = true ∧
      persists s a sampleRequest "payments" "evt_1" = true) ∧
      persists u b repeatedRequest "payments" "evt_1" = true := by simpa using hrun
  obtain ⟨u', hb⟩ := Option.isSome_iff_exists.1 hb
  have hpersists := persists_of_check hpa
  have hpersists' := persists_of_check hpb
  obtain ⟨hremoved, honce⟩ :=
    replay_impossible initial_sampleWorld hs ha ht hb hpersists hpersists'
  refine ⟨first, s, s', u, u', hs, ha, ht, hb, hpersists, hpersists', hremoved rfl rfl,
    honce 1 (along_of_checkAlong (fun _ _ => allTimely_of_check) htimely) ?_⟩
  norm_num [sampleSettings]

end Traffic

end StarterBackend.Webhooks
