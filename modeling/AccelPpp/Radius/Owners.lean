import AccelPpp.Radius.Invariant

/-!
# Requests come, go and change hands

A request is allocated for a session, freed by its owner, taken over for another purpose, or given
up to the default context. In each of these the request and its session change together, and only
after both have changed do they name each other again; so each is one lemma.
-/

open Option
open Function (update_apply update_of_ne update_self)

namespace AccelPpp.Radius

namespace Client

variable {c c' : Client} {i j s q : ℕ} {r : Req} {k : Kind} {o : Option ℕ} {E X : Set ℕ}

/-- Sessions change. -/
lemma Inv.sessions {sessions : ℕ → Session} (h : Inv E c)
    (ho : { c with sessions := sessions }.Owners) : Inv E { c with sessions := sessions } :=
  { h with queues := { h.queues with }, numbers := { h.numbers with }, owners := ho }

lemma frame_sessions {sessions : ℕ → Session} : Frame X c { c with sessions := sessions } :=
  ⟨fun _ _ hp ↦ hp, fun _ _ ↦ rfl, fun _ _ ↦ rfl⟩

/-! ### Names -/

section

variable (h : c.Owners)

include h

/-- A session that names the request is the one it names. -/
lemma Owners.ses_eq
    (hq : (c.sessions q).auth = some i ∨ (c.sessions q).acct = some i) :
    (c.reqs i).ses = some q := by
  rcases hq with hq | hq
  · exact (h.auth q i hq).2.2
  · exact (h.acct q i hq).2.2.2

/-- The session of an Access-Request has it as its authentication. -/
lemma Owners.auth_of_kind (hi : c.Held i .auth (some q)) :
    (c.sessions q).auth = some i := by
  rcases h.owned i q hi.alive hi.ses with hq | hq
  · exact hq
  · exact ((h.acct q i hq).2.1 hi.kind).elim

/-- The session of another request has it as its accounting. -/
lemma Owners.acct_of_kind (hi : c.Held i k (some q)) (hk : k ≠ .auth) :
    (c.sessions q).acct = some i := by
  rcases h.owned i q hi.alive hi.ses with hq | hq
  · exact (hk (hi.kind.symm.trans (h.auth q i hq).2.1)).elim
  · exact hq

/-- A session that has ended has no request but the one that stops its accounting. -/
lemma Owners.alone (hi : c.Held i .stop (some q))
    (hj : (c.reqs j).alive = true) (hses : (c.reqs j).ses = some q) : j = i := by
  have hacct := h.acct_of_kind hi nofun
  have hdown := h.down q ((h.stop q i hacct).mpr hi.kind)
  rcases h.owned j q hj hses with hq | hq
  · nomatch hdown.symm.trans hq
  · exact mem_unique hq hacct

/-! ### Freeing -/

/-- The session is the same but for the request. -/
structure Forgets (i : ℕ) (v v' : Session) : Prop where
  phase : v'.phase = v.phase
  auth : ∀ j, v'.auth = some j ↔ v.auth = some j ∧ j ≠ i
  acct : ∀ j, v'.acct = some j ↔ v.acct = some j ∧ j ≠ i

/-- What another session, or none, owns need not be forgotten. -/
lemma Owners.forgets (hq : (c.reqs i).ses ≠ some q) :
    Forgets i (c.sessions q) (c.sessions q) := by
  refine ⟨rfl, fun j ↦ (and_iff_left_of_imp ?_).symm, fun j ↦ (and_iff_left_of_imp ?_).symm⟩
  · rintro hj rfl
    exact hq (h.ses_eq (.inl hj))
  · rintro hj rfl
    exact hq (h.ses_eq (.inr hj))

lemma Owners.forgets_auth (hi : c.Held i .auth (some q)) :
    Forgets i (c.sessions q) { c.sessions q with auth := none } := by
  have hauth := h.auth_of_kind hi
  refine ⟨rfl, fun j ↦ iff_of_false nofun fun hf ↦ ?_, fun j ↦ (and_iff_left_of_imp ?_).symm⟩
  · exact hf.2 (mem_unique hf.1 hauth)
  · rintro hj rfl
    exact (h.acct q j hj).2.1 hi.kind

lemma Owners.forgets_acct (hi : c.Held i k (some q)) (hk : k ≠ .auth) :
    Forgets i (c.sessions q) { c.sessions q with acct := none } := by
  have hacct := h.acct_of_kind hi hk
  refine ⟨rfl, fun j ↦ (and_iff_left_of_imp ?_).symm, fun j ↦ iff_of_false nofun fun hf ↦ ?_⟩
  · rintro hj rfl
    exact hk (hi.kind.symm.trans (h.auth q j hj).2.1)
  · exact hf.2 (mem_unique hf.1 hacct)

/-- **No session names the request any more**: it has been freed, or given up to the default
context, or it never had one. -/
theorem Owners.forget (hreq : ∀ j, j ≠ i → c'.reqs j = c.reqs j)
    (hi : (c'.reqs i).alive = true → (c'.reqs i).ses = none ∧
      ((c'.reqs i).kind = .stop ∨ (c'.reqs i).kind = .on))
    (hs : ∀ q, Forgets i (c.sessions q) (c'.sessions q)) : c'.Owners := by
  refine ⟨fun q j hj ↦ ?_, fun q j hj ↦ ?_, fun j q hj hses ↦ ?_, fun j hj ↦ ?_, fun q hp ↦ ?_,
    fun q j hj ↦ ?_⟩
  · obtain ⟨hj, hji⟩ := ((hs q).auth j).mp hj
    rw [hreq j hji]
    exact h.auth q j hj
  · obtain ⟨hj, hji⟩ := ((hs q).acct j).mp hj
    rw [hreq j hji]
    exact h.acct q j hj
  · by_cases hji : j = i
    · rw [hji] at hj hses
      nomatch (hi hj).1.symm.trans hses
    · rw [hreq j hji] at hj hses
      exact (h.owned j q hj hses).imp (fun hq ↦ ((hs q).auth j).mpr ⟨hq, hji⟩)
        fun hq ↦ ((hs q).acct j).mpr ⟨hq, hji⟩
  · by_cases hji : j = i
    · rw [hji] at hj ⊢
      exact fun _ ↦ (hi hj).2
    · rw [hreq j hji] at hj ⊢
      exact h.orphan j hj
  · rw [(hs q).phase] at hp
    refine eq_none_iff_forall_ne_some.mpr fun j hj ↦ ?_
    nomatch (h.down q hp).symm.trans (((hs q).auth j).mp hj).1
  · obtain ⟨hj, hji⟩ := ((hs q).acct j).mp hj
    rw [(hs q).phase, hreq j hji]
    exact h.stop q j hj

end

/-- The assertions of `rad_req_free` hold of a request that neither counts nor waits. -/
lemma reqFree_eq (hactive : (c.reqs i).active = false) (hl : (c.reqs i).linked = false) :
    c.reqFree i =
      (c.setServ (c.reqs i).serv ((c.servOf i).addClient (c.reqs i).type (-1))).setReq i
        { c.reqs i with alive := false, timer := .none, hnd := .none } := by
  simp [reqFree, ensure, hactive, hl, servOf]

/-- **A request is freed**, and its session forgets it. -/
theorem Inv.free {sessions : ℕ → Session} (h : Inv E c) (hi : c.Held i k o)
    (hactive : (c.reqs i).active = false) (hX : i ∈ X)
    (hs : ∀ q, Forgets i (c.sessions q) (sessions q)) (hE : E ⊆ {i} := by simp) :
    Keeps ∅ X c { c.reqFree i with sessions := sessions } := by
  have hsame := (@sameCounts_addClient (c.servOf i) (c.reqs i).type (-1)).setServ
  rw [reqFree_eq hactive hi.unlinked]
  generalize hc' : { (c.setServ (c.reqs i).serv _).setReq i _ with sessions := sessions } = c'
  have honly : Only i c c' := hc' ▸ ⟨fun _ hj ↦ update_of_ne hj .., rfl, le_rfl, rfl, rfl,
    rfl, fun t ↦ (hsame t).reqLimit, fun t ↦ (hsame t).key⟩
  have hr : c'.reqs i = { c.reqs i with alive := false, timer := .none, hnd := .none } :=
    hc' ▸ update_self ..
  have hfree : Inv E c' := by
    refine h.update honly hr ?_ nofun hi.of_call
      (reqCnt_idle h honly (hc' ▸ rfl) hactive (by rw [hr]; exact hactive)
        fun t ↦ hc' ▸ (hsame t).reqCnt)
      (queues_idle h.queues (fun t ↦ hc' ▸ waitingFor_sameCounts (hsame t))
        (fun t ↦ hc' ▸ (hsame t).queueCnt) honly hi.unlinked (by rw [hr]; exact hi.unlinked))
      (h.owners.forget honly.reqs (fun ha ↦ ?_) (hc' ▸ hs)) nofun
    · exact ⟨fun hf ↦ (nomatch hactive.symm.trans hf), fun hf ↦ (nomatch hi.unlinked.symm.trans hf),
      fun _ ↦ ⟨rfl, rfl⟩, fun hk ↦ ⟨((h.req i).auth hk).1, nofun⟩, (h.req i).on⟩
    · rw [hr] at ha
      nomatch ha
  refine ⟨hfree.mono fun j hj ↦ .inr ?_, frame_of_only honly hX⟩
  rw [Set.mem_singleton_iff.mp (hE hj), hr]
  nofun

/-! ### Allocation -/

/-- A request as it is allocated. -/
structure Fresh (c : Client) (r : Req) : Prop where
  alive : r.alive = true
  active : r.active = false
  linked : r.linked = false
  timer : r.timer = .none
  auth : r.kind = .auth → r.type = .auth
  serv : r.serv < c.nserv

lemma Inv.dead (h : Inv E c) (hi : c.nreq ≤ i) : (c.reqs i).alive = false := by
  rcases ha : (c.reqs i).alive with _ | _
  · rfl
  · exact absurd (h.numbers.req i ha) (Nat.not_lt.mpr hi)

lemma Inv.unlinked_of_dead (h : Inv E c) (ha : (c.reqs i).alive = false) :
    (c.reqs i).linked = false := by
  rcases hl : (c.reqs i).linked with _ | _
  · rfl
  · nomatch ha.symm.trans ((h.req i).linked hl).2.1

lemma addReq_reqs : (c.addReq r).reqs j = if j = c.nreq then r else c.reqs j :=
  update_apply ..

lemma sameCounts_addReq {t : ℕ} : SameCounts (c.servers t) ((c.addReq r).servers t) :=
  sameCounts_addClient.setServ t

lemma activeOn_addReq (hr : r.active = false) : (c.addReq r).activeOn s = c.activeOn s := by
  have hnew : ¬ (c.addReq r).CountsAt s c.nreq := by
    rw [CountsAt, addReq_reqs, if_pos rfl]
    intro hf
    cases hr.symm.trans hf.2.1
  show Nat.count ((c.addReq r).CountsAt s) (c.nreq + 1) = _
  rw [Nat.count_succ, if_neg hnew]
  refine Counting.count_congr fun j hj ↦ ?_
  rw [CountsAt, CountsAt, addReq_reqs, if_neg (Nat.ne_of_lt hj)]

/-- **A request is allocated**, for whom `sessions` says. -/
theorem Inv.addReq {sessions : ℕ → Session} (h : Inv E c) (hr : c.Fresh r) (hX : c.nreq ∈ X)
    (ho : { c.addReq r with sessions := sessions }.Owners) :
    Keeps E X c { c.addReq r with sessions := sessions } ∧
      { c.addReq r with sessions := sessions }.Held c.nreq r.kind r.ses := by
  have hreq : { c.addReq r with sessions := sessions }.reqs c.nreq = r :=
    update_self ..
  have hdead := h.dead (le_refl c.nreq)
  have huncalled : ∀ x ∈ c.calls, x.req ≠ c.nreq := fun x hx hxi ↦
    nomatch hdead.symm.trans (h.call_of_eq hx hxi).alive
  have honly : Only c.nreq c { c.addReq r with sessions := sessions } :=
    ⟨fun _ hj ↦ update_of_ne hj .., rfl, Nat.le_succ _, rfl, rfl, rfl,
      fun t ↦ sameCounts_addReq.reqLimit, fun t ↦ sameCounts_addReq.key⟩
  refine ⟨⟨h.update honly hreq ?_ (fun _ _ hf ↦ ?_)
    (fun x hx hxi ↦ (huncalled x hx hxi).elim) (fun t ↦ ?_) (queues_idle h.queues
      (fun t ↦ waitingFor_sameCounts sameCounts_addReq) (fun t ↦ sameCounts_addReq.queueCnt) honly
      (h.unlinked_of_dead hdead) ((congrArg Req.linked hreq).trans hr.linked)) ho
    fun _ ↦ ⟨Nat.lt_succ_self _, hr.serv⟩, frame_of_only honly hX⟩, ?_⟩
  · exact ⟨fun hf ↦ (nomatch hr.active.symm.trans hf), fun hf ↦ (nomatch hr.linked.symm.trans hf),
      hr.alive ▸ nofun,
      fun hk ↦ ⟨hr.auth hk, hr.timer ▸ nofun⟩, fun _ ↦
        ⟨hr.active, hr.linked⟩⟩
  · nomatch hr.timer.symm.trans hf
  · show ((c.addReq r).servers t).reqCnt = (c.addReq r).activeOn t
    rw [sameCounts_addReq.reqCnt, activeOn_addReq hr.active]
    exact h.reqCnt t
  · exact ⟨(congrArg Req.alive hreq).trans hr.alive, (congrArg Req.linked hreq).trans hr.linked,
      huncalled, congrArg Req.kind hreq, congrArg Req.ses hreq⟩

/-- The new request is the authentication of a session, or its accounting. -/
structure Names (i : ℕ) (k : Kind) (v v' : Session) : Prop where
  phase : v'.phase = v.phase
  auth : v'.auth = if k = .auth then some i else v.auth
  acct : v'.acct = if k = .auth then v.acct else some i

/-- The session may have a new request of this kind. -/
structure Admits (k : Kind) (v : Session) : Prop where
  auth : k = .auth → v.phase = .running ∧ v.auth = none
  acct : k ≠ .auth → v.acct = none ∧ (v.phase ≠ .running ↔ k = .stop)
  on : k ≠ .on

lemma Owners.addReq {v : Session} (h : Inv E c) (hr : r.ses = some q) (halive : r.alive = true)
    (ha : Admits r.kind (c.sessions q)) (hv : Names c.nreq r.kind (c.sessions q) v) :
    ((c.addReq r).setSes q v).Owners := by
  let d := (c.addReq r).setSes q v
  have ho := h.owners
  have hold : ∀ j, (c.reqs j).alive = true → d.reqs j = c.reqs j := fun j hj ↦
    update_of_ne (Nat.ne_of_lt (h.numbers.req j hj)) ..
  have hnew : d.reqs c.nreq = r := update_self ..
  have hq : d.sessions q = v := update_self ..
  have hne : ∀ p, p ≠ q → d.sessions p = c.sessions p := fun _ hp ↦ update_of_ne hp ..
  have hphase : ∀ p, (d.sessions p).phase = (c.sessions p).phase :=
    update_same Session.phase hv.phase
  -- the names there were, and that of the new request
  have hauth : ∀ p j, (d.sessions p).auth = some j ↔
      (c.sessions p).auth = some j ∨ p = q ∧ r.kind = .auth ∧ c.nreq = j := fun p j ↦ by
    by_cases hp : p = q
    · rw [hp, hq, hv.auth]
      split
      · next hk => simp [hk, (ha.auth hk).2]
      · next hk => simp [hk]
    · rw [hne p hp]
      simp [hp]
  have hacct : ∀ p j, (d.sessions p).acct = some j ↔
      (c.sessions p).acct = some j ∨ p = q ∧ r.kind ≠ .auth ∧ c.nreq = j := fun p j ↦ by
    by_cases hp : p = q
    · rw [hp, hq, hv.acct]
      split
      · next hk => simp [hk]
      · next hk => simp [hk, (ha.acct hk).1]
    · rw [hne p hp]
      simp [hp]
  have hcases : ∀ j, d.reqs j = c.reqs j ∨ c.nreq = j := fun j ↦
    or_iff_not_imp_right.mpr fun hj ↦ update_of_ne (Ne.symm hj) ..
  refine ⟨fun p j hj ↦ ?_, fun p j hj ↦ ?_, fun j p hj hses ↦ ?_, fun j hj hses ↦ ?_, fun p hp ↦ ?_,
    fun p j hj ↦ ?_⟩
  · rcases (hauth p j).mp hj with hj | ⟨rfl, hk, rfl⟩
    · rw [hold j (ho.auth p j hj).1]
      exact ho.auth p j hj
    · rw [hnew]
      exact ⟨halive, hk, hr⟩
  · rcases (hacct p j).mp hj with hj | ⟨rfl, hk, rfl⟩
    · rw [hold j (ho.acct p j hj).1]
      exact ho.acct p j hj
    · rw [hnew]
      exact ⟨halive, hk, ha.on, hr⟩
  · rw [hauth, hacct]
    rcases hcases j with hjold | rfl
    · rw [hjold] at hj hses
      exact (ho.owned j p hj hses).imp .inl .inl
    · rw [hnew] at hses
      obtain rfl := mem_unique hr hses
      by_cases hk : r.kind = .auth
      · exact .inl (.inr ⟨rfl, hk, rfl⟩)
      · exact .inr (.inr ⟨rfl, hk, rfl⟩)
  · rcases hcases j with hjold | rfl
    · rw [hjold] at hj hses ⊢
      exact ho.orphan j hj hses
    · rw [hnew] at hses
      nomatch hr.symm.trans hses
  · rw [hphase] at hp
    refine eq_none_iff_forall_ne_some.mpr fun j hj ↦ ?_
    rcases (hauth p j).mp hj with hj | ⟨rfl, hk, -⟩
    · nomatch (ho.down p hp).symm.trans hj
    · exact hp (ha.auth hk).1
  · rw [hphase]
    rcases (hacct p j).mp hj with hj | ⟨rfl, hk, rfl⟩
    · rw [hold j (ho.acct p j hj).1]
      exact ho.stop p j hj
    · rw [hnew]
      exact (ha.acct hk).2

/-! ### Another purpose, another owner -/

/-- **The accounting request of a session changes** its kind, and the session its phase. -/
theorem Owners.acctKind {v : Session} (h : c.Owners) (hq : (c.sessions q).acct = some i)
    (hreq : ∀ j, j ≠ i → c'.reqs j = c.reqs j) (hses : ∀ p, p ≠ q → c'.sessions p = c.sessions p)
    (hr : c'.reqs i = r) (hv : c'.sessions q = v)
    (hi : r.alive = true ∧ r.kind ≠ .auth ∧ r.kind ≠ .on ∧ r.ses = some q)
    (hauth : v.auth = (c.sessions q).auth) (hacct : v.acct = some i)
    (hdown : v.phase ≠ .running → (c.sessions q).auth = none)
    (hstop : v.phase ≠ .running ↔ r.kind = .stop) : c'.Owners := by
  subst hr hv
  have hiq := h.acct q i hq
  -- no session but `q` names `i`, and `q` does so as its accounting
  have hother : ∀ p j, (c.sessions p).auth = some j ∨ ((c.sessions p).acct = some j ∧ p ≠ q) →
      j ≠ i := by
    rintro p j (hj | ⟨hj, hp⟩) rfl
    · exact hiq.2.1 (h.auth p j hj).2.1
    · exact hp (some.inj ((h.acct p j hj).2.2.2.symm.trans hiq.2.2.2))
  have hsauth : ∀ p, (c'.sessions p).auth = (c.sessions p).auth := by
    intro p
    by_cases hp : p = q
    · rw [hp, hauth]
    · rw [hses p hp]
  have hsacct : ∀ p, (c'.sessions p).acct = (c.sessions p).acct := by
    intro p
    by_cases hp : p = q
    · rw [hp, hacct, hq]
    · rw [hses p hp]
  refine ⟨fun p j hj ↦ ?_, fun p j hj ↦ ?_, fun j p hj hjs ↦ ?_, fun j hj hjs ↦ ?_, fun p hp ↦ ?_,
    fun p j hj ↦ ?_⟩
  · rw [hsauth] at hj
    rw [hreq j (hother p j (.inl hj))]
    exact h.auth p j hj
  · rw [hsacct] at hj
    by_cases hp : p = q
    · obtain rfl := mem_unique hq (hp ▸ hj)
      rw [hp]
      exact hi
    · rw [hreq j (hother p j (.inr ⟨hj, hp⟩))]
      exact h.acct p j hj
  · rw [hsauth, hsacct]
    by_cases hji : j = i
    · rw [hji] at hjs ⊢
      obtain rfl := mem_unique hi.2.2.2 hjs
      exact .inr hq
    · rw [hreq j hji] at hj hjs
      exact h.owned j p hj hjs
  · by_cases hji : j = i
    · rw [hji] at hjs
      nomatch hi.2.2.2.symm.trans hjs
    · rw [hreq j hji] at hj hjs ⊢
      exact h.orphan j hj hjs
  · rw [hsauth]
    by_cases hpq : p = q
    · rw [hpq] at hp ⊢
      exact hdown hp
    · rw [hses p hpq] at hp
      exact h.down p hp
  · rw [hsacct] at hj
    by_cases hp : p = q
    · obtain rfl := mem_unique hq (hp ▸ hj)
      rw [hp]
      exact hstop
    · rw [hses p hp, hreq j (hother p j (.inr ⟨hj, hp⟩))]
      exact h.stop p j hj

/-- **The accounting request of a session is given up** to the default context. -/
theorem Inv.disown (h : Inv E c) (hi : c.Held i .stop (some q)) (hX : i ∈ X) :
    Keeps E X c ((c.setSes q { c.sessions q with acct := none }).setReq i
      { c.reqs i with ses := none }) := by
  have ho : ((c.setSes q { c.sessions q with acct := none }).setReq i
      { c.reqs i with ses := none }).Owners := by
    refine h.owners.forget only_setReq.reqs (fun _ ↦ ?_) fun p ↦ ?_
    · rw [setReq_self]
      exact ⟨rfl, .inl hi.kind⟩
    show Forgets i _ ((c.setSes q { c.sessions q with acct := none }).sessions p)
    rw [setSes_sessions]
    split
    · next hp =>
      rw [hp]
      exact h.owners.forgets_acct hi nofun
    · next hp => exact h.owners.forgets fun hf ↦ hp (mem_unique hf hi.ses)
  obtain ⟨hact, hlinked, hdead, hauth, hon⟩ := h.req i
  exact ⟨h.replace ⟨rfl, rfl, rfl, rfl⟩ ⟨hact, hlinked, hdead, hauth, hon⟩ (h.interim i) hi.of_call
    ho, frame_of_only only_setReq hX⟩

end Client

end AccelPpp.Radius
