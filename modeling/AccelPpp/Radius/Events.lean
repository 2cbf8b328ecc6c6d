import AccelPpp.Radius.Handlers

/-!
# What the events do

The handlers of the events, each from any state with the invariant. What an event has to do with is
the set `X` of its lemma: the request whose timer expires, the requests of a session that ends.
-/

open Bool Function List Option

namespace AccelPpp.Radius

namespace Client

variable {c c' : Client} {i j s q : ℕ} {r : Req} {k : Kind} {o : Option ℕ} {X : Set ℕ}
  {mode : AcctTimeout} {env : Env}

/-- What taking a request off a server leaves alone: the sessions, and all calls but those that are
made to wake others or taken away. -/
structure Quiet (c c' : Client) : Prop where
  sessions : c'.sessions = c.sessions
  nreq : c'.nreq = c.nreq
  calls : ∀ x ∈ c'.calls, x ∈ c.calls ∨ x.func = .wakeup

/-! ### Timeouts -/

section

variable (h : Inv ∅ c)

include h

lemma Keeps.of_some_eq (hp : some c = some c') : Keeps ∅ X c c' :=
  some.inj hp ▸ .refl h

/-- A request whose timer is running is in nobody's hands but the timer's. -/
lemma Inv.held_of_armed (ht : (c.reqs i).timer = .armed) :
    Held c i (c.reqs i).kind (c.reqs i).ses := by
  refine ⟨?_, ?_, fun x hx hxi ↦ (h.call_of_eq hx hxi).unarmed ht, rfl, rfl⟩
  · rw [← not_eq_false]
    exact fun hd ↦ nomatch ht.symm.trans ((h.req i).dead hd).1
  · rw [← not_eq_true]
    exact fun hl ↦ ((h.req i).linked hl).2.2.1 ht

section

variable (hunarmed : (c.reqs i).timer ≠ .armed) (hX : i ∈ X)

include hunarmed hX

/-- **`rad_auth_timeout`**, for an Access-Request that has been sent. -/
theorem authTimeout_keeps (hi : c.Held i .auth o)
    (hsent : (c.reqs i).target.fd ≠ none ∧ (c.reqs i).target.built = true)
    (hp : c.authTimeout i env = some c') : Keeps ∅ X c c' := by
  obtain ⟨hkeeps, hapart⟩ := serverTimeout_keeps (X := X) (c.reqs i).serv h hi.unlinked
  obtain ⟨q, rfl⟩ := h.owners.exists_ses hi (.inl rfl)
  obtain ⟨⟨c₁, res⟩, hsend, rfl⟩ := map_eq_some_iff.mp hp
  obtain ⟨hsend, -, hfail⟩ := reqSend_keeps hkeeps.inv (hi.apart hapart) nofun
    (by rw [hapart.reqs]; exact hunarmed) hX (fun _ _ ↦ by rw [hapart.reqs]; exact hsent) hsend
  dsimp only
  split
  · exact hkeeps.trans hsend
  next hres =>
  have hready := hfail (.inr rfl) hres
  rw [hi.ses]
  exact (hkeeps.trans hsend).trans (authFinalize_keeps hsend.inv hready.toHeld hready.idle hX
    (by simp))

/-- **`rad_acct_start_timeout`** -/
theorem acctStartTimeout_keeps (hi : c.Held i .start o) (hp : c.acctStartTimeout i env = some c') :
    Keeps ∅ X c c' := by
  obtain ⟨hkeeps, hapart⟩ := serverTimeout_keeps (X := X) (c.reqs i).serv h hi.unlinked
  obtain ⟨p, hsend, rfl⟩ := map_eq_some_iff.mp hp
  exact hkeeps.trans (reqSend_keeps hkeeps.inv (hi.apart hapart) nofun
    (by rw [hapart.reqs]; exact hunarmed) hX nofun hsend).1

/-- **`rad_acct_timeout`**, which takes the request off its server without asking whether it
counts. -/
theorem acctTimeout_keeps (hi : c.Held i .interim o)
    (hactive : (c.servOf i).reqLimit ≠ 0 → (c.reqs i).active = true)
    (hp : c.acctTimeout i mode env = some c') : Keeps ∅ X c c' := by
  obtain ⟨hexit, hreq, hheld⟩ := reqExit_keeps h hi hX (fun _ _ ↦ hunarmed) hactive
  obtain ⟨htimeout, hapart⟩ := serverTimeout_keeps (c.reqs i).serv hexit.inv hheld.unlinked
  have hkeeps := hexit.trans htimeout
  have hready := (hheld.ready hreq hunarmed).apart hapart
  cases mode with
  | drop | terminate =>
    obtain rfl := some.inj hp
    exact hkeeps.trans (stop_keeps _ _ hkeeps.inv hready.toHeld hX)
  | retry =>
    obtain ⟨p, hsend, rfl⟩ := map_eq_some_iff.mp hp
    have htries := Keeps.tries (n := 0) hkeeps.inv hX
    have hready' := hready.tries (n := 0)
    exact (hkeeps.trans htries).trans (reqSend_keeps htries.inv hready'.toHeld
      nofun hready'.unarmed hX nofun hsend).1

/-- **`rad_acct_stop_timeout`** -/
theorem acctStopTimeout_keeps (hi : c.Held i .stop o) (hp : c.acctStopTimeout i env = some c') :
    Keeps ∅ X c c' := by
  rw [acctStopTimeout] at hp
  dsimp only at hp
  obtain ⟨c₁, hc₁, hkeeps, hready⟩ :
      ∃ c₁, (if (c.reqs i).active then (c.serverTimeout (c.reqs i).serv).reqExit i else c) = c₁ ∧
        Keeps ∅ X c c₁ ∧ Ready c₁ i .stop o := by
    split
    · next hact =>
      obtain ⟨hkeeps, hapart⟩ := serverTimeout_keeps (c.reqs i).serv h hi.unlinked
      obtain ⟨hexit, hreq, hheld⟩ := reqExit_keeps hkeeps.inv (hi.apart hapart) hX
        nofun fun _ ↦ by rw [hapart.reqs]; exact hact
      exact ⟨_, rfl, hkeeps.trans hexit, hheld.ready hreq (by rw [hapart.reqs]; exact hunarmed)⟩
    · next hact =>
      exact ⟨_, rfl, .refl h,
        { hi with idle := eq_false_iff.mpr hact, unarmed := hunarmed }⟩
  rw [hc₁, hi.ses] at hp
  have hfree : ∀ {c₂ : Client}, Keeps ∅ X c c₂ → Ready c₂ i .stop o →
      Keeps ∅ X c ((c₂.reqFree i).clearAcct o) := fun hk hr ↦
    hk.trans (freeAcct_keeps hk.inv hr.toHeld nofun hr.idle hX (by simp))
  split at hp
  · obtain rfl := some.inj hp
    exact hfree hkeeps hready
  obtain ⟨p, hsend, rfl⟩ := map_eq_some_iff.mp hp
  obtain ⟨hsend, -, hfail⟩ := reqSend_keeps hkeeps.inv hready.toHeld nofun
    hready.unarmed hX nofun hsend
  have hall := hkeeps.trans hsend
  split
  · exact hall
  next hres =>
  have hready' := hfail (.inl hready.idle) hres
  split
  · exact hfree hall hready'
  · exact hall.trans (arm_keeps hall.inv hready'.toHeld hX)

end

/-- **`acct_on_timeout`**: the request is sent without entering its server. -/
theorem acctOnTimeout_keeps (hi : c.Held i .on o) (hX : i ∈ X)
    (hp : c.acctOnTimeout i env = some c') : Keeps ∅ X c c' := by
  have htries := Keeps.tries (n := (c.reqs i).tries + 1) h hX
  have hheld := hi.tries (n := (c.reqs i).tries + 1)
  rw [acctOnTimeout] at hp
  split at hp
  · obtain rfl := some.inj hp
    obtain rfl := h.owners.on_none hi
    exact htries.trans (freeAcct_keeps htries.inv hheld nofun
      ((htries.inv.req i).on hheld.kind).1 hX (by simp))
  · obtain ⟨t, -, rfl⟩ := map_eq_some_iff.mp hp
    exact htries.trans (sendNow_keeps t.out htries.inv hheld hX nofun nofun).1

/-- **The timer of a request has expired.** -/
theorem timeout_keeps (hp : c.timeout i mode env = some c') : Keeps ∅ {i} c c' := by
  have hX : i ∈ ({i} : Set ℕ) := rfl
  rw [timeout] at hp
  split at hp
  · next harmed =>
    have hi := h.held_of_armed harmed
    have hauth := (h.req i).auth
    have hint := h.interim i id
    -- the timer is periodic for Accounting-On, and has stopped for the others
    generalize ht : (if (c.reqs i).kind = .on then Timer.armed else Timer.idle) = t at hp
    have hset : Keeps ∅ {i} c (c.setReq i { c.reqs i with timer := t }) :=
      .setHeld h hi hX (fun hk _ ↦ (hauth hk).2 harmed) fun _ hk _ ↦ hint hk harmed
    have hreq := setReq_self (c := c) (i := i) (r := { c.reqs i with timer := t })
    have hheld := hi.setReq (r := { c.reqs i with timer := t })
    have hservers : (c.setReq i { c.reqs i with timer := t }).servers = c.servers := rfl
    rw [expire, hheld.kind] at hp
    refine hset.trans ?_
    generalize c.setReq i { c.reqs i with timer := t } = c₁ at *
    have hinv := hset.inv
    have hunarmed : (c.reqs i).kind ≠ .on → (c₁.reqs i).timer ≠ .armed := by
      intro hk
      rw [hreq, ← ht, if_neg hk]
      simp
    have hsent : (c.reqs i).kind = .auth →
        (c₁.reqs i).target.fd ≠ none ∧ (c₁.reqs i).target.built = true := by
      rw [hreq]
      exact fun hk ↦ (hauth hk).2 harmed
    have hcounts : (c.reqs i).kind = .interim → (c₁.servOf i).reqLimit ≠ 0 →
        (c₁.reqs i).active = true := by
      rw [servOf, hreq, hservers]
      intro hk hlimit
      rw [← not_eq_false]
      exact fun hidle ↦ hlimit (hint hk harmed hidle)
    rcases hk : (c.reqs i).kind with _ | _ | _ | _ | _ <;>
      rw [hk] at hp hheld hunarmed hsent hcounts
    · exact authTimeout_keeps hinv (hunarmed (by simp)) hX hheld (hsent rfl) hp
    · exact acctStartTimeout_keeps hinv (hunarmed (by simp)) hX hheld hp
    · exact acctTimeout_keeps hinv (hunarmed (by simp)) hX hheld (hcounts rfl) hp
    · exact acctStopTimeout_keeps hinv (hunarmed (by simp)) hX hheld hp
    · exact acctOnTimeout_keeps hinv hheld hX hp
  · exact .of_some_eq h hp

end

/-! ### A session begins -/

variable {type : ServType} {prio : Bool}

lemma allocReq_sessions (ha : c.allocReq q type k prio = some c') : c'.sessions = c.sessions := by
  obtain ⟨t, -, rfl⟩ := map_eq_some_iff.mp ha
  rfl

section

variable {v : Session} (h : Inv ∅ c) (ha : c.allocReq q type k prio = some c')
  (htype : k = .auth → type = .auth) (hadm : Admits k (c.sessions q)) (hX : c.nreq ∈ X)

include h ha htype hadm hX

/-- **A request is allocated for a session**, which names it. -/
theorem alloc_keeps (hv : Names c.nreq k (c.sessions q) v) :
    Keeps ∅ X c (c'.setSes q v) ∧ Ready (c'.setSes q v) c.nreq k (some q) := by
  obtain ⟨t, ht, rfl⟩ := map_eq_some_iff.mp ha
  have hserv := h.numbers.list t (radServerGet_spec ht).1
  obtain ⟨hkeeps, hheld⟩ := h.addReq (r := c.sesReq q type k prio t)
    ⟨rfl, rfl, rfl, rfl, htype, hserv⟩ hX (Owners.addReq h rfl rfl hadm hv)
  have hreq : ((c.addReq (c.sesReq q type k prio t)).setSes q v).reqs c.nreq =
      c.sesReq q type k prio t := update_self ..
  refine ⟨hkeeps, hheld, congrArg Req.active hreq, ?_⟩
  rw [hreq]
  nofun

/-- A request is allocated and sent, or it is in hand. -/
lemma allocSend_keeps {p : Client × ℤ} (hp : (c'.setSes q v).reqSend c.nreq env = some p)
    (hv : Names c.nreq k (c.sessions q) v) :
    Keeps ∅ X c p.1 ∧ (p.2 ≠ 0 → Ready p.1 c.nreq k (some q)) := by
  obtain ⟨halloc, hready⟩ := alloc_keeps h ha htype hadm hX hv
  obtain ⟨hkeeps, -, hfail⟩ := reqSend_keeps halloc.inv hready.toHeld hadm.on hready.unarmed hX
    (fun _ ↦ hready.idle ▸ nofun) hp
  exact ⟨halloc.trans hkeeps, hfail (.inl hready.idle)⟩

end

/-- **`rad_auth_pap`** and the like: a session asks for its authentication. -/
theorem authStart_keeps (h : Inv ∅ c) (hp : c.authStart q env = some c') :
    Keeps ∅ {c.nreq} c c' := by
  rw [authStart] at hp
  split at hp
  · next hsafe =>
    split at hp
    · exact .of_some_eq h hp
    next c₁ hc₁ =>
    obtain ⟨⟨c₂, res⟩, hsend, rfl⟩ := map_eq_some_iff.mp hp
    rw [allocReq_sessions hc₁] at hsend
    obtain ⟨hkeeps, hfail⟩ := allocSend_keeps (X := {c.nreq}) h hc₁ (fun _ ↦ rfl)
      ⟨fun _ ↦ hsafe, fun hf ↦ (hf rfl).elim, nofun⟩ rfl hsend ⟨rfl, rfl, rfl⟩
    dsimp only
    split
    · exact hkeeps
    · next hres =>
      have hready := hfail hres
      exact hkeeps.trans (authFinalize_keeps hkeeps.inv hready.toHeld hready.idle rfl
        (by simp))
  · exact .of_some_eq h hp

/-- **`__rad_acct_start`** -/
theorem acctStart_keeps (h : Inv ∅ c) (hp : c.acctStart q env = some c') :
    Keeps ∅ {c.nreq} c c' := by
  rw [acctStart] at hp
  split at hp
  · next hsafe =>
    split at hp
    · exact .of_some_eq h hp
    next c₁ hc₁ =>
    obtain ⟨⟨c₂, res⟩, hsend, rfl⟩ := map_eq_some_iff.mp hp
    rw [allocReq_sessions hc₁] at hsend
    have hrunning : (c.sessions q).phase ≠ .running ↔ Kind.start = .stop :=
      iff_of_false (fun hf ↦ hf hsafe.1) nofun
    obtain ⟨hkeeps, hfail⟩ := allocSend_keeps (X := {c.nreq}) h hc₁ nofun
      ⟨nofun, fun _ ↦ ⟨hsafe.2, hrunning⟩, nofun⟩ rfl hsend ⟨rfl, rfl, rfl⟩
    dsimp only
    split
    · exact hkeeps
    · next hres =>
      have hready := hfail hres
      exact hkeeps.trans (freeAcct_keeps hkeeps.inv hready.toHeld nofun hready.idle rfl
        (by simp))
  · exact .of_some_eq h hp

/-- **`rad_acct_interim_update`**, when no call to the request is pending. -/
theorem interimUpdate_keeps (h : Inv ∅ c)
    (hcall : ∀ i, (c.sessions q).acct = some i → ∀ x ∈ c.calls, x.req ≠ i)
    (hp : c.interimUpdate q env = some c') : Keeps ∅ {i | (c.sessions q).acct = some i} c c' := by
  rw [interimUpdate] at hp
  split at hp
  · exact .of_some_eq h hp
  next i hi =>
  split at hp
  · exact .of_some_eq h hp
  next hidle =>
  obtain ⟨halive, hauth, hon, hses⟩ := h.owners.acct q i hi
  have hunlinked : (c.reqs i).linked = false :=
    eq_false_iff.mpr fun hl ↦ hidle (.inr (.inl hl))
  have hunarmed : (c.reqs i).timer ≠ .armed := fun ht ↦
    hidle (.inr (.inr fun hn ↦ nomatch ht.symm.trans hn))
  have hheld : Held c i (c.reqs i).kind (some q) := ⟨halive, hunlinked, hcall i hi, rfl, hses⟩
  obtain ⟨p, hsend, rfl⟩ := map_eq_some_iff.mp hp
  have htries := Keeps.tries (n := 0) (X := {i | (c.sessions q).acct = some i}) h hi
  refine htries.trans (reqSend_keeps htries.inv hheld.tries hon ?_ hi
    (fun hk ↦ (hauth hk).elim) hsend).1
  rw [setReq_self]
  exact hunarmed

/-! ### A session ends -/

lemma Quiet.refl : Quiet c c := ⟨rfl, rfl, fun _ hx ↦ .inl hx⟩

lemma Quiet.trans {c'' : Client} (h : Quiet c c') (h' : Quiet c' c'') : Quiet c c'' :=
  ⟨h'.sessions.trans h.sessions, h'.nreq.trans h.nreq, fun x hx ↦ (h'.calls x hx).elim (h.calls x)
    .inr⟩

lemma ensure_quiet {b : Bool} {f : Fault} : Quiet c (c.ensure b f) := by
  rw [ensure]
  split <;> exact ⟨rfl, rfl, fun _ hx ↦ .inl hx⟩

lemma wakeNext_quiet : Quiet c (c.wakeNext s) := by
  rw [wakeNext]
  split
  · exact .refl
  refine ⟨rfl, rfl, fun x hx ↦ ?_⟩
  rcases mem_append.mp hx with hx | hx
  · exact .inl hx
  · rw [mem_singleton.mp hx]
    exact .inr rfl

lemma reqExit_quiet : Quiet c (c.reqExit i) := by
  have hrelease : ∀ c : Client, Quiet c (c.release i) := fun c ↦
    ⟨rfl, rfl, fun _ hx ↦ .inl hx⟩
  rw [reqExit]
  split
  · exact .refl
  · dsimp only
    split
    · exact ((ensure_quiet.trans (hrelease _)).trans ensure_quiet).trans wakeNext_quiet
    · exact (ensure_quiet.trans (hrelease _)).trans ensure_quiet

lemma reqCancel_quiet {full : Bool} : Quiet c (c.reqCancel i full) := by
  have hdequeue : Quiet c (if (c.reqs i).linked then c.dequeue (c.reqs i).serv i else c) := by
    split <;> exact ⟨rfl, rfl, fun _ hx ↦ .inl hx⟩
  rw [reqCancel]
  generalize (if (c.reqs i).linked then c.dequeue (c.reqs i).serv i else c) = c₁ at *
  have hcancel : Quiet c (c₁.cancelCall (c₁.reqs i).ses .wakeup) :=
    hdequeue.trans ⟨rfl, rfl, fun x hx ↦ .inl (mem_filter.mp hx).1⟩
  generalize c₁.cancelCall (c₁.reqs i).ses .wakeup = c₂ at *
  have hexit : Quiet c (if (c₂.reqs i).active then c₂.reqExit i else c₂) := by
    split
    · exact hcancel.trans reqExit_quiet
    · exact hcancel
  split
  · exact hexit.trans ⟨rfl, rfl, fun _ hx ↦ .inl hx⟩
  · exact hcancel

/-- The requests of a session, and those there will be. -/
def ofSession (c : Client) (q : ℕ) : Set ℕ :=
  {i | (c.reqs i).ses = some q ∨ (c.reqs i).alive = false}

/-- The accounting request of a session, and the next one there will be. -/
def acctOf (c : Client) (q : ℕ) : Set ℕ := {i | (c.sessions q).acct = some i ∨ i = c.nreq}

/-- The owner of a request has seen to it: it has been freed, or it is under way, or it will be sent
in the default context. -/
def Settled (c : Client) (i : ℕ) : Prop :=
  (c.reqs i).alive = false ∨ c.Sent i ∨ ∃ x ∈ c.calls, x.req = i ∧ x.func = .startDeferred

/-- No call fails over the request. -/
def Unfailed (c : Client) (o : Option ℕ) : Prop :=
  ∀ x ∈ c.calls, o = some x.req → x.func ≠ .wakeupFailed

lemma reqFree_alive : ((c.reqFree i).reqs i).alive = false := by
  rw [reqFree, setReq_self]

lemma stopDefer_settled (hq : (c.sessions q).acct = some i) : Settled (c.stopDefer q) i := by
  rw [stopDefer, hq]
  exact .inr (.inr ⟨_, mem_append_right _ (mem_singleton_self _), rfl, rfl⟩)

variable (h : Inv ∅ c)

include h

/-- Only the wakeups of a session's own requests are cancelled with one of them. -/
lemma Inv.wakeup_ofSession : ∀ x ∈ c.calls, x.ctx = some q → x.func = .wakeup →
    x.req ∈ c.ofSession q :=
  fun x hx hctx _ ↦ .inl ((h.call x hx).ctx.symm.trans hctx)

/-- A call to a request of a session sends it, unless it fails it over. -/
lemma Inv.wakeup_of_unfailed (hses : (c.reqs i).ses = some q)
    (hf : c.Unfailed (some i)) : ∀ x ∈ c.calls, x.req = i → x.func = .wakeup := by
  intro x hx hxi
  rcases hfunc : x.func with _ | _ | _
  · rfl
  · exact (hf x hx (congrArg some hxi.symm) hfunc).elim
  · have hcall := h.call_of_eq hx hxi
    nomatch (hcall.ctx.symm.trans (hcall.deferred hfunc)).symm.trans hses

/-- **The authentication of a session that ends is given up.** -/
theorem authCancel_keeps (hf : c.Unfailed (c.sessions q).auth) :
    Keeps ∅ (c.ofSession q) c (c.authCancel q) ∧
      (c.authCancel q).sessions q = { c.sessions q with auth := none } ∧
      (c.authCancel q).nreq = c.nreq ∧
      (∀ x ∈ (c.authCancel q).calls, x ∈ c.calls ∨ x.func = .wakeup) ∧
      ∀ i, (c.sessions q).auth = some i → ((c.authCancel q).reqs i).alive = false := by
  rw [authCancel]
  split
  · next hnone =>
    refine ⟨.refl h, ?_, rfl, fun _ hx ↦ .inl hx, fun i hi ↦ nomatch hnone.symm.trans hi⟩
    rw [← hnone]
  next i hi =>
  obtain ⟨halive, hkind, hses⟩ := h.owners.auth q i hi
  have hX : i ∈ c.ofSession q := .inl hses
  rw [hi] at hf
  obtain ⟨hcancel, hready, -⟩ := reqCancel_keeps halive hX (h.wakeup_of_unfailed hses hf)
    (hses ▸ h.wakeup_ofSession) h
  rw [hkind, hses] at hready
  have hquiet : Quiet c (c.reqCancel i true) := reqCancel_quiet
  have hfree : ((c.reqCancel i true).reqFree i).setSes q { c.sessions q with auth := none } =
      (c.reqCancel i true).authFinalize q := by
    rw [authFinalize, hquiet.sessions, hi]
  refine ⟨?_, update_self .., ?_, fun x hx ↦ hquiet.calls x ?_, fun j hj ↦ ?_⟩
  · rw [hfree]
    exact hcancel.trans (authFinalize_keeps hcancel.inv hready.toHeld hready.idle hX
      (by simp))
  · rw [reqFree_eq hready.idle hready.unlinked]
    exact hquiet.nreq
  · rw [reqFree_eq hready.idle hready.unlinked] at hx
    exact hx
  · obtain rfl := mem_unique hi hj
    exact reqFree_alive

/-- The phase of a session changes, to one that fits what it has. -/
lemma setPhase_keeps {phase : Phase} (hdown : phase ≠ .running → (c.sessions q).auth = none)
    (hstop : ∀ i, (c.sessions q).acct = some i → (phase ≠ .running ↔ (c.reqs i).kind = .stop)) :
    Keeps ∅ X c (c.setSes q { c.sessions q with phase := phase }) := by
  have ho := h.owners
  have hses : update c.sessions q { c.sessions q with phase := phase } =
      fun p ↦ { c.sessions p with phase := if p = q then phase else (c.sessions p).phase } := by
    funext p
    rw [update_apply]
    split
    · next hp => rw [hp]
    · rfl
  show Keeps ∅ X c { c with sessions := update c.sessions q _ }
  rw [hses]
  refine ⟨h.sessions { ho with down := fun p hp ↦ ?_, stop := fun p i hi ↦ ?_ }, frame_sessions⟩
  · dsimp only at hp ⊢
    split at hp
    · next hpq => exact hpq ▸ hdown hp
    · exact ho.down p hp
  · dsimp only at hi ⊢
    split
    · next hpq => exact hstop i (hpq ▸ hi)
    · exact ho.stop p i hi

/-- **The end of `rad_acct_stop`** -/
theorem acctStopSend_keeps (hi : c.Ready i .stop (some q)) (hX : i ∈ X)
    (hp : c.acctStopSend q i env = some c') : Keeps ∅ X c c' ∧ c'.Settled i := by
  obtain ⟨⟨c₁, res⟩, hsend, rfl⟩ := map_eq_some_iff.mp hp
  obtain ⟨hkeeps, hsent, hfail⟩ := reqSend_keeps h hi.toHeld nofun hi.unarmed hX nofun hsend
  dsimp only
  split
  · next hres => exact ⟨hkeeps, .inr (.inl (hsent hres))⟩
  · next hres =>
    have hheld := (hfail (.inl hi.idle) hres).toHeld
    exact ⟨hkeeps.trans (defer_keeps hkeeps.inv hheld hX),
      stopDefer_settled (hkeeps.inv.owners.acct_of_kind hheld nofun)⟩

/-- The accounting request of a session is taken over, to stop the accounting. -/
lemma takeOver_keeps (hi : c.Ready i k (some q)) (hk : k ≠ .auth) (hX : i ∈ X)
    (hauth : (c.sessions q).auth = none) :
    Keeps ∅ X c ((c.setSes q { c.sessions q with phase := .down }).setReq i
      { c.reqs i with tries := 0, kind := .stop }) := by
  have hacct := h.owners.acct_of_kind hi.toHeld hk
  refine ⟨h.replace ⟨rfl, rfl, rfl, rfl⟩ ?_ nofun hi.of_call ?_, ?_⟩
  · exact ⟨fun hf ↦ (nomatch hi.idle.symm.trans hf), fun hl ↦ (nomatch hi.unlinked.symm.trans hl),
      hi.alive ▸ nofun, nofun, nofun⟩
  · exact h.owners.acctKind hacct only_setReq.reqs (fun p hp ↦ update_of_ne hp ..)
      (update_self ..) (update_self ..)
      ⟨hi.alive, nofun, nofun, hi.ses⟩ rfl hacct
      (fun _ ↦ hauth) (iff_of_true nofun rfl)
  · exact frame_of_only only_setReq hX

/-- **`rad_acct_stop`**, in a session that has no authentication any more. -/
theorem acctStop_keeps (hauth : (c.sessions q).auth = none)
    (hf : c.Unfailed (c.sessions q).acct) (hp : c.acctStop q env = some c') :
    Keeps ∅ (c.acctOf q) c c' ∧ ∀ i, (c.sessions q).acct = some i → c'.Settled i := by
  rw [acctStop] at hp
  split at hp
  · next i hi =>
    obtain ⟨halive, hkind, -, hses⟩ := h.owners.acct q i hi
    have hX : i ∈ c.acctOf q := .inl hi
    rw [hi] at hf
    -- all calls in the context of the session are to its accounting request
    have hXcall : ∀ x ∈ c.calls, x.ctx = (c.reqs i).ses → x.func = .wakeup →
      x.req ∈ c.acctOf q := by
      intro x hx hctx _
      have hcall := h.call x hx
      have hxq := (hcall.ctx.symm.trans hctx).trans hses
      refine .inl ((h.owners.owned x.req q hcall.alive hxq).resolve_left fun hn ↦ ?_)
      nomatch hauth.symm.trans hn
    obtain ⟨hcancel, hready, -⟩ :=
      reqCancel_keeps halive hX (h.wakeup_of_unfailed hses hf) hXcall h
    rw [hses] at hready
    have hquiet : Quiet c (c.reqCancel i true) := reqCancel_quiet
    have htake := takeOver_keeps hcancel.inv hready hkind hX (by rw [hquiet.sessions]; exact hauth)
    obtain ⟨hsend, hsettled⟩ := acctStopSend_keeps htake.inv (by
      refine ⟨⟨?_, ?_, hready.uncalled, ?_, ?_⟩, ?_, ?_⟩ <;> rw [setReq_self]
      · exact hready.alive
      · exact hready.unlinked
      · exact hready.ses
      · exact hready.idle
      · exact hready.unarmed) hX hp
    refine ⟨(hcancel.trans htake).trans hsend, fun j hj ↦ ?_⟩
    exact mem_unique hi hj ▸ hsettled
  · next hnone =>
    have hphase : Keeps ∅ (c.acctOf q) c (c.setSes q { c.sessions q with phase := .down }) :=
      setPhase_keeps h (fun _ ↦ hauth) fun i hi ↦ nomatch hnone.symm.trans hi
    have hq : (c.setSes q { c.sessions q with phase := .down }).sessions q =
        { c.sessions q with phase := .down } := update_self ..
    have hX : (c.setSes q { c.sessions q with phase := .down }).nreq ∈ c.acctOf q := .inr rfl
    refine ⟨?_, fun i hi ↦ nomatch hnone.symm.trans hi⟩
    dsimp only at hp
    generalize c.setSes q { c.sessions q with phase := .down } = c₁ at *
    split at hp
    · obtain rfl := some.inj hp
      exact hphase
    next c₂ hc₂ =>
    rw [allocReq_sessions hc₂] at hp
    have hadm : Admits .stop (c₁.sessions q) := by
      rw [hq]
      exact ⟨nofun, fun _ ↦ ⟨hnone, iff_of_true nofun rfl⟩, nofun⟩
    obtain ⟨halloc, hready⟩ := alloc_keeps (v := { c₁.sessions q with acct := some c₁.nreq })
      hphase.inv hc₂ nofun hadm hX ⟨rfl, rfl, rfl⟩
    exact (hphase.trans halloc).trans (acctStopSend_keeps halloc.inv hready hX hp).1

/-- **`ses_finishing`**, when no call is pending that would fail over a request of the session. It
sees to the requests of the session, unless it has been called before. -/
theorem finishing_keeps (hauth : c.Unfailed (c.sessions q).auth)
    (hacct : c.Unfailed (c.sessions q).acct) (hp : c.finishing q env = some c') :
    Keeps ∅ (c.ofSession q) c c' ∧
      (c' = c ∨ ∀ i, (c.reqs i).alive = true → (c.reqs i).ses = some q → c'.Settled i) := by
  rw [finishing] at hp
  split at hp
  · obtain ⟨hcancel, hses, hnreq, hcalls, hdead⟩ := authCancel_keeps h hauth
    have hsacct : ((c.authCancel q).sessions q).acct = (c.sessions q).acct := by rw [hses]
    dsimp only at hp
    split at hp
    · have hacct' : (c.authCancel q).Unfailed ((c.authCancel q).sessions q).acct := by
        rw [hsacct]
        intro x hx hxi
        rcases hcalls x hx with hx | hfunc
        · exact hacct x hx hxi
        · exact hfunc ▸ nofun
      obtain ⟨hstop, hsettled⟩ := acctStop_keeps hcancel.inv (by rw [hses]) hacct' hp
      refine ⟨hcancel.trans (hstop.mono ?_), .inr fun i halive hiq ↦ ?_⟩
      · rintro i (hi | hi)
        · exact .inl (h.owners.acct q i (hsacct ▸ hi)).2.2.2
        · rw [hi, hnreq]
          exact .inr (h.dead le_rfl)
      rcases h.owners.owned i q halive hiq with hi | hi
      · -- the authentication has been freed, and stays so
        refine .inl ((hstop.frame.alive i ?_).trans (hdead i hi))
        rintro (hia | hia)
        · exact (h.owners.acct q i (hsacct ▸ hia)).2.1 (h.owners.auth q i hi).2.1
        · exact Nat.ne_of_lt (h.numbers.req i halive) (hia.trans hnreq)
      · exact hsettled i (hsacct.trans hi)
    · next hnone =>
      obtain rfl := some.inj hp
      have hno : ∀ i, (c.sessions q).acct ≠ some i := fun i hi ↦
        hnone (.inr fun hn ↦ nomatch hn.symm.trans (hsacct.trans hi))
      refine ⟨hcancel.trans (setPhase_keeps hcancel.inv (fun _ ↦ by rw [hses]) fun i hi ↦
        (hno i (hsacct ▸ hi)).elim), .inr fun i halive hiq ↦ .inl (hdead i ?_)⟩
      exact (h.owners.owned i q halive hiq).resolve_right (hno i)
  · obtain rfl := some.inj hp
    exact ⟨.refl h, .inl rfl⟩

/-- **`ses_finished`**, under the same condition. -/
theorem finished_keeps (hf : c.Unfailed (c.sessions q).acct) :
    Keeps ∅ (c.ofSession q) c (c.finished q) ∧ (c.finished q = c ∨
      ∀ i, (c.reqs i).alive = true → (c.reqs i).ses = some q → (c.finished q).Settled i) := by
  rw [finished]
  split
  · next hdown =>
    have hauth := h.owners.down q (by rw [hdown]; nofun)
    have hcancel : c.authCancel q = c := by rw [authCancel, hauth]
    rw [hcancel]
    have hphase : Keeps ∅ (c.ofSession q) c (c.setSes q { c.sessions q with phase := .gone }) := by
      refine setPhase_keeps h (fun _ ↦ hauth) fun i hi ↦ ?_
      rw [← h.owners.stop q i hi, hdown]
      exact iff_of_true nofun nofun
    have hq : (c.setSes q { c.sessions q with phase := .gone }).sessions q =
        { c.sessions q with phase := .gone } := update_self ..
    have hall : ∀ i, (c.reqs i).alive = true → (c.reqs i).ses = some q →
        (c.sessions q).acct = some i := fun i halive hiq ↦
      (h.owners.owned i q halive hiq).resolve_left fun hn ↦ nomatch hauth.symm.trans hn
    dsimp only
    split
    · next hnone =>
      rw [hq] at hnone
      exact ⟨hphase, .inr fun i halive hiq ↦ nomatch hnone.symm.trans (hall i halive hiq)⟩
    next i hi =>
    rw [hq] at hi
    obtain ⟨halive, hkind, -, hses⟩ := h.owners.acct q i hi
    have hX : i ∈ c.ofSession q := .inl hses
    have honly : ∀ j, (c.reqs j).alive = true → (c.reqs j).ses = some q → i = j :=
      fun j hj hjq ↦ mem_unique hi (hall j hj hjq)
    rw [hi] at hf
    have hcall := h.wakeup_of_unfailed hses hf
    split
    · have hstop : (c.reqs i).kind = .stop :=
        (h.owners.stop q i hi).mp (by rw [hdown]; nofun)
      have hiq : ((c.setSes q { c.sessions q with phase := .gone }).sessions q).acct =
        some i := by
        rw [hq]
        exact hi
      exact ⟨hphase.trans (stopDefer_keeps hphase.inv hiq hstop hX hcall h.wakeup_ofSession),
        .inr fun j hj hjq ↦ honly j hj hjq ▸ stopDefer_settled hiq⟩
    · obtain ⟨hcancel, hready, -⟩ := reqCancel_keeps (c := c.setSes q _) halive hX hcall
        (hses ▸ h.wakeup_ofSession) hphase.inv
      have hready' : Ready _ i (c.reqs i).kind (some q) := hses ▸ hready
      exact ⟨(hphase.trans hcancel).trans
        (freeAcct_keeps hcancel.inv hready'.toHeld hkind hready'.idle hX (by simp)),
        .inr fun j hj hjq ↦ honly j hj hjq ▸ .inl reqFree_alive⟩
  · exact ⟨.refl h, .inl rfl⟩

/-! ### Accounting-On -/

omit h in
/-- A request that has been sent, or not, is in hand. -/
lemma Held.sendNow (out : SendOut) (h : c.Held i k o) : Held (c.sendNow i out).1 i k o := by
  rw [Client.sendNow]
  dsimp only
  split
  · exact h.setReq
  · split
    · exact h
    · exact h.setReq

omit h in
/-- **`send_acct_on`** -/
theorem acctOn_keeps {out : SendOut} (h : Inv ∅ c) : Keeps ∅ {c.nreq} c (c.acctOn s out) := by
  rw [acctOn]
  split
  · next hs =>
    have hdead := h.dead (le_refl c.nreq)
    -- no session names a request that has not been allocated
    have hforgets : ∀ q, Forgets c.nreq (c.sessions q) (c.sessions q) := by
      refine fun q ↦ ⟨rfl, fun j ↦ (and_iff_left_of_imp ?_).symm,
        fun j ↦ (and_iff_left_of_imp ?_).symm⟩
      · rintro hj rfl
        nomatch hdead.symm.trans (h.owners.auth q _ hj).1
      · rintro hj rfl
        nomatch hdead.symm.trans (h.owners.acct q _ hj).1
    let d := c.addReq (c.onReq s)
    have hreq : d.reqs c.nreq = c.onReq s := update_self ..
    have howners : { d with sessions := c.sessions }.Owners := by
      refine h.owners.forget (i := c.nreq) (fun j hj ↦ update_of_ne hj ..) (fun _ ↦ ?_) hforgets
      rw [hreq]
      exact ⟨rfl, .inr rfl⟩
    obtain ⟨hadd, hheld⟩ : Keeps ∅ {c.nreq} c d ∧ d.Held c.nreq .on none :=
      h.addReq ⟨rfl, rfl, rfl, rfl, nofun, hs⟩ rfl howners
    obtain ⟨hsend, -⟩ := sendNow_keeps (X := {c.nreq}) out hadd.inv hheld rfl
      nofun nofun
    have hheld' := hheld.sendNow out
    have hall := hadd.trans hsend
    refine hall.trans ?_
    dsimp only
    split
    · exact .setHeld hall.inv hheld' rfl
    · exact freeAcct_keeps hall.inv hheld' nofun ((hall.inv.req c.nreq).on hheld'.kind).1 rfl
        (by simp)
  · exact .refl h

/-! ### Calls -/

/-- A pending call that sends its request has the memory for it, where a failure would free a
request that counts: if that is an Access-Request that has not been built, or if the daemon is
shutting down and it stops the accounting. -/
def Sendable (c : Client) (x : PendingCall) (out : SendOut) : Prop :=
  x.func = .wakeup → out = .noMemory →
    ((c.reqs x.req).kind = .auth → (c.reqs x.req).target.built = true) ∧
    ((c.reqs x.req).kind = .stop → c.shutdown = false)

/-- **A pending call is made.** -/
theorem runCall_keeps {x : PendingCall} {out : SendOut} {reply : Bool}
    (hx : x ∈ c.calls) (hX : x.req ∈ X) (hsafe : c.Sendable x out)
    (hXcall : x.func = .startDeferred → reply = true →
      ∀ y ∈ c.calls, y.ctx = none → y.func = .wakeup → y.req ∈ X)
    (hp : c.runCall x out env reply = some c') : Keeps ∅ X c c' := by
  rw [Sendable] at hsafe
  have hcall := h.call x hx
  have hinv : Inv ∅ { c with calls := c.calls.erase x } := h.calls erase_sublist
  have hframe : Frame X c { c with calls := c.calls.erase x } := by
    refine ⟨fun i hi hpend ↦ ?_, fun _ _ ↦ rfl, fun _ _ ↦ rfl⟩
    rcases hpend with hl | ⟨y, hy, hyi, hfunc⟩
    · exact .inl hl
    · refine .inr ⟨y, (mem_erase_of_ne ?_).mpr hy, hyi, hfunc⟩
      rintro rfl
      exact hi (hyi ▸ hX)
  -- there is one call to the request
  have hheld : Held { c with calls := c.calls.erase x } x.req (c.reqs x.req).kind x.ctx := by
    refine ⟨hcall.alive, hcall.unlinked, fun y hy hyx ↦ ?_, rfl, hcall.ctx.symm⟩
    obtain ⟨hne, hy⟩ := h.nodup.of_map.mem_erase_iff.mp hy
    exact hne (inj_on_of_nodup_map h.nodup hy hx hyx)
  refine Keeps.trans ⟨hinv, hframe⟩ ?_
  rw [runCall] at hp
  rw [if_pos hcall.alive] at hp
  have hready : x.func ≠ .wakeup →
      Ready { c with calls := c.calls.erase x } x.req (c.reqs x.req).kind x.ctx := fun hfunc ↦
    { hheld with
      idle := eq_false_iff.mpr fun hact ↦ hfunc (hcall.wakeup.mpr hact)
      unarmed := hcall.unarmed }
  rcases hfunc : x.func with _ | _ | _ <;> rw [hfunc] at hp hready hsafe hXcall
  · exact reqWakeup_keeps hinv hheld hcall.on hcall.unarmed hX (hsafe rfl) hp
  · exact sendFailed_keeps hinv (hready nofun) hcall.on hX hp
  obtain rfl := some.inj hp
  have hctx := hcall.deferred hfunc
  have hkind : (c.reqs x.req).kind = .stop :=
    (h.owners.orphan x.req hcall.alive (hcall.ctx.symm.trans hctx)).resolve_right hcall.on
  have hready' := hready nofun
  rw [hkind, hctx] at hready'
  exact startDeferred_keeps hinv hready' hX fun hr y hy ↦
    hXcall rfl hr y (mem_of_mem_erase hy)

end Client

end AccelPpp.Radius
