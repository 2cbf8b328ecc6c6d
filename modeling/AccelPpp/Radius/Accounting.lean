import AccelPpp.Radius.Reload

/-!
# What servers count, and what becomes of a request that waits

Two properties of every run of the client whose events meet a condition on the state before them.

The counters of a server count (`Accounted`), and no assertion fails. This needs (`Safe`) that a
reload leaves the servers that requests wait for in place and moves no limit between 0 and another
value under a request; that no interim update or end of a session comes between the failure of a
server and the call by which it tells a request of the session, as `rad_server_req_cancel` takes
back `req_wakeup` only; and that `req_wakeup` has the memory to send a request that `sent` would
free although it counts.

A request that waits goes on waiting until its own call is made, or its session ends and sees to it
(`Handed`), unless its wakeup is lost with another one: `rad_server_req_cancel` cancels every
`req_wakeup` of the context, for whichever request (`Undropped`).
-/

namespace AccelPpp.Radius

namespace Client

open List Option Transition

variable {c c' : Client} {e : ClientEvent} {i j q : ℕ} {o : Option ℕ} {X : Set ℕ}

/-! ### The condition -/

/-- What an event needs for the counters to count. -/
def Safe (c : Client) : ClientEvent → Prop
  | .interimUpdate q _ => ∀ x ∈ c.calls, (c.sessions q).acct ≠ some x.req
  | .finishing q _ => c.Unfailed (c.sessions q).auth ∧ c.Unfailed (c.sessions q).acct
  | .finished q => c.Unfailed (c.sessions q).acct
  | .call ctx out _ _ => ∀ x ∈ c.firstCall ctx, c.Sendable x out
  | .reload confs olds _ => c.Reloadable confs olds
  | _ => True

instance : Decidable (c.Unfailed o) := inferInstanceAs (Decidable (∀ x ∈ c.calls, _ → _))

instance {x : PendingCall} {out : SendOut} : Decidable (c.Sendable x out) :=
  inferInstanceAs (Decidable (_ → _ → _ ∧ _))

instance : Decidable (c.Safe e) := by
  cases e <;> dsimp only [Safe] <;> infer_instance

/-! ### One event -/

/-- A wakeup of the request is pending in the context. -/
def Woken (c : Client) (ctx : Option ℕ) (i : ℕ) : Prop :=
  ∃ x ∈ c.calls, x.ctx = ctx ∧ x.func = .wakeup ∧ x.req = i

/-- The requests that an event has to do with. -/
def Touches (c : Client) : ClientEvent → Set ℕ
  | .tick _ => ∅
  | .shutdown => ∅
  | .authStart _ _ => {c.nreq}
  | .acctStart _ _ => {c.nreq}
  | .interimUpdate q _ => {i | (c.sessions q).acct = some i}
  | .finishing q _ => c.ofSession q
  | .finished q => c.ofSession q
  | .acctOn _ _ => {c.nreq}
  | .timeout i _ _ => {i}
  | .reply i _ => {j | j = i ∨ (c.reqs i).active = false ∧ c.Woken (c.reqs i).ses j}
  | .call ctx _ _ reply =>
    {j | ∃ x, c.firstCall ctx = some x ∧
      (j = x.req ∨ x.func = .startDeferred ∧ reply = true ∧ c.Woken none j)}
  | .reload _ _ _ => ∅

/-- A request whose socket is read is in nobody's hands but the reader's. -/
lemma Inv.held_of_read (h : Inv ∅ c) (hr : (c.reqs i).hnd = .on) :
    Held c i (c.reqs i).kind (c.reqs i).ses := by
  refine ⟨?_, ?_, fun x hx hxi ↦ (h.call_of_eq hx hxi).unread hr, rfl, rfl⟩
  · rw [← Bool.not_eq_false]
    exact fun hd ↦ nomatch hr.symm.trans ((h.req i).dead hd).2
  · rw [← Bool.not_eq_true]
    exact fun hl ↦ ((h.req i).linked hl).2.2.2 hr

lemma firstCall_mem {x : PendingCall} (h : c.firstCall o = some x) : x ∈ c.calls :=
  mem_of_find?_eq_some h

/-- **An event** that meets the condition keeps the invariant, and what it has nothing to do with.
-/
theorem handle_keeps (h : Inv ∅ c) (hs : c.Safe e) (hp : c.handle e = some c') :
    Keeps ∅ (c.Touches e) c c' := by
  cases e with
  | tick d | shutdown =>
    obtain rfl := some.inj hp
    exact .settings h
  | authStart q env => exact authStart_keeps h hp
  | acctStart q env => exact acctStart_keeps h hp
  | interimUpdate q env =>
    exact interimUpdate_keeps h (fun i hi x hx hxi ↦ hs x hx (hi.trans (congrArg some hxi.symm))) hp
  | finishing q env => exact (finishing_keeps h hs.1 hs.2 hp).1
  | finished q =>
    obtain rfl := some.inj hp
    exact (finished_keeps h hs).1
  | acctOn s out =>
    obtain rfl := some.inj hp
    exact acctOn_keeps h
  | timeout i mode env => exact timeout_keeps h hp
  | reply i interim =>
    obtain rfl := some.inj hp
    split
    · next hread =>
      exact reqRead_keeps h (h.held_of_read hread) (.inl rfl)
        fun hidle x hx hctx hfunc ↦ .inr ⟨hidle, x, hx, hctx, hfunc, rfl⟩
    · exact .refl h
  | call ctx out env reply =>
    rw [handle] at hp
    split at hp
    · obtain rfl := some.inj hp
      exact .refl h
    · next x hx =>
      exact runCall_keeps h (firstCall_mem hx) ⟨x, hx, .inl rfl⟩ (hs x hx)
        (fun hfunc hr y hy hctx hwake ↦ ⟨x, hx, .inr ⟨hfunc, hr, y, hy, hctx, hwake, rfl⟩⟩) hp
  | reload confs olds maxTry =>
    obtain rfl := some.inj hp
    exact reload_keeps h hs

lemma step_keeps (h : Inv ∅ c) (hs : c.Safe e) : Keeps ∅ (c.Touches e) c (c.step e) := by
  rw [step, if_pos h.fault]
  rcases hp : c.handle e with _ | c'
  · exact .refl h
  · exact handle_keeps h hs hp

lemma inv_initial : Inv ∅ initial := by
  refine ⟨rfl, ⟨nofun, nofun, nofun,
    nodup_nil⟩, fun _ ↦ rfl, ⟨fun _ ↦ rfl, fun _ ↦ nodup_nil, fun _ _ ↦ ?_⟩, fun _ ↦ ?_,
    nofun, nodup_nil, nofun, ?_⟩
  · exact iff_of_false not_mem_nil fun hf ↦ nomatch hf.1
  · exact ⟨nofun, nofun, fun _ ↦ ⟨rfl, rfl⟩, fun _ ↦ ⟨rfl, nofun⟩, nofun⟩
  · exact ⟨nofun, nofun, nofun,
      nofun, fun _ _ ↦ rfl, nofun⟩

/-! ### The counters -/

/-- The counters of every server count its active requests and what waits for it, and no assertion
has failed. -/
def Accounted (c : Client) : Prop :=
  (∀ s, (c.servers s).reqCnt = c.activeOn s ∧
    (c.servers s).queueCnt = (c.waitingFor s).length) ∧ c.fault ≠ some .assert

lemma Inv.accounted (h : Inv ∅ c) : c.Accounted := by
  refine ⟨fun s ↦ ⟨h.reqCnt s, h.queues.queueCnt s⟩, ?_⟩
  rw [h.fault]
  nofun

/-- **Along events that meet the condition, the counters count and no assertion fails.** -/
theorem servers_accounted {es : List ClientEvent} (hes : Along step Safe initial es) :
    Always step Accounted initial es := by
  have hinv : Always step (Inv ∅) initial es :=
    Along.always (fun _ _ h hs ↦ (step_keeps h hs).inv) inv_initial hes
  exact fun pre hpre ↦ (hinv pre hpre).accounted

/-- A server of the configuration: its limit and its address. -/
def confServer (limit : ℤ) (addr : UInt32) : Server where
  ipv4 := true
  addr := addr
  addr6 := 0
  secret := []
  authPort := 1812
  acctPort := 1813
  weight := 1
  backup := false
  reqLimit := limit
  failTimeout := 0
  maxFail := 0
  reqCnt := 0
  queueCnt := 0
  queue0 := []
  queue1 := []
  authCnt := 0
  acctCnt := 0
  failTime := 0
  timeoutCnt := 0
  needFree := false

/-- The first send succeeds. -/
def sendsOnce : Env := ⟨true, [⟨.ok, true⟩]⟩

/-- Two sessions are authenticated by a server that takes one request at a time. Its limit is raised
while the second waits. -/
def limitRaised : List ClientEvent :=
  [.reload [confServer 1 1] [] 3, .authStart 0 sendsOnce, .authStart 1 sendsOnce,
    .reload [confServer 2 1] [] 3, .reply 0 false, .call (some 1) .ok sendsOnce false,
    .finishing 1 sendsOnce]

theorem servers_accounted_limitRaised :
    Along step Safe initial limitRaised ∧ Always step Accounted initial limitRaised :=
  ⟨by decide +kernel, servers_accounted (by decide +kernel)⟩

/-- **Requests, sessions, queues and calls agree** along such events, and nothing freed is used. -/
theorem clients_agree {es : List ClientEvent} (hes : Along step Safe initial es) :
    Always step (Inv ∅) initial es :=
  hes.always (fun _ _ h hs ↦ (step_keeps h hs).inv) inv_initial

theorem clients_agree_limitRaised : Always step (Inv ∅) initial limitRaised :=
  clients_agree (by decide +kernel)

/-- The limit of a server is removed while a request is outstanding. The reply does not take it off
the server, and the request is freed while it counts. -/
def limitRemoved : List ClientEvent :=
  [.reload [confServer 1 1] [] 3, .authStart 0 sendsOnce, .reload [confServer 0 1] [] 3,
    .reply 0 false]

theorem limitRemoved_asserts : ¬ Always step Accounted initial limitRemoved := by
  intro h
  have hlast : (run step initial limitRemoved).fault = some .assert := by decide +kernel
  exact h.last.2 hlast

/-! ### Requests that wait -/

section

variable (c : Client) (e : ClientEvent)

/-- The call hands a request back to the context of its owner, and sends it or fails it over. When
`req_wakeup` finds a request that does not count, it does nothing. -/
def HandsBack (x : PendingCall) : Prop :=
  x.ctx = (c.reqs x.req).ses ∧
    (x.func = .wakeup ∧ (c.reqs x.req).active = true ∨ x.func = .wakeupFailed)

/-- The request waits in a queue, or has been handed back. -/
def Waits (i : ℕ) : Prop :=
  (c.reqs i).linked = true ∨ ∃ x ∈ c.calls, x.req = i ∧ c.HandsBack x

/-- The event makes the call that hands the request back. -/
def Calls (i : ℕ) : Prop :=
  match e with
  | .call ctx _ _ _ => ∃ x ∈ c.firstCall ctx, x.req = i ∧ c.HandsBack x
  | _ => False

/-- The event is the end of a session. -/
def Ends (q : ℕ) : Prop :=
  match e with
  | .finishing p _ => p = q
  | .finished p => p = q
  | _ => False

/-- Every request that waits goes on waiting, or its call is made, or its session ends and sees to
it. -/
def Handed : Prop :=
  ∀ i, c.Waits i → (c.step e).Waits i ∨ c.Calls e i ∨
    ∃ q, (c.reqs i).ses = some q ∧ Ends e q ∧ (c.step e).Settled i

/-- The event does not cancel the wakeup of one request with that of another. -/
def Undropped : ClientEvent → Prop
  | .reply i _ => (c.reqs i).hnd = .on → (c.reqs i).active = false →
      ∀ x ∈ c.calls, ¬ (x.ctx = (c.reqs i).ses ∧ x.func = .wakeup)
  | .call ctx _ _ reply => ∀ x ∈ c.firstCall ctx, x.func = .startDeferred → reply = true →
      ∀ y ∈ c.calls, ¬ (y.ctx = none ∧ y.func = .wakeup)
  | _ => True

end

lemma Held.not_pending {k : Kind} (h : c.Held i k o) : ¬ c.Pending i := by
  rintro (hl | ⟨x, hx, hxi, -⟩)
  · nomatch h.unlinked.symm.trans hl
  · exact h.uncalled x hx hxi

section

variable (h : Inv ∅ c)

include h

lemma Inv.waits_iff : c.Waits i ↔ c.Pending i := by
  constructor
  · rintro (hl | ⟨x, hx, hxi, -, hfunc⟩)
    · exact .inl hl
    · refine .inr ⟨x, hx, hxi, fun hf ↦ ?_⟩
      rcases hfunc with ⟨hw, -⟩ | hw <;> nomatch hw.symm.trans hf
  rintro (hl | ⟨x, hx, hxi, hfunc⟩)
  · exact .inl hl
  · have hcall := h.call x hx
    refine .inr ⟨x, hx, hxi, hcall.ctx, ?_⟩
    rcases hw : x.func with _ | _ | _
    · exact .inl ⟨rfl, hcall.wakeup.mp hw⟩
    · exact .inr rfl
    · exact (hfunc hw).elim

lemma Inv.alive_of_pending (hp : c.Pending i) : (c.reqs i).alive = true := by
  rcases hp with hl | ⟨x, hx, hxi, -⟩
  · exact ((h.req i).linked hl).2.1
  · exact (h.call_of_eq hx hxi).alive

lemma Inv.not_pending_nreq : ¬ c.Pending c.nreq := fun hp ↦
  nomatch (h.dead le_rfl).symm.trans (h.alive_of_pending hp)

/-- The requests of a session that ends are seen to. -/
lemma Inv.ended (hi : i ∈ c.ofSession q) (hp : c.Pending i) (he : Ends e q)
    (hd : c' = c ∨ ∀ j, (c.reqs j).alive = true → (c.reqs j).ses = some q → c'.Settled j) :
    c'.Waits i ∨ c.Calls e i ∨ ∃ q, (c.reqs i).ses = some q ∧ Ends e q ∧ c'.Settled i := by
  have halive := h.alive_of_pending hp
  rcases hd with rfl | hd
  · exact .inl (h.waits_iff.mpr hp)
  · rcases hi with hi | hi
    · exact .inr (.inr ⟨q, hi, he, hd i halive hi⟩)
    · nomatch hi.symm.trans halive

/-- **What an event does to a request that waits** and that it has to do with. -/
theorem handle_handed (hs : c.Safe e) (hd : c.Undropped e)
    (hp : c.handle e = some c') (hi : i ∈ c.Touches e) (hpend : c.Pending i) :
    c'.Waits i ∨ c.Calls e i ∨ ∃ q, (c.reqs i).ses = some q ∧ Ends e q ∧ c'.Settled i := by
  have hsame : c' = c → c'.Waits i := by
    rintro rfl
    exact h.waits_iff.mpr hpend
  cases e with
  | tick d | shutdown | reload confs olds maxTry => exact hi.elim
  | authStart q env | acctStart q env | acctOn s out =>
    obtain rfl : i = c.nreq := hi
    exact (h.not_pending_nreq hpend).elim
  | interimUpdate q env =>
    -- an update of a request that waits is skipped
    have hacct : (c.sessions q).acct = some i := hi
    rcases hpend with hl | ⟨x, hx, hxi, -⟩
    · refine .inl (hsame (some.inj (hp.symm.trans ?_)))
      show c.interimUpdate q env = _
      rw [interimUpdate, hacct]
      exact if_pos (.inr (.inl hl))
    · exact (hs x hx (hacct.trans (congrArg some hxi.symm))).elim
  | finishing q env => exact h.ended hi hpend rfl (finishing_keeps h hs.1 hs.2 hp).2
  | finished q =>
    obtain rfl := some.inj hp
    exact h.ended hi hpend rfl (finished_keeps h hs).2
  | timeout j mode env =>
    obtain rfl : i = j := hi
    by_cases harmed : (c.reqs i).timer = .armed
    · exact ((h.held_of_armed harmed).not_pending hpend).elim
    · refine .inl (hsame (some.inj (hp.symm.trans ?_)))
      exact if_neg harmed
  | reply j interim =>
    by_cases hread : (c.reqs j).hnd = .on
    · rcases hi with rfl | ⟨hidle, x, hx, hctx, hfunc, -⟩
      · exact ((h.held_of_read hread).not_pending hpend).elim
      · exact (hd hread hidle x hx ⟨hctx, hfunc⟩).elim
    · exact .inl (hsame (mem_unique hp (congrArg some (if_neg hread))))
  | call ctx out env reply =>
    obtain ⟨x, hx, rfl | ⟨hfunc, hr, y, hy, hctx, hwake, -⟩⟩ := hi
    · -- there is no other call to the request
      rcases h.waits_iff.mpr hpend with hl | ⟨y, hy, hyx, hback⟩
      · cases (h.call x (firstCall_mem hx)).unlinked.symm.trans hl
      · obtain rfl := inj_on_of_nodup_map h.nodup hy (firstCall_mem hx) hyx
        exact .inr (.inl ⟨y, hx, rfl, hback⟩)
    · exact (hd x hx hfunc hr y hy ⟨hctx, hwake⟩).elim

lemma step_handed (hs : c.Safe e) (hd : c.Undropped e) : c.Handed e := by
  intro i hw
  have hpend := h.waits_iff.mp hw
  have hkeeps := step_keeps h hs
  by_cases hi : i ∈ c.Touches e
  · rw [step, if_pos h.fault] at hkeeps ⊢
    rcases hp : c.handle e with _ | c'
    · exact .inl hw
    · exact handle_handed h hs hd hp hi hpend
  · exact .inl (hkeeps.inv.waits_iff.mpr (hkeeps.frame.pending i hi hpend))

end

/-- **Along events that meet both conditions, no request that waits is lost.** -/
theorem waiting_handed {es : List ClientEvent}
    (hes : Along step (fun c e ↦ c.Safe e ∧ c.Undropped e) initial es) :
    Along step Handed initial es :=
  Along.along (fun _ _ h hs ↦ (step_keeps h hs.1).inv)
    (fun _ _ h hs ↦ step_handed h hs.1 hs.2) inv_initial hes

instance {x : PendingCall} : Decidable (c.HandsBack x) := inferInstanceAs (Decidable (_ ∧ (_ ∨ _)))

instance : Decidable (c.Waits i) := inferInstanceAs (Decidable (_ ∨ ∃ x ∈ c.calls, _ ∧ _))

instance : Decidable (c.Undropped e) := by
  cases e <;> dsimp only [Undropped] <;> infer_instance

theorem waiting_handed_limitRaised :
    Along step (fun c e ↦ c.Safe e ∧ c.Undropped e) initial limitRaised ∧
      Along step Handed initial limitRaised :=
  ⟨by decide +kernel, waiting_handed (by decide +kernel)⟩

/-- A server is removed while a request waits for it. -/
def serverRemoved : List ClientEvent :=
  [.reload [confServer 1 1] [] 3, .authStart 0 sendsOnce, .authStart 1 sendsOnce,
    .reload [confServer 1 2] [] 3]

/-- The request is called with `req_wakeup`, which does nothing for a request that does not count.
After the call nothing leads to it: no queue, no timer, no socket and no call. -/
theorem serverRemoved_loses :
    ¬ Along step Handed initial serverRemoved ∧
      let c := run step initial (serverRemoved ++ [.call (some 1) .ok sendsOnce false])
      ((c.reqs 1).alive = true ∧ (c.reqs 1).linked = false ∧ (c.reqs 1).timer = .none ∧
        (c.reqs 1).hnd = .none ∧ c.calls = []) := by
  refine ⟨fun h ↦ ?_, by decide +kernel⟩
  obtain ⟨-, -, -, h, -⟩ := h
  have hbefore : (run step initial (serverRemoved.take 3)).Waits 1 := by decide +kernel
  have hafter : ¬ (run step initial serverRemoved).Waits 1 := by decide +kernel
  rcases h 1 hbefore with hw | hc | ⟨q, -, hq, -⟩
  · exact hafter hw
  · exact hc
  · exact hq

end Client

end AccelPpp.Radius
