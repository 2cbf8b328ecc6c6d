import AccelPpp.Auth.Liveness

/-!
# Success is reported for the name that was checked

When the authentication layer reports success, by Ack, by CHAP Success or by starting the session, a
database (or the digest computed here) must have accepted a response that was given for exactly the
name recorded in the session; with CHAP a response to the challenge last issued with the identifier
the report carries; and a late answer must be applied to the response it was asked for.

The first success records the name it was given for. After it CHAP goes on: a new challenge may be
sent at any time (`interval`, restart), and every response with the current identifier is checked,
whether a challenge with that identifier was sent or not. Its name is checked, answered and dropped,
and **never compared with the name of the session**. And a new challenge under the same identifier
may replace the one whose response a database is still looking at.

`KeepsIdentity` rules out these three things, and `success_vouched` says that nothing else can go
wrong. The invariant is `Chap.Sound`: before the first success the current challenge is the one last
issued; after it the last success is vouched for; and the pending query is about the current
challenge.
-/

open Bool List

namespace AccelPpp.Auth

open ByteReader Transition

/-! ### What is claimed -/

/-- The challenge last issued with an identifier. -/
def lastIssued (id : UInt8) (out : List Msg) : Option (List UInt8) :=
  out.foldl (fun last msg ↦
    match msg with
    | .challenge i val => if i = id then some val else last
    | _ => last) none

/-- Success was reported under the identifier between two records of what was sent. -/
def Reported (out out' : List Msg) (id : UInt8) : Prop :=
  ∃ new, out' = out ++ new ∧ (Msg.success id ∈ new ∨ Msg.papAck id ∈ new)

/-- The query was accepted, and its name is the one recorded in the session. -/
def Ses.Vouches (s : Ses) (q : Query) : Prop :=
  q ∈ s.accepted ∧ s.username = some q.name

/-- **What is reported is vouched for**, by a query that fits the report; and when the session is
started, success is reported for that query. -/
structure StepVouched (Fits : Ses → UInt8 → Query → Prop) (out : List Msg) (authorized : List Name)
    (s : Ses) : Prop where
  reported : ∀ id, Reported out s.out id → ∃ q, s.Vouches q ∧ Fits s id q
  started : s.authorized ≠ authorized →
    ∃ q, s.Vouches q ∧ Reported out s.out q.id ∧ s.authorized = authorized ++ [q.name]

/-- For CHAP: the response had the identifier and was to the challenge last issued with it. -/
def chapFits (s : Ses) (id : UInt8) (q : Query) : Prop :=
  q.id = id ∧ lastIssued id s.out = some q.challenge

/-- PAP has no challenges, and acknowledges repeated requests under their own identifiers. -/
def papFits (_s : Ses) (_id : UInt8) (_q : Query) : Prop :=
  True

def AuthData.Fits : AuthData → Ses → UInt8 → Query → Prop
  | .pap _ => papFits
  | .chapMd5 _ | .mschapV2 _ => chapFits

/-- A report that comes with a late answer is about the query answered. -/
def AnswerApplied (out : List Msg) (s : Ses) : AuthEvent → Prop
  | .answer q ok _ => ∀ id, Reported out s.out id → ok = true ∧ id = q.id ∧ s.username = some q.name
  | _ => True

/-- **One step** of the authentication reports success only for the name that was checked. -/
def SuccessVouched (H : Crypto) (cfg : Config) (a : AuthData) (e : AuthEvent) : Prop :=
  StepVouched a.Fits a.ses.out a.ses.authorized (authStep H cfg a e).ses ∧
    AnswerApplied a.ses.out (authStep H cfg a e).ses e

/-- The condition on a step of a CHAP protocol. Once the session has been started, a response that
is checked gives its name, and a challenge with the current identifier was sent; and no challenge is
made while an answer is awaited. -/
def Chap.KeepsIdentity (Checks : Chap → Frame → Name → Prop) (c : Chap) : AuthEvent → Prop
  | .frame f _ => f.Accepted 2 → c.registered = true → c.started = true → c.name = none →
      ∀ name, Checks c f name → c.username = some name ∧ lastIssued c.id c.out = some c.val
  | .interval _ => c.interval = true → c.name = none
  | .restart _ => c.terminating = false → c.name = none
  | _ => True

/-- **The condition on a step.** There is none for PAP. -/
def KeepsIdentity : AuthData → AuthEvent → Prop
  | .pap _, _ => True
  | .chapMd5 c, e => c.KeepsIdentity chapMd5Checks e
  | .mschapV2 c, e => c.KeepsIdentity mschapV2Checks e

section

variable {H : Crypto} {cfg : Config} {env : Env} {f : Frame}

/-! ### Records -/

variable {out : List Msg} {val : List UInt8}

lemma lastIssued_challenge {id : UInt8} :
    lastIssued id (out ++ [.challenge id val]) = some val := by
  rw [lastIssued, foldl_append]
  exact if_pos rfl

variable {id i : UInt8} {s s' : Ses} {out : List Msg}

lemma lastIssued_challenge_of_ne (h : i ≠ id) :
    lastIssued id (out ++ [.challenge i val]) = lastIssued id out := by
  rw [lastIssued, foldl_append]
  exact if_neg h

lemma lastIssued_success {id i : UInt8} :
    lastIssued id (out ++ [.success i]) = lastIssued id out := by
  rw [lastIssued, foldl_append]
  rfl

/-- No success is reported and the session is not started. -/
def Silent (s s' : Ses) : Prop :=
  s'.authorized = s.authorized ∧
    ∃ new, s'.out = s.out ++ new ∧ ∀ id, Msg.success id ∉ new ∧ Msg.papAck id ∉ new

lemma Silent.of_eq (ha : s'.authorized = s.authorized) (ho : s'.out = s.out) : Silent s s' :=
  ⟨ha, [], by rw [ho, append_nil], fun _ ↦ ⟨not_mem_nil, not_mem_nil⟩⟩

lemma Silent.send {msg : Msg} (ha : s'.authorized = s.authorized) (ho : s'.out = s.out ++ [msg])
    (hmsg : ∀ id, msg ≠ .success id ∧ msg ≠ .papAck id) : Silent s s' :=
  ⟨ha, [msg], ho, fun id ↦
    ⟨fun h ↦ (hmsg id).1 (mem_singleton.mp h).symm,
      fun h ↦ (hmsg id).2 (mem_singleton.mp h).symm⟩⟩

lemma Silent.not_reported (h : Silent s s') (id : UInt8) : ¬ Reported s.out s'.out id := by
  rintro ⟨new, hnew, hmem⟩
  obtain ⟨-, new', hnew', hnone⟩ := h
  obtain rfl : new = new' := append_cancel_left (hnew.symm.trans hnew')
  rcases hmem with hmem | hmem
  · exact (hnone id).1 hmem
  · exact (hnone id).2 hmem

/-- Where nothing is reported there is nothing to vouch for. -/
lemma Silent.vouched {Fits : Ses → UInt8 → Query → Prop} (h : Silent s s') :
    StepVouched Fits s.out s.authorized s' :=
  ⟨fun id hr ↦ absurd hr (h.not_reported id), fun hne ↦ absurd h.1 hne⟩

/-- A step that sends one message reports exactly what the message says. -/
lemma reported_singleton_iff {msg : Msg} :
    Reported out (out ++ [msg]) id ↔ .success id = msg ∨ .papAck id = msg := by
  rw [← mem_singleton, ← mem_singleton]
  constructor
  · rintro ⟨new, hnew, hmem⟩
    obtain rfl : [msg] = new := append_cancel_left hnew
    exact hmem
  · intro hmem
    exact ⟨[msg], rfl, hmem⟩

lemma reported_success_iff : Reported out (out ++ [.success i]) id ↔ id = i := by
  simp [reported_singleton_iff]

lemma reported_papAck_iff : Reported out (out ++ [.papAck i]) id ↔ id = i := by
  simp [reported_singleton_iff]

/-! ### CHAP -/

/-- The protocol is finished: nothing reaches it any more. -/
def Chap.Closed (c : Chap) : Prop :=
  c.registered = false ∧ c.timeout = false ∧ c.interval = false ∧ c.Idle

/-- **The invariant of CHAP.** -/
structure Chap.Sound (c : Chap) : Prop where
  coherent : c.Coherent
  closed : c.terminating = true → c.Closed
  /-- Before the first success the current challenge is the one last issued. -/
  issued : c.terminating = false → c.started = false → lastIssued c.id c.out = some c.val
  /-- After it the identifier before the current one had a success that is vouched for. -/
  vouched : c.terminating = false → c.started = true →
    ∃ q, c.Vouches q ∧ q.id + 1 = c.id ∧ lastIssued q.id c.out = some q.challenge
  /-- The pending query is about the current challenge and the session's name. -/
  pending : c.terminating = false → ∀ q, c.asked = [q] →
    lastIssued c.id c.out = some q.challenge ∧ q.challenge = c.val ∧
      (c.started = true → c.username = some q.name)

/-- The step from `c` to `c'` keeps the invariant, and reports only what is vouched for. -/
def ChapKeeps (c c' : Chap) : Prop :=
  c'.Sound ∧ StepVouched chapFits c.out c.authorized c'.toSes

section

variable {c c' : Chap}

/-- What has not been closed has not ended. -/
lemma Chap.Sound.isOpen (h : c.Sound) (hnot : ¬ c.Closed) : c.terminating = false :=
  eq_false_iff.mpr fun hterm ↦ hnot (h.closed hterm)

lemma Chap.Closed.sound (h : c.Closed) (hterm : c.terminating = true) : c.Sound where
  coherent := .inl h.2.2.2
  closed := fun _ ↦ h
  issued := hterm ▸ nofun
  vouched := fun hopen ↦ nomatch hterm.symm.trans hopen
  pending := fun hopen ↦ nomatch hterm.symm.trans hopen

lemma Chap.Closed.keeps (h : c'.Closed) (hterm : c'.terminating = true)
    (hs : Silent c.toSes c'.toSes) : ChapKeeps c c' :=
  ⟨h.sound hterm, hs.vouched⟩

lemma closed_chapTerminate (hopen : c.terminating = false) : (chapTerminate c).Closed := by
  rw [chapTerminate, if_neg (by rw [hopen]; decide)]
  exact ⟨rfl, rfl, rfl, rfl, rfl⟩

variable {d : Chap}

lemma Silent.chapTerminate (h : Silent s d.toSes) : Silent s (chapTerminate d).toSes := by
  rw [Auth.chapTerminate]
  split <;> exact h

/-- Every way to end the session keeps the invariant: `d` is the state in which it ends. -/
lemma keeps_chapTerminate (hopen : d.terminating = false)
    (hs : Silent c.toSes d.toSes) : ChapKeeps c (chapTerminate d) :=
  (closed_chapTerminate hopen).keeps terminating_chapTerminate hs.chapTerminate

lemma keeps_chapGiveUp (hopen : d.terminating = false)
    (hs : Silent c.toSes d.toSes) : ChapKeeps c (chapGiveUp d) := by
  rw [chapGiveUp]
  split
  · exact keeps_chapTerminate hopen hs
  · exact keeps_chapTerminate hopen hs

lemma silent_chapSendFailure (c : Chap) : Silent c.toSes (chapSendFailure c).toSes :=
  Silent.send rfl rfl fun _ ↦ ⟨Msg.noConfusion, Msg.noConfusion⟩

/-- A failure ends the session. -/
lemma keeps_chapDeny (hopen : c.terminating = false) (name : Name) :
    ChapKeeps c (chapDeny name c) ∧ Silent c.toSes (chapDeny name c).toSes := by
  have hs := silent_chapSendFailure c
  unfold chapDeny
  dsimp only
  split <;> exact ⟨keeps_chapTerminate hopen hs, Silent.chapTerminate hs⟩

variable {q : Query}

/-- **A success that a query vouches for keeps the invariant.** The identifier of the query is the
one before the new current one, and its challenge was the last issued with it. -/
theorem keeps_success (hopen : c'.terminating = false) (hidle : c'.Idle) (hst : c'.started = true)
    (hv : c'.Vouches q) (hnext : c'.id = q.id + 1) (hout : c'.out = c.out ++ [.success q.id])
    (hissued : lastIssued q.id c.out = some q.challenge)
    (hauth : c'.authorized = c.authorized ∨ c'.authorized = c.authorized ++ [q.name]) :
    ChapKeeps c c' := by
  have hlast : lastIssued q.id c'.out = some q.challenge := by
    rw [hout, lastIssued_success, hissued]
  have hreported (id : UInt8) : Reported c.out c'.out id ↔ id = q.id := by
    rw [hout, reported_success_iff]
  refine ⟨⟨.inl hidle, ?_, ?_, ?_, ?_⟩, fun id hr ↦ ?_, fun hne ↦ ?_⟩
  · exact fun hterm ↦ nomatch hterm.symm.trans hopen
  · exact fun _ hst' ↦ nomatch hst.symm.trans hst'
  · exact fun _ _ ↦ ⟨q, hv, hnext.symm, hlast⟩
  · exact fun _ q' hq' ↦ absurd (hidle.2.symm.trans hq').symm (cons_ne_nil q' [])
  · obtain rfl := (hreported id).mp hr
    exact ⟨q, hv, rfl, hlast⟩
  · exact ⟨q, hv, (hreported q.id).mpr rfl, hauth.resolve_left hne⟩

/-- **A success is reported for the query that was accepted.** The query has the current identifier
and the challenge last issued with it, and once the session has been started, its name. -/
theorem keeps_chapGrant (hopen : c.terminating = false) (hidle : c.Idle) (hq : q ∈ c.accepted)
    (hid : q.id = c.id) (hissued : lastIssued c.id c.out = some q.challenge)
    (hname : c.started = true → c.username = some q.name) :
    ChapKeeps c (chapGrant cfg env q.name c) ∧
      ∀ id, Reported c.out (chapGrant cfg env q.name c).out id →
        id = q.id ∧ (chapGrant cfg env q.name c).username = some q.name := by
  have hnext : c.id + 1 = q.id + 1 := congrArg (· + 1) hid.symm
  have hout : c.out ++ [.success c.id] = c.out ++ [.success q.id] := by rw [hid]
  rw [← hid] at hissued
  rcases chapGrant_cases with ⟨hst, heq⟩ | ⟨-, ⟨u, heq⟩ | heq⟩ <;> rw [heq]
  · -- a later success: the session's name is the query's
    refine ⟨?_, fun id hr ↦ ⟨(reported_success_iff.mp hr).trans hid.symm, hname hst⟩⟩
    exact keeps_success hopen hidle hst ⟨hq, hname hst⟩ hnext hout hissued (.inl rfl)
  · -- the session refuses the first success
    have hs : Silent c.toSes (chapTerminate (chapSendFailure { c with username := u })).toSes :=
      Silent.chapTerminate (silent_chapSendFailure { c with username := u })
    have hclosed : Chap.Closed { chapTerminate (chapSendFailure { c with username := u }) with
        id := c.id + 1 } :=
      closed_chapTerminate hopen
    exact ⟨hclosed.keeps terminating_chapTerminate hs, fun id hr ↦ absurd hr (hs.not_reported id)⟩
  · -- the first success records the query's name
    refine ⟨?_, fun id hr ↦ ⟨(reported_success_iff.mp hr).trans hid.symm, rfl⟩⟩
    exact keeps_success hopen hidle rfl ⟨hq, rfl⟩ hnext hout hissued (.inr rfl)

/-- Steps that only send a message which is neither a challenge nor a success keep the invariant. -/
lemma Chap.Sound.send {msg : Msg} (h : c.Sound)
    (hmsg : ∀ id, lastIssued id (c.out ++ [msg]) = lastIssued id c.out) :
    Chap.Sound { c with toSes := c.toSes.send msg } :=
  { h with
    issued := fun hopen hst ↦ (hmsg c.id).trans (h.issued hopen hst)
    vouched := fun hopen hst ↦ by
      obtain ⟨q, hv, hid, hlast⟩ := h.vouched hopen hst
      exact ⟨q, hv, hid, (hmsg q.id).trans hlast⟩
    pending := fun hopen q hq ↦ by
      obtain ⟨hlast, hval, hname⟩ := h.pending hopen q hq
      exact ⟨(hmsg c.id).trans hlast, hval, hname⟩ }

lemma Chap.Sound.timerGone (h : c.Sound) : Chap.Sound { c with timeout := false } :=
  { coherent := h.coherent
    closed := fun hterm ↦ ⟨(h.closed hterm).1, rfl, (h.closed hterm).2.2⟩
    issued := h.issued
    vouched := h.vouched
    pending := h.pending }

variable {Checks : Name → Prop}

section

variable (h : c.Sound) (hopen : c.terminating = false)
  (hcond : c.started = true → c.name = none → ∀ name, Checks name →
    c.username = some name ∧ lastIssued c.id c.out = some c.val)

include h hopen hcond

/-- A response that is checked is about the challenge last issued, and after the first success about
the session's name. -/
lemma Chap.Sound.checked (hnone : c.name = none) (hchecks : Checks q.name)
    (hval : q.challenge = c.val) :
    lastIssued c.id c.out = some q.challenge ∧ (c.started = true → c.username = some q.name) := by
  rw [hval]
  refine ⟨?_, fun hst ↦ (hcond hst hnone q.name hchecks).1⟩
  -- before the first success by the invariant, after it by the condition on the step
  cases hst : c.started with
  | false => exact h.issued hopen hst
  | true => exact (hcond hst hnone q.name hchecks).2

lemma ChapOutcome.keeps {dead : Bool} (ho : ChapOutcome cfg env Checks c dead c')
    (hany : cfg.anyLogin = false) : ChapKeeps c c' := by
  have hsame : Silent c.toSes c.toSes := Silent.of_eq rfl rfl
  cases ho with
  | repeated id hst hprev =>
    -- the response before the current one: its success is the one the invariant vouches for
    obtain ⟨q, hv, hid, hlast⟩ := h.vouched hopen hst
    have hqid : q.id = id := by
      have := congrArg UInt8.toNat hid
      rw [UInt8.toNat_add, UInt8.toNat_one] at this
      have hlt' := q.id.toNat_lt
      exact UInt8.toNat_inj.mp (by omega)
    refine ⟨h.send fun i ↦ lastIssued_success, fun i hr ↦ ?_, fun hne ↦ absurd rfl hne⟩
    obtain rfl := reported_success_iff.mp hr
    exact ⟨q, hv, hqid, lastIssued_success.trans (hqid ▸ hlast)⟩
  | awaiting _ | mismatch _ => exact ⟨h, hsame.vouched⟩
  | badSize => exact keeps_chapGiveUp hopen (silent_chapSendFailure c)
  | noMemory => exact keeps_chapGiveUp hopen hsame
  | anyLogin name hlogin _ => nomatch hlogin.symm.trans hany
  | asked q hnone hchecks hid hval =>
    obtain ⟨hlast, hname⟩ := h.checked hopen hcond hnone hchecks hval
    refine ⟨⟨?_, ?_, h.issued, h.vouched, fun _ q' hq' ↦ ?_⟩, Silent.vouched (Silent.of_eq rfl rfl)⟩
    · exact (@ChapOutcome.asked cfg env Checks c q hnone hchecks hid hval).coherent h.coherent
    · exact fun hterm ↦ nomatch hterm.symm.trans hopen
    · have hasked : c.asked ++ [q] = [q'] := hq'
      rw [(h.coherent.idle hnone).2] at hasked
      obtain rfl := singleton_inj.mp hasked
      exact ⟨hlast, hval, hname⟩
  | unknown _ =>
    refine ⟨h.send fun i ↦ ?_, (silent_chapSendFailure c).vouched⟩
    rw [lastIssued, foldl_append]
    rfl
  | denied name _ => exact (keeps_chapDeny hopen name).1
  | accepted q hnone hchecks hid hval =>
    obtain ⟨hlast, hname⟩ := h.checked hopen hcond hnone hchecks hval
    exact (keeps_chapGrant (c := { c with toSes := c.toSes.accept q }) hopen
      (h.coherent.idle hnone) (mem_append_right _ (mem_singleton_self q)) hid hlast
      hname).1

end

/-- A challenge keeps the invariant if no answer is awaited, and a repeated one always does. -/
lemma Chap.Sound.challenge (h : c.Sound) (hopen : c.terminating = false)
    {new : Option (List UInt8)} (hnew : new = none ∨ c.name = none) :
    ChapKeeps c (chapSendChallenge cfg new c) := by
  refine ⟨⟨h.coherent, ?_, ?_, ?_, ?_⟩, Silent.vouched (Silent.send rfl rfl fun _ ↦
    ⟨Msg.noConfusion, Msg.noConfusion⟩)⟩
  · exact fun hterm ↦ nomatch hterm.symm.trans hopen
  · exact fun _ _ ↦ lastIssued_challenge
  · intro _ hst
    obtain ⟨q, hv, hid, hlast⟩ := h.vouched hopen hst
    -- the new challenge has another identifier than the last success
    have hne : c.id ≠ q.id := fun heq ↦ add_ne_left.mpr (by decide) (hid.trans heq)
    exact ⟨q, hv, hid, (lastIssued_challenge_of_ne hne).trans hlast⟩
  · intro _ q hq
    obtain ⟨hlast, hval, hname⟩ := h.pending hopen q hq
    rcases hnew with rfl | hnone
    · exact ⟨lastIssued_challenge.trans (congrArg some hval.symm), hval, hname⟩
    · have hnil : c.asked = [] := (h.coherent.idle hnone).2
      exact absurd (hnil.symm.trans hq).symm (cons_ne_nil q [])

variable {recvResponse : ChapHandler} {Checks : Chap → Frame → Name → Prop}
  {Dead : Config → Env → Chap → Frame → Prop}

/-- A late answer, to the query that is open. -/
lemma Chap.Sound.answer (h : c.Sound) (hq : q ∈ c.asked) (ok : Bool) (env : Env) :
    ChapKeeps c (chapStep recvResponse cfg c (.answer q ok env)) ∧
      AnswerApplied c.out (chapStep recvResponse cfg c (.answer q ok env)).toSes
        (.answer q ok env) := by
  have hopen : c.terminating = false := h.isOpen fun hclosed ↦ by
    rw [hclosed.2.2.2.2] at hq
    exact not_mem_nil hq
  rw [chapStep_answer h.coherent hq]
  obtain ⟨-, hid, hasked⟩ := h.coherent.eq_of_mem hq
  obtain ⟨hlast, -, hname⟩ := h.pending hopen q hasked
  cases ok with
  | true =>
    obtain ⟨hkeeps, happlied⟩ := @keeps_chapGrant cfg env
      { c with name := none, asked := [], accepted := c.accepted ++ [q] } q hopen ⟨rfl, rfl⟩
      (mem_append_right _ (mem_singleton_self q)) hid.symm hlast hname
    exact ⟨hkeeps, fun id hr ↦ ⟨rfl, happlied id hr⟩⟩
  | false =>
    obtain ⟨⟨hsound, hv⟩, hs⟩ :=
      keeps_chapDeny (c := { c with name := none, asked := [] }) hopen q.name
    -- the session has ended, so the identifier does not matter
    have hclosed := hsound.closed terminating_chapDeny
    exact ⟨⟨Chap.Closed.sound hclosed terminating_chapDeny, hv⟩, fun id hr ↦
      absurd hr (hs.not_reported id)⟩

/-- **One step of a CHAP protocol.** -/
theorem ChapSpec.keeps_step (hspec : ChapSpec recvResponse Checks Dead)
    (hany : cfg.anyLogin = false) (h : c.Sound) {e : AuthEvent} (hcond : c.KeepsIdentity Checks e) :
    ChapKeeps c (chapStep recvResponse cfg c e) ∧
      AnswerApplied c.out (chapStep recvResponse cfg c e).toSes e := by
  have hsame : ChapKeeps c c := ⟨h, Silent.vouched (Silent.of_eq rfl rfl)⟩
  cases e with
  | frame f env =>
    refine ⟨?_, trivial⟩
    rcases hspec.step_frame with ⟨heq, -⟩ | ⟨⟨hacc, hreg⟩, dead, hout, -⟩
    · rwa [heq]
    · have hopen := h.isOpen fun hclosed ↦ ne_true_of_eq_false hclosed.1 hreg
      exact (hout.keeps h.timerGone hopen (hcond hacc hreg) hany :)
  | answer q ok env =>
    by_cases hq : q ∈ c.asked
    · exact h.answer hq ok env
    · rw [chapStep, if_neg hq]
      exact ⟨hsame, fun id hr ↦ absurd hr ((Silent.of_eq rfl rfl).not_reported id)⟩
  | timeout =>
    refine ⟨?_, trivial⟩
    rw [chapStep]
    split
    · next htimer =>
      have hopen := h.isOpen fun hclosed ↦ ne_true_of_eq_false hclosed.2.1 htimer
      have hcount : Chap.Sound { c with failure := c.failure + 1 } :=
        { h with }
      rw [chapTimeoutTimer]
      split
      · exact keeps_chapGiveUp hopen (Silent.of_eq rfl rfl)
      · exact hcount.challenge hopen (.inl rfl)
    · exact hsame
  | interval env =>
    refine ⟨?_, trivial⟩
    rw [chapStep]
    split
    · next harmed =>
      have hopen := h.isOpen fun hclosed ↦ ne_true_of_eq_false hclosed.2.2.1 harmed
      exact h.challenge hopen (.inr (hcond harmed))
    · exact hsame
  | restart env =>
    refine ⟨?_, trivial⟩
    rw [chapStep]
    split
    · exact hsame
    · next hterm =>
      have hopen : c.terminating = false := eq_false_iff.mpr hterm
      exact h.challenge hopen (.inr (hcond hopen))
  | terminate =>
    refine ⟨?_, trivial⟩
    rw [chapStep]
    cases hterm : c.terminating with
    | true => rwa [chapTerminate, if_pos hterm]
    | false => exact keeps_chapTerminate hterm (Silent.of_eq rfl rfl)

end

/-! ### PAP -/

/-- The protocol is finished: nothing reaches it any more. -/
def Pap.Closed (p : Pap) : Prop :=
  p.active = false ∧ p.timeout = false ∧ p.Idle

/-- **The invariant of PAP**: a success is vouched for. -/
structure Pap.Sound (p : Pap) : Prop where
  coherent : p.Coherent
  closed : p.terminating = true → p.Closed
  vouched : p.terminating = false → p.started = true → ∃ q, p.Vouches q

/-- The step from `p` to `p'` keeps the invariant, and reports only what is vouched for. -/
def PapKeeps (p p' : Pap) : Prop :=
  p'.Sound ∧ StepVouched papFits p.out p.authorized p'.toSes

section

variable {p p' : Pap}

lemma Pap.Sound.isOpen (h : p.Sound) (hnot : ¬ p.Closed) : p.terminating = false :=
  eq_false_iff.mpr fun hterm ↦ hnot (h.closed hterm)

/-- Every way to end the session keeps the invariant: `d` is the state in which it ends. -/
lemma keeps_papTerminate {d : Pap} (hopen : d.terminating = false)
    (hs : Silent p.toSes d.toSes) : PapKeeps p (papTerminate d) := by
  rw [papTerminate, if_neg (by rw [hopen]; decide)]
  refine ⟨⟨.inl ⟨rfl, rfl⟩, fun _ ↦ ⟨rfl, rfl, rfl, rfl⟩, ?_⟩, Silent.vouched hs⟩
  exact fun hfalse ↦ absurd hfalse.symm false_ne_true

lemma silent_papSendNak {id : UInt8} (p : Pap) : Silent p.toSes (papSendNak id p).toSes :=
  Silent.send rfl rfl fun _ ↦ ⟨Msg.noConfusion, Msg.noConfusion⟩

lemma Silent.papTerminate {d : Pap} (h : Silent s d.toSes) : Silent s (papTerminate d).toSes := by
  rw [Auth.papTerminate]
  split <;> exact h

/-- A refusal ends the session. -/
lemma keeps_papDeny (hopen : p.terminating = false) (id : UInt8) (name : Name) :
    PapKeeps p (papDeny id name p) ∧ Silent p.toSes (papDeny id name p).toSes := by
  have hs := @silent_papSendNak id p
  unfold papDeny
  dsimp only
  split <;> exact ⟨keeps_papTerminate hopen hs, Silent.papTerminate hs⟩

/-- **A success is reported for the query that was accepted.** -/
theorem keeps_papGrant {q : Query} (hopen : p.terminating = false) (hidle : p.Idle)
    (hq : q ∈ p.accepted) :
    PapKeeps p (papGrant env q.id q.name p) ∧
      ∀ id, Reported p.out (papGrant env q.id q.name p).out id →
        id = q.id ∧ (papGrant env q.id q.name p).username = some q.name := by
  unfold papGrant
  rcases pppAuthSucceeded_cases with ⟨u, heq⟩ | heq <;> rw [heq] <;> dsimp only
  · have hnak : Silent p.toSes (papSendNak q.id { p with username := u }).toSes :=
      silent_papSendNak { p with username := u }
    exact ⟨keeps_papTerminate hopen hnak, fun id hr ↦ absurd hr (hnak.papTerminate.not_reported id)⟩
  refine ⟨⟨⟨.inl hidle, ?_, ?_⟩, ?_, fun _ ↦ ?_⟩, fun id hr ↦ ?_⟩
  · exact fun hterm ↦ nomatch hterm.symm.trans hopen
  · exact fun _ _ ↦ ⟨q, hq, rfl⟩
  · exact fun _ _ ↦ ⟨q, ⟨hq, rfl⟩, trivial⟩
  · exact ⟨q, ⟨hq, rfl⟩, reported_papAck_iff.mpr rfl, rfl⟩
  · exact ⟨reported_papAck_iff.mp hr, rfl⟩

lemma PapOutcome.keeps {dead : Bool} (ho : PapOutcome cfg env p dead p')
    (hany : cfg.anyLogin = false) (h : p.Sound) (hopen : p.terminating = false) :
    PapKeeps p p' := by
  have hsame : Silent p.toSes p.toSes := Silent.of_eq rfl rfl
  have hclosed : ∀ {P : Prop}, p.terminating = true → P :=
    fun hterm ↦ nomatch hterm.symm.trans hopen
  cases ho with
  | repeated id hst =>
    obtain ⟨q, hv⟩ := h.vouched hopen hst
    exact ⟨⟨h.coherent, hclosed, fun _ _ ↦ ⟨q, hv⟩⟩, fun _ _ ↦ ⟨q, hv, trivial⟩,
      fun hne ↦ absurd rfl hne⟩
  | awaiting _ | short _ _ => exact ⟨h, hsame.vouched⟩
  | anyLogin id name hlogin _ => nomatch hlogin.symm.trans hany
  | asked q hnone =>
    exact ⟨⟨(@PapOutcome.asked cfg env p q hnone).coherent h.coherent, hclosed, h.vouched⟩,
      Silent.vouched (Silent.of_eq rfl rfl)⟩
  | denied id name => exact (keeps_papDeny hopen id name).1
  | accepted q _ hnone =>
    exact (keeps_papGrant (p := { p with toSes := p.toSes.accept q }) hopen
      (h.coherent.idle hnone) (mem_append_right _ (mem_singleton_self q))).1

/-- **One step of PAP.** -/
theorem Pap.Sound.keeps_step (hany : cfg.anyLogin = false) (h : p.Sound) (e : AuthEvent) :
    PapKeeps p (papStep cfg p e) ∧ AnswerApplied p.out (papStep cfg p e).toSes e := by
  have hsame : PapKeeps p p := ⟨h, Silent.vouched (Silent.of_eq rfl rfl)⟩
  have hend : PapKeeps p (papTerminate p) := by
    cases hterm : p.terminating with
    | true => rwa [papTerminate, if_pos hterm]
    | false => exact keeps_papTerminate hterm (Silent.of_eq rfl rfl)
  cases e with
  | frame f env =>
    refine ⟨?_, trivial⟩
    rcases papStep_frame with ⟨heq, -⟩ | ⟨⟨-, hact⟩, dead, hout, -⟩
    · rwa [heq]
    · have hopen := h.isOpen fun hclosed ↦ ne_true_of_eq_false hclosed.1 hact
      have hgone : Pap.Sound { p with timeout := false } :=
        ⟨h.coherent, fun hterm ↦ ⟨(h.closed hterm).1, rfl, (h.closed hterm).2.2⟩, h.vouched⟩
      exact hout.keeps hany hgone hopen
  | answer q ok env =>
    by_cases hq : q ∈ p.asked
    · have hopen : p.terminating = false := h.isOpen fun hclosed ↦ by
        rw [hclosed.2.2.2] at hq
        exact not_mem_nil hq
      rw [papStep_answer h.coherent hq]
      cases ok with
      | true =>
        obtain ⟨hkeeps, happlied⟩ := @keeps_papGrant env
          { p with peerId := none, asked := [], accepted := p.accepted ++ [q] } q hopen ⟨rfl, rfl⟩
          (mem_append_right _ (mem_singleton_self q))
        exact ⟨hkeeps, fun id hr ↦ ⟨rfl, happlied id hr⟩⟩
      | false =>
        obtain ⟨hkeeps, hs⟩ :=
          keeps_papDeny (p := { p with peerId := none, asked := [] }) hopen q.id q.name
        exact ⟨hkeeps, fun id hr ↦ absurd hr (hs.not_reported id)⟩
    · rw [papStep, if_neg hq]
      exact ⟨hsame, fun id hr ↦ absurd hr ((Silent.of_eq rfl rfl).not_reported id)⟩
  | timeout =>
    refine ⟨?_, trivial⟩
    rw [papStep]
    split
    · next htimer =>
      have hopen := h.isOpen fun hclosed ↦ ne_true_of_eq_false hclosed.2.1 htimer
      exact keeps_papTerminate hopen (Silent.of_eq rfl rfl)
    · exact hsame
  | interval env => exact ⟨hsame, trivial⟩
  | restart env | terminate => exact ⟨hend, trivial⟩

end

/-! ### Runs -/

def AuthData.Sound : AuthData → Prop
  | .pap p => p.Sound
  | .chapMd5 c | .mschapV2 c => c.Sound

lemma sound_authStep {a : AuthData} {e : AuthEvent} (hany : cfg.anyLogin = false) (h : a.Sound)
    (hcond : KeepsIdentity a e) : (authStep H cfg a e).Sound ∧ SuccessVouched H cfg a e := by
  cases a with
  | pap p =>
    obtain ⟨⟨hsound, hv⟩, happlied⟩ := Pap.Sound.keeps_step hany h e
    exact ⟨hsound, hv, happlied⟩
  | chapMd5 c =>
    obtain ⟨⟨hsound, hv⟩, happlied⟩ := (chapMd5_spec H).keeps_step hany h hcond
    exact ⟨hsound, hv, happlied⟩
  | mschapV2 c =>
    obtain ⟨⟨hsound, hv⟩, happlied⟩ := (mschapV2_spec H).keeps_step hany h hcond
    exact ⟨hsound, hv, happlied⟩

lemma Begun.sound {a : AuthData} (h : Begun cfg a) : a.Sound := by
  cases h with
  | pap =>
    exact ⟨.inl ⟨rfl, rfl⟩, nofun, nofun⟩
  | chapMd5 random | mschapV2 random =>
    exact ⟨.inl ⟨rfl, rfl⟩, nofun, fun _ _ ↦ rfl,
      nofun, fun _ q hq ↦ absurd hq.symm (cons_ne_nil q [])⟩

end

/-- **Success is reported for the name that was checked.** Without `any-login`, each report of
success has behind it an accepted query with the session's name, with CHAP a response to the
challenge last issued with the identifier of the report; and a late answer is applied to the
response it was asked for. The run may not contain a CHAP response under another name or without a
challenge after the first success, nor a new challenge while an answer is awaited. -/
theorem success_vouched (H : Crypto) {cfg : Config} (hany : cfg.anyLogin = false) {a : AuthData}
    (h : Begun cfg a) (es : List AuthEvent) (hes : Along (authStep H cfg) KeepsIdentity a es) :
    Along (authStep H cfg) (SuccessVouched H cfg) a es :=
  Along.along (fun _ _ hs hcond ↦ (sound_authStep hany hs hcond).1)
    (fun _ _ hs hcond ↦ (sound_authStep hany hs hcond).2) h.sound hes

/-! ### Two runs with re-authentication -/

/-- A database that accepts every response. -/
def Env.trusting : Env :=
  { Env.bare with pwdb := [⟨some fun _ ↦ .success, none⟩], random := List.replicate 16 9 }

/-- The default options, with re-authentication every minute. -/
def everyMinute : Config :=
  { Config.default with interval := 60 }

/-- The first authentication under the name, and the second under the other one. -/
def reauthentication (name name' : UInt8) : List AuthEvent :=
  [.frame (md5Response 1 name) .trusting, .interval .trusting,
    .frame (md5Response 2 name') .trusting]

/-- The peer authenticates twice under one name, and success is reported twice. -/
theorem success_vouched_same_name :
    let H : Crypto := ⟨id, id, id, fun x _ ↦ x⟩
    let a : AuthData := .chapMd5 (chapStart everyMinute [7] Chap.init)
    Along (authStep H everyMinute) (SuccessVouched H everyMinute) a (reauthentication 97 97) ∧
      (run (authStep H everyMinute) a (reauthentication 97 97)).ses.out =
        [.challenge 1 [7], .success 1, .challenge 2 (replicate 16 9), .success 2] := by
  refine ⟨success_vouched _ rfl (.chapMd5 [7]) _ ⟨?_, fun _ ↦ rfl, ?_, trivial⟩, by decide⟩
  · exact nofun
  · rintro _ _ _ _ name ⟨-, -, rfl⟩
    decide

/-- **Another name in re-authentication**: the second response gives another name than the
session's, a database accepts it, and success is reported. -/
theorem other_name_reauthenticates :
    let H : Crypto := ⟨id, id, id, fun x _ ↦ x⟩
    ¬ Along (authStep H everyMinute) (SuccessVouched H everyMinute)
      (.chapMd5 (chapStart everyMinute [7] Chap.init)) (reauthentication 97 98) := by
  rintro H ⟨-, -, ⟨⟨hreported, -⟩, -⟩, -⟩
  obtain ⟨q, ⟨hq, hname⟩, hid, -⟩ := hreported 2 ⟨[.success 2], by decide, by decide⟩
  have hnone : ∀ q ∈ (run (authStep H everyMinute)
      (.chapMd5 (chapStart everyMinute [7] Chap.init)) (reauthentication 97 98)).ses.accepted,
      some q.name = some [97] → q.id ≠ 2 := by
    decide
  have huser : (run (authStep H everyMinute)
      (.chapMd5 (chapStart everyMinute [7] Chap.init)) (reauthentication 97 98)).ses.username =
      some [97] := by
    decide
  exact hnone q hq (hname.symm.trans huser) hid

end AccelPpp.Auth
