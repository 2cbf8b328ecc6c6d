import AccelPpp.Auth.Pending

/-!
# The authentication phase does not hang, when it does not

While an authentication has neither succeeded nor ended the session, its timeout timer must be
armed, or a password database owe an answer. Otherwise the peer decides how long the session stays
half open.

All three handlers delete the timer when a frame arrives. What comes after must terminate, succeed
or wait for a database. It does not in the **dead ends** of `PapOutcome` and `ChapOutcome`: a PAP
request with a length that is too large, a CHAP response with another identifier than the current
one, and a CHAP-MD5 response of an unknown user. `always_alive_iff` says that these are the only
ones.
-/

namespace AccelPpp.Auth

open Bool ByteReader List Transition

/-- The authentication has succeeded, the session is terminated, the timer is armed, or an answer is
outstanding. -/
def Pap.Alive (p : Pap) : Prop :=
  p.started = true ∨ p.terminating = true ∨ p.timeout = true ∨ p.asked ≠ []

/-- The same of a CHAP protocol. -/
def Chap.Alive (c : Chap) : Prop :=
  c.started = true ∨ c.terminating = true ∨ c.timeout = true ∨ c.asked ≠ []

def AuthData.Alive : AuthData → Prop
  | .pap p => p.Alive
  | .chapMd5 c | .mschapV2 c => c.Alive

/-- The pending answer, in each protocol. -/
def AuthData.Coherent : AuthData → Prop
  | .pap p => p.Coherent
  | .chapMd5 c | .mschapV2 c => c.Coherent

/-- The frame is looked at by a PAP that is still to decide. -/
def Pap.Undecided (p : Pap) (f : Frame) : Prop :=
  f.Accepted 1 ∧ p.active = true ∧ p.started = false ∧ p.terminating = false ∧ p.peerId = none

/-- The frame is looked at by a CHAP protocol that is still to decide. -/
def Chap.Undecided (c : Chap) (f : Frame) : Prop :=
  f.Accepted 2 ∧ c.registered = true ∧ c.started = false ∧ c.terminating = false ∧ c.name = none

/-- **The condition on a step**: the frame is no dead end. -/
def NoDeadEnd (cfg : Config) : AuthData → AuthEvent → Prop
  | .pap p, .frame f _ => p.Undecided f → ¬ f.PapShort
  | .chapMd5 c, .frame f env => c.Undecided f → ¬ chapMd5Dead cfg env c f
  | .mschapV2 c, .frame f env => c.Undecided f → ¬ mschapV2Dead cfg env c f
  | _, _ => True

section

variable {H : Crypto} {cfg : Config} {env : Env} {f : Frame}

/-- If nothing but a dead end leaves no prospect, it is an undecided protocol that is left without
one. -/
lemma alive_iff_not_dead {alive dead acc act none : Prop} {atEnd started terminating : Bool}
    (hacc : acc) (hact : act) (hnone : atEnd = true → none)
    (halive : alive ↔ atEnd = false ∨ started = true ∨ terminating = true)
    (hdead : started = false → none → (atEnd = true ↔ dead)) :
    alive ↔ (acc ∧ act ∧ started = false ∧ terminating = false ∧ none → ¬ dead) := by
  rw [halive]
  cases atEnd with
  | false =>
    exact iff_of_true (.inl rfl) fun ⟨_, _, hst, _, hn⟩ hd ↦ false_ne_true ((hdead hst hn).mpr hd)
  | true =>
    have hn := hnone rfl
    cases started <;> cases terminating
    · exact iff_of_false (by simp) fun hf ↦
        hf ⟨hacc, hact, rfl, rfl, hn⟩ ((hdead rfl hn).mp rfl)
    all_goals simp

/-! ### PAP -/

section

variable {p p' : Pap}

lemma alive_papGrant {env : Env} {id : UInt8} {name : Name} {p : Pap} :
    (papGrant env id name p).Alive := by
  rw [papGrant]
  rcases pppAuthSucceeded_cases with ⟨u, heq⟩ | heq <;> rw [heq]
  · exact .inr (.inl terminating_papTerminate)
  · exact .inl rfl

/-- Only a dead end leaves PAP without a prospect, and it does so in every undecided state. -/
lemma PapOutcome.alive_iff {dead : Bool} (ho : PapOutcome cfg env p dead p') (h : p.Coherent)
    (htimer : p.timeout = false) :
    p'.Alive ↔ dead = false ∨ p.started = true ∨ p.terminating = true := by
  cases ho with
  | repeated id hst => exact iff_of_true (.inl hst) (.inl rfl)
  | awaiting hsome =>
    exact iff_of_true (.inr (.inr (.inr (h.asked_ne_nil hsome)))) (.inl rfl)
  | short hst hnone =>
    rw [Pap.Alive, htimer, (h.idle hnone).2]
    simp
  | anyLogin id name _ _ => exact iff_of_true alive_papGrant (.inl rfl)
  | asked q _ =>
    refine iff_of_true (.inr (.inr (.inr ?_))) (.inl rfl)
    exact append_ne_nil_of_right_ne_nil p.asked (cons_ne_nil q [])
  | denied id name => exact iff_of_true (.inr (.inl terminating_papDeny)) (.inl rfl)
  | accepted q _ _ => exact iff_of_true alive_papGrant (.inl rfl)

lemma PapOutcome.peerId_of_dead (ho : PapOutcome cfg env p true p') : p.peerId = none := by
  cases ho with
  | short _ hnone => exact hnone

lemma alive_papStep_frame (h : p.Coherent) (ha : p.Alive) :
    (papStep cfg p (.frame f env)).Alive ↔ (p.Undecided f → ¬ f.PapShort) := by
  rcases papStep_frame with ⟨hsame, hnot⟩ | ⟨⟨hacc, hact⟩, dead, hout, hdead⟩
  · rw [hsame]
    exact iff_of_true ha fun hu ↦ absurd ⟨hu.1, hu.2.1⟩ hnot
  exact alive_iff_not_dead hacc hact (fun hd ↦ (hd ▸ hout).peerId_of_dead) (hout.alive_iff h rfl)
    hdead

/-- Every event but a frame leaves PAP with a prospect. -/
lemma alive_papStep {e : AuthEvent} (he : ∀ f env, e ≠ .frame f env) (h : p.Coherent)
    (ha : p.Alive) : (papStep cfg p e).Alive := by
  cases e with
  | frame f env => exact absurd rfl (he f env)
  | answer q ok env =>
    by_cases hq : q ∈ p.asked
    · rw [papStep_answer h hq]
      split
      · exact alive_papGrant
      · exact .inr (.inl terminating_papDeny)
    · rwa [papStep, if_neg hq]
  | timeout =>
    rw [papStep]
    split
    · exact .inr (.inl terminating_papTerminate)
    · exact ha
  | interval env => exact ha
  | restart env | terminate => exact .inr (.inl terminating_papTerminate)

end

/-! ### CHAP -/

section

variable {c c' : Chap} {recvResponse : ChapHandler} {Checks : Chap → Frame → Name → Prop}
  {Dead : Config → Env → Chap → Frame → Prop}

lemma alive_chapGrant {cfg : Config} {env : Env} {name : Name} {c : Chap} :
    (chapGrant cfg env name c).Alive := by
  rcases chapGrant_cases with ⟨hst, heq⟩ | ⟨-, ⟨u, heq⟩ | heq⟩ <;> rw [heq]
  · exact .inl hst
  · exact .inr (.inl terminating_chapTerminate)
  · exact .inl rfl

/-- A challenge always leaves the timer armed, since `conf_timeout` is positive. -/
lemma alive_chapSendChallenge {cfg : Config} {new : Option (List UInt8)} {c : Chap} :
    (chapSendChallenge cfg new c).Alive := by
  have hpos : (cfg.timeout != 0) = true := bne_iff_ne.mpr cfg.timeout_pos.ne'
  refine .inr (.inr (.inl ?_))
  rw [chapSendChallenge, hpos, Bool.or_true]

/-- Only a dead end leaves CHAP without a prospect, and it does so in every undecided state. -/
lemma ChapOutcome.alive_iff {Checks : Name → Prop} {dead : Bool}
    (ho : ChapOutcome cfg env Checks c dead c') (h : c.Coherent) (htimer : c.timeout = false) :
    c'.Alive ↔ dead = false ∨ c.started = true ∨ c.terminating = true := by
  -- both dead ends keep the state, apart from a message that is sent
  have hdead (hnone : c.name = none) :
      c.Alive ↔ true = false ∨ c.started = true ∨ c.terminating = true := by
    rw [Chap.Alive, htimer, (h.idle hnone).2]
    simp
  cases ho with
  | repeated id hst _ => exact iff_of_true (.inl hst) (.inl rfl)
  | awaiting hsome =>
    exact iff_of_true (.inr (.inr (.inr (h.asked_ne_nil hsome)))) (.inl rfl)
  | mismatch hnone | unknown hnone => exact hdead hnone
  | badSize | noMemory => exact iff_of_true (.inr (.inl terminating_chapGiveUp)) (.inl rfl)
  | anyLogin name _ _ =>
    refine iff_of_true ?_ (.inl rfl)
    rw [chapAnyLogin]
    rcases pppAuthSucceeded_cases with ⟨u, heq⟩ | heq <;> rw [heq]
    · exact .inr (.inl terminating_chapTerminate)
    · exact .inl rfl
  | asked q _ _ _ _ =>
    refine iff_of_true (.inr (.inr (.inr ?_))) (.inl rfl)
    exact append_ne_nil_of_right_ne_nil c.asked (cons_ne_nil q [])
  | denied name _ => exact iff_of_true (.inr (.inl terminating_chapDeny)) (.inl rfl)
  | accepted q _ _ _ _ => exact iff_of_true alive_chapGrant (.inl rfl)

lemma ChapOutcome.name_of_dead {Checks : Name → Prop}
    (ho : ChapOutcome cfg env Checks c true c') : c.name = none := by
  cases ho with
  | mismatch hnone | unknown hnone => exact hnone

lemma ChapSpec.alive_frame (hspec : ChapSpec recvResponse Checks Dead) (h : c.Coherent)
    (ha : c.Alive) :
    (chapStep recvResponse cfg c (.frame f env)).Alive ↔ (c.Undecided f → ¬ Dead cfg env c f) := by
  rcases hspec.step_frame with ⟨hsame, hnot⟩ | ⟨⟨hacc, hreg⟩, dead, hout, hdead⟩
  · rw [hsame]
    exact iff_of_true ha fun hu ↦ absurd ⟨hu.1, hu.2.1⟩ hnot
  exact alive_iff_not_dead hacc hreg (fun hd ↦ (hd ▸ hout).name_of_dead) (hout.alive_iff h rfl)
    hdead

/-- Every event but a frame leaves CHAP with a prospect. -/
lemma alive_chapStep {e : AuthEvent} (he : ∀ f env, e ≠ .frame f env) (h : c.Coherent)
    (ha : c.Alive) : (chapStep recvResponse cfg c e).Alive := by
  cases e with
  | frame f env => exact absurd rfl (he f env)
  | answer q ok env =>
    by_cases hq : q ∈ c.asked
    · rw [chapStep_answer h hq]
      split
      · exact alive_chapGrant
      · exact .inr (.inl terminating_chapDeny)
    · rwa [chapStep, if_neg hq]
  | timeout =>
    rw [chapStep]
    split
    · rw [chapTimeoutTimer]
      split
      · exact .inr (.inl terminating_chapGiveUp)
      · exact alive_chapSendChallenge
    · exact ha
  | interval env =>
    rw [chapStep]
    split
    · exact alive_chapSendChallenge
    · exact ha
  | restart env =>
    rw [chapStep]
    split
    · exact ha
    · exact alive_chapSendChallenge
  | terminate => exact .inr (.inl terminating_chapTerminate)

end

/-! ### Runs -/

lemma AuthData.Coherent.step {a : AuthData} (h : a.Coherent) (e : AuthEvent) :
    (authStep H cfg a e).Coherent := by
  cases a with
  | pap p => exact Pap.Coherent.step h e
  | chapMd5 c => exact Chap.Coherent.step (chapMd5_spec H) h e
  | mschapV2 c => exact Chap.Coherent.step (mschapV2_spec H) h e

/-- **One step** keeps the authentication alive exactly when it is no dead end. -/
theorem alive_authStep_iff {a : AuthData} {e : AuthEvent} (h : a.Coherent) (ha : a.Alive) :
    (authStep H cfg a e).Alive ↔ NoDeadEnd cfg a e := by
  by_cases he : ∃ f env, e = .frame f env
  · obtain ⟨f, env, rfl⟩ := he
    cases a with
    | pap p => exact alive_papStep_frame h ha
    | chapMd5 c => exact (chapMd5_spec H).alive_frame h ha
    | mschapV2 c => exact (mschapV2_spec H).alive_frame h ha
  · have hne : ∀ f env, e ≠ .frame f env := fun f env heq ↦ he ⟨f, env, heq⟩
    have hcond : NoDeadEnd cfg a e := by
      cases e with
      | frame f env => exact absurd rfl (hne f env)
      | _ => cases a <;> trivial
    refine iff_of_true ?_ hcond
    cases a with
    | pap p => exact alive_papStep hne h ha
    | chapMd5 c | mschapV2 c => exact alive_chapStep hne h ha

lemma Begun.coherent_alive {a : AuthData} (h : Begun cfg a) : a.Coherent ∧ a.Alive := by
  cases h with
  | pap => exact ⟨.inl ⟨rfl, rfl⟩, .inr (.inr (.inl rfl))⟩
  | chapMd5 random | mschapV2 random => exact ⟨.inl ⟨rfl, rfl⟩, alive_chapSendChallenge⟩

end

/-- **The authentication phase never hangs**: in every state of a run it has succeeded, is
terminated, has its timer armed or waits for a database, if and only if no frame of the run is a
dead end. -/
theorem always_alive_iff (H : Crypto) {cfg : Config} {a : AuthData} (h : Begun cfg a)
    (es : List AuthEvent) :
    Always (authStep H cfg) AuthData.Alive a es ↔ Along (authStep H cfg) (NoDeadEnd cfg) a es :=
  always_iff_along_of_inv (fun _ e hc ↦ hc.step e) (fun _ _ hc ha ↦ alive_authStep_iff hc ha)
    h.coherent_alive.1 h.coherent_alive.2

/-- No database, and nothing refused. -/
def Env.bare : Env where
  pwdb := []
  checkUsername := fun _ ↦ false
  setUsername := fun _ ↦ false
  connect := true
  random := replicate 16 0
  memory := true

/-- A CHAP response with the given identifier and the rest zero, of 56 bytes. -/
def responseWithId (id : UInt8) : Frame where
  mem := fun o ↦ [0xc2, 0x23, 2, id, 0, 54].getD o 0
  size := 56
  size_le := by decide

/-- A timeout, and then a response with the current identifier. -/
theorem always_alive_current_id :
    Begun Config.default (.mschapV2 (chapStart Config.default [7] Chap.init)) ∧
      Always (authStep ⟨id, id, id, fun x _ ↦ x⟩ Config.default) AuthData.Alive
        (.mschapV2 (chapStart Config.default [7] Chap.init))
        [.timeout, .frame (responseWithId 1) Env.bare] :=
  ⟨.mschapV2 [7], (always_alive_iff _ (.mschapV2 [7]) _).mpr
    ⟨trivial, fun _ ↦ not_not.mpr rfl, trivial⟩⟩

/-- **Late answers meet their questions**, whatever comes in a run: at most one query is open, and
the name and the identifier that are kept are those of it. -/
theorem always_coherent (H : Crypto) {cfg : Config} {a : AuthData} (h : Begun cfg a)
    (es : List AuthEvent) : Always (authStep H cfg) AuthData.Coherent a es :=
  fun pre _ ↦ foldlRecOn pre _ h.coherent_alive.1 fun _ hc e _ ↦ hc.step e

/-- A CHAP-MD5 response with a name of one byte. -/
def md5Response (id name : UInt8) : Frame where
  mem := fun o ↦ ([0xc2, 0x23, 2, id, 0, 22, 16] ++ List.replicate 16 0 ++ [name]).getD o 0
  size := 24
  size_le := by decide

/-- A database is asked, answers later, and then CHAP begins anew. -/
theorem always_coherent_restart :
    let H : Crypto := ⟨id, id, id, fun x _ ↦ x⟩
    let a : AuthData := .chapMd5 (chapStart .default [7] Chap.init)
    let env := { Env.bare with pwdb := [⟨some fun _ ↦ .wait, none⟩] }
    let q : Query := ⟨[97], 1, [7], .chapMd5 (replicate 16 0)⟩
    (authStep H .default a (.frame (md5Response 1 97) env)).ses.asked = [q] ∧
      Always (authStep H .default) AuthData.Coherent a
        [.frame (md5Response 1 97) env, .answer q true env, .restart env] := by
  intro H a env q
  exact ⟨by decide, always_coherent H (.chapMd5 [7]) _⟩

/-- **One response with another identifier** and the peer has all the time it wants. -/
theorem wrong_id_stops_timer :
    ¬ ∃ H : Crypto, Always (authStep H Config.default) AuthData.Alive
      (.chapMd5 (chapStart Config.default [7] Chap.init))
      [.frame (responseWithId 9) Env.bare] := by
  rintro ⟨H, h⟩
  have hdead : ¬ (authStep H Config.default (.chapMd5 (chapStart Config.default [7] Chap.init))
      (.frame (responseWithId 9) Env.bare)).Alive := by
    show ¬ (false = true ∨ false = true ∨ false = true ∨ ([] : List Query) ≠ [])
    simp
  exact hdead h.last

end AccelPpp.Auth
