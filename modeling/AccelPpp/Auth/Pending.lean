import AccelPpp.Auth.Machine

/-!
# What a frame leads to, and the answer that is awaited

**Outcomes.** `PapOutcome` and `ChapOutcome` list what the handlers can make of a frame they look
at, each case with the facts under which it arises; `papRecvReq_outcome`, `chapMd5_spec` and
`mschapV2_spec` say that the handlers do one of these. The Boolean index marks the **dead ends**,
the cases that neither decide anything nor wait for an answer. The handlers delete the timer first,
so it is gone in the states of the list.

**The pending answer.** While a name is kept, exactly one query is open, and it is the one that name
and identifier belong to; otherwise no query is open. Every step keeps this (`Coherent`), so that a
late answer is never applied to another response than the one it was asked for.
-/

namespace AccelPpp.Auth

open ByteReader List Reader

section

variable {H : Crypto} {cfg : Config} {env : Env} {f : Frame}

lemma pppAuthSucceeded_cases {env : Env} {name : Name} {s : Ses} :
    (∃ u, pppAuthSucceeded env name s = (false, { s with username := u })) ∨
      pppAuthSucceeded env name s =
        (true, { s with username := some name, authorized := s.authorized ++ [name] }) := by
  rw [pppAuthSucceeded]
  split
  · exact .inl ⟨s.username, rfl⟩
  split
  · exact .inl ⟨some name, rfl⟩
  · exact .inr rfl

/-! ### PAP -/

/-- What PAP makes of a request, in a state whose timer has been deleted. -/
inductive PapOutcome (cfg : Config) (env : Env) (p : Pap) : Bool → Pap → Prop where
  /-- The session is authenticated already. -/
  | repeated (id : UInt8) : p.started = true → PapOutcome cfg env p false (papSendAck id p)
  /-- An answer is awaited. -/
  | awaiting : p.peerId ≠ none → PapOutcome cfg env p false p
  /-- A length in the request is too large. -/
  | short : p.started = false → p.peerId = none → PapOutcome cfg env p true p
  | anyLogin (id : UInt8) (name : Name) : cfg.anyLogin = true → p.peerId = none →
      PapOutcome cfg env p false (papGrant env id name p)
  | asked (q : Query) : p.peerId = none →
      PapOutcome cfg env p false
        { p with peerId := some q.name, reqId := q.id, asked := p.asked ++ [q] }
  | denied (id : UInt8) (name : Name) : PapOutcome cfg env p false (papDeny id name p)
  | accepted (q : Query) : p.started = false → p.peerId = none →
      PapOutcome cfg env p false (papGrant env q.id q.name { p with toSes := p.toSes.accept q })

/-- One of the two lengths in the request exceeds what the length field leaves for it. -/
def Frame.PapShort (f : Frame) : Prop :=
  5 ≤ f.len ∧ f.len < 5 + (f.mem 6).toNat ∨
    6 + (f.mem 6).toNat ≤ f.len ∧
      f.len < 6 + (f.mem 6).toNat + (f.mem (7 + (f.mem 6).toNat)).toNat

/-- **PAP's outcomes.** The dead end is the short request. -/
theorem papRecvReq_outcome {p : Pap} (hact : p.active = true) :
    ∃ dead, PapOutcome cfg env { p with timeout := false } dead
        ((papRecvReq cfg env p f.len).result f.mem) ∧
      (p.started = false → p.peerId = none → (dead = true ↔ f.PapShort)) := by
  have hlt := f.len_lt
  have ha := (f.mem 6).toNat_lt
  have hb := (f.mem (7 + (f.mem 6).toNat)).toNat_lt
  rw [papRecvReq, Frame.PapShort]
  rw [if_neg (by rw [hact]; decide), result_bind]
  split
  · next h => exact ⟨false, .repeated _ h, fun hst ↦ nomatch h.symm.trans hst⟩
  next hst =>
  rw [Bool.not_eq_true] at hst
  split
  · next h =>
    have hsome : p.peerId ≠ none := Option.isSome_iff_ne_none.mp h
    exact ⟨false, .awaiting hsome, fun _ hnone ↦ absurd hnone hsome⟩
  next hsome =>
  have hnone : p.peerId = none := by simpa using hsome
  rw [result_bind, result_byte]
  generalize (f.mem 6).toNat = a at ha hb ⊢
  split
  · next hshort =>
    rw [sizeDiff_lt_iff hlt (by omega) (by omega)] at hshort
    exact ⟨true, .short hst hnone, fun _ _ ↦ iff_of_true rfl (.inl hshort)⟩
  next hname =>
  rw [sizeDiff_lt_iff hlt (by omega) (by omega)] at hname
  rw [result_bind, result_byte]
  split
  · next hshort =>
    rw [sizeDiff_lt_iff hlt (by omega) (by omega)] at hshort
    exact ⟨true, .short hst hnone, fun _ _ ↦ iff_of_true rfl (.inr hshort)⟩
  next hpass =>
  rw [sizeDiff_lt_iff hlt (by omega) (by omega)] at hpass
  have hlong := not_or.mpr ⟨hname, hpass⟩
  rw [result_bind]
  split
  · next hany =>
    exact ⟨false, .anyLogin _ _ hany hnone, fun _ _ ↦ iff_of_false Bool.false_ne_true hlong⟩
  · rw [result_bind]
    refine ⟨false, ?_, fun _ _ ↦ iff_of_false Bool.false_ne_true hlong⟩
    rw [papCheck]
    split
    · exact .asked ⟨_, _, [], .pap _⟩ hnone
    · split
      · exact .denied _ _
      · split
        · exact .accepted ⟨_, _, [], .pap _⟩ hst hnone
        · exact .denied _ _
    · exact .denied _ _
    · exact .accepted ⟨_, _, [], .pap _⟩ hst hnone

/-! ### CHAP -/

/-- What a CHAP protocol makes of a response, in a state whose timer has been deleted. `Checks name`
says that the response was checked under that name. -/
inductive ChapOutcome (cfg : Config) (env : Env) (Checks : Name → Prop) (c : Chap) :
    Bool → Chap → Prop where
  /-- The response before the current one, which had success. -/
  | repeated (id : UInt8) : c.started = true → id.toNat + 1 = c.id.toNat →
      ChapOutcome cfg env Checks c false (chapSendSuccess id c)
  /-- An answer is awaited. -/
  | awaiting : c.name ≠ none → ChapOutcome cfg env Checks c false c
  /-- Another identifier than the current one. -/
  | mismatch : c.name = none → ChapOutcome cfg env Checks c true c
  | badSize : ChapOutcome cfg env Checks c false (chapBadSize c)
  | noMemory : ChapOutcome cfg env Checks c false (chapGiveUp c)
  | anyLogin (name : Name) : cfg.anyLogin = true → c.name = none →
      ChapOutcome cfg env Checks c false (chapAnyLogin env name c)
  | asked (q : Query) : c.name = none → Checks q.name → q.id = c.id → q.challenge = c.val →
      ChapOutcome cfg env Checks c false (chapAsk q c)
  /-- No password is known for the name. -/
  | unknown : c.name = none → ChapOutcome cfg env Checks c true (chapSendFailure c)
  | denied (name : Name) : c.name = none → ChapOutcome cfg env Checks c false (chapDeny name c)
  | accepted (q : Query) : c.name = none → Checks q.name → q.id = c.id → q.challenge = c.val →
      ChapOutcome cfg env Checks c false (chapAccept cfg env q c)

/-- The part of a response both protocols treat alike. The result is a dead end if the identifier is
another than the current one, or the rest of the handler leads to one. -/
lemma chapResponse_outcome {print : Reader Unit} {c : Chap} {body : Chap → Reader Chap}
    {Checks : Name → Prop} {Dead : Prop}
    (hbody : c.name = none → f.mem 3 = c.id → ∃ dead,
      ChapOutcome cfg env Checks { c with timeout := false } dead
          ((body { c with timeout := false }).result f.mem) ∧ (dead = true ↔ Dead)) :
    ∃ dead, ChapOutcome cfg env Checks { c with timeout := false } dead
        ((chapResponse print c body).result f.mem) ∧
      (c.started = false → c.name = none → (dead = true ↔ f.mem 3 ≠ c.id ∨ Dead)) := by
  rw [chapResponse, result_bind, result_bind]
  split
  · next h =>
    rw [Bool.and_eq_true, beq_iff_eq] at h
    exact ⟨false, .repeated _ h.1 h.2, fun hst ↦ absurd h.1 (ne_true_of_eq_false hst)⟩
  split
  · next h =>
    have hsome : c.name ≠ none := Option.isSome_iff_ne_none.mp h
    exact ⟨false, .awaiting hsome, fun _ hnone ↦ absurd hnone hsome⟩
  next hsome =>
  have hnone : c.name = none := by simpa using hsome
  split
  · next hid =>
    exact ⟨true, .mismatch hnone, fun _ _ ↦ iff_of_true rfl (.inl hid)⟩
  · next hid =>
    obtain ⟨dead, hout, hdead⟩ := hbody hnone (not_not.mp hid)
    exact ⟨dead, hout, fun _ _ ↦ hdead.trans (or_iff_right hid).symm⟩

/-- The name in a CHAP-MD5 response. -/
def Frame.chapMd5Name (f : Frame) : Name :=
  (str 23 (sizeDiff f.len 21)).result f.mem

/-- The value in a CHAP-MD5 response. -/
def Frame.chapMd5Value (f : Frame) : List UInt8 :=
  (bytes 7 16).result f.mem

/-- The name in an MS-CHAPv2 response. -/
def Frame.mschapV2Name (f : Frame) : Name :=
  (str 56 (sizeDiff f.len 54)).result f.mem

/-- No database checks the CHAP-MD5 response itself, and none has a password for its name. -/
def ChapUnknown (env : Env) (c : Chap) (f : Frame) : Prop :=
  pwdbCheck env ⟨f.chapMd5Name, c.id, c.val, .chapMd5 f.chapMd5Value⟩ = .noImpl ∧
    pwdbGetPasswd env f.chapMd5Name = none

lemma chapMd5Check_outcome {Checks : Name → Prop} {c : Chap} (name : Name) (value : List UInt8)
    (hnone : c.name = none) (hchecks : Checks name) :
    ∃ dead, ChapOutcome cfg env Checks c dead (chapMd5Check H cfg env name value c) ∧
      (dead = true ↔ pwdbCheck env ⟨name, c.id, c.val, .chapMd5 value⟩ = .noImpl ∧
        pwdbGetPasswd env name = none) := by
  let q : Query := ⟨name, c.id, c.val, .chapMd5 value⟩
  have haccept : ChapOutcome cfg env Checks c false (chapAccept cfg env q c) :=
    .accepted q hnone hchecks rfl rfl
  unfold chapMd5Check
  dsimp only
  split
  · next h =>
    exact ⟨false, .asked q hnone hchecks rfl rfl,
      iff_of_false Bool.false_ne_true fun hd ↦ nomatch h.symm.trans hd.1⟩
  · next h =>
    split
    · next hp => exact ⟨true, .unknown hnone, iff_of_true rfl ⟨h, hp⟩⟩
    next passwd hp =>
    have hknown : ¬ (pwdbCheck env q = .noImpl ∧ pwdbGetPasswd env name = none) :=
      fun hd ↦ nomatch hp.symm.trans hd.2
    split
    · exact ⟨false, haccept, iff_of_false Bool.false_ne_true hknown⟩
    · exact ⟨false, .denied name hnone, iff_of_false Bool.false_ne_true hknown⟩
  · next h =>
    exact ⟨false, .denied name hnone,
      iff_of_false Bool.false_ne_true fun hd ↦ nomatch h.symm.trans hd.1⟩
  · next h =>
    exact ⟨false, haccept,
      iff_of_false Bool.false_ne_true fun hd ↦ nomatch h.symm.trans hd.1⟩

/-- **What a CHAP protocol does with a response**: one of the outcomes, where `Checks` says which
responses are checked and under which name, and `Dead` which lead to a dead end. -/
def ChapSpec (recvResponse : ChapHandler) (Checks : Chap → Frame → Name → Prop)
    (Dead : Config → Env → Chap → Frame → Prop) : Prop :=
  ∀ (cfg : Config) (env : Env) (c : Chap) (f : Frame), ∃ dead,
    ChapOutcome cfg env (Checks c f) { c with timeout := false } dead
        ((recvResponse cfg env c f.len).result f.mem) ∧
      (c.started = false → c.name = none → (dead = true ↔ Dead cfg env c f))

/-- The CHAP-MD5 responses that are checked: the current identifier, and a value of 16 bytes. -/
def chapMd5Checks (c : Chap) (f : Frame) (name : Name) : Prop :=
  f.mem 3 = c.id ∧ f.mem 6 = 16 ∧ name = f.chapMd5Name

/-- The dead ends of CHAP-MD5: another identifier, and an unknown user. -/
def chapMd5Dead (cfg : Config) (env : Env) (c : Chap) (f : Frame) : Prop :=
  f.mem 3 ≠ c.id ∨ f.mem 6 = 16 ∧ cfg.anyLogin = false ∧ ChapUnknown env c f

lemma chapMd5_spec (H : Crypto) : ChapSpec (chapMd5RecvResponse H) chapMd5Checks chapMd5Dead := by
  intro cfg env c f
  refine chapResponse_outcome fun hnone hid ↦ ?_
  rw [result_bind, result_byte]
  split
  · next h => exact ⟨false, .badSize, iff_of_false Bool.false_ne_true fun hd ↦ absurd hd.1 h⟩
  next hval =>
  rw [not_not] at hval
  rw [result_bind]
  split
  · next h =>
    exact ⟨false, .anyLogin _ h hnone,
      iff_of_false Bool.false_ne_true fun hd ↦ nomatch h.symm.trans hd.2.1⟩
  next hany =>
  rw [Bool.not_eq_true] at hany
  rw [result_bind]
  obtain ⟨dead, hout, hdead⟩ := @chapMd5Check_outcome H cfg env (chapMd5Checks c f)
    { c with timeout := false } f.chapMd5Name f.chapMd5Value hnone ⟨hid, hval, rfl⟩
  refine ⟨dead, hout, hdead.trans ?_⟩
  rw [and_iff_right hval, and_iff_right hany]
  rfl

lemma mschapV2Check_outcome {Checks : Name → Prop} {c : Chap} {name : Name}
    {peerChallenge reserved ntHash : List UInt8} {flags : UInt8} (hnone : c.name = none)
    (hchecks : Checks name) :
    ChapOutcome cfg env Checks c false
      (mschapV2Check H cfg env name peerChallenge reserved ntHash flags c) := by
  let q : Query := ⟨name, c.id, c.val, .mschapV2 peerChallenge reserved ntHash flags⟩
  unfold mschapV2Check
  dsimp only
  split
  · exact .asked q hnone hchecks rfl rfl
  · split
    · exact .denied name hnone
    · split
      · exact .accepted q hnone hchecks rfl rfl
      · exact .denied name hnone
  · exact .denied name hnone
  · exact .accepted q hnone hchecks rfl rfl

/-- The MS-CHAPv2 responses that are checked: the current identifier, and a value of 49 bytes. -/
def mschapV2Checks (c : Chap) (f : Frame) (name : Name) : Prop :=
  f.mem 3 = c.id ∧ f.mem 6 = 49 ∧ name = f.mschapV2Name

/-- The dead end of MS-CHAPv2: another identifier. -/
def mschapV2Dead (_cfg : Config) (_env : Env) (c : Chap) (f : Frame) : Prop :=
  f.mem 3 ≠ c.id

lemma mschapV2_spec (H : Crypto) :
    ChapSpec (mschapV2RecvResponse H) mschapV2Checks mschapV2Dead := by
  intro cfg env c f
  rw [mschapV2Dead, ← or_false (f.mem 3 ≠ c.id)]
  refine chapResponse_outcome fun hnone hid ↦ ?_
  have hfalse : (false = true ↔ False) := iff_of_false Bool.false_ne_true not_false
  rw [result_bind]
  split
  · exact ⟨false, .badSize, hfalse⟩
  next hval =>
  rw [not_not] at hval
  rw [result_bind]
  split
  · exact ⟨false, .noMemory, hfalse⟩
  rw [result_bind, result_bind, result_bind]
  exact ⟨false, mschapV2Check_outcome hnone ⟨hid, hval, rfl⟩, hfalse⟩

/-! ### The pending answer -/

/-- No answer is awaited, and none is owed. -/
def Idle (name : Option Name) (asked : List Query) : Prop :=
  name = none ∧ asked = []

/-- **The pending answer**: name and identifier are those of the one open query. -/
def Coherent (name : Option Name) (id : UInt8) (asked : List Query) : Prop :=
  Idle name asked ∨ ∃ q : Query, name = some q.name ∧ id = q.id ∧ asked = [q]

section

variable {name : Option Name} {id : UInt8} {asked : List Query} (h : Coherent name id asked)

include h

lemma Coherent.idle (hnone : name = none) : Idle name asked := by
  rcases h with h | ⟨q, hsome, -⟩
  · exact h
  · nomatch hnone.symm.trans hsome

lemma Coherent.asked_ne_nil (hsome : name ≠ none) : asked ≠ [] := by
  rcases h with h | ⟨q, -, -, hasked⟩
  · exact absurd h.1 hsome
  · rw [hasked]
    exact cons_ne_nil q []

/-- A query that is open is the one the name and the identifier belong to. -/
lemma Coherent.eq_of_mem {q : Query} (hq : q ∈ asked) :
    name = some q.name ∧ id = q.id ∧ asked = [q] := by
  rcases h with h | ⟨q', hsome, hid, hasked⟩
  · rw [h.2] at hq
    nomatch hq
  · rw [hasked] at hq
    obtain rfl := mem_singleton.mp hq
    exact ⟨hsome, hid, hasked⟩

/-- The query of the next answer, when none is pending. -/
lemma Coherent.ask (hnone : name = none) (q : Query) :
    Coherent (some q.name) q.id (asked ++ [q]) := by
  refine .inr ⟨q, rfl, rfl, ?_⟩
  rw [(h.idle hnone).2, nil_append]

end

/-! ### The answer PAP waits for -/

def Pap.Idle (p : Pap) : Prop :=
  Auth.Idle p.peerId p.asked

def Pap.Coherent (p : Pap) : Prop :=
  Auth.Coherent p.peerId p.reqId p.asked

section

variable {p : Pap}

lemma terminating_papTerminate : (papTerminate p).terminating = true := by
  rw [papTerminate]
  split
  · assumption
  · rfl

lemma Pap.Idle.papTerminate (h : p.Idle) : (papTerminate p).Idle := by
  rw [Auth.papTerminate]
  split
  · exact h
  · exact ⟨rfl, rfl⟩

lemma Pap.Coherent.papTerminate (h : p.Coherent) : (papTerminate p).Coherent := by
  rw [Auth.papTerminate]
  split
  · exact h
  · exact .inl ⟨rfl, rfl⟩

variable {id : UInt8}

lemma Pap.Idle.papGrant (h : p.Idle) {name : Name} : (papGrant env id name p).Idle := by
  rw [Auth.papGrant]
  rcases pppAuthSucceeded_cases with ⟨u, heq⟩ | heq <;> rw [heq]
  · exact Pap.Idle.papTerminate h
  · exact h

lemma terminating_papDeny {name : Name} : (papDeny id name p).terminating = true := by
  unfold papDeny
  dsimp only
  split <;> exact terminating_papTerminate

lemma Pap.Coherent.papDeny (h : p.Coherent) {name : Name} : (papDeny id name p).Coherent := by
  unfold Auth.papDeny
  dsimp only
  split
  · exact Pap.Coherent.papTerminate h
  · exact Pap.Coherent.papTerminate h

/-- **A late answer is applied to the request it was asked for**: its name is granted or denied, and
its identifier goes into the reply. -/
theorem papStep_answer (h : p.Coherent) {q : Query} (hq : q ∈ p.asked) (ok : Bool) (env : Env) :
    papStep cfg p (.answer q ok env) =
      if ok then
        papGrant env q.id q.name
          { p with peerId := none, asked := [], accepted := p.accepted ++ [q] }
      else papDeny q.id q.name { p with peerId := none, asked := [] } := by
  obtain ⟨hsome, hid, hasked⟩ := h.eq_of_mem hq
  rw [papStep, if_pos hq]
  have herase : p.asked.erase q = [] := by rw [hasked, erase_cons_head]
  simp only [Ses.answered, hsome, hid, herase]
  cases ok <;> rfl

lemma PapOutcome.coherent {dead : Bool} {p' : Pap} (ho : PapOutcome cfg env p dead p')
    (h : p.Coherent) : p'.Coherent := by
  cases ho with
  | repeated id _ => exact h
  | awaiting _ => exact h
  | short _ _ => exact h
  | anyLogin id name _ hnone => exact .inl (Pap.Idle.papGrant (h.idle hnone))
  | asked q hnone => exact h.ask hnone q
  | denied id name => exact h.papDeny
  | accepted q _ hnone =>
    exact .inl (Pap.Idle.papGrant (p := { p with toSes := p.toSes.accept q }) (h.idle hnone))

/-- A frame PAP does not look at changes nothing, and any other leads to an outcome. -/
lemma papStep_frame {cfg : Config} {f : Frame} {env : Env} :
    papStep cfg p (.frame f env) = p ∧ ¬ (f.Accepted 1 ∧ p.active = true) ∨
      (f.Accepted 1 ∧ p.active = true) ∧
        ∃ dead, PapOutcome cfg env { p with timeout := false } dead
            (papStep cfg p (.frame f env)) ∧
          (p.started = false → p.peerId = none → (dead = true ↔ f.PapShort)) := by
  rw [papStep, papRecv, result_recv]
  split
  · next hacc =>
    by_cases hact : p.active = true
    · exact .inr ⟨⟨hacc, hact⟩, papRecvReq_outcome hact⟩
    · refine .inl ⟨?_, fun h ↦ hact h.2⟩
      rw [papRecvReq, Bool.eq_false_iff.mpr hact]
      rfl
  · next hacc => exact .inl ⟨rfl, fun h ↦ hacc h.1⟩

/-- **Every step of PAP keeps the pending answer.** -/
theorem Pap.Coherent.step (h : p.Coherent) (e : AuthEvent) : (papStep cfg p e).Coherent := by
  cases e with
  | frame f env =>
    rcases papStep_frame with ⟨hsame, -⟩ | ⟨-, dead, hout, -⟩
    · rwa [hsame]
    · exact hout.coherent h
  | answer q ok env =>
    by_cases hq : q ∈ p.asked
    · rw [papStep_answer h hq]
      split
      · exact .inl (Pap.Idle.papGrant ⟨rfl, rfl⟩)
      · exact Pap.Coherent.papDeny (.inl ⟨rfl, rfl⟩)
    · rwa [papStep, if_neg hq]
  | timeout =>
    rw [papStep]
    split
    · exact Pap.Coherent.papTerminate h
    · exact h
  | interval env => exact h
  | restart env | terminate => exact h.papTerminate

end

/-! ### The answer CHAP waits for -/

def Chap.Idle (c : Chap) : Prop :=
  Auth.Idle c.name c.asked

def Chap.Coherent (c : Chap) : Prop :=
  Auth.Coherent c.name c.id c.asked

section

variable {c : Chap}

lemma terminating_chapTerminate : (chapTerminate c).terminating = true := by
  rw [chapTerminate]
  split
  · assumption
  · rfl

lemma Chap.Idle.chapTerminate (h : c.Idle) : (chapTerminate c).Idle := by
  rw [Auth.chapTerminate]
  split
  · exact h
  · exact ⟨rfl, rfl⟩

lemma Chap.Coherent.chapTerminate (h : c.Coherent) : (chapTerminate c).Coherent := by
  rw [Auth.chapTerminate]
  split
  · exact h
  · exact .inl ⟨rfl, rfl⟩

lemma terminating_chapGiveUp : (chapGiveUp c).terminating = true := by
  rw [chapGiveUp]
  split <;> exact terminating_chapTerminate

lemma Chap.Coherent.chapGiveUp (h : c.Coherent) : (chapGiveUp c).Coherent := by
  rw [Auth.chapGiveUp]
  split
  · exact h.chapTerminate
  · exact Chap.Coherent.chapTerminate h

variable {name : Name}

lemma terminating_chapDeny : (chapDeny name c).terminating = true := by
  unfold chapDeny
  dsimp only
  split <;> exact terminating_chapTerminate

lemma Chap.Idle.chapDeny (h : c.Idle) : (chapDeny name c).Idle := by
  unfold Auth.chapDeny
  dsimp only
  split
  · exact Chap.Idle.chapTerminate h
  · exact Chap.Idle.chapTerminate h

/-- **What a success does**: a later one is only answered; the first one is refused by the session,
or starts it. -/
theorem chapGrant_cases {cfg : Config} {env : Env} :
    c.started = true ∧ chapGrant cfg env name c = { chapSendSuccess c.id c with id := c.id + 1 } ∨
      c.started = false ∧
        ((∃ u, chapGrant cfg env name c =
            { chapTerminate (chapSendFailure { c with username := u }) with id := c.id + 1 }) ∨
          chapGrant cfg env name c =
            { chapSendSuccess c.id
                { c with username := some name, authorized := c.authorized ++ [name] } with
              started := true, interval := cfg.interval != 0, id := c.id + 1 }) := by
  have hid (c : Chap) : (chapTerminate c).id = c.id := by
    rw [chapTerminate]
    split <;> rfl
  rw [chapGrant]
  cases hst : c.started with
  | true => exact .inl ⟨rfl, rfl⟩
  | false =>
    refine .inr ⟨rfl, ?_⟩
    rcases pppAuthSucceeded_cases with ⟨u, heq⟩ | heq
    · refine .inl ⟨u, ?_⟩
      rw [heq]
      rw [if_neg Bool.false_ne_true, hid]
      rfl
    · refine .inr ?_
      rw [heq]
      rfl

lemma Chap.Idle.chapGrant (h : c.Idle) : (chapGrant cfg env name c).Idle := by
  rcases chapGrant_cases with ⟨-, heq⟩ | ⟨-, ⟨u, heq⟩ | heq⟩ <;> rw [heq]
  · exact h
  · exact Chap.Idle.chapTerminate h
  · exact h

/-- **A late answer is applied to the response it was asked for.** -/
theorem chapStep_answer {recvResponse : ChapHandler} (h : c.Coherent) {q : Query} (hq : q ∈ c.asked)
    (ok : Bool) (env : Env) :
    chapStep recvResponse cfg c (.answer q ok env) =
      if ok then
        chapGrant cfg env q.name
          { c with name := none, asked := [], accepted := c.accepted ++ [q] }
      else
        { chapDeny q.name { c with name := none, asked := [] } with
          id := (chapDeny q.name { c with name := none, asked := [] }).id + 1 } := by
  obtain ⟨hsome, hid, hasked⟩ := h.eq_of_mem hq
  rw [chapStep, if_pos hq]
  -- the query answered is the only open one, so that none is left
  have herase : c.asked.erase q = [] := by rw [hasked, erase_cons_head]
  simp only [Ses.answered, hsome, herase]
  cases ok <;> rfl

lemma ChapOutcome.coherent {Checks : Name → Prop} {dead : Bool} {c' : Chap}
    (ho : ChapOutcome cfg env Checks c dead c') (h : c.Coherent) : c'.Coherent := by
  cases ho with
  | repeated id _ _ => exact h
  | awaiting _ => exact h
  | mismatch _ => exact h
  | badSize => exact Chap.Coherent.chapGiveUp h
  | noMemory => exact h.chapGiveUp
  | anyLogin name _ hnone =>
    have hidle := h.idle hnone
    rw [chapAnyLogin]
    rcases pppAuthSucceeded_cases with ⟨u, heq⟩ | heq <;> rw [heq]
    · exact .inl (Chap.Idle.chapTerminate hidle)
    · exact .inl hidle
  | asked q hnone _ hid _ =>
    have hask := h.ask hnone q
    rwa [hid] at hask
  | unknown _ => exact h
  | denied name hnone => exact .inl (Chap.Idle.chapDeny (h.idle hnone))
  | accepted q hnone _ _ _ =>
    exact .inl (Chap.Idle.chapGrant (c := { c with toSes := c.toSes.accept q }) (h.idle hnone))

variable {recvResponse : ChapHandler} {Checks : Chap → Frame → Name → Prop}
  {Dead : Config → Env → Chap → Frame → Prop}

/-- A frame the protocol does not look at changes nothing, and any other leads to an outcome. -/
lemma ChapSpec.step_frame (hspec : ChapSpec recvResponse Checks Dead) {cfg : Config}
    {f : Frame} {env : Env} :
    chapStep recvResponse cfg c (.frame f env) = c ∧ ¬ (f.Accepted 2 ∧ c.registered = true) ∨
      (f.Accepted 2 ∧ c.registered = true) ∧
        ∃ dead, ChapOutcome cfg env (Checks c f) { c with timeout := false } dead
            (chapStep recvResponse cfg c (.frame f env)) ∧
          (c.started = false → c.name = none → (dead = true ↔ Dead cfg env c f)) := by
  rw [chapStep, chapRecv]
  split
  · next hreg =>
    rw [result_recv]
    split
    · next hacc => exact .inr ⟨⟨hacc, hreg⟩, hspec cfg env c f⟩
    · next hacc => exact .inl ⟨rfl, fun h ↦ hacc h.1⟩
  · next hreg => exact .inl ⟨rfl, fun h ↦ hreg h.2⟩

/-- **Every step of CHAP keeps the pending answer.** -/
theorem Chap.Coherent.step (hspec : ChapSpec recvResponse Checks Dead) (h : c.Coherent)
    (e : AuthEvent) : (chapStep recvResponse cfg c e).Coherent := by
  cases e with
  | frame f env =>
    rcases hspec.step_frame with ⟨hsame, -⟩ | ⟨-, dead, hout, -⟩
    · rwa [hsame]
    · exact hout.coherent h
  | answer q ok env =>
    by_cases hq : q ∈ c.asked
    · rw [chapStep_answer h hq]
      split
      · exact .inl (Chap.Idle.chapGrant ⟨rfl, rfl⟩)
      · exact .inl (Chap.Idle.chapDeny ⟨rfl, rfl⟩)
    · rwa [chapStep, if_neg hq]
  | timeout =>
    rw [chapStep]
    split
    · rw [chapTimeoutTimer]
      split
      · exact Chap.Coherent.chapGiveUp h
      · exact h
    · exact h
  | interval env | restart env =>
    rw [chapStep]
    split <;> exact h
  | terminate => exact h.chapTerminate

end

end

end AccelPpp.Auth
