import AccelPpp.Radius.Owners

/-!
# What the handlers do

One lemma for each function of the machine, of one shape: from a state with the invariant, and with
the request of the handler in its hands, the function keeps the invariant and leaves the other
requests alone (`Keeps`), and when it fails, the request is in hand again (`Ready`).
-/

open Option

namespace AccelPpp.Radius

/-! ### The choice of a server -/

variable {type : ServType}

/-- A server that is chosen is in the list and may be used, and is not the one excluded. -/
lemma radServerGet_spec {servers : ℕ → Server} {list : List ℕ}
    {exclude : Option ℕ} {addr : UInt32} {port now s : ℕ}
    (h : radServerGet servers list type exclude addr port now = some s) :
    s ∈ list ∧ (servers s).usable type now ∧ some s ≠ exclude := by
  -- both of the servers that are remembered are such
  have hlist := list.foldlRecOn (getTurn servers type exclude addr port now) (b := (none, none))
    (motive := fun r ↦ ∀ a, r.1 = some a ∨ r.2 = some a →
      a ∈ list ∧ (servers a).usable type now ∧ some a ≠ exclude)
    (by simp) fun r hr b hb a ha ↦ by
      rw [getTurn] at ha
      grind
  rw [radServerGet] at h
  dsimp only at h
  rcases h1 : (list.foldl (getTurn servers type exclude addr port now) (none, none)).2 with _ | a
  · rw [h1] at h
    exact hlist s (.inl h)
  · rw [h1] at h
    exact hlist s (.inr (h1.trans h))

/-- What a send comes to. -/
lemma Target.send_cases (t : Target) (v : Server) (type : ServType) (out : SendOut) :
    ((t.send v type out).2.1 = 0 ∧ (t.send v type out).1.fd ≠ none ∧
      (t.send v type out).1.built = true) ∨
    (t.send v type out).2.1 = -1 ∨ (t.send v type out).2.1 = -2 := by
  rw [Target.send]
  cases type <;> simp only <;> split <;> try split
  all_goals simp

/-- A send that fails after the socket has been made lacked the memory for the packet. -/
lemma Target.noMemory_of_send {t : Target} {v : Server} {out : SendOut}
    (h : (t.send v type out).2.1 = -1) : out = .noMemory ∧ (type = .auth → t.built = false) := by
  rw [Target.send] at h
  cases type <;> simp only at h <;> split at h <;> try split at h
  all_goals simp_all

namespace Client

variable {c c' : Client} {i j s q : ℕ} {r : Req} {k : Kind} {o : Option ℕ} {E X : Set ℕ}

/-! ### In hand -/

/-- The request is in hand, does not count, and its timer is not running. -/
structure Ready (c : Client) (i : ℕ) (k : Kind) (o : Option ℕ) : Prop extends Held c i k o where
  idle : (c.reqs i).active = false
  unarmed : (c.reqs i).timer ≠ .armed

lemma Held.of_reqs (h : Held c i k o) (hr : c'.reqs i = r) (hl : r.linked = (c.reqs i).linked)
    (hown : SameOwner (c.reqs i) r) (hx : ∀ x ∈ c'.calls, x.req = i → x ∈ c.calls) :
    Held c' i k o := by
  refine ⟨?_, ?_, fun x hx' hxi ↦ h.uncalled x (hx x hx' hxi) hxi, ?_, ?_⟩ <;> rw [hr]
  · exact hown.alive.trans h.alive
  · exact hl.trans h.unlinked
  · exact hown.kind.trans h.kind
  · exact hown.ses.trans h.ses

lemma Held.setReq (h : Held c i k o) (hl : r.linked = (c.reqs i).linked := by rfl)
    (hown : SameOwner (c.reqs i) r := by exact ⟨rfl, rfl, rfl⟩) : Held (c.setReq i r) i k o :=
  h.of_reqs setReq_self hl hown fun _ hx _ ↦ hx

lemma Ready.setReq (h : Ready c i k o) (ht : r.timer ≠ .armed)
    (hact : r.active = (c.reqs i).active) (hl : r.linked = (c.reqs i).linked)
    (hown : SameOwner (c.reqs i) r) : Ready (c.setReq i r) i k o := by
  refine { h.toHeld.setReq hl hown with idle := ?_, unarmed := ?_ } <;> rw [setReq_self]
  · exact hact.trans h.idle
  · exact ht

lemma Held.ready (h : Held c i k o) (hr : c.reqs i = { r with active := false })
    (ht : r.timer ≠ .armed) : Ready c i k o := by
  refine { h with idle := congrArg Req.active hr, unarmed := ?_ }
  rw [hr]
  exact ht

lemma Ready.apart (h : Ready c i k o) (ha : Apart i c c') : Ready c' i k o :=
  { h.toHeld.apart ha with
    idle := ha.reqs ▸ h.idle
    unarmed := ha.reqs ▸ h.unarmed }

lemma ensure_eq (c : Client) (b : Bool) {f : Fault} :
    ∃ x, c.ensure b f = { c with fault := x } := by
  rw [ensure]
  split <;> exact ⟨_, rfl⟩

lemma ensure_of_true {b : Bool} {f : Fault} (hb : b = true) : c.ensure b f = c := if_pos hb

variable {n : ℕ} {p : Client × ℤ} {env : Env} {out : SendOut} {interim : Bool}

/-- **A request in hand changes in place**: what is left to show is about its timer. -/
theorem Keeps.setHeld (h : Inv E c) (hi : c.Held i k o) (hX : i ∈ X)
    (hauth : k = .auth → r.timer = .armed → r.target.fd ≠ none ∧ r.target.built = true := by
      exact nofun)
    (hint : i ∉ E → k = .interim → r.timer = .armed → r.active = false →
      (c.servOf i).reqLimit = 0 := by exact nofun)
    (hr : SamePlace (c.reqs i) r := by exact ⟨rfl, rfl, rfl, rfl⟩)
    (hown : SameOwner (c.reqs i) r := by exact ⟨rfl, rfl, rfl⟩)
    (htype : r.type = (c.reqs i).type := by rfl) : Keeps E X c (c.setReq i r) := by
  obtain ⟨hact, -, -, hok, hon⟩ := h.req i
  have hkind : r.kind = k := hown.kind.trans hi.kind
  refine .setReq h hr ⟨?_, ?_, ?_, fun hk ↦ ⟨?_, hauth (hkind.symm.trans hk)⟩, ?_⟩
    (fun hE hk ↦ hint hE (hkind.symm.trans hk)) hi.of_call hown hX
  · rw [hr.active, hown.alive]
    exact hact
  · rw [hr.linked, hi.unlinked]
    nofun
  · rw [hown.alive, hi.alive]
    nofun
  · exact htype.trans (hok (hown.kind ▸ hk)).1
  · rw [hown.kind, hr.active, hr.linked]
    exact hon

/-- The timer is stopped, and perhaps the socket closed. -/
lemma stop_keeps (hnd : Handler) (target : Target) (h : Inv E c) (hi : c.Held i k o)
    (hX : i ∈ X) :
    Keeps E X c (c.setReq i { c.reqs i with timer := .none, hnd := hnd, target := target }) :=
  .setHeld h hi hX

/-- The count of the tries. -/
lemma Keeps.tries (h : Inv E c) (hX : i ∈ X) :
    Keeps E X c (c.setReq i { c.reqs i with tries := n }) := by
  obtain ⟨hact, hlinked, hdead, hauth, hon⟩ := h.req i
  refine .setReq h ⟨rfl, rfl, rfl, rfl⟩ ⟨hact, hlinked, hdead, hauth, hon⟩ (h.interim i)
    (fun x hx hxi ↦ ?_) ⟨rfl, rfl, rfl⟩ hX
  obtain ⟨halive, hunlinked, hunarmed, hunread, hctx, hwakeup, hdeferred, hkind⟩ :=
    h.call_of_eq hx hxi
  exact ⟨halive, hunlinked, hunarmed, hunread, hctx, hwakeup, hdeferred, hkind⟩

lemma Held.tries (h : Held c i k o) : Held (c.setReq i { c.reqs i with tries := n }) i k o :=
  h.setReq rfl ⟨rfl, rfl, rfl⟩

lemma Ready.tries (h : Ready c i k o) : Ready (c.setReq i { c.reqs i with tries := n }) i k o :=
  h.setReq h.unarmed rfl rfl ⟨rfl, rfl, rfl⟩

/-! ### Servers -/

/-- `rad_server_fail` -/
lemma serverFail_keeps {s : ℕ} (h : Inv E c) (hl : (c.reqs i).linked = false) :
    Keeps E X c (c.serverFail s) ∧ Apart i c (c.serverFail s) := by
  have hset (t : ℕ) : Keeps E X c (c.setServ s { c.servers s with failTime := t }) :=
    .setServ h ⟨rfl, rfl, rfl, rfl, rfl, rfl⟩
  exact ⟨(hset _).trans (failAll_keeps (hset _).inv),
    apart_setServ.trans (failAll_apart (hset _).inv.queues hl)⟩

/-- `rad_server_timeout` -/
lemma serverTimeout_keeps (s : ℕ) (h : Inv E c) (hl : (c.reqs i).linked = false) :
    Keeps E X c (c.serverTimeout s) ∧ Apart i c (c.serverTimeout s) := by
  have hcnt : Keeps E X c
      (c.setServ s { c.servers s with timeoutCnt := (c.servers s).timeoutCnt + 1 }) :=
    .setServ h ⟨rfl, rfl, rfl, rfl, rfl, rfl⟩
  rw [serverTimeout]
  split
  · exact ⟨.refl h, rfl, fun _ hx _ ↦ hx⟩
  dsimp only
  split
  · obtain ⟨hfail, hapart⟩ := serverFail_keeps hcnt.inv hl
    exact ⟨hcnt.trans hfail, apart_setServ.trans hapart⟩
  · exact ⟨hcnt, apart_setServ⟩

section

variable (h : Inv E c) (hi : c.Held i k o) (hX : i ∈ X)
  (hint : i ∉ E → k = .interim → (c.reqs i).timer ≠ .armed)

include h hi hX hint

/-- The request of a handler stops counting. -/
lemma release_keeps (hactive : (c.reqs i).active = true) :
    Keeps E X c (c.release i) ∧ (c.release i).reqs i = { c.reqs i with active := false } ∧
      Held (c.release i) i k o := by
  exact ⟨⟨h.release hactive hi.uncalled fun hE hk ↦ hint hE (hi.kind.symm.trans hk),
    frame_of_only only_setActive hX⟩, setActive_self,
    hi.of_reqs setActive_self rfl ⟨rfl, rfl, rfl⟩ fun _ hx _ ↦ hx⟩

/-- **`rad_server_req_exit`** -/
theorem reqExit_keeps (hactive : (c.servOf i).reqLimit ≠ 0 → (c.reqs i).active = true) :
    Keeps E X c (c.reqExit i) ∧ (c.reqExit i).reqs i = { c.reqs i with active := false } ∧
      Held (c.reqExit i) i k o := by
  rw [reqExit]
  split
  · next hzero =>
    refine ⟨.refl h, ?_, hi⟩
    rcases hact : (c.reqs i).active with _ | _
    · rw [← hact]
    · exact (((h.req i).active hact).2 hzero).elim
  · next hlimit =>
    have hact := hactive hlimit
    obtain ⟨hrel, hreq, hheld⟩ := release_keeps h hi hX hint hact
    have hcnt : 0 ≤ ((c.release i).servOf i).reqCnt := by
      rw [servOf, hrel.inv.reqCnt]
      exact Int.natCast_nonneg _
    have hlimit' : ((c.release i).servers ((c.release i).reqs i).serv).reqLimit ≠ 0 := by
      rw [hreq, release, only_setActive.limit]
      exact hlimit
    simp only [ensure, hact, if_true, hcnt, decide_true]
    split
    · have hapart := wakeNext_apart hrel.inv.queues hheld.unlinked
        (s := ((c.release i).reqs i).serv)
      exact ⟨hrel.trans (wakeNext_keeps hrel.inv hlimit'), hapart.reqs.trans hreq,
        hheld.apart hapart⟩
    · exact ⟨hrel, hreq, hheld⟩

/-- A request in hand leaves its server, if it counts there. -/
lemma leave_keeps : Keeps E X c (if (c.reqs i).active then c.reqExit i else c) ∧
      (if (c.reqs i).active then c.reqExit i else c).reqs i = { c.reqs i with active := false } ∧
      Held (if (c.reqs i).active then c.reqExit i else c) i k o := by
  split
  · next hact => exact reqExit_keeps h hi hX hint fun _ ↦ hact
  · next hact =>
    refine ⟨.refl h, ?_, hi⟩
    rw [Bool.not_eq_true] at hact
    rw [← hact]

end

/-- A request that neither waits nor counts goes to another server. -/
lemma Keeps.move {target : Target} (h : Inv E c) (hi : c.Ready i k o) (hX : i ∈ X)
    (hs : s < c.nserv) :
    Keeps E X c (c.setReq i { c.reqs i with serv := s, hnd := .none, target := target }) := by
  have hreq := setReq_self (c := c) (i := i)
    (r := { c.reqs i with serv := s, hnd := .none, target := target })
  refine ⟨h.update only_setReq hreq ?_ (fun _ _ harmed ↦ (hi.unarmed harmed).elim) hi.of_call
    (reqCnt_idle h only_setReq rfl hi.idle ((congrArg Req.active hreq).trans hi.idle) fun _ ↦ rfl)
    (queues_idle h.queues (fun _ ↦ rfl) (fun _ ↦ rfl) only_setReq hi.unlinked
      ((congrArg Req.linked hreq).trans hi.unlinked))
    (h.owners.only only_setReq hreq rfl ⟨rfl, rfl, rfl⟩) fun ha ↦ ⟨h.numbers.req i ha, hs⟩,
    frame_of_only only_setReq hX⟩
  obtain ⟨-, -, hdead, hauth, hon⟩ := h.req i
  exact ⟨fun hf ↦ (nomatch hi.idle.symm.trans hf), fun hf ↦ (nomatch hi.unlinked.symm.trans hf),
    fun hf ↦ ⟨(hdead hf).1, rfl⟩, fun hk ↦ ⟨(hauth hk).1, fun hf ↦ (hi.unarmed hf).elim⟩, hon⟩

/-- **`rad_server_realloc`**: the request goes to another server. -/
theorem realloc_keeps {copy : Bool} (h : Inv E c) (hi : c.Ready i k o) (hX : i ∈ X) :
    Keeps E X c (c.realloc i copy).1 ∧ Ready (c.realloc i copy).1 i k o := by
  rw [realloc]
  split
  · exact ⟨.refl h, hi⟩
  next t ht =>
  have hin : t < c.nserv := h.numbers.list t (radServerGet_spec ht).1
  cases copy with
  | false => exact ⟨.refl h, hi⟩
  | true =>
    have hget : Keeps E X c (c.setServ t ((c.servers t).addClient (c.reqs i).type 1)) :=
      .setServ h sameCounts_addClient
    have hput := hget.trans (Keeps.setServ (s := (c.reqs i).serv) hget.inv
      (@sameCounts_addClient _ (c.reqs i).type (-1)))
    exact ⟨hput.trans (.move hput.inv (hi.apart (apart_setServ.trans apart_setServ)) hX hin),
      (hi.apart (apart_setServ.trans apart_setServ)).setReq hi.unarmed rfl rfl
        ⟨rfl, rfl, rfl⟩⟩

/-! ### Sending -/

/-- The request is under way: it waits for its server, or for the reply. -/
def Sent (c : Client) (i : ℕ) : Prop := (c.reqs i).linked = true ∨ (c.reqs i).timer = .armed

/-- **`__rad_req_send`** without waiting. -/
theorem sendNow_keeps (out : SendOut) (h : Inv E c) (hi : c.Held i k o) (hX : i ∈ X)
    (hint : (c.reqs i).active = false → k = .interim → (c.servOf i).reqLimit = 0)
    (hauth : k = .auth → (c.reqs i).timer ≠ .armed) :
    Keeps E X c (c.sendNow i out).1 ∧
      ((c.sendNow i out).2 = 0 ∧ (k ≠ .on → Sent (c.sendNow i out).1 i) ∨
      ((c.sendNow i out).2 = -1 ∨ (c.sendNow i out).2 = -2) ∧
        Held (c.sendNow i out).1 i k o ∧
        ((c.sendNow i out).1.reqs i).active = (c.reqs i).active ∧
        ((c.sendNow i out).1.reqs i).timer = (c.reqs i).timer) := by
  have hcases := (c.reqs i).target.send_cases (c.servOf i) (c.reqs i).type out
  rw [sendNow]
  rcases hsend : (c.reqs i).target.send (c.servOf i) (c.reqs i).type out with ⟨target, res, sent⟩
  rw [hsend] at hcases
  dsimp only at hcases ⊢
  rcases hcases with ⟨rfl, hfd, hbuilt⟩ | rfl | rfl
  · rw [if_pos rfl]
    refine ⟨.setHeld h hi hX (fun _ _ ↦ ⟨hfd, hbuilt⟩) fun _ hk _ hidle ↦ hint hidle hk,
      .inl ⟨rfl, fun hk ↦ .inr ?_⟩⟩
    rw [setReq_self]
    exact if_neg (hi.kind ▸ hk)
  · rw [if_neg (by decide), if_neg (by decide)]
    exact ⟨.setHeld h hi hX (fun hk harmed ↦ (hauth hk harmed).elim) fun hE hk ↦
      h.interim i hE (hi.kind.trans hk), .inr ⟨.inl rfl, hi.setReq, by rw [setReq_self],
        by rw [setReq_self]⟩⟩
  · exact ⟨.refl h, .inr ⟨.inr rfl, hi, rfl, rfl⟩⟩

lemma sendNow_again {out : SendOut} (htype : (c.reqs i).type = .auth)
    (hfd : (c.reqs i).target.fd ≠ none) (hbuilt : (c.reqs i).target.built = true) :
    (c.sendNow i out).2 = 0 := by
  have hzero : ((c.reqs i).target.send (c.servOf i) .auth out).2.1 = 0 := by
    simp [Target.send, hfd, hbuilt]
  rw [sendNow, htype]
  rcases hsend : (c.reqs i).target.send (c.servOf i) .auth out with ⟨target, res, sent⟩
  rw [hsend] at hzero
  obtain rfl : res = 0 := hzero
  rfl

/-- **`rad_server_req_enter`**: the request is sent or waits, or it is in hand again. -/
theorem reqEnter_keeps (out : SendOut) (h : Inv E c) (hi : c.Ready i k o) (hk : k ≠ .on)
    (hX : i ∈ X) :
    Keeps E X c (c.reqEnter i out).1 ∧
      ((c.reqEnter i out).2 = 0 ∧ Sent (c.reqEnter i out).1 i ∨
        (c.reqEnter i out).2 < 0 ∧ Ready (c.reqEnter i out).1 i k o) := by
  rw [reqEnter]
  dsimp only
  split
  · exact ⟨.refl h, .inr ⟨Int.negSucc_lt_zero 0, hi⟩⟩
  split
  · next hzero =>
    obtain ⟨hsend, ⟨hres, hsent⟩ | ⟨hres, hheld, hact, htimer⟩⟩ := sendNow_keeps out h hi.toHeld hX
      (fun _ _ ↦ hzero) fun _ ↦ hi.unarmed
    · exact ⟨hsend, .inl ⟨hres, hsent hk⟩⟩
    · refine ⟨hsend, .inr ⟨by omega, { hheld with idle := hact.trans hi.idle, unarmed := ?_ }⟩⟩
      rw [htimer]
      exact hi.unarmed
  · next hlimit =>
    have hidle : c.ensure (¬ (c.reqs i).active) .assert = c := ensure_of_true (by simp [hi.idle])
    have hunlinked : c.ensure (¬ (c.reqs i).linked) .assert = c :=
      ensure_of_true (by simp [hi.unlinked])
    rw [hidle, hunlinked]
    split
    · have hlinked : ((c.enqueue i).reqs i).linked = true := by rw [enqueue_reqs, if_pos rfl]
      exact ⟨⟨h.enqueue hi.toHeld hk hi.idle hi.unarmed, frame_of_only only_enqueue hX⟩,
        .inl ⟨rfl, .inl hlinked⟩⟩
    have hreq := setActive_self (c := c) (s := (c.reqs i).serv) (i := i) (b := true)
    have hacq : Keeps E X c (c.setActive (c.reqs i).serv i true) :=
      ⟨h.acquire hi.toHeld hk hi.idle hlimit, frame_of_only only_setActive hX⟩
    have hheld : Held (c.setActive (c.reqs i).serv i true) i k o :=
      hi.of_reqs hreq rfl ⟨rfl, rfl, rfl⟩ fun _ hx _ ↦ hx
    obtain ⟨hsend, ⟨hres, hsent⟩ | ⟨hres, hheld', hact, htimer⟩⟩ := sendNow_keeps out hacq.inv
      hheld hX (fun hf ↦ by rw [hreq] at hf; nomatch hf) fun _ ↦ by rw [hreq]; exact hi.unarmed
    · rw [if_pos hres]
      exact ⟨hacq.trans hsend, .inl ⟨rfl, hsent hk⟩⟩
    rw [hreq] at hact htimer
    have hunarmed := hi.unarmed
    rw [← htimer] at hunarmed
    rcases hres with hres | hres
    · rw [if_neg (by omega), if_neg (by omega)]
      obtain ⟨hexit, hreq', hheld''⟩ := reqExit_keeps hsend.inv hheld' hX (fun _ _ ↦ hunarmed)
        fun _ ↦ hact
      exact ⟨(hacq.trans hsend).trans hexit, .inr ⟨Int.negSucc_lt_zero 0,
        hheld''.ready hreq' hunarmed⟩⟩
    · rw [if_neg (by omega), if_pos hres]
      obtain ⟨hrel, hreq', hheld''⟩ := release_keeps hsend.inv hheld' hX (fun _ _ ↦ hunarmed) hact
      obtain ⟨hfail, hapart⟩ := serverFail_keeps hrel.inv hheld''.unlinked
      exact ⟨((hacq.trans hsend).trans hrel).trans hfail,
        .inr ⟨Int.negSucc_lt_zero 1, (hheld''.ready hreq' hunarmed).apart hapart⟩⟩

variable {turns : List Attempt}

/-- **The loop of `rad_req_send`**, by induction on its turns. -/
theorem enterLoop_keeps (h : Inv E c) (hi : c.Ready i k o) (hk : k ≠ .on)
    (hX : i ∈ X) (hp : c.enterLoop i turns = some p) :
    Keeps E X c p.1 ∧ (p.2 = 0 → Sent p.1 i) ∧ (p.2 ≠ 0 → Ready p.1 i k o) := by
  induction turns generalizing c with
  | nil => nomatch hp
  | cons t ts ih =>
    rw [enterLoop] at hp
    dsimp only at hp
    obtain ⟨henter, ⟨hres, hsent⟩ | ⟨hres, hready⟩⟩ := reqEnter_keeps t.out h hi hk hX
    · rw [if_pos (by omega)] at hp
      obtain rfl := some.inj hp
      exact ⟨henter, fun _ ↦ hsent, fun hf ↦ (hf hres).elim⟩
    rw [if_neg (by omega)] at hp
    obtain ⟨hrealloc, hready'⟩ := realloc_keeps henter.inv hready hX
    split at hp
    · obtain ⟨hrest, hfail⟩ := ih hrealloc.inv hready' hp
      exact ⟨(henter.trans hrealloc).trans hrest, hfail⟩
    · obtain rfl := some.inj hp
      exact ⟨henter.trans hrealloc, nofun, fun _ ↦ hready'⟩

section

variable (h : Inv E c) (hi : c.Held i k o) (hk : k ≠ .on) (hunarmed : (c.reqs i).timer ≠ .armed)
  (hX : i ∈ X)
  (hauth : k = .auth → (c.reqs i).active = true →
    (c.reqs i).target.fd ≠ none ∧ (c.reqs i).target.built = true)

include h hi hk hunarmed hX hauth

/-- The rest of `rad_req_send`. A request that counts is sent again; this cannot fail for an
Access-Request that has been sent. -/
lemma sendOn_keeps (hp : c.sendOn i turns = some p) :
    Keeps E X c p.1 ∧ (p.2 = 0 → Sent p.1 i) ∧
      ((c.reqs i).active = false ∨ k = .auth → p.2 ≠ 0 → Ready p.1 i k o) := by
  rw [sendOn] at hp
  split at hp
  · next hact =>
    obtain ⟨t, -, rfl⟩ := map_eq_some_iff.mp hp
    obtain ⟨hsend, hres⟩ := sendNow_keeps t.out h hi hX (hact ▸ nofun)
      fun _ ↦ hunarmed
    refine ⟨hsend, fun hzero ↦ ?_, fun hcase hne ↦ ?_⟩
    · rcases hres with ⟨-, hsent⟩ | ⟨hres, -⟩
      · exact hsent hk
      · omega
    rcases hcase with hf | rfl
    · nomatch hact.symm.trans hf
    · obtain ⟨hfd, hbuilt⟩ := hauth rfl hact
      exact (hne (sendNow_again ((h.req i).auth hi.kind).1 hfd hbuilt)).elim
  · next hact =>
    rw [Bool.not_eq_true] at hact
    obtain ⟨hloop, hfail⟩ := enterLoop_keeps h { hi with idle := hact, unarmed := hunarmed } hk hX
      hp
    exact ⟨hloop, hfail.1, fun _ ↦ hfail.2⟩

/-- **`rad_req_send`** -/
theorem reqSend_keeps (hp : c.reqSend i env = some p) : Keeps E X c p.1 ∧ (p.2 = 0 → Sent p.1 i) ∧
      ((c.reqs i).active = false ∨ k = .auth → p.2 ≠ 0 → Ready p.1 i k o) := by
  have htries : Keeps E X c (c.setReq i { c.reqs i with tries := (c.reqs i).tries + 1 }) :=
    .tries h hX
  have hheld := hi.tries (n := (c.reqs i).tries + 1)
  have hreq := setReq_self (c := c) (i := i) (r := { c.reqs i with tries := (c.reqs i).tries + 1 })
  rw [reqSend] at hp
  dsimp only at hp
  generalize c.setReq i { c.reqs i with tries := (c.reqs i).tries + 1 } = c₁ at *
  split at hp
  · -- the tries are used up: the request leaves its server before it looks for another
    have hunarmed' : (c₁.reqs i).timer ≠ .armed := by rw [hreq]; exact hunarmed
    obtain ⟨hexit, hreq', hheld'⟩ := leave_keeps htries.inv hheld hX fun _ _ ↦ hunarmed'
    have hready := hheld'.ready hreq' hunarmed'
    generalize (if (c₁.reqs i).active then c₁.reqExit i else c₁) = c₂ at *
    obtain ⟨hrealloc, hready'⟩ := realloc_keeps hexit.inv hready hX
    have hkeeps := (htries.trans hexit).trans hrealloc
    split at hp
    · have hone : Keeps E X (c₂.realloc i env.copy).1 _ := .tries (n := 1) hrealloc.inv hX
      have hready'' := hready'.tries (n := 1)
      obtain ⟨hsend, hsent, hfail⟩ := sendOn_keeps hone.inv hready''.toHeld hk hready''.unarmed hX
        (fun _ hf ↦ (nomatch hready''.idle.symm.trans hf)) hp
      exact ⟨(hkeeps.trans hone).trans hsend, hsent, fun _ ↦ hfail (.inl hready''.idle)⟩
    · obtain rfl := some.inj hp
      exact ⟨hkeeps, nofun, fun _ _ ↦ hready'⟩
  · obtain ⟨hsend, hfail⟩ := sendOn_keeps htries.inv hheld hk (by rw [hreq]; exact hunarmed) hX
      (by rw [hreq]; exact hauth) hp
    rw [hreq] at hfail
    exact ⟨htries.trans hsend, hfail⟩

end

/-! ### Cancelling -/

section

variable (halive : (c.reqs i).alive = true) (hX : i ∈ X)
  (hcall : ∀ x ∈ c.calls, x.req = i → x.func = .wakeup)
  (hXcall : ∀ x ∈ c.calls, x.ctx = (c.reqs i).ses → x.func = .wakeup → x.req ∈ X)

include halive hX hcall hXcall

/-- The first half of `rad_server_req_cancel`: the request is in hand. -/
lemma reqCancel_false_keeps (h : Inv E c) :
    Keeps E X c (c.reqCancel i false) ∧
      (c.reqCancel i false).reqs i = { c.reqs i with linked := false } ∧
      Held (c.reqCancel i false) i (c.reqs i).kind (c.reqs i).ses := by
  obtain ⟨c₁, hc₁, hdeq, hreq, hcalls⟩ :
      ∃ c₁, (if (c.reqs i).linked then c.dequeue (c.reqs i).serv i else c) = c₁ ∧ Keeps E X c c₁ ∧
        c₁.reqs i = { c.reqs i with linked := false } ∧ c₁.calls = c.calls := by
    split
    · next hl =>
      exact ⟨_, rfl, ⟨h.dequeue hl, frame_of_only only_dequeue hX⟩, dequeue_self, rfl⟩
    · next hl =>
      refine ⟨_, rfl, .refl h, ?_, rfl⟩
      rw [Bool.not_eq_true] at hl
      rw [← hl]
  rw [reqCancel, hc₁]
  have hcancel : Keeps E X c₁ (c₁.cancelCall (c₁.reqs i).ses .wakeup) := by
    refine ⟨hdeq.inv.calls List.filter_sublist, fun j hj hp ↦ ?_, fun _ _ ↦ rfl, fun _ _ ↦ rfl⟩
    rcases hp with hl | ⟨x, hx, hxj, hfunc⟩
    · exact .inl hl
    · refine .inr ⟨x, List.mem_filter.mpr ⟨hx, decide_eq_true fun hf ↦ ?_⟩, hxj, hfunc⟩
      rw [hcalls] at hx
      rw [hreq] at hf
      exact hj (hxj ▸ hXcall x hx hf.1 hf.2)
  refine ⟨hdeq.trans hcancel, hreq, ?_⟩
  refine ⟨(congrArg Req.alive hreq).trans halive, congrArg Req.linked hreq, fun x hx hxi ↦ ?_,
    (congrArg Req.kind hreq :), (congrArg Req.ses hreq :)⟩
  -- the only calls to the request are those that have been taken away
  obtain ⟨hx, hkept⟩ := List.mem_filter.mp hx
  refine of_decide_eq_true hkept ⟨(hdeq.inv.call_of_eq hx hxi).ctx, ?_⟩
  exact hcall x (hcalls ▸ hx) hxi

/-- **`rad_server_req_cancel`** -/
theorem reqCancel_keeps (h : Inv ∅ c) : Keeps ∅ X c (c.reqCancel i true) ∧
      Ready (c.reqCancel i true) i (c.reqs i).kind (c.reqs i).ses ∧
      ((c.reqCancel i true).reqs i).hnd = .none := by
  obtain ⟨hhalf, hreq, hheld⟩ := reqCancel_false_keeps halive hX hcall hXcall h
  have hfull : c.reqCancel i true =
      (let c₁ := c.reqCancel i false
      let c₁ := if (c₁.reqs i).active then c₁.reqExit i else c₁
      c₁.setReq i { c₁.reqs i with timer := .none, hnd := .none }) := rfl
  rw [hfull]
  dsimp only
  -- an interim request is released while its timer may still run
  have hinv : Inv {i} (c.reqCancel i false) := hhalf.inv.mono nofun
  obtain ⟨hleave, hreq', hheld'⟩ := leave_keeps hinv hheld hX fun hi ↦ (hi rfl).elim
  have hidle := congrArg Req.active hreq'
  have hexit : Keeps {i} X c _ := ⟨hleave.inv, hhalf.frame.trans hleave.frame⟩
  generalize c.reqCancel i false = c₀ at *
  generalize (if (c₀.reqs i).active then c₀.reqExit i else c₀) = c₁ at *
  have hset : Keeps {i} X c₁ (c₁.setReq i { c₁.reqs i with timer := .none, hnd := .none }) :=
    stop_keeps .none _ hexit.inv hheld' hX
  refine ⟨⟨hset.inv.mono fun j hj ↦ .inr ?_, hexit.frame.trans hset.frame⟩,
    ⟨hheld'.setReq rfl ⟨rfl, rfl, rfl⟩, ?_, ?_⟩, congrArg Req.hnd setReq_self⟩
  · rw [Set.mem_singleton_iff.mp hj, setReq_self]
    nofun
  · rw [setReq_self]
    exact hidle
  · rw [setReq_self]
    nofun

end

/-! ### Owners -/

/-- Only what stops an accounting, and Accounting-On, has no session. -/
lemma Owners.exists_ses (h : c.Owners) (hi : c.Held i k o) (hk : k = .auth ∨ k = .start) :
    ∃ q, o = some q := by
  cases o with
  | none =>
    rcases h.orphan i hi.alive hi.ses with hf | hf <;> rw [hi.kind] at hf <;>
      rcases hk with rfl | rfl <;> nomatch hf
  | some q => exact ⟨q, rfl⟩

lemma Owners.on_none (h : c.Owners) (hi : c.Held i .on o) : o = none := by
  cases o with
  | none => rfl
  | some q => exact ((h.acct q i (h.acct_of_kind hi nofun)).2.2.1 hi.kind).elim

/-- **`rad_auth_finalize`** frees the request. -/
theorem authFinalize_keeps (h : Inv E c) (hi : c.Held i .auth (some q))
    (hidle : (c.reqs i).active = false) (hX : i ∈ X) (hE : E ⊆ {i}) :
    Keeps ∅ X c (c.authFinalize q) := by
  rw [authFinalize, h.owners.auth_of_kind hi]
  refine h.free hi hidle hX (fun p ↦ ?_) hE
  rw [reqFree_eq hidle hi.unlinked, Function.update_apply]
  split
  · next hp =>
    rw [hp]
    exact h.owners.forgets_auth hi
  · next hp => exact h.owners.forgets fun hf ↦ hp (mem_unique hf hi.ses)

/-- An accounting request is freed, and its session forgets it. -/
lemma freeAcct_keeps (h : Inv E c) (hi : c.Held i k o) (hk : k ≠ .auth)
    (hidle : (c.reqs i).active = false) (hX : i ∈ X) (hE : E ⊆ {i}) :
    Keeps ∅ X c ((c.reqFree i).clearAcct o) := by
  cases o with
  | none =>
    have hs : ∀ p, Forgets i (c.sessions p) ((c.reqFree i).sessions p) := by
      rw [reqFree_eq hidle hi.unlinked]
      exact fun p ↦ h.owners.forgets fun hf ↦ nomatch hi.ses.symm.trans hf
    exact h.free hi hidle hX hs hE
  | some q =>
    refine h.free hi hidle hX (fun p ↦ ?_) hE
    rw [reqFree_eq hidle hi.unlinked, Function.update_apply]
    split
    · next hp =>
      rw [hp]
      exact h.owners.forgets_acct hi hk
    · next hp => exact h.owners.forgets fun hf ↦ hp (mem_unique hf hi.ses)

/-- **`rad_acct_stop_defer`**: the request goes to the default context. -/
theorem stopDefer_keeps (h : Inv ∅ c) (hq : (c.sessions q).acct = some i)
    (hk : (c.reqs i).kind = .stop) (hX : i ∈ X)
    (hcall : ∀ x ∈ c.calls, x.req = i → x.func = .wakeup)
    (hXcall : ∀ x ∈ c.calls, x.ctx = some q → x.func = .wakeup → x.req ∈ X) :
    Keeps ∅ X c (c.stopDefer q) := by
  obtain ⟨halive, -, -, hses⟩ := h.owners.acct q i hq
  obtain ⟨hcancel, hready, hhnd⟩ := reqCancel_keeps halive hX hcall (hses ▸ hXcall) h
  rw [hk, hses] at hready
  have hdisown := hcancel.inv.disown hready.toHeld hX
  rw [stopDefer, hq]
  refine (hcancel.trans hdisown).trans ⟨hdisown.inv.post hready.uncalled ?_, frame_post⟩
  rw [setReq_self]
  exact ⟨hready.alive, hready.unlinked, hready.unarmed, fun hf ↦ (nomatch hhnd.symm.trans hf), rfl,
    iff_of_false nofun fun hf ↦ (nomatch hready.idle.symm.trans hf), fun _ ↦ rfl,
    hready.kind ▸ nofun⟩

/-- The same for a request in hand. Its session has ended, so that it has no other request whose
wakeup would be lost. -/
lemma defer_keeps (h : Inv ∅ c) (hi : c.Held i .stop (some q)) (hX : i ∈ X) :
    Keeps ∅ X c (c.stopDefer q) := by
  refine stopDefer_keeps h (h.owners.acct_of_kind hi nofun) hi.kind hX
    hi.of_call fun x hx hctx _ ↦ ?_
  have hcall := h.call x hx
  exact h.owners.alone hi hcall.alive (hcall.ctx.symm.trans hctx) ▸ hX

/-- The timer of an accounting stop is started. -/
lemma arm_keeps (h : Inv E c) (hi : c.Held i .stop o) (hX : i ∈ X) :
    Keeps E X c (c.setReq i { c.reqs i with timer := .armed }) :=
  .setHeld h hi hX nofun nofun ⟨rfl, rfl, rfl, rfl⟩ ⟨rfl, rfl, rfl⟩ rfl

/-- **`rad_acct_stop_sent`** with -1. -/
theorem acctStopSentFailed_keeps (h : Inv ∅ c) (hi : c.Held i .stop o) (hX : i ∈ X)
    (hactive : (c.reqs i).active = true → c.shutdown = false) :
    Keeps ∅ X c (c.acctStopSentFailed i) := by
  rw [acctStopSentFailed]
  split
  · next hdown =>
    have hidle : (c.reqs i).active = false := by
      rw [← Bool.not_eq_true]
      exact fun hact ↦ nomatch hdown.symm.trans (hactive hact)
    rw [hi.ses]
    exact freeAcct_keeps h hi nofun hidle hX (by simp)
  · split
    · next q hq =>
      obtain rfl := hi.ses.symm.trans hq
      exact defer_keeps h hi hX
    · exact arm_keeps h hi hX

/-- **`sent`** with -1. -/
theorem sentFailed_keeps (h : Inv ∅ c) (hi : c.Held i k o) (hX : i ∈ X)
    (hactive : (c.reqs i).active = true → k ≠ .auth ∧ (k = .stop → c.shutdown = false)) :
    Keeps ∅ X c (c.sentFailed i) := by
  rw [sentFailed, hi.kind]
  cases k with
  | auth =>
    obtain ⟨q, rfl⟩ := h.owners.exists_ses hi (.inl rfl)
    have hidle : (c.reqs i).active = false := by
      rw [← Bool.not_eq_true]
      exact fun hact ↦ (hactive hact).1 rfl
    show Keeps ∅ X c (c.authSentFailed i)
    rw [authSentFailed, hi.ses]
    exact authFinalize_keeps h hi hidle hX (by simp)
  | start | interim | on => exact .refl h
  | stop => exact acctStopSentFailed_keeps h hi hX fun hact ↦ (hactive hact).2 rfl

/-- **`__rad_req_send`** with -1. -/
theorem sendFailed_keeps (h : Inv ∅ c) (hi : c.Ready i k o) (hk : k ≠ .on) (hX : i ∈ X)
    (hp : c.sendFailed i env = some c') : Keeps ∅ X c c' := by
  rw [sendFailed] at hp
  dsimp only at hp
  rw [if_neg (Bool.eq_false_iff.mp hi.idle)] at hp
  obtain ⟨p, hsend, rfl⟩ := map_eq_some_iff.mp hp
  obtain ⟨hkeeps, -, hfail⟩ := reqSend_keeps h hi.toHeld hk hi.unarmed hX
    (fun _ ↦ hi.idle ▸ nofun) hsend
  split
  · exact hkeeps
  · next hres =>
    have hready := hfail (.inl hi.idle) hres
    exact hkeeps.trans (sentFailed_keeps hkeeps.inv hready.toHeld hX
      fun hf ↦ nomatch hready.idle.symm.trans hf)

/-! ### Calls -/

lemma sendNow_shutdown : (c.sendNow i out).1.shutdown = c.shutdown := by
  rw [sendNow]
  dsimp only
  split
  · rfl
  · split <;> rfl

lemma noMemory_of_sendNow (h : (c.sendNow i out).2 = -1) :
    out = .noMemory ∧ ((c.reqs i).type = .auth → (c.reqs i).target.built = false) := by
  apply Target.noMemory_of_send
  rw [sendNow] at h
  dsimp only at h
  rcases (c.reqs i).target.send_cases (c.servOf i) (c.reqs i).type out with ⟨hz, -⟩ | hres | hres
  · rw [if_pos hz] at h
    nomatch h
  · exact hres
  · rw [hres] at h
    nomatch h

/-- **`req_wakeup`**. The send may fail for want of memory only where `sent` does not free the
request. -/
theorem reqWakeup_keeps (h : Inv ∅ c) (hi : c.Held i k o) (hk : k ≠ .on)
    (hunarmed : (c.reqs i).timer ≠ .armed) (hX : i ∈ X)
    (hsafe : out = .noMemory → (k = .auth → (c.reqs i).target.built = true) ∧
      (k = .stop → c.shutdown = false)) (hp : c.reqWakeup i out env = some c') :
    Keeps ∅ X c c' := by
  rw [reqWakeup] at hp
  dsimp only at hp
  split at hp
  · next hact =>
    split at hp
    · obtain ⟨hrel, hreq, hheld⟩ := release_keeps h hi hX (fun _ _ ↦ hunarmed) hact
      exact hrel.trans (sendFailed_keeps hrel.inv (hheld.ready hreq hunarmed) hk hX hp)
    obtain ⟨hsend, ⟨hres, -⟩ | ⟨hres, hheld, hact', htimer⟩⟩ := sendNow_keeps out h hi hX
      (hact ▸ nofun) fun _ ↦ hunarmed
    · rw [if_pos hres] at hp
      obtain rfl := some.inj hp
      exact hsend
    rw [hact] at hact'
    rw [← htimer] at hunarmed
    rcases hres with hres | hres
    · rw [if_neg (by omega), if_neg (by omega)] at hp
      obtain rfl := some.inj hp
      obtain ⟨hout, hbuilt⟩ := noMemory_of_sendNow hres
      refine hsend.trans (sentFailed_keeps hsend.inv hheld hX fun _ ↦ ⟨?_, ?_⟩)
      · rintro rfl
        nomatch (hbuilt ((h.req i).auth hi.kind).1).symm.trans ((hsafe hout).1 rfl)
      · rw [sendNow_shutdown]
        exact (hsafe hout).2
    · rw [if_neg (by omega), if_pos hres] at hp
      obtain ⟨hrel, hreq, hheld'⟩ := release_keeps hsend.inv hheld hX (fun _ _ ↦ hunarmed) hact'
      obtain ⟨hfail, hapart⟩ := serverFail_keeps hrel.inv hheld'.unlinked
      exact (hsend.trans hrel).trans (hfail.trans (sendFailed_keeps hfail.inv
        ((hheld'.ready hreq hunarmed).apart hapart) hk hX hp))
  · obtain rfl := some.inj hp
    exact .refl h

/-! ### Replies -/

/-- The request has been taken off its server, and its timer stopped. -/
lemma Keeps.close (h : Keeps {i} X c c') (ht : (c'.reqs i).timer ≠ .armed) : Keeps ∅ X c c' :=
  ⟨h.inv.mono fun _ hj ↦ .inr (Set.mem_singleton_iff.mp hj ▸ ht), h.frame⟩

/-- A session's flag changes. -/
lemma setStarted_keeps {b : Bool} (h : Inv E c) :
    Keeps E X c (c.setSes q { c.sessions q with acctStarted := b }) := by
  refine ⟨h.sessions (h.owners.congr (fun p ↦ ?_) fun _ ↦ ⟨rfl, rfl, rfl⟩), frame_sessions⟩
  show SameSession _ (Function.update c.sessions q _ p)
  rw [Function.update_apply]
  split
  · next hp =>
    rw [hp]
    exact ⟨Iff.rfl, rfl, rfl⟩
  · exact .refl

section

variable (h : Inv {i} c) (hX : i ∈ X)

include h hX

/-- **`rad_auth_recv`** -/
theorem authRecv_keeps (hi : c.Held i .auth o) (hidle : (c.reqs i).active = false) :
    Keeps ∅ X c (c.authRecv i) := by
  obtain ⟨q, rfl⟩ := h.owners.exists_ses hi (.inl rfl)
  have hstop : Keeps {i} X c (c.setReq i { c.reqs i with timer := .none }) :=
    stop_keeps _ _ h hi hX
  rw [authRecv]
  split
  · next p hp =>
    obtain rfl := mem_unique hi.ses hp
    refine hstop.trans (authFinalize_keeps hstop.inv (hi.setReq rfl ⟨rfl, rfl, rfl⟩) ?_ hX
      subset_rfl)
    rw [setReq_self]
    exact hidle
  · next hp => nomatch hi.ses.symm.trans hp

/-- The start of an accounting has been answered, and interim accounting follows. -/
lemma startInterim_keeps (hi : c.Held i .start (some q)) :
    Keeps ∅ X c ((c.setSes q { c.sessions q with acctStarted := true }).setReq i
      { c.reqs i with
        timer := .none, hnd := .none, target := (c.reqs i).target.close, kind := .interim
        prio := true }) := by
  have hacct := h.owners.acct_of_kind hi nofun
  have hrunning : ¬ (c.sessions q).phase ≠ .running := fun hf ↦
    nomatch hi.kind.symm.trans ((h.owners.stop q i hacct).mp hf)
  refine .close ⟨h.replace ⟨rfl, rfl, rfl, rfl⟩ ?_ (fun hf ↦ (hf rfl).elim) hi.of_call ?_, ?_⟩ ?_
  · obtain ⟨hact, -, -, -, -⟩ := h.req i
    exact ⟨hact, fun hl ↦ (nomatch hi.unlinked.symm.trans hl),
      fun hd ↦ (nomatch hi.alive.symm.trans hd), nofun, nofun⟩
  · exact h.owners.acctKind hacct only_setReq.reqs (fun p hp ↦ Function.update_of_ne hp ..)
      (Function.update_self ..) (Function.update_self ..)
      ⟨hi.alive, nofun, nofun, hi.ses⟩ rfl hacct
      (fun hf ↦ (hrunning hf).elim) (iff_of_false hrunning nofun)
  · exact frame_of_only only_setReq hX
  · rw [setReq_self]
    nofun

/-- **`rad_acct_start_recv`** -/
theorem acctStartRecv_keeps (hi : c.Held i .start o) (hidle : (c.reqs i).active = false) :
    Keeps ∅ X c (c.acctStartRecv i interim) := by
  obtain ⟨q, rfl⟩ := h.owners.exists_ses hi (.inr rfl)
  rw [acctStartRecv]
  split
  · next p hp =>
    obtain rfl := mem_unique hi.ses hp
    cases interim with
    | true => exact startInterim_keeps h hX hi
    | false =>
      have hstarted := setStarted_keeps (q := q) (b := true) (X := X) h
      have hheld : Held (c.setSes q { c.sessions q with acctStarted := true }) i .start (some q) :=
        hi.apart ⟨rfl, fun _ hx _ ↦ hx⟩
      have hstop := stop_keeps .none (c.reqs i).target.close hstarted.inv hheld hX
      refine (hstarted.trans hstop).trans (freeAcct_keeps hstop.inv
        (hheld.setReq rfl ⟨rfl, rfl, rfl⟩) nofun ?_ hX (by simp))
      rw [setReq_self]
      exact hidle
  · next hp => nomatch hi.ses.symm.trans hp

/-- **`recv`**, when the request has been taken off its server. -/
theorem recv_keeps (hi : c.Held i k o) (hidle : (c.reqs i).active = false) :
    Keeps ∅ X c (c.recv i interim) := by
  rw [recv, hi.kind]
  cases k with
  | auth => exact authRecv_keeps h hX hi hidle
  | start => exact acctStartRecv_keeps h hX hi hidle
  | interim =>
    refine Keeps.close (stop_keeps _ _ h hi hX) ?_
    rw [acctRecv, setReq_self]
    nofun
  | stop =>
    rw [acctStopRecv, hi.ses]
    exact freeAcct_keeps h hi nofun hidle hX (by simp)
  | on =>
    obtain rfl := h.owners.on_none hi
    exact freeAcct_keeps h hi nofun hidle hX (by simp)

end

/-- **`rad_req_read`**. The reply to a request that does not count takes the pending calls of
`req_wakeup` in the same context with it. -/
theorem reqRead_keeps (h : Inv ∅ c) (hi : c.Held i k o) (hX : i ∈ X)
    (hXcall : (c.reqs i).active = false → ∀ x ∈ c.calls, x.ctx = o → x.func = .wakeup → x.req ∈ X) :
    Keeps ∅ X c (c.reqRead i interim) := by
  have hreply : Keeps {i} X c (c.serverReply (c.reqs i).serv) :=
    .setServ (h.mono nofun) ⟨rfl, rfl, rfl, rfl, rfl, rfl⟩
  have hheld : Held (c.serverReply (c.reqs i).serv) i k o := hi.apart apart_setServ
  rw [reqRead]
  split
  · next hact =>
    obtain ⟨hexit, hreq, hheld'⟩ := reqExit_keeps hreply.inv hheld hX
      (fun hf ↦ (hf rfl).elim) fun _ ↦ hact
    exact (hreply.trans hexit).trans (recv_keeps hexit.inv hX hheld' (congrArg Req.active hreq))
  · next hact =>
    rw [Bool.not_eq_true] at hact
    obtain ⟨hcancel, hreq, hheld'⟩ := reqCancel_false_keeps hheld.alive hX
      hheld.of_call (hheld.ses ▸ hXcall hact) hreply.inv
    exact (hreply.trans hcancel).trans
      (recv_keeps hcancel.inv hX hheld' ((congrArg Req.active hreq).trans hact))

/-- **`start_deferred`** -/
theorem startDeferred_keeps {reply : Bool} (h : Inv ∅ c) (hi : c.Ready i .stop none) (hX : i ∈ X)
    (hXcall : reply = true → ∀ x ∈ c.calls, x.ctx = none → x.func = .wakeup → x.req ∈ X) :
    Keeps ∅ X c (c.startDeferred i reply) := by
  rw [startDeferred]
  split
  · exact arm_keeps h hi.toHeld hX
  have hread : Keeps ∅ X c (c.setReq i { c.reqs i with hnd := .on }) :=
    .setHeld h hi.toHeld hX
  have hheld : Held (c.setReq i { c.reqs i with hnd := .on }) i .stop none :=
    hi.toHeld.setReq
  split
  · next hreply => exact hread.trans (reqRead_keeps hread.inv hheld hX fun _ ↦ hXcall hreply)
  · exact hread.trans (arm_keeps hread.inv hheld hX)

end Client

end AccelPpp.Radius
