import AccelPpp.Lib.Count
import AccelPpp.Radius.Requests

/-!
# What holds of requests, queues and calls

`Inv` says where a request can be. It waits in the queue of its server, or a call to it is pending,
or neither; in the first two cases its timer is not running and its socket is not read (`ReqOk`,
`CallOk`). A request that counts does so at a server with a limit, and an interim one that is
outstanding without counting does so at a server without. The counters of the servers count, and the
queues hold what is linked. A request belongs to the session it names, and a session names its
requests (`Owners`).

A handler holds one request in its hands: no queue and no call leads to it (`Held`). The lemmas are
about the pieces the functions are made of. Each says that `Inv` is kept and that the requests not
in `X`, those the handler has nothing to do with, still wait if they did (`Frame`).
-/

open List
open Function (update_apply update_of_ne update_self)

namespace AccelPpp.Radius

/-! ### The invariant -/

/-- What holds of a request at a server with this limit. -/
structure ReqOk (limit : ℤ) (r : Req) : Prop where
  active : r.active = true → r.alive = true ∧ limit ≠ 0
  linked : r.linked = true →
    r.active = false ∧ r.alive = true ∧ r.timer ≠ .armed ∧ r.hnd ≠ .on
  dead : r.alive = false → r.timer = .none ∧ r.hnd = .none
  auth : r.kind = .auth →
    r.type = .auth ∧ (r.timer = .armed → r.target.fd ≠ none ∧ r.target.built = true)
  on : r.kind = .on → r.active = false ∧ r.linked = false

/-- An interim request that is outstanding without counting is so at a server without a limit. -/
def InterimOk (limit : ℤ) (r : Req) : Prop :=
  r.kind = .interim → r.timer = .armed → r.active = false → limit = 0

/-- What holds of a pending call and its request. -/
structure CallOk (x : PendingCall) (r : Req) : Prop where
  alive : r.alive = true
  unlinked : r.linked = false
  unarmed : r.timer ≠ .armed
  unread : r.hnd ≠ .on
  ctx : x.ctx = r.ses
  wakeup : x.func = .wakeup ↔ r.active = true
  deferred : x.func = .startDeferred → x.ctx = none
  on : r.kind ≠ .on

namespace Client

variable {c c' c'' : Client} {i j s q : ℕ} {r : Req} {k : Kind} {o : Option ℕ} {E X : Set ℕ}

/-- The request counts at the server. -/
def CountsAt (c : Client) (s i : ℕ) : Prop :=
  (c.reqs i).alive = true ∧ (c.reqs i).active = true ∧ (c.reqs i).serv = s

instance : DecidablePred (c.CountsAt s) := fun i ↦
  inferInstanceAs (Decidable ((c.reqs i).alive = true ∧ (c.reqs i).active = true ∧ _))

/-- The number of the active requests of a server. -/
def activeOn (c : Client) (s : ℕ) : ℕ := Nat.count (c.CountsAt s) c.nreq

/-- What is numbered has been numbered. -/
structure Numbers (c : Client) : Prop where
  req : ∀ i, (c.reqs i).alive = true → i < c.nreq
  serv : ∀ i, (c.reqs i).alive = true → (c.reqs i).serv < c.nserv
  list : ∀ s ∈ c.list, s < c.nserv
  keys : (c.list.map fun s ↦ (c.servers s).key).Nodup

/-- The queues hold what is linked, and are counted. -/
structure Queues (c : Client) : Prop where
  queueCnt : ∀ s, (c.servers s).queueCnt = (c.waitingFor s).length
  nodup : ∀ s, (c.waitingFor s).Nodup
  mem_iff : ∀ s i, i ∈ c.waitingFor s ↔ (c.reqs i).linked = true ∧ (c.reqs i).serv = s

/-- Requests and sessions name each other. A session that has ended has no authentication, and its
accounting is being stopped. -/
structure Owners (c : Client) : Prop where
  auth : ∀ q i, (c.sessions q).auth = some i →
    (c.reqs i).alive = true ∧ (c.reqs i).kind = .auth ∧ (c.reqs i).ses = some q
  acct : ∀ q i, (c.sessions q).acct = some i →
    (c.reqs i).alive = true ∧ (c.reqs i).kind ≠ .auth ∧ (c.reqs i).kind ≠ .on ∧
      (c.reqs i).ses = some q
  owned : ∀ i q, (c.reqs i).alive = true → (c.reqs i).ses = some q →
    (c.sessions q).auth = some i ∨ (c.sessions q).acct = some i
  orphan : ∀ i, (c.reqs i).alive = true → (c.reqs i).ses = none →
    (c.reqs i).kind = .stop ∨ (c.reqs i).kind = .on
  down : ∀ q, (c.sessions q).phase ≠ .running → (c.sessions q).auth = none
  stop : ∀ q i, (c.sessions q).acct = some i →
    ((c.sessions q).phase ≠ .running ↔ (c.reqs i).kind = .stop)

/-- **The invariant.** The requests in `E` are being taken off their servers, and the timers of
interim ones may still be running. -/
structure Inv (E : Set ℕ) (c : Client) : Prop where
  fault : c.fault = none
  numbers : c.Numbers
  reqCnt : ∀ s, (c.servers s).reqCnt = c.activeOn s
  queues : c.Queues
  req : ∀ i, ReqOk (c.servOf i).reqLimit (c.reqs i)
  interim : ∀ i, i ∉ E → InterimOk (c.servOf i).reqLimit (c.reqs i)
  nodup : (c.calls.map PendingCall.req).Nodup
  call : ∀ x ∈ c.calls, CallOk x (c.reqs x.req)
  owners : c.Owners

lemma Inv.mono {E' : Set ℕ} (h : Inv E c)
    (hE : ∀ i ∈ E, i ∈ E' ∨ (c.reqs i).timer ≠ .armed) : Inv E' c := by
  refine { h with interim := fun i hi ↦ ?_ }
  by_cases hiE : i ∈ E
  · rcases hE i hiE with hi' | ht
    · exact (hi hi').elim
    · exact fun _ harmed ↦ (ht harmed).elim
  · exact h.interim i hiE

lemma Inv.call_of_eq {x : PendingCall} (h : Inv E c) (hx : x ∈ c.calls) (hxi : x.req = i) :
    CallOk x (c.reqs i) :=
  hxi ▸ h.call x hx

/-! ### Frames -/

/-- The request waits in a queue, or for a call that sends it or fails it over. -/
def Pending (c : Client) (i : ℕ) : Prop :=
  (c.reqs i).linked = true ∨ ∃ x ∈ c.calls, x.req = i ∧ x.func ≠ .startDeferred

/-- What a handler leaves alone: the requests not in `X` still wait, in the same session. -/
structure Frame (X : Set ℕ) (c c' : Client) : Prop where
  pending : ∀ i, i ∉ X → c.Pending i → c'.Pending i
  ses : ∀ i, i ∉ X → (c'.reqs i).ses = (c.reqs i).ses
  alive : ∀ i, i ∉ X → (c'.reqs i).alive = (c.reqs i).alive

lemma Frame.trans (h : Frame X c c') (h' : Frame X c' c'') : Frame X c c'' where
  pending i hi hp := h'.pending i hi (h.pending i hi hp)
  ses i hi := (h'.ses i hi).trans (h.ses i hi)
  alive i hi := (h'.alive i hi).trans (h.alive i hi)

/-- **What a piece of a handler does**: the invariant holds after it, and what is not in `X` is left
alone. -/
structure Keeps (E X : Set ℕ) (c c' : Client) : Prop where
  inv : Inv E c'
  frame : Frame X c c'

lemma Keeps.refl (h : Inv E c) : Keeps E X c c :=
  ⟨h, fun _ _ h ↦ h, fun _ _ ↦ rfl, fun _ _ ↦ rfl⟩

lemma Keeps.trans {E' : Set ℕ} (h : Keeps E X c c') (h' : Keeps E' X c' c'') : Keeps E' X c c'' :=
  ⟨h'.inv, h.frame.trans h'.frame⟩

lemma Keeps.mono {Y : Set ℕ} (h : Keeps E X c c') (hY : X ⊆ Y) : Keeps E Y c c' :=
  ⟨h.inv, fun i hi ↦ h.frame.pending i fun hx ↦ hi (hY hx),
    fun i hi ↦ h.frame.ses i fun hx ↦ hi (hY hx), fun i hi ↦ h.frame.alive i fun hx ↦ hi (hY hx)⟩

/-- The request is in the hands of a handler: neither a queue nor a call leads to it. -/
structure Held (c : Client) (i : ℕ) (k : Kind) (o : Option ℕ) : Prop where
  alive : (c.reqs i).alive = true
  unlinked : (c.reqs i).linked = false
  uncalled : ∀ x ∈ c.calls, x.req ≠ i
  kind : (c.reqs i).kind = k
  ses : (c.reqs i).ses = o

lemma Held.of_call {P : PendingCall → Prop} (h : Held c i k o) : ∀ x ∈ c.calls, x.req = i → P x :=
  fun x hx hxi ↦ (h.uncalled x hx hxi).elim

/-- The request is not touched, and no call to it is made. -/
structure Apart (i : ℕ) (c c' : Client) : Prop where
  reqs : c'.reqs i = c.reqs i
  calls : ∀ x ∈ c'.calls, x.req = i → x ∈ c.calls

lemma Apart.trans (h : Apart i c c') (h' : Apart i c' c'') : Apart i c c'' :=
  ⟨h'.reqs.trans h.reqs, fun x hx hxi ↦ h.calls x (h'.calls x hx hxi) hxi⟩

lemma Held.apart (h : Held c i k o) (ha : Apart i c c') : Held c' i k o := by
  refine ⟨?_, ?_, fun x hx hxi ↦ h.uncalled x (ha.calls x hx hxi) hxi, ?_, ?_⟩ <;> rw [ha.reqs]
  · exact h.alive
  · exact h.unlinked
  · exact h.kind
  · exact h.ses

/-! ### Fields -/

/-- What the new value at `a` has in common with the old one is the same everywhere. -/
lemma update_same {α β : Type} {g : ℕ → α} {a : ℕ} {v : α} (f : α → β) (h : f v = f (g a))
    (x : ℕ) : f (Function.update g a v x) = f (g x) := by
  rw [Function.apply_update fun _ ↦ f, h, Function.update_eq_self a fun x ↦ f (g x)]

lemma setReq_self : (c.setReq i r).reqs i = r := update_self ..

variable {v : Server}

@[simp, grind =] lemma setServ_servers :
    (c.setServ s v).servers j = if j = s then v else c.servers j :=
  update_apply ..

@[simp, grind =] lemma setSes_sessions {v : Session} :
    (c.setSes q v).sessions j = if j = q then v else c.sessions j :=
  update_apply ..

variable {b : Bool}

@[simp, grind =] lemma setActive_reqs : (c.setActive s i b).reqs j =
    if j = i then { c.reqs i with active := b } else c.reqs j :=
  update_apply ..

lemma setActive_self : (c.setActive s i b).reqs i = { c.reqs i with active := b } :=
  update_self ..

@[simp, grind =] lemma setActive_servers : (c.setActive s i b).servers j =
    if j = s then { c.servers s with reqCnt := (c.servers s).reqCnt + if b then 1 else -1 }
    else c.servers j :=
  update_apply ..

@[simp, grind =] lemma dequeue_reqs : (c.dequeue s i).reqs j =
    if j = i then { c.reqs i with linked := false } else c.reqs j :=
  update_apply ..

lemma dequeue_self : (c.dequeue s i).reqs i = { c.reqs i with linked := false } :=
  update_self ..

/-! ### One request changes -/

/-- Only the request `i` changes, and of the servers neither a limit nor what they are known by. -/
structure Only (i : ℕ) (c c' : Client) : Prop where
  reqs : ∀ j, j ≠ i → c'.reqs j = c.reqs j
  calls : c'.calls = c.calls
  nreq : c.nreq ≤ c'.nreq
  nserv : c'.nserv = c.nserv
  list : c'.list = c.list
  fault : c'.fault = c.fault
  limit : ∀ s, (c'.servers s).reqLimit = (c.servers s).reqLimit
  key : ∀ s, (c'.servers s).key = (c.servers s).key

/-- The request is the same to its owner. -/
structure SameOwner (r r' : Req) : Prop where
  alive : r'.alive = r.alive
  kind : r'.kind = r.kind
  ses : r'.ses = r.ses

/-- The session is the same to its requests. -/
structure SameSession (v v' : Session) : Prop where
  phase : v'.phase ≠ .running ↔ v.phase ≠ .running
  auth : v'.auth = v.auth
  acct : v'.acct = v.acct

lemma SameSession.refl {v : Session} : SameSession v v := ⟨Iff.rfl, rfl, rfl⟩

lemma Owners.congr (h : c.Owners) (hs : ∀ q, SameSession (c.sessions q) (c'.sessions q))
    (hr : ∀ j, SameOwner (c.reqs j) (c'.reqs j)) : c'.Owners := by
  refine ⟨fun q i ↦ ?_, fun q i ↦ ?_, fun i q ↦ ?_, fun i ↦ ?_, fun q ↦ ?_, fun q i ↦ ?_⟩
  · rw [(hs q).auth, (hr i).alive, (hr i).kind, (hr i).ses]
    exact h.auth q i
  · rw [(hs q).acct, (hr i).alive, (hr i).kind, (hr i).ses]
    exact h.acct q i
  · rw [(hs q).auth, (hs q).acct, (hr i).alive, (hr i).ses]
    exact h.owned i q
  · rw [(hr i).alive, (hr i).kind, (hr i).ses]
    exact h.orphan i
  · rw [(hs q).phase, (hs q).auth]
    exact h.down q
  · rw [(hs q).phase, (hs q).acct, (hr i).kind]
    exact h.stop q i

lemma Owners.only (h : c.Owners) (ho : Only i c c') (hr : c'.reqs i = r)
    (hs : c'.sessions = c.sessions) (hown : SameOwner (c.reqs i) r) : c'.Owners := by
  refine h.congr (fun q ↦ hs ▸ .refl) fun j ↦ ?_
  by_cases hj : j = i
  · rw [hj, hr]
    exact hown
  · rw [ho.reqs j hj]
    exact ⟨rfl, rfl, rfl⟩

section

variable (h : Inv E c) (ho : Only i c c') (hr : c'.reqs i = r)
  (hok : ReqOk (c.servers r.serv).reqLimit r)
  (hint : i ∉ E → InterimOk (c.servers r.serv).reqLimit r)
  (hcall : ∀ x ∈ c.calls, x.req = i → CallOk x r)
  (hcnt : ∀ s, (c'.servers s).reqCnt = c'.activeOn s) (hq : c'.Queues)

include h ho hr hok hint hcall hcnt hq

/-- **One request changes**: what has to be shown is about it, and about the counters. -/
theorem Inv.update (hown : c'.Owners) (hnum : r.alive = true → i < c'.nreq ∧ r.serv < c.nserv) :
    Inv E c' := by
  refine ⟨ho.fault.trans h.fault, ⟨fun j hj ↦ ?_, fun j hj ↦ ?_, ?_, ?_⟩, hcnt, hq, fun j ↦ ?_,
    fun j hj ↦ ?_, ho.calls ▸ h.nodup, fun x hx ↦ ?_, hown⟩
  · by_cases hji : j = i
    · rw [hji, hr] at hj
      rw [hji]
      exact (hnum hj).1
    · rw [ho.reqs j hji] at hj
      exact (h.numbers.req j hj).trans_le ho.nreq
  · rw [ho.nserv]
    by_cases hji : j = i
    · rw [hji, hr] at hj ⊢
      exact (hnum hj).2
    · rw [ho.reqs j hji] at hj ⊢
      exact h.numbers.serv j hj
  · rw [ho.list, ho.nserv]
    exact h.numbers.list
  · rw [ho.list, funext ho.key]
    exact h.numbers.keys
  · rw [servOf, ho.limit]
    by_cases hji : j = i
    · rw [hji, hr]
      exact hok
    · rw [ho.reqs j hji]
      exact h.req j
  · rw [servOf, ho.limit]
    by_cases hji : j = i
    · rw [hji] at hj ⊢
      rw [hr]
      exact hint hj
    · rw [ho.reqs j hji]
      exact h.interim j hj
  · rw [ho.calls] at hx
    by_cases hxi : x.req = i
    · rw [hxi, hr]
      exact hcall x hx hxi
    · rw [ho.reqs _ hxi]
      exact h.call x hx

/-- **One request changes**, but neither its owner nor its server. -/
theorem Inv.stay (hs : c'.sessions = c.sessions := by rfl)
    (hown : SameOwner (c.reqs i) r := by exact ⟨rfl, rfl, rfl⟩)
    (hserv : r.serv = (c.reqs i).serv := by rfl) : Inv E c' := by
  refine h.update ho hr hok hint hcall hcnt hq (h.owners.only ho hr hs hown) ?_
  rw [hown.alive, hserv]
  exact fun ha ↦ ⟨(h.numbers.req i ha).trans_le ho.nreq, h.numbers.serv i ha⟩

end

lemma frame_of_only (ho : Only i c c') (hX : i ∈ X) : Frame X c c' := by
  have hne : ∀ j, j ∉ X → j ≠ i := fun j hj hji ↦ hj (hji ▸ hX)
  refine ⟨fun j hj hp ↦ ?_, fun j hj ↦ ?_, fun j hj ↦ ?_⟩
  · rw [Pending, ho.reqs j (hne j hj), ho.calls]
    exact hp
  all_goals rw [ho.reqs j (hne j hj)]

lemma activeOn_congr (hn : c'.nreq = c.nreq) (h : ∀ j, c'.CountsAt s j ↔ c.CountsAt s j) :
    c'.activeOn s = c.activeOn s := by
  rw [activeOn, hn]
  exact Counting.count_congr fun j _ ↦ h j

lemma activeOn_raise (hn : c'.nreq = c.nreq) (hi : i < c.nreq) (h : ¬ c.CountsAt s i)
    (h' : c'.CountsAt s i) (hj : ∀ j, j ≠ i → (c'.CountsAt s j ↔ c.CountsAt s j)) :
    c'.activeOn s = c.activeOn s + 1 := by
  rw [activeOn, hn]
  exact Counting.count_raise hi h h' fun j hne ↦ (hj j hne).symm

/-- A request that does not count changes: the counters of requests stay. -/
lemma reqCnt_idle (h : Inv E c) (ho : Only i c c') (hn : c'.nreq = c.nreq)
    (hreq : (c.reqs i).active = false) (hreq' : (c'.reqs i).active = false)
    (hcnt : ∀ s, (c'.servers s).reqCnt = (c.servers s).reqCnt) (s : ℕ) :
    (c'.servers s).reqCnt = c'.activeOn s := by
  have hsame : c'.activeOn s = c.activeOn s := by
    refine activeOn_congr hn fun j ↦ ?_
    by_cases hj : j = i
    · rw [hj]
      exact iff_of_false (fun hf ↦ nomatch hreq'.symm.trans hf.2.1)
        fun hf ↦ nomatch hreq.symm.trans hf.2.1
    · rw [CountsAt, CountsAt, ho.reqs j hj]
  rw [hcnt, hsame]
  exact h.reqCnt s

section

variable (h : c.Queues) (hw : ∀ s, c'.waitingFor s = c.waitingFor s)
  (hcnt : ∀ s, (c'.servers s).queueCnt = (c.servers s).queueCnt)

include h hw hcnt

lemma Queues.congr (hr : ∀ j, (c'.reqs j).linked = (c.reqs j).linked)
    (hserv : ∀ j, (c.reqs j).linked = true → (c'.reqs j).serv = (c.reqs j).serv) : c'.Queues := by
  refine ⟨fun s ↦ ?_, fun s ↦ ?_, fun s j ↦ ?_⟩
  · rw [hcnt, hw]
    exact h.queueCnt s
  · rw [hw]
    exact h.nodup s
  · rw [hw, h.mem_iff s j, hr]
    exact and_congr_right fun hl ↦ by rw [hserv j hl]

/-- A request that does not wait changes: the queues stay. -/
lemma queues_idle (ho : Only i c c') (hreq : (c.reqs i).linked = false)
    (hreq' : (c'.reqs i).linked = false) : c'.Queues := by
  refine h.congr hw hcnt (fun j ↦ ?_) fun j hj ↦ ?_
  · by_cases hji : j = i
    · rw [hji, hreq, hreq']
    · rw [ho.reqs j hji]
  · by_cases hji : j = i
    · rw [hji, hreq] at hj
      nomatch hj
    · rw [ho.reqs j hji]

end

/-! ### In place -/

/-- The fields that say where a request is are the same. -/
structure SamePlace (r r' : Req) : Prop where
  alive : r'.alive = r.alive
  active : r'.active = r.active
  linked : r'.linked = r.linked
  serv : r'.serv = r.serv

variable {sessions : ℕ → Session}

lemma only_setReq : Only i c { c.setReq i r with sessions := sessions } :=
  ⟨fun _ hj ↦ update_of_ne hj .., rfl, le_rfl, rfl, rfl, rfl, fun _ ↦ rfl, fun _ ↦ rfl⟩

section

variable (h : Inv E c) (hr : SamePlace (c.reqs i) r) (hok : ReqOk (c.servOf i).reqLimit r)
  (hint : i ∉ E → InterimOk (c.servOf i).reqLimit r) (hcall : ∀ x ∈ c.calls, x.req = i → CallOk x r)

include h hr hok hint hcall

/-- **A request changes in place**, and perhaps its session. -/
theorem Inv.replace (ho : { c.setReq i r with sessions := sessions }.Owners) :
    Inv E { c.setReq i r with sessions := sessions } := by
  have hact (s : ℕ) : (c.setReq i r).activeOn s = c.activeOn s := activeOn_congr rfl fun j ↦ by
    rw [CountsAt, CountsAt, setReq, update_same _ hr.alive, update_same _ hr.active,
      update_same _ hr.serv]
  refine h.update only_setReq setReq_self ?_ ?_ hcall (fun s ↦ ?_)
    (h.queues.congr (fun _ ↦ rfl) (fun _ ↦ rfl) (update_same _ hr.linked) fun j _ ↦
      update_same _ hr.serv j) ho ?_
  · rw [hr.serv]
    exact hok
  · rw [hr.serv]
    exact hint
  · show (c.servers s).reqCnt = (c.setReq i r).activeOn s
    rw [hact]
    exact h.reqCnt s
  · rw [hr.alive, hr.serv]
    exact fun ha ↦ ⟨h.numbers.req i ha, h.numbers.serv i ha⟩

/-- **A request changes in place.** -/
theorem Keeps.setReq (hown : SameOwner (c.reqs i) r) (hX : i ∈ X) : Keeps E X c (c.setReq i r) :=
  ⟨h.replace hr hok hint hcall (h.owners.only only_setReq setReq_self rfl hown),
    frame_of_only only_setReq hX⟩

end

/-! ### A server changes -/

/-- The fields of a server that are counted with are the same. -/
structure SameCounts (v v' : Server) : Prop where
  reqLimit : v'.reqLimit = v.reqLimit
  reqCnt : v'.reqCnt = v.reqCnt
  queueCnt : v'.queueCnt = v.queueCnt
  queue0 : v'.queue0 = v.queue0
  queue1 : v'.queue1 = v.queue1
  key : v'.key = v.key

lemma SameCounts.setServ (hv : SameCounts (c.servers s) v) (t : ℕ) :
    SameCounts (c.servers t) ((c.setServ s v).servers t) := by
  rw [setServ_servers]
  split
  · next ht =>
    rw [ht]
    exact hv
  · exact ⟨rfl, rfl, rfl, rfl, rfl, rfl⟩

lemma sameCounts_addClient {type : ServType} {d : ℤ} : SameCounts v (v.addClient type d) := by
  cases type <;> exact ⟨rfl, rfl, rfl, rfl, rfl, rfl⟩

lemma waitingFor_sameCounts {servers : ℕ → Server} {t : ℕ}
    (hv : SameCounts (c.servers t) (servers t)) :
    { c with servers := servers }.waitingFor t = c.waitingFor t := by
  show (servers t).queue0 ++ (servers t).queue1 = _
  rw [hv.queue0, hv.queue1]
  rfl

/-- **Servers change** in their limits, if the requests can go on under the new ones, and in what is
not counted with. -/
theorem Inv.servers (h : Inv E c) {servers : ℕ → Server}
    (hv : ∀ s, SameCounts { c.servers s with reqLimit := (servers s).reqLimit } (servers s))
    (hreq : ∀ j, ReqOk (servers (c.reqs j).serv).reqLimit (c.reqs j))
    (hint : ∀ j, j ∉ E → InterimOk (servers (c.reqs j).serv).reqLimit (c.reqs j)) :
    Inv E { c with servers := servers } := by
  refine ⟨h.fault, ⟨h.numbers.req, h.numbers.serv, h.numbers.list, ?_⟩, fun t ↦ ?_,
    h.queues.congr (fun t ↦ ?_) (fun t ↦ (hv t).queueCnt) (fun _ ↦ rfl) fun _ _ ↦ rfl, hreq, hint,
    h.nodup, h.call, h.owners.congr (fun _ ↦ .refl) fun _ ↦ ⟨rfl, rfl, rfl⟩⟩
  · rw [funext fun t ↦ (hv t).key]
    exact h.numbers.keys
  · rw [(hv t).reqCnt]
    exact h.reqCnt t
  · show (servers t).queue0 ++ (servers t).queue1 = _
    rw [(hv t).queue0, (hv t).queue1]
    rfl

/-- **Servers change** in what is not counted with. -/
theorem Inv.sameCounts (h : Inv E c) {servers : ℕ → Server}
    (hv : ∀ s, SameCounts (c.servers s) (servers s)) : Inv E { c with servers := servers } := by
  refine h.servers (fun s ↦ { hv s with reqLimit := rfl }) (fun j ↦ ?_) fun j hj ↦ ?_
  · rw [(hv _).reqLimit]
    exact h.req j
  · rw [(hv _).reqLimit]
    exact h.interim j hj

lemma Keeps.setServ (h : Inv E c) (hv : SameCounts (c.servers s) v) :
    Keeps E X c (c.setServ s v) :=
  ⟨h.sameCounts fun t ↦ hv.setServ t, fun _ _ h ↦ h, fun _ _ ↦ rfl, fun _ _ ↦ rfl⟩

lemma apart_setServ : Apart i c (c.setServ s v) := ⟨rfl, fun _ hx _ ↦ hx⟩

/-! ### Counting in and out -/

lemma only_setActive : Only i c (c.setActive s i b) :=
  ⟨fun _ hj ↦ update_of_ne hj .., rfl, le_rfl, rfl, rfl, rfl,
    update_same Server.reqLimit rfl, update_same Server.key rfl⟩

lemma queues_setActive (h : c.Queues) : (c.setActive s i b).Queues :=
  h.congr (fun t ↦ update_same (fun v : Server ↦ v.queue0 ++ v.queue1) (by rfl) t)
    (update_same Server.queueCnt rfl) (update_same Req.linked rfl) fun j _ ↦
    update_same Req.serv (by rfl) j

/-- A request begins or stops to count at its server; the count of no other server changes. -/
lemma reqCnt_setActive (h : Inv E c) (halive : (c.reqs i).alive = true)
    (hb : (c.reqs i).active = !b) (t : ℕ) :
    ((c.setActive (c.reqs i).serv i b).servers t).reqCnt =
      (c.setActive (c.reqs i).serv i b).activeOn t := by
  obtain ⟨s, hs⟩ : ∃ s, (c.reqs i).serv = s := ⟨_, rfl⟩
  rw [hs]
  have hother : ∀ j, j ≠ i → ((c.setActive s i b).CountsAt t j ↔ c.CountsAt t j) := fun j hj ↦ by
    rw [CountsAt, CountsAt, setActive_reqs, if_neg hj]
  have hcnt := h.reqCnt t
  rw [setActive_servers]
  split
  · next ht =>
    subst ht
    cases b with
    | true =>
      have hraise : (c.setActive t i true).activeOn t = c.activeOn t + 1 :=
        activeOn_raise rfl (h.numbers.req i halive) (fun hf ↦ nomatch hb.symm.trans hf.2.1) (by
          rw [CountsAt, setActive_self]
          exact ⟨halive, rfl, hs⟩) hother
      show (c.servers t).reqCnt + 1 = _
      omega
    | false =>
      have hraise : c.activeOn t = (c.setActive t i false).activeOn t + 1 :=
        activeOn_raise rfl (h.numbers.req i halive) (fun hf ↦ by
          rw [CountsAt, setActive_self] at hf
          nomatch hf.2.1) ⟨halive, hb, hs⟩ fun j hj ↦ (hother j hj).symm
      show (c.servers t).reqCnt + -1 = _
      omega
  · next ht =>
    have hsame : (c.setActive s i b).activeOn t = c.activeOn t := by
      refine activeOn_congr rfl fun j ↦ ?_
      by_cases hj : j = i
      · rw [hj, CountsAt, CountsAt, setActive_self, hs]
        exact iff_of_false (fun hf ↦ ht hf.2.2.symm) fun hf ↦ ht hf.2.2.symm
      · exact hother j hj
    rw [hsame]
    exact hcnt

/-- **A request stops counting.** -/
theorem Inv.release (h : Inv E c) (hactive : (c.reqs i).active = true)
    (hcall : ∀ x ∈ c.calls, x.req ≠ i)
    (hint : i ∉ E → (c.reqs i).kind = .interim → (c.reqs i).timer ≠ .armed) :
    Inv E (c.release i) := by
  obtain ⟨halive, hlimit⟩ := (h.req i).active hactive
  refine h.stay only_setActive setActive_self ?_ ?_ (fun x hx hxi ↦ (hcall x hx hxi).elim)
    (reqCnt_setActive h halive hactive) (queues_setActive h.queues)
  · obtain ⟨-, hlinked, hdead, hauth, hon⟩ := h.req i
    exact ⟨nofun, fun hl ↦ ⟨rfl, (hlinked hl).2⟩, hdead, hauth, fun hk ↦ ⟨rfl, (hon hk).2⟩⟩
  · exact fun hE hk ht ↦ (hint hE hk ht).elim

/-- **A request begins to count.** -/
theorem Inv.acquire (h : Inv E c) (hi : c.Held i k o) (hk : k ≠ .on)
    (hactive : (c.reqs i).active = false) (hlimit : (c.servOf i).reqLimit ≠ 0) :
    Inv E (c.setActive (c.reqs i).serv i true) := by
  refine h.stay only_setActive setActive_self ?_ ?_ hi.of_call
    (reqCnt_setActive h hi.alive hactive) (queues_setActive h.queues)
  · obtain ⟨-, -, hdead, hauth, -⟩ := h.req i
    exact ⟨fun _ ↦ ⟨hi.alive, hlimit⟩, fun hl ↦ (nomatch hi.unlinked.symm.trans hl), hdead, hauth,
      fun hon ↦ (hk (hi.kind.symm.trans hon)).elim⟩
  · exact nofun

/-! ### In and out of the queues -/

lemma erase_append_of_nodup {l l' : List ℕ} (h : (l ++ l').Nodup) (a : ℕ) :
    l.erase a ++ l'.erase a = (l ++ l').erase a := by
  obtain ⟨-, -, hdisj⟩ := nodup_append.mp h
  rw [erase_append]
  split
  · next ha =>
    rw [erase_of_not_mem fun ha' ↦ hdisj a ha a ha' rfl]
  · next ha => rw [erase_of_not_mem ha]

variable (t : ℕ)

lemma dequeue_servers : (c.dequeue s i).servers t =
    { c.servers t with
      queue0 := (c.servers t).queue0.erase i
      queue1 := (c.servers t).queue1.erase i
      queueCnt := (c.servers t).queueCnt - if t = s then 1 else 0 } := by
  rw [dequeue, setServ_servers]
  split
  · next ht =>
    rw [ht]
    rfl
  · rw [Int.sub_zero]
    rfl

lemma waitingFor_dequeue (h : c.Queues) (t : ℕ) :
    (c.dequeue s i).waitingFor t = (c.waitingFor t).erase i := by
  rw [waitingFor, waitingFor, ← erase_append_of_nodup (h.nodup t), dequeue_servers]

lemma only_dequeue : Only i c (c.dequeue s i) := by
  refine ⟨fun j hj ↦ ?_, rfl, le_rfl, rfl, rfl, rfl, fun t ↦ ?_, fun t ↦ ?_⟩
  · rw [dequeue_reqs, if_neg hj]
  · rw [dequeue_servers]
  · rw [dequeue_servers]
    rfl

lemma queues_dequeue (h : c.Queues) (hl : (c.reqs i).linked = true) :
    (c.dequeue (c.reqs i).serv i).Queues := by
  have hmem := (h.mem_iff (c.reqs i).serv i).mpr ⟨hl, rfl⟩
  refine ⟨fun t ↦ ?_, fun t ↦ ?_, fun t j ↦ ?_⟩
  · rw [waitingFor_dequeue h, dequeue_servers]
    show (c.servers t).queueCnt - _ = _
    rw [h.queueCnt t]
    split
    · next ht =>
      rw [ht, length_erase_of_mem hmem]
      have hpos := length_pos_of_mem hmem
      omega
    · next ht =>
      rw [erase_of_not_mem fun hi ↦ ht ((h.mem_iff t i).mp hi).2.symm]
      omega
  · rw [waitingFor_dequeue h]
    exact (h.nodup t).erase i
  · rw [waitingFor_dequeue h, (h.nodup t).mem_erase_iff, h.mem_iff t j, dequeue_reqs]
    by_cases hj : j = i
    · rw [if_pos hj]
      exact iff_of_false (fun hf ↦ hf.1 hj) fun hf ↦ nomatch hf.1
    · rw [if_neg hj]
      exact and_iff_right hj

/-- **A request leaves the queue** of its server. -/
theorem Inv.dequeue (h : Inv E c) (hl : (c.reqs i).linked = true) :
    Inv E (c.dequeue (c.reqs i).serv i) := by
  obtain ⟨hactive, halive, hunarmed, hunread⟩ := (h.req i).linked hl
  refine h.stay only_dequeue dequeue_self ?_ ?_ (fun x hx hxi ↦ ?_)
    (reqCnt_idle h only_dequeue rfl hactive (dequeue_self ▸ hactive) fun t ↦ by
      rw [dequeue_servers]) (queues_dequeue h.queues hl)
  · obtain ⟨hact, -, hdead, hauth, hon⟩ := h.req i
    exact ⟨hact, nofun, hdead, hauth, fun hk ↦ ⟨(hon hk).1, rfl⟩⟩
  · exact h.interim i
  · nomatch hl.symm.trans (h.call_of_eq hx hxi).unlinked

lemma enqueue_reqs : (c.enqueue i).reqs j =
    if j = i then
      { c.reqs i with
        linked := true
        hnd := if (c.reqs i).hnd = .none then .none else .off }
    else c.reqs j :=
  update_apply ..

lemma waitingFor_enqueue : ((c.enqueue i).waitingFor (c.reqs i).serv).Perm
    (i :: c.waitingFor (c.reqs i).serv) := by
  rw [waitingFor, show (c.enqueue i).servers _ = _ from update_self ..]
  cases (c.reqs i).prio with
  | true =>
    show ((c.servOf i).queue0 ++ ((c.servOf i).queue1 ++ [i])).Perm _
    rw [← append_assoc]
    exact perm_append_singleton _ _
  | false =>
    show ((c.servOf i).queue0 ++ [i] ++ (c.servOf i).queue1).Perm _
    rw [append_assoc]
    exact perm_middle

lemma waitingFor_enqueue_of_ne {t : ℕ} (ht : t ≠ (c.reqs i).serv) :
    (c.enqueue i).waitingFor t = c.waitingFor t := by
  rw [waitingFor, waitingFor, show (c.enqueue i).servers t = _ from update_of_ne ht ..]

lemma only_enqueue : Only i c (c.enqueue i) :=
  ⟨fun _ hj ↦ update_of_ne hj .., rfl, le_rfl, rfl, rfl, rfl,
    update_same Server.reqLimit rfl, update_same Server.key rfl⟩

lemma queues_enqueue (h : c.Queues) (hl : (c.reqs i).linked = false) : (c.enqueue i).Queues := by
  have hnot : ∀ t, i ∉ c.waitingFor t := fun t hi ↦
    nomatch hl.symm.trans ((h.mem_iff t i).mp hi).1
  have hreqs : ∀ t j, j ≠ i → (j ∈ c.waitingFor t ↔
      ((c.enqueue i).reqs j).linked = true ∧ ((c.enqueue i).reqs j).serv = t) := by
    intro t j hj
    rw [enqueue_reqs, if_neg hj]
    exact h.mem_iff t j
  refine ⟨fun t ↦ ?_, fun t ↦ ?_, fun t j ↦ ?_⟩ <;> by_cases ht : t = (c.reqs i).serv
  · rw [ht, waitingFor_enqueue.length_eq, show (c.enqueue i).servers _ = _ from update_self ..]
    show (c.servers (c.reqs i).serv).queueCnt + 1 = _
    rw [h.queueCnt]
    rfl
  · rw [waitingFor_enqueue_of_ne ht, show (c.enqueue i).servers t = _ from update_of_ne ht ..]
    exact h.queueCnt t
  · rw [ht, waitingFor_enqueue.nodup_iff]
    exact nodup_cons.mpr ⟨hnot _, h.nodup _⟩
  · rw [waitingFor_enqueue_of_ne ht]
    exact h.nodup t
  · rw [ht, waitingFor_enqueue.mem_iff, mem_cons]
    by_cases hj : j = i
    · rw [hj, enqueue_reqs, if_pos rfl]
      exact iff_of_true (.inl rfl) ⟨rfl, rfl⟩
    · rw [← hreqs _ j hj]
      exact or_iff_right hj
  · rw [waitingFor_enqueue_of_ne ht]
    by_cases hj : j = i
    · rw [hj, enqueue_reqs, if_pos rfl]
      exact iff_of_false (hnot t) fun hf ↦ ht hf.2.symm
    · exact hreqs t j hj

/-- **A request enters the queue** of its server. -/
theorem Inv.enqueue (h : Inv E c) (hi : c.Held i k o) (hk : k ≠ .on)
    (hactive : (c.reqs i).active = false)
    (hunarmed : (c.reqs i).timer ≠ .armed) : Inv E (c.enqueue i) := by
  have hreq : (c.enqueue i).reqs i =
      { c.reqs i with
        linked := true
        hnd := if (c.reqs i).hnd = .none then .none else .off } :=
    update_self ..
  refine h.stay only_enqueue hreq ?_ ?_ hi.of_call
    (reqCnt_idle h only_enqueue rfl hactive (hreq ▸ hactive) (update_same Server.reqCnt rfl))
    (queues_enqueue h.queues hi.unlinked)
  · obtain ⟨hact, -, hdead, hauth, -⟩ := h.req i
    refine ⟨hact, fun _ ↦ ⟨hactive, hi.alive, hunarmed, ?_⟩, fun hd ↦ ?_, hauth,
      fun hon ↦ (hk (hi.kind.symm.trans hon)).elim⟩
    · split <;> nofun
    · nomatch hi.alive.symm.trans hd
  · exact fun _ _ harmed ↦ (hunarmed harmed).elim

/-! ### Calls -/

lemma Inv.setCalls (h : Inv E c) {calls : List PendingCall}
    (hnodup : (calls.map PendingCall.req).Nodup) (hcall : ∀ x ∈ calls, CallOk x (c.reqs x.req)) :
    Inv E { c with calls := calls } :=
  { h with
    nodup := hnodup
    call := hcall
    queues := { h.queues with }
    numbers := { h.numbers with }
    owners := { h.owners with } }

/-- Calls are taken away. -/
lemma Inv.calls (h : Inv E c) {calls : List PendingCall} (hs : calls.Sublist c.calls) :
    Inv E { c with calls := calls } :=
  h.setCalls (h.nodup.sublist (hs.map _)) fun x hx ↦ h.call x (hs.subset hx)

variable {func : Func}

/-- **A request is called.** -/
theorem Inv.post (h : Inv E c) (hi : ∀ x ∈ c.calls, x.req ≠ i)
    (hcall : CallOk ⟨(c.reqs i).ses, func, i⟩ (c.reqs i)) : Inv E (c.post func i) := by
  refine h.setCalls ?_ fun x hx ↦ ?_
  · rw [map_append]
    refine nodup_append.mpr ⟨h.nodup, nodup_singleton _, fun a ha b hb ↦ ?_⟩
    obtain ⟨x, hx, rfl⟩ := mem_map.mp ha
    rw [mem_singleton.mp hb]
    exact hi x hx
  · rcases mem_append.mp hx with hx | hx
    · exact h.call x hx
    · rw [mem_singleton.mp hx]
      exact hcall

/-- The request is called, so it waits. -/
lemma Pending.post (hf : func ≠ .startDeferred) : (c.post func i).Pending i :=
  .inr ⟨_, mem_append_right _ (mem_singleton_self _), rfl, hf⟩

lemma frame_post : Frame X c (c.post func i) := by
  refine ⟨fun j _ hp ↦ ?_, fun _ _ ↦ rfl, fun _ _ ↦ rfl⟩
  rcases hp with hl | ⟨x, hx, hxj⟩
  · exact .inl hl
  · exact .inr ⟨x, mem_append_left _ hx, hxj⟩

/-! ### The next request, and all of them -/

lemma Frame.of_pending (hf : Frame {j} c c') (hp : c'.Pending j)
    (hj : SameOwner (c.reqs j) (c'.reqs j)) : Frame X c c' := by
  refine ⟨fun a _ ha ↦ ?_, fun a _ ↦ ?_, fun a _ ↦ ?_⟩ <;> by_cases haj : a = j
  · rw [haj]
    exact hp
  · exact hf.pending a haj ha
  · rw [haj, hj.ses]
  · exact hf.ses a haj
  · rw [haj, hj.alive]
  · exact hf.alive a haj

/-- **The next request is woken.** -/
theorem wakeNext_keeps (h : Inv E c) (hlimit : (c.servers s).reqLimit ≠ 0) :
    Keeps E X c (c.wakeNext s) := by
  rw [wakeNext]
  split
  · exact .refl h
  next j l hw =>
  obtain ⟨hl, rfl⟩ := (h.queues.mem_iff s j).mp (hw ▸ mem_cons_self)
  obtain ⟨hactive, halive, hunarmed, hunread⟩ := (h.req j).linked hl
  have hkind : (c.reqs j).kind ≠ .on := fun hk ↦ nomatch ((h.req j).on hk).2.symm.trans hl
  have huncalled : ∀ x ∈ c.calls, x.req ≠ j := fun x hx hxj ↦
    nomatch hl.symm.trans (h.call_of_eq hx hxj).unlinked
  let d := (c.dequeue (c.reqs j).serv j).setActive (c.reqs j).serv j true
  have hreq' : d.reqs j = { c.reqs j with linked := false, active := true } := by
    rw [setActive_self, dequeue_self]
  have hheld : (c.dequeue (c.reqs j).serv j).Held j (c.reqs j).kind (c.reqs j).ses := by
    refine ⟨?_, ?_, huncalled, ?_, ?_⟩ <;> rw [dequeue_self]
    exact halive
  have hacquire : Inv E d := by
    have hserv : ((c.dequeue (c.reqs j).serv j).reqs j).serv = (c.reqs j).serv := by
      rw [dequeue_self]
    have := (h.dequeue hl).acquire hheld hkind (by rw [dequeue_self]; exact hactive) (by
      rw [servOf, hserv, dequeue_servers]
      exact hlimit)
    rwa [hserv] at this
  refine ⟨hacquire.post huncalled ?_, Frame.of_pending ?_ (.post nofun) ?_⟩
  · rw [hreq']
    exact ⟨halive, rfl, hunarmed, hunread, rfl, iff_of_true rfl rfl, nofun, hkind⟩
  · have hj := Set.mem_singleton j
    exact ((frame_of_only only_dequeue hj).trans (frame_of_only only_setActive hj)).trans frame_post
  · show SameOwner _ (d.reqs j)
    rw [hreq']
    exact ⟨rfl, rfl, rfl⟩

lemma wakeNext_apart (h : c.Queues) (hl : (c.reqs i).linked = false) :
    Apart i c (c.wakeNext s) := by
  rw [wakeNext]
  split
  · exact ⟨rfl, fun _ hx _ ↦ hx⟩
  next j l hw =>
  have hji : i ≠ j := by
    rintro rfl
    nomatch hl.symm.trans ((h.mem_iff s i).mp (hw ▸ mem_cons_self)).1
  refine ⟨?_, fun x hx hxi ↦ ?_⟩
  · show ((c.dequeue s j).setActive s j true).reqs i = _
    rw [setActive_reqs, if_neg hji, dequeue_reqs, if_neg hji]
  · rcases mem_append.mp hx with hx | hx
    · exact hx
    · rw [mem_singleton.mp hx] at hxi
      exact (hji hxi.symm).elim

lemma failAll_reqs : (c.failAll s).reqs j =
    if j ∈ c.waitingFor s then { c.reqs j with linked := false } else c.reqs j := rfl

lemma flush_servers : (c.flush s func).servers t =
    if t = s then { c.servers s with queue0 := [], queue1 := [] } else c.servers t :=
  update_apply ..

lemma failAll_servers : (c.failAll s).servers t =
    if t = s then { c.servers s with queue0 := [], queue1 := [], queueCnt := 0 }
    else c.servers t := by
  rw [failAll, setServ_servers]
  split
  · rw [flush_servers, if_pos rfl]
  · next ht => rw [flush_servers, if_neg ht]

lemma waitingFor_failAll : (c.failAll s).waitingFor t = if t = s then [] else c.waitingFor t := by
  rw [waitingFor, failAll_servers]
  split <;> rfl

/-- Of a request only `entry` changes. -/
lemma failAll_reqs_eq {c : Client} {s j : ℕ} :
    ∃ linked, (c.failAll s).reqs j = { c.reqs j with linked := linked } := by
  rw [failAll_reqs]
  split
  · exact ⟨false, rfl⟩
  · exact ⟨(c.reqs j).linked, rfl⟩

lemma queues_failAll (h : c.Queues) : (c.failAll s).Queues := by
  refine ⟨fun t ↦ ?_, fun t ↦ ?_, fun t j ↦ ?_⟩
  · rw [failAll_servers, waitingFor_failAll]
    split
    · rfl
    · exact h.queueCnt t
  · rw [waitingFor_failAll]
    split
    · exact nodup_nil
    · exact h.nodup t
  rw [waitingFor_failAll, failAll_reqs]
  have hs := h.mem_iff s j
  have ht := h.mem_iff t j
  by_cases hj : j ∈ c.waitingFor s
  · rw [if_pos hj]
    refine iff_of_false (fun hf ↦ ?_) fun hf ↦ nomatch hf.1
    split at hf
    · nomatch hf
    · next hne => exact hne ((ht.mp hf).2.symm.trans (hs.mp hj).2)
  · split
    · next heq =>
      rw [heq]
      exact iff_of_false nofun fun hf ↦ hj (hs.mpr hf)
    · exact ht

/-- **All that wait are called.** -/
theorem failAll_keeps (h : Inv E c) : Keeps E X c (c.failAll s) := by
  have hwait : ∀ j ∈ c.waitingFor s, (c.reqs j).linked = true := fun j hj ↦
    ((h.queues.mem_iff s j).mp hj).1
  have hcalled : ∀ x ∈ c.calls, x.req ∉ c.waitingFor s := fun x hx hj ↦
    nomatch (hwait _ hj).symm.trans (h.call x hx).unlinked
  have hserv : ∀ t, ((c.failAll s).servers t).reqLimit = (c.servers t).reqLimit ∧
      ((c.failAll s).servers t).reqCnt = (c.servers t).reqCnt ∧
      ((c.failAll s).servers t).key = (c.servers t).key := by
    intro t
    rw [failAll_servers]
    split
    · next ht =>
      rw [ht]
      exact ⟨rfl, rfl, rfl⟩
    · exact ⟨rfl, rfl, rfl⟩
  have howner : ∀ j, SameOwner (c.reqs j) ((c.failAll s).reqs j) := by
    intro j
    obtain ⟨l, hl⟩ := failAll_reqs_eq
    rw [hl]
    exact ⟨rfl, rfl, rfl⟩
  refine ⟨⟨h.fault, ⟨fun j ↦ ?_, fun j ↦ ?_, h.numbers.list, ?_⟩, fun t ↦ ?_,
    queues_failAll h.queues, fun j ↦ ?_, fun j hj ↦ ?_, ?_, fun x hx ↦ ?_,
    h.owners.congr (fun _ ↦ .refl) howner⟩, fun j _ hp ↦ ?_, fun j _ ↦ (howner j).ses,
    fun j _ ↦ (howner j).alive⟩
  · rw [(howner j).alive]
    exact h.numbers.req j
  · obtain ⟨l, hl⟩ := failAll_reqs_eq
    rw [hl]
    exact h.numbers.serv j
  · rw [funext fun t ↦ (hserv t).2.2]
    exact h.numbers.keys
  · have hsame : (c.failAll s).activeOn t = c.activeOn t := by
      refine activeOn_congr rfl fun j ↦ ?_
      obtain ⟨l, hl⟩ := failAll_reqs_eq
      rw [CountsAt, CountsAt, hl]
    rw [(hserv t).2.1, hsame]
    exact h.reqCnt t
  · rw [servOf, (hserv _).1, failAll_reqs]
    split
    · obtain ⟨hact, -, hdead, hauth, hon⟩ := h.req j
      exact ⟨hact, nofun, hdead, hauth, fun hk ↦ ⟨(hon hk).1, rfl⟩⟩
    · exact h.req j
  · obtain ⟨l, hl⟩ := failAll_reqs_eq
    rw [servOf, (hserv _).1, hl]
    exact h.interim j hj
  · show ((c.calls ++ (c.waitingFor s).map _).map PendingCall.req).Nodup
    rw [map_append, map_map]
    refine nodup_append.mpr ⟨h.nodup, ?_, fun a ha b hb ↦ ?_⟩
    · rw [show PendingCall.req ∘ (fun j ↦ ⟨(c.reqs j).ses, .wakeupFailed, j⟩) = id from rfl, map_id]
      exact h.queues.nodup s
    · obtain ⟨x, hx, rfl⟩ := mem_map.mp ha
      obtain ⟨j, hj, rfl⟩ := mem_map.mp hb
      exact fun hf ↦ hcalled x hx (hf ▸ hj)
  · rw [failAll_reqs]
    rcases mem_append.mp hx with hx | hx
    · rw [if_neg (hcalled x hx)]
      exact h.call x hx
    obtain ⟨j, hj, rfl⟩ := mem_map.mp hx
    obtain ⟨hactive, halive, hunarmed, hunread⟩ := (h.req j).linked (hwait j hj)
    rw [if_pos hj]
    exact ⟨halive, rfl, hunarmed, hunread, rfl,
      iff_of_false nofun fun hf ↦ (nomatch hactive.symm.trans hf),
      nofun, fun hk ↦ nomatch ((h.req j).on hk).2.symm.trans (hwait j hj)⟩
  · rcases hp with hl | ⟨x, hx, hxj⟩
    · by_cases hj : j ∈ c.waitingFor s
      · exact .inr ⟨_, mem_append_right _ (mem_map_of_mem hj), rfl, nofun⟩
      · left
        rw [failAll_reqs, if_neg hj]
        exact hl
    · exact .inr ⟨x, mem_append_left _ hx, hxj⟩

lemma failAll_apart (h : c.Queues) (hl : (c.reqs i).linked = false) :
    Apart i c (c.failAll s) := by
  have hi : i ∉ c.waitingFor s := fun hi ↦ nomatch hl.symm.trans ((h.mem_iff s i).mp hi).1
  refine ⟨?_, fun x hx hxi ↦ ?_⟩
  · rw [failAll_reqs, if_neg hi]
  · rcases mem_append.mp hx with hx | hx
    · exact hx
    · obtain ⟨j, hj, rfl⟩ := mem_map.mp hx
      exact (hi (hxi ▸ hj)).elim

end Client

end AccelPpp.Radius
