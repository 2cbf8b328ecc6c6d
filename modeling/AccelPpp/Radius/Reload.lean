import AccelPpp.Radius.Events

/-!
# A reload of the configuration

`load_config` marks all servers, adds those of the new configuration, and removes what is still
marked. A server that is found again keeps its requests and its queues and gets a new limit, so that
requests can come to stand under a limit they were not sent under. A server that is removed with
requests in its queues calls them all and leaves its counter of the queue as it was. `Reloadable`
says that neither happens.

Servers are told apart by their ports and their IPv4 address, so that IPv6 servers with the same
ports are one, and the old options are read after servers have been removed. `always_one_entry` says
that in all other sequences of loads every server has its own entry and keeps it.
-/

open Bool Function List Nat Transition

namespace AccelPpp.Radius

instance {limit : ℤ} {r : Req} : Decidable (InterimOk limit r) :=
  inferInstanceAs (Decidable (_ → _ → _ → _))

variable {limit limit' : ℤ}

/-- What has been freed stands under any limit. -/
lemma ReqOk.of_dead {r : Req} (h : ReqOk limit r) (hd : r.alive = false) : ReqOk limit' r :=
  { h with active := fun hact ↦ (nomatch hd.symm.trans (h.active hact).1) }

lemma InterimOk.of_dead {r : Req} (h : ReqOk limit r)
    (hd : r.alive = false) : InterimOk limit' r :=
  fun _ harmed ↦ nomatch harmed.symm.trans (h.dead hd).1

/-- Address family, address and ports. `add_server_old` leaves `ipv4` as it is in a new record. -/
def Server.identity (v : Server) : (UInt32 × ℕ × ℕ) × Bool × In6Addr :=
  (v.key, v.ipv4 || v.addr != 0, v.addr6)

namespace Client

variable {c₀ c c' : Client} {i j s t : ℕ} {v : Server} {confs olds : List Server} {X : Set ℕ}

/-! ### The condition -/

/-- The requests of a server can go on under a limit. -/
def Admissible (c : Client) (s : ℕ) (limit : ℤ) : Prop :=
  ∀ i < c.nreq, (c.reqs i).alive = true → (c.reqs i).serv = s →
    ((c.reqs i).active = true → limit ≠ 0) ∧ InterimOk limit (c.reqs i)

instance {limit : ℤ} : Decidable (c.Admissible s limit) :=
  inferInstanceAs (Decidable (∀ i < c.nreq, _ → _ → _ ∧ _))

/-- A reload keeps every server that requests wait for, and gives no server a limit that its
requests cannot go on under. -/
def Reloadable (c : Client) (confs olds : List Server) : Prop :=
  ∀ s ∈ c.list,
    (c.waitingFor s = [] ∨ ∃ v ∈ confs, v.key = (c.servers s).key) ∧
    ∀ v ∈ confs ++ olds, v.key = (c.servers s).key → c.Admissible s v.reqLimit

instance : Decidable (c.Reloadable confs olds) :=
  inferInstanceAs (Decidable (∀ s ∈ c.list, _ ∧ ∀ v ∈ confs ++ olds, _ → _))

/-! ### The table -/

/-- The entry that `__add_server` takes for that of a server. -/
abbrev found (c : Client) (v : Server) : Option ℕ :=
  c.list.find? fun s ↦ (c.servers s).key = v.key

lemma addServer_of_some (h : c.found v = some s) :
    c.addServer v = c.setServ s
      { c.servers s with
        failTimeout := v.failTimeout
        reqLimit := v.reqLimit
        maxFail := v.maxFail
        needFree := false
        secret := v.secret } := by
  rw [addServer, show c.list.find? _ = _ from h]

/-- A server that is added. -/
def newServer (v : Server) : Server :=
  { v with
    reqCnt := 0, queueCnt := 0, queue0 := [], queue1 := [], authCnt := 0, acctCnt := 0
    failTime := 0, timeoutCnt := 0, needFree := false }

lemma addServer_of_none (h : c.found v = none) :
    c.addServer v = { c.setServ c.nserv (newServer v) with
      list := c.list ++ [c.nserv], nserv := c.nserv + 1 } := by
  rw [addServer, show c.list.find? _ = _ from h]
  rfl

/-- A server that is found is in the list, under its key. -/
lemma of_find (h : c.found v = some s) : s ∈ c.list ∧ (c.servers s).key = v.key := by
  refine ⟨mem_of_find?_eq_some h, ?_⟩
  have hkey := find?_some h
  exact of_decide_eq_true hkey

lemma key_ne_of_find (h : c.found v = none) (hs : s ∈ c.list) : (c.servers s).key ≠ v.key :=
  fun hk ↦ find?_eq_none.mp h s hs (decide_eq_true hk)

/-- The entries of `serv_list` are known, and no two of them have one key. -/
structure Listed (c : Client) : Prop where
  list : ∀ s ∈ c.list, s < c.nserv
  keys : (c.list.map fun s ↦ (c.servers s).key).Nodup

lemma Numbers.listed (h : c.Numbers) : c.Listed :=
  ⟨h.list, h.keys⟩

section

variable (h : c.Listed)

include h

lemma Listed.ne_nserv (hs : s ∈ c.list) : s ≠ c.nserv :=
  Nat.ne_of_lt (h.list s hs)

lemma Listed.addServer : (c.addServer v).Listed := by
  rcases hfind : c.found v with _ | s
  · rw [addServer_of_none hfind]
    refine ⟨fun s hs ↦ ?_, ?_⟩
    · rcases mem_append.mp hs with hs | hs
      · exact (h.list s hs).trans (lt_succ_self _)
      · exact mem_singleton.mp hs ▸ lt_succ_self _
    have hold : (c.list.map fun s ↦ ((c.setServ c.nserv (newServer v)).servers s).key) =
        c.list.map fun s ↦ (c.servers s).key := by
      refine map_congr_left fun s hs ↦ ?_
      rw [setServ_servers, if_neg (h.ne_nserv hs)]
    rw [map_append, hold, map_singleton, setServ_servers, if_pos rfl, nodup_append]
    refine ⟨h.keys, nodup_singleton _, fun k hk k' hk' ↦ ?_⟩
    obtain ⟨s, hs, rfl⟩ := mem_map.mp hk
    rw [mem_singleton.mp hk']
    exact key_ne_of_find hfind hs
  · rw [addServer_of_some hfind]
    refine { h with keys := ?_ }
    rw [map_congr_left fun t _ ↦ ?_]
    · exact h.keys
    rw [setServ_servers]
    split
    · next ht =>
      rw [ht]
      rfl
    · rfl

end

/-- What becomes of the table when servers are added to it: those that are there stay what they are,
and lose their mark if they are found. -/
structure Added (c : Client) (vs : List Server) (c' : Client) : Prop where
  listed : c'.Listed
  old : ∀ s ∈ c.list, s ∈ c'.list ∧ (c'.servers s).identity = (c.servers s).identity ∧
    ((c'.servers s).needFree = true →
      (c.servers s).needFree = true ∧ ∀ v ∈ vs, v.key ≠ (c.servers s).key)
  found : ∀ v ∈ vs, ∃ s ∈ c'.list, (c'.servers s).key = v.key ∧ (c'.servers s).needFree = false
  new : ∀ s ∈ c'.list, s ∈ c.list ∨
    (c'.servers s).needFree = false ∧ ∃ v ∈ vs, (c'.servers s).identity = v.identity

lemma added_addServer (h : c.Listed) (v : Server) : Added c [v] (c.addServer v) := by
  have hlisted := h.addServer (v := v)
  rcases hfind : c.found v with _ | t
  · rw [addServer_of_none hfind] at hlisted ⊢
    have hnew : (c.setServ c.nserv (newServer v)).servers c.nserv = newServer v :=
      update_self ..
    refine ⟨hlisted, fun s hs ↦ ?_, fun w hw ↦ ?_, fun s hs ↦ ?_⟩
    · have hold : (c.setServ c.nserv (newServer v)).servers s = c.servers s :=
        update_of_ne (h.ne_nserv hs) ..
      refine ⟨mem_append_left _ hs, congrArg _ hold, fun hn ↦ ⟨hold ▸ hn, ?_⟩⟩
      exact forall_mem_singleton.mpr (key_ne_of_find hfind hs).symm
    · refine ⟨c.nserv, mem_append_right _ (mem_singleton_self _), ?_⟩
      rw [mem_singleton.mp hw, hnew]
      exact ⟨rfl, rfl⟩
    · refine (mem_append.mp hs).imp_right fun hs ↦ ?_
      rw [mem_singleton.mp hs, hnew]
      exact ⟨rfl, v, mem_singleton_self v, rfl⟩
  · obtain ⟨ht, hkey⟩ := of_find hfind
    rw [addServer_of_some hfind] at hlisted ⊢
    refine ⟨hlisted, fun s hs ↦ ⟨hs, ?_⟩, fun w hw ↦ ⟨t, ht, ?_⟩, fun s hs ↦ .inl hs⟩
    · rw [setServ_servers]
      split
      · next hst =>
        rw [hst]
        exact ⟨rfl, nofun⟩
      · next hst =>
        refine ⟨rfl, fun hn ↦ ⟨hn, forall_mem_singleton.mpr fun hk ↦ hst ?_⟩⟩
        exact inj_on_of_nodup_map h.keys hs ht (hk.symm.trans hkey.symm)
    · rw [setServ_servers, if_pos rfl, mem_singleton.mp hw]
      exact ⟨hkey, rfl⟩

lemma key_of_identity {v w : Server} (h : v.identity = w.identity) : v.key = w.key :=
  congrArg Prod.fst h

lemma Added.trans {vs ws : List Server} {c₁ c₂ : Client} (h₁ : Added c vs c₁)
    (h₂ : Added c₁ ws c₂) : Added c (vs ++ ws) c₂ := by
  refine ⟨h₂.listed, fun s hs ↦ ?_, fun v hv ↦ ?_, fun s hs ↦ ?_⟩
  · obtain ⟨hs₁, hid₁, hn₁⟩ := h₁.old s hs
    obtain ⟨hs₂, hid₂, hn₂⟩ := h₂.old s hs₁
    refine ⟨hs₂, hid₂.trans hid₁, fun hn ↦ ?_⟩
    obtain ⟨hn, hws⟩ := hn₂ hn
    rw [key_of_identity hid₁] at hws
    exact ⟨(hn₁ hn).1, forall_mem_append.mpr ⟨(hn₁ hn).2, hws⟩⟩
  · rcases mem_append.mp hv with hv | hv
    · obtain ⟨s, hs, hkey, hn⟩ := h₁.found v hv
      obtain ⟨hs', hid, hn'⟩ := h₂.old s hs
      refine ⟨s, hs', (key_of_identity hid).trans hkey, eq_false_iff.mpr fun hf ↦ ?_⟩
      nomatch hn.symm.trans (hn' hf).1
    · exact h₂.found v hv
  · rcases h₂.new s hs with hs₁ | ⟨hn, v, hv, hid⟩
    · refine (h₁.new s hs₁).imp_right fun ⟨hn, v, hv, hid⟩ ↦ ?_
      obtain ⟨-, hid', hn'⟩ := h₂.old s hs₁
      refine ⟨eq_false_iff.mpr fun hf ↦ ?_, v, mem_append_left _ hv, hid'.trans hid⟩
      nomatch hn.symm.trans (hn' hf).1
    · exact .inr ⟨hn, v, mem_append_right _ hv, hid⟩

lemma added_foldl (h : c.Listed) (vs : List Server) : Added c vs (vs.foldl addServer c) := by
  induction vs generalizing c with
  | nil => exact ⟨h, fun s hs ↦ ⟨hs, rfl, fun hn ↦ ⟨hn, nofun⟩⟩, nofun, fun s hs ↦ .inl hs⟩
  | cons v vs ih => exact (added_addServer h v).trans (ih h.addServer)

/-! ### The reload -/

/-- A reload is under way: no request has changed, and the servers that were there before are known
by what they were known by and have their queues. -/
structure Reloading (c₀ c : Client) : Prop where
  inv : Inv ∅ c
  reqs : c.reqs = c₀.reqs
  nreq : c.nreq = c₀.nreq
  calls : c.calls = c₀.calls
  nserv : c₀.nserv ≤ c.nserv
  old : ∀ s ∈ c.list, s < c₀.nserv →
    s ∈ c₀.list ∧ (c.servers s).key = (c₀.servers s).key ∧ c.waitingFor s = c₀.waitingFor s

lemma sameCounts_markServers : SameCounts (c.servers s) (c.markServers.servers s) := by
  show SameCounts _ (if s ∈ c.list then _ else _)
  split <;> exact ⟨rfl, rfl, rfl, rfl, rfl, rfl⟩

lemma Reloading.markServers (h : Inv ∅ c) : Reloading c c.markServers :=
  ⟨h.sameCounts fun _ ↦ sameCounts_markServers, rfl, rfl, rfl, le_rfl, fun _ hs _ ↦
    ⟨hs, sameCounts_markServers.key, waitingFor_sameCounts sameCounts_markServers⟩⟩

/-- A server that nothing waits for is taken out of the list, and that is all. -/
lemma removeServer_eq (hw : c.waitingFor s = []) :
    c.removeServer s = { c with list := c.list.erase s } := by
  have hserv : { c.servers s with queue0 := [], queue1 := [] } = c.servers s := by
    obtain ⟨hqueue0, hqueue1⟩ := append_eq_nil_iff.mp hw
    calc { c.servers s with queue0 := [], queue1 := [] }
      _ = { c.servers s with
            queue0 := (c.servers s).queue0, queue1 := (c.servers s).queue1 } := by
        rw [hqueue0, hqueue1]
  rw [removeServer]
  simp only [flush, ensure, hw, all_nil, if_true, hserv, update_eq_self,
    not_mem_nil, if_false, map_nil, append_nil]

section

variable (h : Reloading c₀ c)

include h

lemma Reloading.keeps : Keeps ∅ X c₀ c := by
  refine ⟨h.inv, fun i _ hp ↦ ?_, fun i _ ↦ ?_, fun i _ ↦ ?_⟩
  · rw [Pending, h.reqs, h.calls]
    exact hp
  all_goals rw [h.reqs]

/-- **A server gets new settings.** -/
theorem Reloading.setLimit (h₀ : c₀.Numbers)
    (hv : SameCounts { c.servers s with reqLimit := v.reqLimit } v)
    (hadm : s < c₀.nserv → c₀.Admissible s v.reqLimit) : Reloading c₀ (c.setServ s v) := by
  have hservers : ∀ t, SameCounts
      { c.servers t with reqLimit := ((c.setServ s v).servers t).reqLimit }
      ((c.setServ s v).servers t) := by
    intro t
    rw [setServ_servers]
    split
    · next ht =>
      rw [ht]
      exact hv
    · exact ⟨rfl, rfl, rfl, rfl, rfl, rfl⟩
  have hok : ∀ i, ReqOk ((c.setServ s v).servers (c.reqs i).serv).reqLimit (c.reqs i) ∧
      InterimOk ((c.setServ s v).servers (c.reqs i).serv).reqLimit (c.reqs i) := by
    intro i
    have hreq := h.inv.req i
    rcases halive : (c.reqs i).alive with _ | _
    · exact ⟨hreq.of_dead halive, .of_dead hreq halive⟩
    rw [setServ_servers]
    split
    · next his =>
      have hi := halive
      rw [h.reqs] at hi his
      obtain ⟨hact, hint⟩ := hadm (his ▸ h₀.serv i hi) i (h₀.req i hi) hi his
      rw [← h.reqs] at hact hint
      exact ⟨{ hreq with active := fun ha ↦ ⟨halive, hact ha⟩ }, hint⟩
    · exact ⟨hreq, h.inv.interim i fun hf ↦ hf⟩
  refine { h with
    inv := h.inv.servers hservers (fun i ↦ (hok i).1) fun i _ ↦ (hok i).2
    old := fun t ht hlt ↦ ?_ }
  obtain ⟨hmem, hkey, hwait⟩ := h.old t ht hlt
  refine ⟨hmem, ((hservers t).key).trans hkey, Eq.trans ?_ hwait⟩
  rw [waitingFor, waitingFor, (hservers t).queue0, (hservers t).queue1]

/-- **A server is added.** -/
theorem Reloading.newServer (hfind : c.found v = none) : Reloading c₀ (c.addServer v) := by
  have hinv := h.inv
  have hlisted := hinv.numbers.listed.addServer (v := v)
  rw [addServer_of_none hfind] at hlisted ⊢
  -- no request is at a server that is not there yet
  have hdead : ∀ i, (c.reqs i).serv = c.nserv → (c.reqs i).alive = false := by
    intro i hi
    rw [← not_eq_true]
    exact fun ha ↦ Nat.ne_of_lt (hinv.numbers.serv i ha) hi
  have hnone : c.activeOn c.nserv = 0 :=
    count_iff_forall_not.mpr fun i _ hi ↦ nomatch (hdead i hi.2.2).symm.trans hi.1
  -- what holds of the new server, and of all there were
  have hall (P : ℕ → Server → Prop) := (forall_update_iff c.servers (a := c.nserv)
    (b := Client.newServer v) P).mpr
  have hq := hinv.queues
  refine ⟨⟨hinv.fault, ⟨hinv.numbers.req, fun i hi ↦ lt_succ_of_lt (hinv.numbers.serv i hi),
    hlisted.list, hlisted.keys⟩, ?_, ⟨?_, ?_, fun t i ↦ ?_⟩, fun i ↦ ?_, fun i hi ↦ ?_, hinv.nodup,
    hinv.call, { hinv.owners with }⟩, h.reqs, h.nreq, h.calls, h.nserv.trans (le_succ _),
    fun t ht hlt ↦ ?_⟩
  · exact hall (fun t v ↦ v.reqCnt = c.activeOn t) ⟨by rw [hnone]; rfl, fun t _ ↦ hinv.reqCnt t⟩
  · exact hall (fun _ v ↦ v.queueCnt = (v.queue0 ++ v.queue1).length)
      ⟨rfl, fun t _ ↦ hq.queueCnt t⟩
  · exact hall (fun _ v ↦ (v.queue0 ++ v.queue1).Nodup) ⟨nodup_nil, fun t _ ↦ hq.nodup t⟩
  · refine hall (fun t v ↦ i ∈ v.queue0 ++ v.queue1 ↔
      (c.reqs i).linked = true ∧ (c.reqs i).serv = t) ⟨?_, fun t _ ↦ hq.mem_iff t i⟩ t
    exact iff_of_false not_mem_nil fun hf ↦
      nomatch (hdead i hf.2).symm.trans ((hinv.req i).linked hf.1).2.1
  · exact hall (fun t v ↦ (c.reqs i).serv = t → ReqOk v.reqLimit (c.reqs i))
      ⟨fun ht ↦ (hinv.req i).of_dead (hdead i ht), fun t _ ht ↦ ht ▸ hinv.req i⟩ _ rfl
  · exact hall (fun t v ↦ (c.reqs i).serv = t → InterimOk v.reqLimit (c.reqs i))
      ⟨fun ht ↦ .of_dead (hinv.req i) (hdead i ht), fun t _ ht ↦ ht ▸ hinv.interim i hi⟩ _ rfl
  · have hne : t ≠ c.nserv := Nat.ne_of_lt (hlt.trans_le h.nserv)
    have ht' : t ∈ c.list := (mem_append.mp ht).resolve_right fun hf ↦
      hne (mem_singleton.mp hf)
    rw [waitingFor]
    dsimp only [setServ]
    rw [update_of_ne hne]
    exact h.old t ht' hlt

/-- **`__add_server`** -/
theorem Reloading.addServer (h₀ : c₀.Numbers)
    (hadm : ∀ s ∈ c₀.list, v.key = (c₀.servers s).key → c₀.Admissible s v.reqLimit) :
    Reloading c₀ (c.addServer v) := by
  rcases hfind : c.found v with _ | s
  · exact h.newServer hfind
  obtain ⟨hs, hkey⟩ := of_find hfind
  rw [addServer_of_some hfind]
  refine h.setLimit h₀ ⟨rfl, rfl, rfl, rfl, rfl, rfl⟩ fun hlt ↦ ?_
  obtain ⟨hmem, hold, -⟩ := h.old s hs hlt
  exact hadm s hmem (hkey.symm.trans hold)

lemma Reloading.addServers (h₀ : c₀.Numbers)
    (hadm : ∀ v ∈ confs, ∀ s ∈ c₀.list, v.key = (c₀.servers s).key →
      c₀.Admissible s v.reqLimit) : Reloading c₀ (confs.foldl Client.addServer c) :=
  foldlRecOn confs Client.addServer h fun _ h v hv ↦ h.addServer h₀ (hadm v hv)

lemma Reloading.removeServer (hw : c.waitingFor s = []) : Reloading c₀ (c.removeServer s) := by
  have hinv := h.inv
  rw [removeServer_eq hw]
  refine { h with
    inv := { hinv with
      numbers := ⟨hinv.numbers.req, hinv.numbers.serv, fun t ht ↦ ?_, ?_⟩
      queues := { hinv.queues with }
      owners := { hinv.owners with } }
    old := fun t ht ↦ h.old t (mem_of_mem_erase ht) }
  · exact hinv.numbers.list t (mem_of_mem_erase ht)
  · exact hinv.numbers.keys.sublist (erase_sublist.map _)

/-- Servers that nothing waits for are removed. -/
lemma Reloading.removeServers
    (hw : ∀ s ∈ c.list, (c.servers s).needFree = true → c.waitingFor s = []) :
    Reloading c₀ c.removeServers := by
  refine (foldlRecOn (motive := fun c' ↦ Reloading c₀ c' ∧ c'.servers = c.servers) _
    Client.removeServer ⟨h, rfl⟩ fun c' h' s hs ↦ ?_).1
  obtain ⟨hmem, hmarked⟩ := mem_filter.mp hs
  have hempty : c'.waitingFor s = [] := by
    rw [waitingFor, h'.2]
    exact hw s hmem hmarked
  refine ⟨h'.1.removeServer hempty, ?_⟩
  rw [removeServer_eq hempty]
  exact h'.2

end

variable {now maxTry : ℕ} {shutdown : Bool}

/-- Settings that are read when a request is sent change. -/
lemma Inv.settings {E : Set ℕ} (h : Inv E c) :
    Inv E { c with now := now, maxTry := maxTry, shutdown := shutdown } :=
  { h with
    numbers := { h.numbers with }
    queues := { h.queues with }
    owners := { h.owners with } }

lemma Keeps.settings (h : Inv ∅ c) :
    Keeps ∅ X c { c with now := now, maxTry := maxTry, shutdown := shutdown } :=
  ⟨h.settings, fun _ _ hp ↦ hp, fun _ _ ↦ rfl, fun _ _ ↦ rfl⟩

/-- **`load_config`** -/
theorem reload_keeps {maxTry : ℕ} (h : Inv ∅ c) (hr : c.Reloadable confs olds) :
    Keeps ∅ X c (c.reload confs olds maxTry) := by
  have hadm : ∀ v ∈ confs ++ olds, ∀ s ∈ c.list, v.key = (c.servers s).key →
      c.Admissible s v.reqLimit := fun v hv s hs ↦ (hr s hs).2 v hv
  have hmark := Reloading.markServers h
  have hadd := hmark.addServers h.numbers fun v hv ↦ hadm v (mem_append_left olds hv)
  have hremove : Reloading c (confs.foldl Client.addServer c.markServers).removeServers := by
    refine hadd.removeServers fun s hs hn ↦ ?_
    have hadded := added_foldl hmark.inv.numbers.listed confs
    have hmem := (hadded.new s hs).resolve_right fun hf ↦ nomatch hf.1.symm.trans hn
    have hkeys := ((hadded.old s hmem).2.2 hn).2
    obtain ⟨hold, hkey, -⟩ := hmark.old s hmem (h.numbers.list s hmem)
    obtain ⟨-, -, hwait⟩ := hadd.old s hs (h.numbers.list s hmem)
    rw [hwait]
    refine (hr s hold).1.resolve_right ?_
    rintro ⟨v, hv, hvs⟩
    exact hkeys v hv (hvs.trans hkey.symm)
  have hall := hremove.addServers h.numbers fun v hv ↦ hadm v (mem_append_right confs hv)
  exact hall.keeps.trans (.settings hall.inv)

/-! ### One entry for each server -/

/-- A load of the servers `vs` turns the table `c` into `c'`: there is one entry that is not marked
for each server, and a server that is there already keeps its own. -/
structure Loaded (c : Client) (vs : List Server) (c' : Client) : Prop where
  one : ∀ v ∈ vs, ∃! s, s ∈ c'.list ∧ (c'.servers s).needFree = false ∧
    (c'.servers s).identity = v.identity
  kept : ∀ s ∈ c.list, ∀ v ∈ vs, (c.servers s).identity = v.identity →
    s ∈ c'.list ∧ (c'.servers s).identity = v.identity

/-- Servers with one key are the same, in the configuration and in the table, and the old options
name no server of the table that is not named otherwise. -/
def Distinguished (c : Client) (confs olds : List Server) : Prop :=
  (∀ v ∈ confs ++ olds, ∀ w ∈ confs ++ olds, v.key = w.key → v.identity = w.identity) ∧
    ∀ s ∈ c.list, ∀ v ∈ confs ++ olds, (c.servers s).key = v.key →
      (c.servers s).identity = v.identity ∧ ∃ w ∈ confs, w.key = v.key

instance : Decidable (c.Distinguished confs olds) :=
  inferInstanceAs (Decidable (_ ∧ _))

lemma Listed.markServers (h : c.Listed) : c.markServers.Listed := by
  refine { h with keys := ?_ }
  rw [map_congr_left fun s _ ↦ sameCounts_markServers.key]
  exact h.keys

/-- Servers are removed, but none that is not marked. -/
structure Removed (c c' : Client) : Prop where
  list : c'.list <+ c.list
  nserv : c'.nserv = c.nserv
  servers : ∀ s, (c'.servers s).identity = (c.servers s).identity ∧
    (c'.servers s).needFree = (c.servers s).needFree
  stays : ∀ s ∈ c.list, (c.servers s).needFree = false → s ∈ c'.list

lemma removed_removeServers : Removed c c.removeServers := by
  refine foldlRecOn (motive := Removed c) _ _ ⟨.refl _, rfl, fun _ ↦ ⟨rfl, rfl⟩, fun _ hs _ ↦ hs⟩
    fun c' h t ht ↦ ?_
  obtain ⟨f, hf⟩ := ensure_eq c' ((c'.waitingFor t).all fun i ↦ (c'.reqs i).ses.isSome)
  rw [removeServer, hf]
  refine ⟨erase_sublist.trans h.list, h.nserv, fun s ↦ ?_, fun s hs hn ↦ ?_⟩
  · rw [flush_servers, ← (h.servers s).1, ← (h.servers s).2]
    split
    · next hs =>
      rw [hs]
      exact ⟨rfl, rfl⟩
    · exact ⟨rfl, rfl⟩
  · refine (mem_erase_of_ne ?_).mpr (h.stays s hs hn)
    rintro rfl
    nomatch hn.symm.trans (mem_filter.mp ht).2

lemma Removed.listed (h : Removed c c') (hc : c.Listed) : c'.Listed := by
  refine ⟨fun s hs ↦ h.nserv ▸ hc.list s (h.list.subset hs), ?_⟩
  rw [map_congr_left fun s _ ↦ key_of_identity (h.servers s).1]
  exact hc.keys.sublist (h.list.map _)

lemma identity_markServers : (c.markServers.servers s).identity = (c.servers s).identity := by
  show Server.identity (if s ∈ c.list then _ else _) = _
  split <;> rfl

section

variable {c₁ c₂ : Client} (hadd : Added c.markServers confs c₁) (hremove : Removed c₁ c₂)
  (hold : Added c₂ olds c') (hc : c.Distinguished confs olds)

include hadd hremove hold

include hc in
/-- An entry is there from before, or for a server of the configuration. -/
lemma identity_of_key (hs : s ∈ c'.list) (hv : v ∈ confs ++ olds)
    (hkey : (c'.servers s).key = v.key) : (c'.servers s).identity = v.identity := by
  obtain ⟨hsame, htable⟩ := hc
  have hconf : ∀ w ∈ confs ++ olds, (c'.servers s).identity = w.identity →
      (c'.servers s).identity = v.identity := fun w hw hid ↦
    hid.trans (hsame w hw v hv ((key_of_identity hid).symm.trans hkey))
  rcases hold.new s hs with hs₂ | ⟨-, w, hw, hid⟩
  · have hid₁ := (hold.old s hs₂).2.1.trans (hremove.servers s).1
    rcases hadd.new s (hremove.list.subset hs₂) with hs₀ | ⟨-, w, hw, hid⟩
    · have hid₀ := (hid₁.trans (hadd.old s hs₀).2.1).trans identity_markServers
      exact hid₀.trans (htable s hs₀ v hv ((key_of_identity hid₀).symm.trans hkey)).1
    · exact hconf w (mem_append_left _ hw) (hid₁.trans hid)
  · exact hconf w (mem_append_right _ hw) hid

omit hadd in
lemma stays_of_unmarked (hs : s ∈ c₁.list) (hn : (c₁.servers s).needFree = false) :
    s ∈ c'.list ∧ (c'.servers s).needFree = false ∧
      (c'.servers s).identity = (c₁.servers s).identity := by
  obtain ⟨hs', hid, hn'⟩ := hold.old s (hremove.stays s hs hn)
  obtain ⟨hid₂, hn₂⟩ := hremove.servers s
  refine ⟨hs', eq_false_iff.mpr fun hf ↦ ?_, hid.trans hid₂⟩
  nomatch hn.symm.trans (hn₂.symm.trans (hn' hf).1)

include hc in
lemma loaded_of_added : Loaded c (confs ++ olds) c' := by
  refine ⟨fun v hv ↦ ?_, fun s hs v hv hid ↦ ?_⟩
  · obtain ⟨s, hs, hkey, hn⟩ : ∃ s ∈ c'.list, (c'.servers s).key = v.key ∧
        (c'.servers s).needFree = false := by
      rcases mem_append.mp hv with hv | hv
      · obtain ⟨s, hs, hkey, hn⟩ := hadd.found v hv
        obtain ⟨hs', hn', hid⟩ := stays_of_unmarked hremove hold hs hn
        exact ⟨s, hs', (key_of_identity hid).trans hkey, hn'⟩
      · exact hold.found v hv
    refine ⟨s, ⟨hs, hn, identity_of_key hadd hremove hold hc hs hv hkey⟩, fun t ⟨ht, _, hid⟩ ↦ ?_⟩
    exact inj_on_of_nodup_map hold.listed.keys ht hs ((key_of_identity hid).trans hkey.symm)
  · obtain ⟨-, w, hw, hkey⟩ := hc.2 s hs v hv (key_of_identity hid)
    obtain ⟨hs₁, hid₁, hn₁⟩ := hadd.old s hs
    rw [identity_markServers.trans hid] at hid₁
    obtain ⟨hs', -, hid'⟩ := stays_of_unmarked hremove hold hs₁ <| eq_false_iff.mpr fun hn ↦
      (hn₁ hn).2 w hw (hkey.trans (key_of_identity (identity_markServers.trans hid)).symm)
    exact ⟨hs', hid'.trans hid₁⟩

end

/-- The options `server`, those of old, and `conf_max_try`. -/
abbrev Conf := List Server × List Server × ℕ

def load (c : Client) (conf : Conf) : Client :=
  c.reload conf.1 conf.2.1 conf.2.2

/-- **After every load there is one entry for each server**, as long as no two servers have the same
key, which does not tell IPv6 addresses apart, and the old options name no server in the table. -/
theorem always_one_entry (h : c.Listed) (loads : List Conf)
    (hloads : Along load (fun c conf ↦ c.Distinguished conf.1 conf.2.1) c loads) :
    Along load (fun c conf ↦ Loaded c (conf.1 ++ conf.2.1) (c.load conf)) c loads := by
  refine Along.along (P := Listed) (fun c conf hc _ ↦ ?_) (fun c conf hc hd ↦ ?_) h hloads
  · have hremoved := removed_removeServers.listed (added_foldl hc.markServers conf.1).listed
    exact { (added_foldl hremoved conf.2.1).listed with }
  · have hadd := added_foldl hc.markServers conf.1
    have hold := added_foldl (removed_removeServers.listed hadd.listed) conf.2.1
    exact { loaded_of_added hadd removed_removeServers hold hd with }

/-- The server with the address `n`. -/
def serverAt (ipv4 : Bool) (n : ℕ) : Server :=
  { initial.servers 0 with
    ipv4, addr := if ipv4 then .ofNat n else 0, addr6 := if ipv4 then 0 else n
    authPort := 1812, acctPort := 1813 }

/-- A second server is added in a reload. -/
theorem always_one_entry_second :
    let loads : List Conf :=
      [([serverAt true 1], [], 3), ([serverAt true 2, serverAt true 1], [], 3)]
    initial.Listed ∧
      Along load (fun c conf ↦ c.Distinguished conf.1 conf.2.1) initial loads ∧
      Along load (fun c conf ↦ Loaded c (conf.1 ++ conf.2.1) (c.load conf)) initial loads :=
  have hlisted : initial.Listed := ⟨nofun, nodup_nil⟩
  ⟨hlisted, by decide +kernel, always_one_entry hlisted _ (by decide +kernel)⟩

/-- Of two IPv6 servers there is only the first, and a server of the old options gets a new entry in
a reload. -/
theorem ipv6_servers_merged :
    let c := initial.load ([serverAt false 1, serverAt false 2], [], 3)
    (serverAt false 1).identity ≠ (serverAt false 2).identity ∧ c.list = [0] ∧
      (c.servers 0).identity = (serverAt false 1).identity ∧
      (run load initial [([], [serverAt true 1], 3), ([], [serverAt true 1], 3)]).list = [1] := by
  decide +kernel

end Client

end AccelPpp.Radius
