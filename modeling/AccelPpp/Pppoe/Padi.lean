import AccelPpp.Lib.Run
import AccelPpp.Pppoe.Cookie

/-!
# The limit on PADIs

A PPPoE server answers at most `padi-limit` PADIs a second. It keeps a list of those it has
answered, with the time of each, and `check_padi_limit` first drops from the head of the list what
is more than 1000 ms old. Two counters go with it: `padi_cnt` of the server and `total_padi_cnt`,
which all servers share and which is held against the limit of the configuration.

Each server runs in its own context, so a PADI is one step. The other steps are the start of a
server, with the limit of its option string or else the one of the configuration; its end
(`pppoe_server_free`); a reload; and the passage of time. Whether `mempool_alloc` succeeds and what
`connlimit_check` says is given from outside.

`always_recovers_iff` says exactly which runs keep the counters right and admit every PADI that
follows a second without one. By then the server's own entries have expired (`unexpired_eq_nil`), if
not within the first millisecond, in which an age may still count as 1000 ms. There are two ways to
fail.

* `pppoe_server_free` frees a server whose list is not empty and leaves its entries in
  `total_padi_cnt` for ever (`padi_refused_for_ever`).
* Entries expire only when their own server receives a PADI. Until then they count in
  `total_padi_cnt` against the other servers, however old they are.
-/

open List

namespace AccelPpp.Pppoe

open Transition

/-- `struct timespec`. -/
structure Timespec where
  tvSec : ℤ
  tvNsec : ℤ
deriving DecidableEq

/-- What `clock_gettime` stores, `n` nanoseconds after the clock was started. -/
def clockGettime (n : ℕ) : Timespec where
  tvSec := n / 1000000000
  tvNsec := n % 1000000000

/-- The milliseconds between two times, as `check_padi_limit` computes them. C's division rounds
towards zero, so the result is rounded down or up according to which has more nanoseconds. -/
def Timespec.elapsed (ts since : Timespec) : ℤ :=
  (ts.tvSec - since.tvSec) * 1000 + (ts.tvNsec - since.tvNsec).tdiv 1000000

/-- `struct padi_t`. -/
structure Padi where
  ts : Timespec
  addr : Bytes 6
deriving DecidableEq

/-- What `check_padi_limit` drops. -/
def Padi.expired (ts : Timespec) (padi : Padi) : Bool :=
  decide (1000 < ts.elapsed padi.ts)

/-- The part of `struct pppoe_serv_t` that the limit is about. -/
structure PadiServ where
  padiList : List Padi := []
  padiCnt : ℤ := 0
  padiLimit : ℤ

/-- The loop at the beginning of `check_padi_limit`: what is left of the list, and the two counters.
-/
def dropExpired (ts : Timespec) : List Padi → ℤ → ℤ → List Padi × ℤ × ℤ
  | [], cnt, total => ([], cnt, total)
  | padi :: rest, cnt, total =>
    if padi.expired ts then dropExpired ts rest (cnt - 1) (total - 1)
    else (padi :: rest, cnt, total)

/-- A call of `check_padi_limit`: the arguments and what is looked up. -/
structure PadiCall where
  ts : Timespec
  addr : Bytes 6
  /-- Whether `mempool_alloc` returns memory. -/
  alloc : Bool
  /-- Whether the connlimit module is loaded and `connlimit_check` refuses. -/
  connlimit : Bool

section

variable (confPadiLimit : ℤ) (c : PadiCall) (serv : PadiServ) (total : ℤ)

/-- `check_padi_limit`: whether the PADI is accepted, the server and `total_padi_cnt` afterwards.
The configured limit is compared as an `unsigned int`. -/
def checkPadiLimit : Bool × PadiServ × ℤ :=
  if serv.padiLimit = 0 then (!c.connlimit, serv, total)
  else
    let (padiList, padiCnt, total) := dropExpired c.ts serv.padiList serv.padiCnt total
    let serv := { serv with padiList, padiCnt }
    if padiCnt = serv.padiLimit then (false, serv, total)
    else if confPadiLimit ≠ 0 ∧ confPadiLimit % 2 ^ 32 ≤ total then (false, serv, total)
    else if padiList.any (·.addr = c.addr) then (false, serv, total)
    else if !c.alloc then (false, serv, total)
    else (!c.connlimit,
      { serv with padiList := padiList ++ [⟨c.ts, c.addr⟩], padiCnt := padiCnt + 1 }, total + 1)

/-! ### One call -/

/-- A server's counter is right, and within its limit. -/
def PadiServ.Counted : Prop :=
  serv.padiCnt = serv.padiList.length ∧ serv.padiCnt ≤ serv.padiLimit

/-- What is left of the list when the expired entries have been dropped. -/
def PadiServ.unexpired (ts : Timespec) (serv : PadiServ) : List Padi :=
  serv.padiList.dropWhile (Padi.expired ts)

/-- The list of a server with a limit takes one more entry: those that have not expired are not as
many as the limit, the entries of all servers leave room for one, none of its own is from the same
address, and there is memory. -/
def Spare : Prop :=
  (serv.unexpired c.ts).length ≠ serv.padiLimit ∧
    (confPadiLimit ≠ 0 →
      total - serv.padiList.length + (serv.unexpired c.ts).length < confPadiLimit % 2 ^ 32) ∧
    (∀ padi ∈ serv.unexpired c.ts, padi.addr ≠ c.addr) ∧ c.alloc = true

instance : Decidable (Spare confPadiLimit c serv total)
    := inferInstanceAs (Decidable (_ ∧ _ ∧ _ ∧ _))

end

lemma dropExpired_eq (ts : Timespec) (padiList : List Padi) (cnt total : ℤ) :
    dropExpired ts padiList cnt total =
      (padiList.dropWhile (Padi.expired ts),
        cnt - padiList.length + (padiList.dropWhile (Padi.expired ts)).length,
        total - padiList.length + (padiList.dropWhile (Padi.expired ts)).length) := by
  have hcons : ∀ n k : ℤ, ∀ rest : List Padi, n - 1 - rest.length + k = n - (rest.length + 1) + k :=
    fun n k rest ↦ by omega
  induction padiList generalizing cnt total with
  | nil => simp [dropExpired]
  | cons padi rest ih =>
    rw [dropExpired, dropWhile_cons]
    split
    · rw [ih, hcons, hcons]
      rfl
    · rw [sub_add_cancel, sub_add_cancel]

/-- An entry has expired when a second and a millisecond have passed. -/
lemma expired_of_le {t now : ℕ} (h : t + 1001000000 ≤ now) {padi : Padi}
    (hts : padi.ts = clockGettime t) : padi.expired (clockGettime now) = true := by
  rw [Padi.expired, hts, Timespec.elapsed, clockGettime, clockGettime, decide_eq_true_iff]
  have hdiv := Int.mul_tdiv_add_tmod ((now % 1000000000 : ℤ) - t % 1000000000) 1000000
  have hmod := Int.tmod_lt_of_pos ((now % 1000000000 : ℤ) - t % 1000000000)
    (show (0 : ℤ) < 1000000 by decide)
  dsimp only
  omega

variable {confPadiLimit : ℤ} {c : PadiCall} {serv : PadiServ} {total : ℤ}

/-- Nothing comes into the list but an entry with the time of the call. -/
lemma mem_checkPadiLimit {padi : Padi}
    (h : padi ∈ (checkPadiLimit confPadiLimit c serv total).2.1.padiList) :
    padi ∈ serv.padiList ∨ padi.ts = c.ts := by
  have hleft : padi ∈ serv.padiList.dropWhile (Padi.expired c.ts) → padi ∈ serv.padiList :=
    fun hmem ↦ (dropWhile_sublist _).subset hmem
  rw [checkPadiLimit, dropExpired_eq] at h
  dsimp only at h
  split_ifs at h
  · exact .inl h
  all_goals try exact .inl (hleft h)
  obtain hold | hnew := mem_append.mp h
  · exact .inl (hleft hold)
  · rw [mem_singleton.mp hnew]
    exact .inr rfl

/-- What the call does. -/
lemma checkPadiLimit_eq (h : serv.Counted) :
    checkPadiLimit confPadiLimit c serv total =
      let left := serv.unexpired c.ts
      let rest := total - serv.padiList.length + left.length
      if serv.padiLimit = 0 then (!c.connlimit, serv, total)
      else if Spare confPadiLimit c serv total then
        (!c.connlimit,
          { serv with padiList := left ++ [⟨c.ts, c.addr⟩], padiCnt := left.length + 1 },
          rest + 1)
      else (false, { serv with padiList := left, padiCnt := left.length }, rest) := by
  have hcnt : serv.padiCnt - serv.padiList.length + (serv.unexpired c.ts).length =
      (serv.unexpired c.ts).length := by
    rw [h.1]
    omega
  have hany : (serv.unexpired c.ts).any (·.addr = c.addr) = true ↔
      ¬ ∀ padi ∈ serv.unexpired c.ts, padi.addr ≠ c.addr := by
    simp
  rw [checkPadiLimit, dropExpired_eq, ← PadiServ.unexpired, hcnt]
  dsimp only
  refine if_congr Iff.rfl rfl ?_
  by_cases hspare : Spare confPadiLimit c serv total
  · have hcalm : ¬ (confPadiLimit ≠ 0 ∧ confPadiLimit % 2 ^ 32 ≤
        total - serv.padiList.length + (serv.unexpired c.ts).length) :=
      fun hover ↦ Int.not_le.mpr (hspare.2.1 hover.1) hover.2
    have hnew : ¬ (serv.unexpired c.ts).any (·.addr = c.addr) = true := by
      rw [hany, not_not]
      exact hspare.2.2.1
    have halloc : ¬ (!c.alloc) = true := by
      rw [hspare.2.2.2]
      nofun
    rw [if_neg hspare.1, if_neg hcalm, if_neg hnew, if_neg halloc, if_pos hspare]
  · -- All that stops short leaves the same state.
    split_ifs with hfull hconf haddr halloc <;> try rfl
    refine absurd ⟨hfull, fun hne ↦ ?_, ?_, ?_⟩ hspare
    · exact Int.not_le.mp fun hle ↦ hconf ⟨hne, hle⟩
    · rwa [hany, not_not] at haddr
    · simpa using halloc

/-- **There is room for one more PADI**: connlimit does not refuse it, and the server has no limit
or its list takes one more entry. -/
def HasRoom (confPadiLimit : ℤ) (c : PadiCall) (serv : PadiServ) (total : ℤ) : Prop :=
  c.connlimit = false ∧ (serv.padiLimit = 0 ∨ Spare confPadiLimit c serv total)

/-- The PADI is accepted if and only if there is room. The call keeps the server's counter right and
within its limit, and the two counters change by the same amount. -/
lemma checkPadiLimit_spec (h : serv.Counted) :
    let r := checkPadiLimit confPadiLimit c serv total
    (r.1 = true ↔ HasRoom confPadiLimit c serv total) ∧ r.2.1.Counted ∧
      r.2.2 = total - serv.padiCnt + r.2.1.padiCnt := by
  have hleft : (serv.unexpired c.ts).length ≤ serv.padiList.length :=
    (dropWhile_sublist _).length_le
  obtain ⟨hcnt, hlimit⟩ := h
  rw [checkPadiLimit_eq ⟨hcnt, hlimit⟩, HasRoom]
  split_ifs with hzero hspare
  · refine ⟨by simp [hzero], ⟨hcnt, hlimit⟩, ?_⟩
    dsimp only
    omega
  · have hfull := hspare.1
    refine ⟨by simp [hspare], ⟨by simp, ?_⟩, ?_⟩
    · change ((serv.unexpired c.ts).length : ℤ) + 1 ≤ serv.padiLimit
      omega
    · dsimp only
      omega
  · refine ⟨by simp [hzero, hspare], ⟨rfl, ?_⟩, ?_⟩
    · change ((serv.unexpired c.ts).length : ℤ) ≤ serv.padiLimit
      omega
    · rw [hcnt]

/-! ### The servers -/

/-- The servers, with the clock. -/
structure Discovery where
  servList : List PadiServ := []
  totalPadiCnt : ℤ := 0
  confPadiLimit : ℤ
  /-- Nanoseconds since the clock was started. -/
  now : ℕ := 0
  /-- When the last PADI was received, on whatever interface. -/
  lastPadi : Option ℕ := none
  /-- Whether a PADI has been refused that followed more than a second without one. -/
  refused : Bool := false

/-- What happens to the servers. -/
inductive PadiEvent where
  | tick (nanoseconds : ℕ)
  /-- `load_config`. -/
  | loadConfig (padiLimit : ℤ)
  /-- `__pppoe_server_start`, with the `padi-limit=` of its option string if there is one. -/
  | start (padiLimit : Option ℤ)
  /-- `pppoe_server_free` of the server at this place in `serv_list`. -/
  | free (k : ℕ)
  /-- A PADI for the server at this place. -/
  | padi (k : ℕ) (addr : Bytes 6) (alloc connlimit : Bool)

namespace Discovery

section

variable (s : Discovery)

/-- More than a second has passed since the last PADI. -/
def Quiet : Prop :=
  ∀ t ∈ s.lastPadi, t + 1000000000 < s.now

instance : Decidable s.Quiet :=
  inferInstanceAs (Decidable (∀ t ∈ s.lastPadi, _))

/-- And a millisecond more. -/
def Settled : Prop :=
  ∀ t ∈ s.lastPadi, t + 1001000000 ≤ s.now

/-- The call that is made for a PADI now. -/
def call (addr : Bytes 6) (alloc connlimit : Bool) : PadiCall :=
  ⟨clockGettime s.now, addr, alloc, connlimit⟩

/-- One event. -/
def step : PadiEvent → Discovery
  | .tick nanoseconds => { s with now := s.now + nanoseconds }
  | .loadConfig padiLimit => { s with confPadiLimit := padiLimit }
  | .start padiLimit =>
    { s with servList := s.servList ++ [{ padiLimit := padiLimit.getD s.confPadiLimit }] }
  | .free k => { s with servList := s.servList.eraseIdx k }
  | .padi k addr alloc connlimit =>
    match s.servList[k]? with
    | none => s
    | some serv =>
      let (accepted, serv, total) :=
        checkPadiLimit s.confPadiLimit (s.call addr alloc connlimit) serv s.totalPadiCnt
      { s with
        servList := s.servList.set k serv
        totalPadiCnt := total
        lastPadi := some s.now
        refused := s.refused || (decide s.Quiet && !accepted) }

/-- **The counters are right and the limit has recovered.** -/
structure Sound : Prop where
  counted : ∀ serv ∈ s.servList, serv.Counted
  total : s.totalPadiCnt = (s.servList.map PadiServ.padiCnt).sum
  recovers : s.refused = false

/-- A PADI for a server does not meet a limit that others have used up: there is memory, and the
entries of the other servers leave room for one. -/
def OthersLeaveRoom (k : ℕ) (alloc : Bool) : Prop :=
  alloc = true ∧ (s.confPadiLimit ≠ 0 →
    ((s.servList.eraseIdx k).map fun serv ↦ (serv.padiList.length : ℤ)).sum <
      s.confPadiLimit % 2 ^ 32)

/-- **The condition on a step.** A server starts with a limit that is not negative and is freed with
an empty list. At a PADI that follows more than a second without one, connlimit does not refuse, and
the server has no limit or the other servers leave room; within the millisecond after that second
there is to be room besides what has not expired. -/
def Fit : PadiEvent → Prop
  | .tick _ => True
  | .loadConfig _ => True
  | .start padiLimit => 0 ≤ padiLimit.getD s.confPadiLimit
  | .free k => ∀ serv ∈ s.servList[k]?, serv.padiList = []
  | .padi k addr alloc connlimit => s.Quiet → ∀ serv ∈ s.servList[k]?, connlimit = false ∧
      (serv.padiLimit = 0 ∨ s.OthersLeaveRoom k alloc ∧ (¬ s.Settled →
        Spare s.confPadiLimit (s.call addr alloc connlimit) serv s.totalPadiCnt))

/-- No entry is from after the last PADI. -/
structure Dated : Prop where
  entry : ∀ serv ∈ s.servList, ∀ padi ∈ serv.padiList,
    ∃ t, padi.ts = clockGettime t ∧ ∃ last ∈ s.lastPadi, t ≤ last
  last : ∀ t ∈ s.lastPadi, t ≤ s.now

end

variable {s : Discovery}

lemma Sound.start_iff (h : s.Sound) {padiLimit : Option ℤ} :
    (s.step (.start padiLimit)).Sound ↔ s.Fit (.start padiLimit) := by
  constructor
  · rintro ⟨hcounted, -, -⟩
    exact (hcounted _ (mem_append_right _ (mem_singleton_self _))).2
  intro hlimit
  refine ⟨fun serv hserv ↦ ?_, ?_, h.recovers⟩
  · obtain hold | hnew := mem_append.mp hserv
    · exact h.counted serv hold
    · rw [mem_singleton.mp hnew]
      exact ⟨rfl, hlimit⟩
  · simp [step, h.total]

variable {k : ℕ}

/-- The list around one of its servers. -/
lemma exists_around {serv : PadiServ} (hget : s.servList[k]? = some serv) :
    ∃ before after, s.servList = before ++ serv :: after ∧
      (∀ serv', s.servList.set k serv' = before ++ serv' :: after) ∧
      s.servList.eraseIdx k = before ++ after := by
  obtain ⟨hk, rfl⟩ := List.getElem?_eq_some_iff.mp hget
  have hset : ∀ serv', s.servList.set k serv' =
      s.servList.take k ++ serv' :: s.servList.drop (k + 1) := fun serv' ↦ by
    rw [List.set_eq_take_append_cons_drop, if_pos hk]
  refine ⟨_, _, ?_, hset, eraseIdx_eq_take_drop_succ ..⟩
  rw [← hset, set_getElem_self]

/-- The count of all entries is that of the others and the server's own. -/
lemma Sound.total_eq (h : s.Sound) {serv : PadiServ} (hget : s.servList[k]? = some serv) :
    s.totalPadiCnt =
      ((s.servList.eraseIdx k).map PadiServ.padiCnt).sum + serv.padiList.length := by
  obtain ⟨before, after, hlist, -, herase⟩ := exists_around hget
  have hcnt := (h.counted serv (mem_of_getElem? hget)).1
  rw [h.total, herase, hlist, map_append, map_append, map_cons, sum_append, sum_append, sum_cons]
  omega

lemma Sound.free_iff (h : s.Sound) : (s.step (.free k)).Sound ↔ s.Fit (.free k) := by
  cases hget : s.servList[k]? with
  | none =>
    have hsame : s.step (.free k) = s := by
      rw [step, eraseIdx_of_length_le (getElem?_eq_none_iff.mp hget)]
    rw [hsame, Fit, hget]
    exact iff_of_true h nofun
  | some serv =>
    have htotal := h.total_eq hget
    have hfit : s.Fit (.free k) ↔ serv.padiList = [] := by
      rw [Fit, hget]
      simp
    rw [hfit, ← length_eq_zero_iff]
    constructor
    · rintro ⟨-, hafter, -⟩
      have hafter : s.totalPadiCnt = ((s.servList.eraseIdx k).map PadiServ.padiCnt).sum := hafter
      omega
    · intro hnil
      refine ⟨fun other hother ↦ h.counted other (mem_of_mem_eraseIdx hother), ?_, h.recovers⟩
      rw [hnil] at htotal
      exact htotal.trans (add_zero _)

lemma Dated.padi (h : s.Dated) {addr : Bytes 6} {alloc connlimit : Bool} :
    (s.step (.padi k addr alloc connlimit)).Dated := by
  rw [step]
  cases hget : s.servList[k]? with
  | none => exact h
  | some serv =>
    have hentry : ∀ serv ∈ s.servList, ∀ padi ∈ serv.padiList,
        ∃ t, padi.ts = clockGettime t ∧ t ≤ s.now := fun serv hserv padi hpadi ↦ by
      obtain ⟨t, hts, last, hlast, hle⟩ := h.entry serv hserv padi hpadi
      exact ⟨t, hts, hle.trans (h.last last hlast)⟩
    refine ⟨fun serv' hserv' padi hpadi ↦ ?_, fun t ht ↦ (Option.mem_some.mp ht).ge⟩
    suffices hts : ∃ t, padi.ts = clockGettime t ∧ t ≤ s.now from
      hts.imp fun t ht ↦ ⟨ht.1, s.now, rfl, ht.2⟩
    obtain hold | rfl := mem_or_eq_of_mem_set hserv'
    · exact hentry serv' hold padi hpadi
    · obtain hmem | hnew := mem_checkPadiLimit hpadi
      · exact hentry serv (mem_of_getElem? hget) padi hmem
      · exact ⟨s.now, hnew, le_rfl⟩

/-- The entries keep their date in every step. -/
lemma Dated.step (h : s.Dated) (e : PadiEvent) : (s.step e).Dated := by
  cases e with
  | tick nanoseconds =>
    exact ⟨h.entry, fun t ht ↦ (h.last t ht).trans (Nat.le_add_right ..)⟩
  | loadConfig padiLimit => exact ⟨h.entry, h.last⟩
  | start padiLimit =>
    refine ⟨fun serv hserv ↦ ?_, h.last⟩
    obtain hold | hnew := mem_append.mp hserv
    · exact h.entry serv hold
    · rw [mem_singleton.mp hnew]
      exact nofun
  | free k => exact ⟨fun serv hserv ↦ h.entry serv (mem_of_mem_eraseIdx hserv), h.last⟩
  | padi k addr alloc connlimit => exact h.padi

/-- **The entries of a server expire in a second without a PADI**, and a millisecond. -/
lemma Dated.unexpired_eq_nil (h : s.Dated) (hsettled : s.Settled) {serv : PadiServ}
    (hserv : serv ∈ s.servList) : serv.unexpired (clockGettime s.now) = [] := by
  refine dropWhile_eq_nil_iff.mpr fun padi hpadi ↦ ?_
  obtain ⟨t, hts, last, hlast, hle⟩ := h.entry serv hserv padi hpadi
  exact expired_of_le ((Nat.add_le_add_right hle _).trans (hsettled last hlast)) hts

/-- When a server's own entries have expired, its list takes one more if the others leave room. -/
lemma Sound.spare_iff (h : s.Sound) (hdated : s.Dated) {serv : PadiServ}
    (hget : s.servList[k]? = some serv) (hlimit : serv.padiLimit ≠ 0) {addr : Bytes 6}
    {alloc connlimit : Bool} :
    Spare s.confPadiLimit (s.call addr alloc connlimit) serv s.totalPadiCnt ↔
      s.OthersLeaveRoom k alloc ∧ (¬ s.Settled →
        Spare s.confPadiLimit (s.call addr alloc connlimit) serv s.totalPadiCnt) := by
  have hsum : s.totalPadiCnt - serv.padiList.length =
      ((s.servList.eraseIdx k).map fun serv ↦ (serv.padiList.length : ℤ)).sum := by
    rw [h.total_eq hget, add_sub_cancel_right]
    exact congrArg sum (map_congr_left fun other hother ↦
      (h.counted other (mem_of_mem_eraseIdx hother)).1)
  constructor
  · intro hspare
    have ⟨_, hconf, _, halloc⟩ := hspare
    refine ⟨⟨halloc, fun hne ↦ ?_⟩, fun _ ↦ hspare⟩
    have hroom := hconf hne
    omega
  · rintro ⟨⟨halloc, hconf⟩, hlinger⟩
    by_cases hsettled : s.Settled
    · have hnil : serv.unexpired (s.call addr alloc connlimit).ts = [] :=
        hdated.unexpired_eq_nil hsettled (mem_of_getElem? hget)
      rw [Spare, hnil, hsum]
      exact ⟨hlimit.symm, fun hne ↦ by simpa using hconf hne, nofun, halloc⟩
    · exact hlinger hsettled

lemma Sound.padi_iff (h : s.Sound) (hdated : s.Dated) {addr : Bytes 6} {alloc connlimit : Bool} :
    (s.step (.padi k addr alloc connlimit)).Sound ↔ s.Fit (.padi k addr alloc connlimit) := by
  cases hget : s.servList[k]? with
  | none =>
    rw [step, Fit, hget]
    exact iff_of_true h fun _ ↦ nofun
  | some serv =>
    obtain ⟨before, after, hlist, hset, -⟩ := exists_around hget
    have hserv : serv.Counted := h.counted serv (mem_of_getElem? hget)
    have hroom : HasRoom s.confPadiLimit (s.call addr alloc connlimit) serv s.totalPadiCnt ↔ _ :=
      and_congr_right fun _ ↦ or_congr_right' fun hlimit ↦
        h.spare_iff hdated hget hlimit
    rw [step, Fit, hget]
    dsimp only
    generalize hresult : checkPadiLimit s.confPadiLimit (s.call addr alloc connlimit) serv
      s.totalPadiCnt = result
    obtain ⟨haccept, hcounted, htotal⟩ :
        (result.1 = true ↔ _) ∧ result.2.1.Counted ∧ result.2.2 = _ :=
      hresult ▸ checkPadiLimit_spec hserv
    obtain ⟨accepted, serv', total⟩ := result
    dsimp only at haccept hcounted htotal
    rw [hroom] at haccept
    -- The counters are right in any case; what is left is the refusal.
    have hsame : ∀ other ∈ s.servList.set k serv', other.Counted := fun other hother ↦ by
      obtain hold | hnew := mem_or_eq_of_mem_set hother
      · exact h.counted other hold
      · exact hnew ▸ hcounted
    have hsum : total = ((s.servList.set k serv').map PadiServ.padiCnt).sum := by
      rw [htotal, h.total, hset, hlist, map_append, map_append, map_cons,
        map_cons, sum_append, sum_append, sum_cons, sum_cons]
      omega
    have hrefused : (s.refused || (decide s.Quiet && !accepted)) = false ↔
        (s.Quiet → accepted = true) := by
      rw [h.recovers]
      simp
    constructor
    · rintro ⟨-, -, hrecovers⟩ hquiet other hother
      rw [← Option.mem_some.mp hother]
      exact haccept.mp (hrefused.mp hrecovers hquiet)
    · intro hfit
      exact ⟨hsame, hsum, hrefused.mpr fun hquiet ↦ haccept.mpr (hfit hquiet serv rfl)⟩

lemma Sound.step_iff (h : s.Sound) (hdated : s.Dated) (e : PadiEvent) :
    (s.step e).Sound ↔ s.Fit e := by
  cases e with
  | tick nanoseconds | loadConfig padiLimit => exact iff_of_true { h with } trivial
  | start padiLimit => exact h.start_iff
  | free k => exact h.free_iff
  | padi k addr alloc connlimit => exact h.padi_iff hdated

/-- **The counters stay right and every PADI that follows more than a second without one is
accepted, if and only if every step is fit.** -/
theorem always_recovers_iff (confPadiLimit : ℤ) (es : List PadiEvent) :
    Always step Sound { confPadiLimit } es ↔ Along step Fit { confPadiLimit } es := by
  exact always_iff_along_of_inv (fun s e hdated ↦ hdated.step e)
    (fun s e hdated h ↦ h.step_iff hdated e) ⟨nofun, nofun⟩ ⟨nofun, rfl, rfl⟩

/-- **PADIs are refused for ever.** With a limit of one, a server is freed within a second of its
only PADI. Five seconds later the first PADI for another server is refused. -/
theorem padi_refused_for_ever :
    let es := [.start none, .padi 0 (fun _ ↦ 2) true false, .free 0, .start none, .tick 5000000000,
      .padi 0 (fun _ ↦ 4) true false]
    let s := run step { confPadiLimit := 1 } es
    s.servList.map PadiServ.padiCnt = [0] ∧ s.totalPadiCnt = 1 ∧ s.refused = true := by
  decide

end Discovery
end AccelPpp.Pppoe
