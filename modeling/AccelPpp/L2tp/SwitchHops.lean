import AccelPpp.Lib.Count
import AccelPpp.Lib.Places
import AccelPpp.Lib.Run

/-!
# Hops from one tunnel's context to another's

The two legs of a switched call belong to tunnels with a context each. What one leg wants of the
other is a **hop**: a function that the context of the other tunnel is to call, with a second one
that releases its argument if the tunnel is freed before (`l2tp_switch_hop`). Triton drops the calls
of a context that is unregistered, so each hop is also on the list `switch_hops` of its tunnel.

* Any thread schedules a hop: in one section under `ctx_lock` it puts it on the list, queues the
  call and counts it in `l2tp_switch_hops_pending`. A hop is scheduled from that count on.
* The tunnel's own context takes the call off its queue, and `l2tp_switch_hop_run` unlinks and frees
  the hop and calls its function.
* `l2tp_tunnel_free` takes the whole list and unregisters the context, in one section, and then
  calls the cancel function of each hop.

A tunnel is freed by its own context, or by the thread that has failed to start it (`Freer`). The
second runs beside the context of the tunnel, which `l2tp_tunnel_start` has woken up before the last
two things that may fail.

Steps are the sections under `ctx_lock` and what the threads do between them. The counter is read
without the lock; a reader sees a section as a whole here.

`Sound`: each hop is run once or cancelled once, and not touched after it has been released; the
counter is the number of hops that are scheduled and not done with. It holds in every run in which
the thread that failed to start a tunnel takes its hops only while the tunnel's context is not just
about to run one (`hops_always_once`). The call has then left the queue already, and the hop is both
cancelled and run (`hop_run_and_cancelled`).
-/

open Bool List Nat

namespace AccelPpp.L2tp

open Function Transition Places

namespace Switch

/-- Who calls `l2tp_tunnel_free`. -/
inductive Freer
  | own
  | starter
deriving DecidableEq

/-- `struct l2tp_switch_hop`, and what has become of it. -/
structure Hop where
  /-- The tunnel it is addressed to. -/
  target : ℕ := 0
  /-- `l2tp_switch_hop` has returned 0. -/
  scheduled : Bool := false
  freed : Bool := false
  /-- How often `func` has been called. -/
  runs : ℕ := 0
  /-- How often `cancel` has been called. -/
  cancels : ℕ := 0
  /-- `l2tp_switch_hop_done` has been called for it. -/
  done : Bool := false
deriving DecidableEq

def Hop.outstanding (x : Hop) : Bool :=
  x.scheduled && !x.done

/-- Where the context of a tunnel is in `l2tp_switch_hop_run`. -/
inductive HopRun
  | idle
  /-- Triton has taken the call off the queue. -/
  | popped (h : ℕ)
  /-- The hop is unlinked and freed. -/
  | taken (h : ℕ)
  | inFunc (h : ℕ)
deriving DecidableEq

/-- Where a thread is in `l2tp_tunnel_free`: before the section that takes the list, or in
`l2tp_switch_hops_cancel` with the hops still to come. -/
inductive Freeing
  | no
  | entered
  | looping (hops : List ℕ)
  | cancelled (h : ℕ) (hops : List ℕ)
  | released (h : ℕ) (hops : List ℕ)
deriving DecidableEq

/-- The local list `hops`. -/
def Freeing.hops : Freeing → List ℕ
  | .no | .entered => []
  | .looping hops | .cancelled _ hops | .released _ hops => hops

def Freeing.inside : Freeing → Bool
  | .no | .looping [] => false
  | .entered | .looping (_ :: _) | .cancelled _ _ | .released _ _ => true

/-- How far the thread that starts the tunnel has come. -/
inductive Start
  | notYet
  | starting
  | started
  /-- The start has failed; the tunnel is to be freed. -/
  | failed
  /-- The thread has called `l2tp_tunnel_free`. -/
  | left
deriving DecidableEq

/-- The parts of `struct l2tp_conn_t` that hops depend on. -/
structure HopConn where
  start : Start := .notYet
  /-- `ctx.tpd` is set: the context is registered. -/
  tpd : Bool := false
  /-- `state` is `STATE_CLOSE`. -/
  closed : Bool := false
  switchHops : List ℕ := []
  /-- The calls of `l2tp_switch_hop_run` that triton has queued for the context. -/
  calls : List ℕ := []
  run : HopRun := .idle
  freeing : Freer → Freeing := fun _ ↦ .no

/-- `triton_context_unregister` -/
def HopConn.unregister (x : HopConn) : HopConn :=
  { x with tpd := false, calls := [] }

def HopConn.setFreeing (x : HopConn) (w : Freer) (f : Freeing) : HopConn :=
  { x with freeing := Function.update x.freeing w f }

/-- All tunnels and hops. -/
structure HopSys where
  conn : ℕ → HopConn := fun _ ↦ {}
  hop : ℕ → Hop := fun _ ↦ {}
  /-- How many hops have been scheduled so far. -/
  scheduled : ℕ := 0
  /-- `l2tp_switch_hops_pending` -/
  hopsPending : ℤ := 0
  /-- A hop was touched that had been released, or unlinked that was on no list. -/
  fault : Bool := false

namespace HopSys

section

variable (s : HopSys) (h : ℕ) (x : HopConn)

def setConn (c : ℕ) (x : HopConn) : HopSys :=
  { s with conn := Function.update s.conn c x }

def setHop (x : Hop) : HopSys :=
  { s with hop := Function.update s.hop h x }

/-- Something is read from the hop or written to it. -/
def touch : HopSys :=
  { s with fault := s.fault || (s.hop h).freed }

/-- `_free(hop)` -/
def free : HopSys :=
  (s.touch h).setHop h { s.hop h with freed := true }

/-- `l2tp_switch_hop_done`, for the hop `h`. -/
def hopDone : HopSys :=
  { s.setHop h { s.hop h with done := true } with hopsPending := s.hopsPending - 1 }

/-- `l2tp_switch_shutdown_busy`; `listed` says whether `l2tp_switch_calls` has an entry. -/
def shutdownBusy (listed : Bool) : Bool :=
  listed || s.hopsPending != 0

inductive Errno
  | enomem
  | esrch
  | eio
deriving DecidableEq

/-- `l2tp_switch_hop`: `alloc` and `called` say whether `_malloc` and `triton_context_call` succeed.
-/
def switchHop (c : ℕ) (alloc called : Bool) : Except Errno HopSys :=
  let x := s.conn c
  if !alloc then .error .enomem
  else if !x.tpd then .error .esrch
  else if !called then .error .eio
  else .ok
    { s.setHop s.scheduled { target := c, scheduled := true } with
      conn := Function.update s.conn c
        { x with switchHops := x.switchHops ++ [s.scheduled], calls := x.calls ++ [s.scheduled] }
      scheduled := s.scheduled + 1
      hopsPending := s.hopsPending + 1 }

/-- `list_del(&hop->entry)`, from the list the hop is on. -/
def listDel (h : ℕ) : HopConn :=
  { x with
    switchHops := x.switchHops.erase h
    freeing := fun w ↦ match x.freeing w with
      | .no => .no
      | .entered => .entered
      | .looping hops => .looping (hops.erase h)
      | .cancelled h' hops => .cancelled h' (hops.erase h)
      | .released h' hops => .released h' (hops.erase h) }

/-- The hop is on a list of the tunnel. -/
def linked (h : ℕ) : Bool :=
  h ∈ x.switchHops || h ∈ (x.freeing .own).hops || h ∈ (x.freeing .starter).hops

/-- The section of `l2tp_switch_hop_run`. -/
def unlink (c h : ℕ) : HopSys :=
  let t := s.free h
  { t.setConn c { listDel (s.conn c) h with run := .taken h } with
    fault := t.fault || !linked (s.conn c) h }

/-- The beginning of `l2tp_tunnel_free`, which returns if it sees that the tunnel is closed.
`stale`: another thread has just closed it, and this one still sees the old state. -/
def freeBegin (w : Freer) (stale : Bool) : HopConn :=
  let x := match w with
    | .own => x
    | .starter => { x with start := .left }
  if x.closed && !stale then x
  else { x.setFreeing w .entered with closed := true }

/-- The section of `l2tp_tunnel_free`. -/
def splice (w : Freer) : HopConn :=
  let x := { x.setFreeing w (.looping x.switchHops) with switchHops := [] }
  if x.tpd then x.unregister else x

end

end HopSys

/-- A tunnel's number comes first. -/
inductive HopEvent
  /-- `triton_context_register` in `l2tp_tunnel_start`, which fails or not. -/
  | register (c : ℕ) (ok : Bool)
  /-- The end of `l2tp_tunnel_start`, with or without an error. -/
  | startEnd (c : ℕ) (ok : Bool)
  | hop (c : ℕ) (alloc called : Bool)
  /-- The context of the tunnel, through `l2tp_switch_hop_run`. -/
  | pop (c : ℕ)
  | unlink (c : ℕ)
  | call (c : ℕ)
  | runDone (c : ℕ)
  /-- A thread, through `l2tp_tunnel_free` and `l2tp_switch_hops_cancel`. -/
  | free (c : ℕ) (w : Freer) (stale : Bool)
  | splice (c : ℕ) (w : Freer)
  | cancel (c : ℕ) (w : Freer)
  | freeHop (c : ℕ) (w : Freer)
  | cancelDone (c : ℕ) (w : Freer)

namespace HopSys

section

variable (x : HopConn) (s : HopSys)

/-- The thread may call `l2tp_tunnel_free` now. The context of the tunnel does so in one of its
handlers or in the function of a hop; the starter does so when the tunnel has not been started. -/
def mayFree : Freer → Bool
  | .own => x.start != .notYet && match x.run with
      | .idle | .inFunc _ => true
      | .popped _ | .taken _ => false
  | .starter => x.start == .notYet || x.start == .failed

def step : HopEvent → HopSys
  | .register c ok =>
    if (s.conn c).start = .notYet then
      s.setConn c { s.conn c with tpd := ok, start := if ok then .starting else .failed }
    else s
  | .startEnd c ok =>
    if (s.conn c).start = .starting then
      if ok then s.setConn c { s.conn c with start := .started }
      -- were the context unregistered by a free on its own thread, the source would crash here
      else if (s.conn c).tpd then
        s.setConn c { (s.conn c).unregister with start := .failed }
      else s.setConn c { s.conn c with start := .failed }
    else s
  | .hop c alloc called =>
    match s.switchHop c alloc called with
    | .ok t => t
    | .error _ => s
  | .pop c =>
    if ((s.conn c).freeing .own).inside then s
    else match (s.conn c).run, (s.conn c).calls with
      | .idle, h :: calls => s.setConn c { s.conn c with calls := calls, run := .popped h }
      | _, _ => s
  | .unlink c =>
    match (s.conn c).run with
    | .popped h => s.unlink c h
    | _ => s
  | .call c =>
    match (s.conn c).run with
    | .taken h =>
      (s.setHop h { s.hop h with runs := (s.hop h).runs + 1 }).setConn c
        { s.conn c with run := .inFunc h }
    | _ => s
  | .runDone c =>
    if ((s.conn c).freeing .own).inside then s
    else match (s.conn c).run with
      | .inFunc h => (s.hopDone h).setConn c { s.conn c with run := .idle }
      | _ => s
  | .free c w stale =>
    if mayFree (s.conn c) w && (s.conn c).freeing w = .no then
      s.setConn c (freeBegin (s.conn c) w stale)
    else s
  | .splice c w =>
    if (s.conn c).freeing w = .entered then s.setConn c (HopSys.splice (s.conn c) w) else s
  | .cancel c w =>
    match (s.conn c).freeing w with
    | .looping (h :: hops) =>
      ((s.touch h).setHop h { s.hop h with cancels := (s.hop h).cancels + 1 }).setConn c
        ((s.conn c).setFreeing w (.cancelled h hops))
    | _ => s
  | .freeHop c w =>
    match (s.conn c).freeing w with
    | .cancelled h hops => (s.free h).setConn c ((s.conn c).setFreeing w (.released h hops))
    | _ => s
  | .cancelDone c w =>
    match (s.conn c).freeing w with
    | .released h hops => (s.hopDone h).setConn c ((s.conn c).setFreeing w (.looping hops))
    | _ => s

/-! ### What is to hold -/

/-- Nobody has anything left to do for the tunnel: its context has no call, and is in none; and no
thread is freeing it or about to. -/
def Quiet : Prop :=
  x.calls = [] ∧ x.run = .idle ∧ (∀ w, (x.freeing w).inside = false) ∧ x.start ≠ .failed

/-- Each hop is run once or cancelled once, and the counter says how many are left. -/
structure Sound : Prop where
  untouched : s.fault = false
  once : ∀ h, (s.hop h).runs + (s.hop h).cancels ≤ 1
  done : ∀ h, (s.hop h).done = true → (s.hop h).runs + (s.hop h).cancels = 1
  quiet : ∀ h, (s.hop h).scheduled = true → Quiet (s.conn (s.hop h).target) →
    (s.hop h).done = true
  pending : s.hopsPending = count (fun h ↦ (s.hop h).outstanding = true) s.scheduled
  zero : s.hopsPending = 0 ↔ ∀ h, (s.hop h).outstanding = false
  shutdown : ∀ listed, s.shutdownBusy listed = false → ∀ h, (s.hop h).outstanding = false

/-- The thread that could not start the tunnel does not take the hops while the context of the
tunnel is about to run one of them. -/
def Fit : HopEvent → Prop
  | .splice c .starter => ∀ h, (s.conn c).run ≠ .popped h
  | _ => True

/-! ### Where the hops are -/

/-- Where a hop is. -/
inductive Spot
  | unused
  | queued
  | taken
  | inFunc
  | spliced (w : Freer)
  | cancelled (w : Freer)
  | released (w : Freer)
  | ran
  | dropped
deriving DecidableEq

/-- A hop of the tunnel `c` that is there. -/
def Spot.hop (c : ℕ) : Spot → Hop
  | .unused => { target := c }
  | .queued | .spliced _ => { target := c, scheduled := true }
  | .taken => { target := c, scheduled := true, freed := true }
  | .inFunc => { target := c, scheduled := true, freed := true, runs := 1 }
  | .cancelled _ => { target := c, scheduled := true, cancels := 1 }
  | .released _ => { target := c, scheduled := true, freed := true, cancels := 1 }
  | .ran => { target := c, scheduled := true, freed := true, runs := 1, done := true }
  | .dropped => { target := c, scheduled := true, freed := true, cancels := 1, done := true }

/-- Some thread has the hop, or it is on the tunnel's list. -/
def Spot.held : Spot → Bool
  | .unused | .ran | .dropped => false
  | .queued | .taken | .inFunc | .spliced _ | .cancelled _ | .released _ => true

/-- The tunnel has the hop there. -/
def At (q : Spot) (x : HopConn) (h : ℕ) : Prop :=
  match q with
  | .unused | .ran | .dropped => False
  | .queued => h ∈ x.switchHops
  | .taken => x.run = .taken h
  | .inFunc => x.run = .inFunc h
  | .spliced w => h ∈ (x.freeing w).hops
  | .cancelled w => ∃ hops, x.freeing w = .cancelled h hops
  | .released w => ∃ hops, x.freeing w = .released h hops

/-- What holds of each tunnel. -/
structure ConnOk : Prop where
  nodup : x.switchHops.Nodup
  splicedNodup : ∀ w, (x.freeing w).hops.Nodup
  callsNodup : x.calls.Nodup
  calls : ∀ h ∈ x.calls, h ∈ x.switchHops
  popped : ∀ h, x.run = .popped h → h ∈ x.switchHops ∧ h ∉ x.calls
  unregistered : x.tpd = false → x.calls = []
  /-- A hop that triton will not call is left to a thread that frees the tunnel. -/
  served : ∀ h ∈ x.switchHops, h ∈ x.calls ∨ x.run = .popped h ∨ x.start = .failed ∨
    ∃ w, x.freeing w = .entered
  failed : x.start = .failed → x.tpd = false
  closed : x.closed = true → (∃ w, x.freeing w = .entered) ∨ (x.tpd = false ∧ x.switchHops = [])
  fresh : x.start = .notYet → x.tpd = false ∧ x.closed = false
  /-- The context does not take up a hop while it frees the tunnel. -/
  own : x.freeing .own = .entered → ∀ h, x.run ≠ .popped h

/-- The hops are where `p` says. -/
structure Placed (p : ℕ → Spot) : Prop where
  hop : ∀ h, s.hop h = (p h).hop (s.hop h).target
  unused : ∀ h, s.scheduled ≤ h → p h = .unused
  held : ∀ q, q.held = true → Holds p (fun h ↦ (s.hop h).target) q fun c ↦ At q (s.conn c)
  conn : ∀ c, ConnOk (s.conn c)

structure Inv : Prop where
  untouched : s.fault = false
  placed : ∃ p, Placed s p
  pending : s.hopsPending = count (fun h ↦ (s.hop h).outstanding = true) s.scheduled

end

variable {s : HopSys} {p : ℕ → Spot} {c h : ℕ} {x : HopConn}

lemma inv_init : Inv {} where
  untouched := rfl
  placed := by
    refine ⟨fun _ ↦ .unused, fun _ ↦ rfl, fun _ _ ↦ rfl, ?_, fun _ ↦ ?_⟩
    · intro q hq c h
      cases q with
      | queued | spliced | taken | inFunc => exact iff_of_false nofun nofun
      | cancelled | released => exact iff_of_false (fun ⟨_, hf⟩ ↦ nomatch hf) nofun
      | unused | ran | dropped => nomatch hq
    · exact ⟨nodup_nil, fun _ ↦ nodup_nil, nodup_nil, nofun, nofun, fun _ ↦ rfl,
        nofun, fun _ ↦ rfl, nofun, fun _ ↦ ⟨rfl, rfl⟩, nofun⟩
  pending := rfl

/-! ### The invariant says what is to hold -/

lemma Spot.once (q : Spot) (c : ℕ) : (q.hop c).runs + (q.hop c).cancels ≤ 1 := by
  cases q <;> simp [Spot.hop]

variable {q : Spot} {w : Freer}

lemma Spot.outstanding_hop (q : Spot) (c : ℕ) : (q.hop c).outstanding = q.held := by
  cases q <;> rfl

lemma ConnOk.not_at (hx : ConnOk x) (hquiet : Quiet x) : ¬ At q x h := by
  obtain ⟨hcalls, hrun, hfree, hstart⟩ := hquiet
  intro hat
  cases q with
  | unused | ran | dropped => exact hat
  | queued =>
    rcases hx.served h hat with hc | hr | hs | ⟨w, hw⟩
    · nomatch hcalls ▸ hc
    · nomatch hrun.symm.trans hr
    · exact hstart hs
    · have := hfree w
      rw [hw] at this
      nomatch this
  | taken | inFunc => nomatch hrun.symm.trans hat
  | spliced w =>
    have hin := hfree w
    have hat : h ∈ (x.freeing w).hops := hat
    cases hw : x.freeing w with
    | no | entered => nomatch hw ▸ hat
    | cancelled | released => nomatch hw ▸ hin
    | looping hops =>
      rw [hw] at hin hat
      cases hops with
      | nil => nomatch hat
      | cons => nomatch hin
  | cancelled w | released w =>
    obtain ⟨hops, hw⟩ := hat
    have hin := hfree w
    rw [hw] at hin
    nomatch hin

lemma Inv.zero_iff (hs : Inv s) : s.hopsPending = 0 ↔ ∀ h, (s.hop h).outstanding = false := by
  obtain ⟨p, hp⟩ := hs.placed
  rw [hs.pending, Int.natCast_eq_zero]
  constructor
  · intro hzero h
    rw [← not_eq_true]
    intro hout
    rcases lt_or_ge h s.scheduled with hlt | hge
    · exact count_ne_iff_exists.mpr ⟨h, hlt, hout⟩ hzero
    · rw [hp.hop h, hp.unused h hge] at hout
      nomatch hout
  · intro hnone
    by_contra hcount
    obtain ⟨h, -, hout⟩ := count_ne_iff_exists.mp hcount
    nomatch (hnone h).symm.trans hout

lemma Inv.sound (hs : Inv s) : Sound s :=
  { hs with
    once h := by
      obtain ⟨p, hp⟩ := hs.placed
      rw [hp.hop h]
      exact (p h).once _
    done h hdone := by
      obtain ⟨p, hp⟩ := hs.placed
      rw [hp.hop h] at hdone ⊢
      cases hq : p h <;> simp_all [Spot.hop]
    quiet h hsched hquiet := by
      obtain ⟨p, hp⟩ := hs.placed
      by_contra hdone
      rw [not_eq_true] at hdone
      have hout : (s.hop h).outstanding = true := by rw [Hop.outstanding, hsched, hdone]; rfl
      rw [hp.hop h, Spot.outstanding_hop] at hout
      have hheld := hp.held (p h) hout (s.hop h).target h
      exact (hp.conn _).not_at hquiet (hheld.mpr ⟨rfl, rfl⟩)
    zero := hs.zero_iff
    shutdown listed hbusy := by
      have hzero : s.hopsPending = 0 := by simpa [shutdownBusy]
        using (or_eq_false_iff.mp hbusy).2
      exact hs.zero_iff.mp hzero }

/-! ### Steps that leave the hops where they are -/

lemma Placed.update_conn (hp : Placed s p) (hok : ConnOk x) (c' : ℕ) :
    ConnOk (update s.conn c x c') :=
  forall_update s.conn (fun _ x ↦ ConnOk x) hok hp.conn c'

lemma Inv.setConn (hs : Inv s) (hok : ConnOk (s.conn c) → ConnOk x)
    (hx : ∀ q h, At q x h ↔ At q (s.conn c) h := by exact fun q _ ↦ by cases q <;> exact Iff.rfl) :
    Inv (s.setConn c x) := by
  obtain ⟨p, hp⟩ := hs.placed
  refine { hs with
    placed := ⟨p, hp.hop, hp.unused, fun q hq ↦ ?_, hp.update_conn (hok (hp.conn c))⟩ }
  exact (hp.held q hq).congr (fun _ ↦ rfl) (update_iff (At q) (hx q))

lemma Inv.register (hs : Inv s) (ok : Bool) : Inv (step s (.register c ok)) := by
  dsimp only [step]
  split
  next hstart =>
    refine hs.setConn fun hx ↦ ?_
    obtain ⟨htpd, hclosed⟩ := hx.fresh hstart
    refine { hx with
      unregistered := fun _ ↦ hx.unregistered htpd, served := fun h hh ↦ ?_
      failed := ?_, closed := ?_, fresh := ?_ }
    · exact (hx.served h hh).imp_right (Or.imp_right (Or.imp_left
        fun hf : (s.conn c).start = .failed ↦ nomatch hstart.symm.trans hf))
    · cases ok with
      | true => nofun
      | false => exact fun _ ↦ rfl
    · exact fun hc ↦ nomatch hclosed.symm.trans hc
    · cases ok <;> nofun
  next => exact hs

lemma ConnOk.unregister_failed (hx : ConnOk x) : ConnOk { x.unregister with start := .failed } :=
  { hx with
    callsNodup := nodup_nil
    calls := nofun
    popped h hr := ⟨(hx.popped h hr).1, nofun⟩
    unregistered _ := rfl
    served _ _ := .inr (.inr (.inl rfl))
    failed _ := rfl
    closed hc := (hx.closed hc).imp_right fun hf ↦ ⟨rfl, hf.2⟩
    fresh := nofun }

lemma Inv.startEnd (hs : Inv s) (ok : Bool) : Inv (step s (.startEnd c ok)) := by
  dsimp only [step]
  split
  next hstart =>
    split
    · refine hs.setConn fun hx ↦ ?_
      refine { hx with served := fun h hh ↦ ?_, failed := nofun, fresh := nofun }
      exact (hx.served h hh).imp_right (Or.imp_right (Or.imp_left
        fun hf : (s.conn c).start = .failed ↦ nomatch hstart.symm.trans hf))
    split
    · exact hs.setConn ConnOk.unregister_failed
    next htpd =>
      rw [not_eq_true] at htpd
      exact hs.setConn fun hx ↦ { hx with
        served := fun _ _ ↦ .inr (.inr (.inl rfl)), failed := fun _ ↦ htpd, fresh := nofun }
  next => exact hs

lemma Inv.pop (hs : Inv s) : Inv (step s (.pop c)) := by
  dsimp only [step]
  split
  · exact hs
  next hinside =>
  split
  next h calls hrun hcalls =>
    refine hs.setConn (fun hx ↦ ?_) fun q h' ↦ ?_
    rotate_left
    · cases q with
      | taken | inFunc => exact iff_of_false nofun fun hf ↦ nomatch hrun.symm.trans hf
      | _ => exact Iff.rfl
    have hnodup := nodup_cons.mp (hcalls ▸ hx.callsNodup)
    have hmem : ∀ h' ∈ h :: calls, h' ∈ (s.conn c).switchHops := hcalls ▸ hx.calls
    refine ⟨hx.nodup, hx.splicedNodup, hnodup.2, fun h' hh ↦ hmem h' (.tail _ hh), ?_,
      fun htpd ↦ ?_, fun h' hh ↦ ?_, hx.failed, hx.closed, hx.fresh, fun hw ↦ ?_⟩
    · intro h' hh
      cases HopRun.popped.inj hh
      exact ⟨hmem h (.head _), hnodup.1⟩
    · nomatch hcalls.symm.trans (hx.unregistered htpd)
    · rcases hx.served h' hh with hc | hr | hrest
      · rcases mem_cons.mp (hcalls ▸ hc) with rfl | hc
        · exact .inr (.inl rfl)
        · exact .inl hc
      · nomatch hrun.symm.trans hr
      · exact .inr (.inr hrest)
    · rw [show (s.conn c).freeing .own = .entered from hw] at hinside
      exact absurd rfl hinside
  next => exact hs

variable {f : Freeing}

lemma setFreeing_self {w : Freer} : (x.setFreeing w f).freeing w = f :=
  update_self ..

lemma forall_setFreeing {P : Freer → Freeing → Prop} (hf : P w f)
    (h : ∀ w', P w' (x.freeing w')) (w' : Freer) : P w' ((x.setFreeing w f).freeing w') :=
  (forall_update_iff x.freeing P).mpr ⟨hf, fun w' _ ↦ h w'⟩ w'

lemma setFreeing_of_ne {w' : Freer} (hw : w' ≠ w) :
    (x.setFreeing w f).freeing w' = x.freeing w' :=
  update_of_ne hw ..

lemma ConnOk.enter (hx : ConnOk x) (w : Freer) {start : Start} (hfresh : start ≠ .notYet)
    (hfailed : start = .failed → x.start = .failed) (hrun : w = .own → ∀ h, x.run ≠ .popped h) :
    ConnOk { x.setFreeing w .entered with closed := true, start := start } :=
  { hx with
    splicedNodup := forall_setFreeing (P := fun _ f ↦ f.hops.Nodup) nodup_nil hx.splicedNodup
    served _ _ := .inr (.inr (.inr ⟨w, setFreeing_self⟩))
    failed hf := hx.failed (hfailed hf)
    closed _ := .inl ⟨w, setFreeing_self⟩
    fresh hf := absurd hf hfresh
    own := forall_setFreeing
      (P := fun w f ↦ w = .own → f = .entered → ∀ h, x.run ≠ .popped h) (fun hw _ ↦ hrun hw)
      (fun _ hw ↦ hw ▸ hx.own) .own rfl }

/-- The starter leaves a tunnel that it finds closed to the one who has closed it. -/
lemma ConnOk.leave (hx : ConnOk x) (hclosed : x.closed = true) :
    ConnOk { x with start := .left } :=
  { hx with
    served h hh := by
      rcases hx.closed hclosed with hw | ⟨-, hnil⟩
      · exact .inr (.inr (.inr hw))
      · nomatch hnil ▸ hh
    failed := nofun
    fresh := nofun }

lemma ConnOk.freeBegin (hx : ConnOk x) (hmay : mayFree x w = true) {stale : Bool} :
    ConnOk (freeBegin x w stale) := by
  cases w with
  | own =>
    obtain ⟨hstart, hrun⟩ := and_eq_true_iff.mp hmay
    have hstart : x.start ≠ .notYet := by simpa using hstart
    have hpopped : ∀ h, x.run ≠ .popped h := fun h hr ↦ by rw [hr] at hrun; nomatch hrun
    dsimp only [HopSys.freeBegin]
    split
    · exact hx
    · exact hx.enter .own hstart id fun _ ↦ hpopped
  | starter =>
    dsimp only [HopSys.freeBegin]
    split
    next hclosed => exact hx.leave (and_eq_true_iff.mp hclosed).1
    next => exact hx.enter .starter nofun nofun nofun

/-- Where a thread is that has taken no hops. -/
lemma at_setFreeing_entered (hw : x.freeing w = .no) {q : Spot} {h : ℕ} :
    At q (x.setFreeing w .entered) h ↔ At q x h := by
  cases q with
  | spliced w' | cancelled w' | released w' =>
    dsimp only [At]
    by_cases hww : w' = w
    · rw [hww, setFreeing_self, hw]
      exact iff_of_false (by simp [Freeing.hops]) (by simp [Freeing.hops])
    · rw [setFreeing_of_ne hww]
  | _ => exact Iff.rfl

lemma Inv.free (hs : Inv s) (w : Freer) (stale : Bool) : Inv (step s (.free c w stale)) := by
  dsimp only [step]
  split
  next hguard =>
    obtain ⟨hmay, hw⟩ := and_eq_true_iff.mp hguard
    have hw : (s.conn c).freeing w = .no := of_decide_eq_true hw
    refine hs.setConn (fun hx ↦ hx.freeBegin hmay) fun q h ↦ ?_
    cases w <;> dsimp only [freeBegin] <;> split
    · exact Iff.rfl
    · exact at_setFreeing_entered hw
    · cases q <;> exact Iff.rfl
    · exact at_setFreeing_entered hw
  next => exact hs

/-! ### Steps that move a hop -/

lemma Placed.lt (hp : Placed s p) (hh : (p h).held = true) : h < s.scheduled := by
  by_contra hge
  rw [hp.unused h (Nat.le_of_not_lt hge)] at hh
  nomatch hh

/-- One hop goes from the place `a` to the place `b`, which the tunnel has or which is the end. -/
lemma Inv.move (hs : Inv s) (hp : Placed s p) {a b : Spot} (ha : a.held = true)
    (hat : At a (s.conn c) h) {s' : HopSys} (f : Hop → Hop) (hconn : s'.conn = update s.conn c x)
    (hhop : s'.hop = update s.hop h (f (s.hop h))) (hf : f (a.hop c) = b.hop c)
    (hsched : s'.scheduled = s.scheduled) (hfault : s.hop h = a.hop c → s'.fault = false)
    (hpending : s'.hopsPending = if b.held then s.hopsPending else s.hopsPending - 1)
    (hleave : ∀ y, At a x y ↔ At a (s.conn c) y ∧ y ≠ h)
    (henter : b.held = true → ∀ y, At b x y ↔ At b (s.conn c) y ∨ y = h)
    (hsame : ∀ q, q ≠ a → q ≠ b → ∀ y, At q x y ↔ At q (s.conn c) y) (hab : b ≠ a)
    (hok : ConnOk x) : Inv s' := by
  obtain ⟨hph, htarget⟩ : p h = a ∧ (s.hop h).target = c := (hp.held a ha c h).mp hat
  have hh : s.hop h = a.hop c := by rw [hp.hop h, hph, htarget]
  have hb : (b.hop c).target = c := by cases b <;> rfl
  have hout : ∀ y, y ≠ h → s'.hop y = s.hop y := fun y hy ↦ by rw [hhop, update_of_ne hy]
  have hself : s'.hop h = b.hop c := by rw [hhop, update_self, hh, hf]
  have hlt : h < s.scheduled := hp.lt (by rw [hph, ha])
  refine ⟨hfault hh, ⟨update p h b, ⟨fun y ↦ ?_, fun y hy ↦ ?_, fun q hq ↦ ?_, ?_⟩⟩, ?_⟩
  · by_cases hy : y = h
    · rw [hy, hself, update_self, hb]
    · rw [hout y hy, update_of_ne hy]
      exact hp.hop y
  · rw [hsched] at hy
    rw [update_of_ne (ne_of_gt (lt_of_lt_of_le hlt hy))]
    exact hp.unused y hy
  · rw [hconn]
    refine (hp.held q hq).move (At q) (fun y hy ↦ by rw [hout y hy]) (fun _ ↦ by rw [hself, hb])
      (fun _ ↦ htarget) ?_
    by_cases hqa : q = a
    · subst hqa
      exact .leave hleave hab
    by_cases hqb : q = b
    · subst hqb
      exact (hp.held q hq).enters hph (henter hq) (Ne.symm hqa)
    exact (hp.held q hq).stays hph (Ne.symm hqa) (Ne.symm hqb) (hsame q hqa hqb)
  · rw [hconn]
    exact hp.update_conn hok
  · have hbefore : (s.hop h).outstanding = true := by rw [hh, Spot.outstanding_hop, ha]
    have hafter : (s'.hop h).outstanding = b.held := by rw [hself, Spot.outstanding_hop]
    have hsame : ∀ y, y ≠ h → ((s'.hop y).outstanding = true ↔ (s.hop y).outstanding = true) :=
      fun y hy ↦ by rw [hout y hy]
    rw [hpending, hsched, hs.pending]
    split
    next hheld =>
      refine congrArg _ (Counting.count_congr fun y _ ↦ ?_)
      by_cases hy : y = h
      · rw [hy, hbefore, hafter, hheld]
      · exact (hsame y hy).symm
    next hheld =>
      have hraise := Counting.count_raise hlt
        (by rwa [hafter]) hbefore hsame
      omega

/-- The hop is at no other place. -/
lemma Placed.not_at (hp : Placed s p) {r : Spot} (hq : p h = q) (hr : r.held = true)
    (hne : r ≠ q) : ¬ At r (s.conn c) h :=
  fun hat ↦ hne (((hp.held r hr c h).mp hat).1.symm.trans hq)

/-! #### The context of the tunnel runs the hop -/

lemma listDel_eq (hh : ∀ w, h ∉ (x.freeing w).hops) :
    listDel x h = { x with switchHops := x.switchHops.erase h } := by
  have hfree : (listDel x h).freeing = x.freeing := by
    funext w
    have hw := hh w
    dsimp only [listDel]
    cases hf : x.freeing w with
    | no | entered => rfl
    | looping hops | cancelled _ hops | released _ hops =>
      have herase : hops.erase h = hops := erase_of_not_mem (by rw [hf] at hw; exact hw)
      dsimp only
      rw [herase]
  rw [← hfree]
  rfl

lemma ConnOk.unlink (hx : ConnOk x) (hrun : x.run = .popped h) :
    ConnOk { x with switchHops := x.switchHops.erase h, run := .taken h } := by
  obtain ⟨hmem, hnot⟩ := hx.popped h hrun
  refine { hx with
    nodup := hx.nodup.erase h, calls := fun h' hc ↦ ?_, popped := nofun
    served := fun h' hh ↦ ?_, closed := fun hc ↦ ?_, own := nofun }
  · exact hx.nodup.mem_erase_iff.mpr ⟨fun he ↦ hnot (he ▸ hc), hx.calls h' hc⟩
  · obtain ⟨hne, hh⟩ := hx.nodup.mem_erase_iff.mp hh
    rcases hx.served h' hh with hc | hr | hrest
    · exact .inl hc
    · exact absurd (HopRun.popped.inj (hr.symm.trans hrun)) hne
    · exact .inr (.inr hrest)
  · refine (hx.closed hc).imp_right fun hf ↦ ?_
    nomatch hf.2 ▸ hmem

lemma Inv.unlink (hs : Inv s) : Inv (step s (.unlink c)) := by
  dsimp only [step]
  split
  next h hrun =>
    obtain ⟨p, hp⟩ := hs.placed
    have hx := hp.conn c
    have hmem := (hx.popped h hrun).1
    have hspliced : ∀ w, h ∉ ((s.conn c).freeing w).hops := fun w ↦
      hp.not_at (r := .spliced w) ((hp.held .queued rfl c h).mp hmem).1 rfl nofun
    refine hs.move hp (a := .queued) (b := .taken) rfl hmem (fun x ↦ { x with freed := true })
      (x := { s.conn c with switchHops := (s.conn c).switchHops.erase h, run := .taken h })
      ?_ rfl rfl rfl (fun hhop ↦ ?_) rfl (fun y ↦ hx.nodup.mem_erase_iff.trans and_comm)
      (fun _ y ↦ ⟨fun hat ↦ .inr (HopRun.taken.inj hat).symm, ?_⟩) (fun q hqa hqb y ↦ ?_) nofun
      (hx.unlink hrun)
    · show update s.conn c { listDel (s.conn c) h with run := .taken h } = _
      rw [listDel_eq hspliced]
    · show (s.fault || (s.hop h).freed || !linked (s.conn c) h) = false
      rw [hs.untouched, hhop, linked, decide_eq_true hmem]
      rfl
    · rintro (hf | rfl)
      · nomatch hrun.symm.trans hf
      · rfl
    cases q with
    | queued => exact absurd rfl hqa
    | taken => exact absurd rfl hqb
    | inFunc => exact iff_of_false nofun fun hat ↦ nomatch hrun.symm.trans hat
    | _ => exact Iff.rfl
  next => exact hs

/-- The context goes on with a hop that it has unlinked. -/
lemma ConnOk.setRun (hx : ConnOk x) {r : HopRun} (hr : ∀ h, r ≠ .popped h)
    (hrun : ∀ h, x.run ≠ .popped h) : ConnOk { x with run := r } :=
  { hx with
    popped h hf := absurd hf (hr h)
    served h hh := by
      rcases hx.served h hh with hc | hf | hrest
      · exact .inl hc
      · exact absurd hf (hrun h)
      · exact .inr (.inr hrest)
    own _ := hr }

lemma Inv.call (hs : Inv s) : Inv (step s (.call c)) := by
  dsimp only [step]
  split
  next h hrun =>
    obtain ⟨p, hp⟩ := hs.placed
    refine hs.move hp (a := .taken) (b := .inFunc) rfl hrun
      (fun x ↦ { x with runs := x.runs + 1 }) rfl rfl rfl rfl (fun _ ↦ hs.untouched) rfl
      (fun y ↦ iff_of_false nofun fun hf ↦ ?_)
      (fun _ y ↦ ⟨fun hat ↦ .inr (HopRun.inFunc.inj hat).symm, ?_⟩) (fun q hqa hqb y ↦ ?_) nofun
      ((hp.conn c).setRun nofun fun h' hf ↦ nomatch hrun.symm.trans hf)
    · exact hf.2 (HopRun.taken.inj (hrun.symm.trans hf.1)).symm
    · rintro (hf | rfl)
      · nomatch hrun.symm.trans hf
      · rfl
    · cases q with
      | taken => exact absurd rfl hqa
      | inFunc => exact absurd rfl hqb
      | _ => exact Iff.rfl
  next => exact hs

lemma Inv.runDone (hs : Inv s) : Inv (step s (.runDone c)) := by
  dsimp only [step]
  split
  · exact hs
  split
  next h hrun =>
    obtain ⟨p, hp⟩ := hs.placed
    refine hs.move hp (a := .inFunc) (b := .ran) rfl hrun (fun x ↦ { x with done := true }) rfl rfl
      rfl rfl (fun _ ↦ hs.untouched) rfl (fun y ↦ iff_of_false nofun fun hf ↦ ?_) nofun
      (fun q hqa _ y ↦ ?_) nofun
      ((hp.conn c).setRun nofun fun h' hf ↦ nomatch hrun.symm.trans hf)
    · exact hf.2 (HopRun.inFunc.inj (hrun.symm.trans hf.1)).symm
    · cases q with
      | inFunc => exact absurd rfl hqa
      | taken => exact iff_of_false nofun fun hat ↦ nomatch hrun.symm.trans hat
      | _ => exact Iff.rfl
  next => exact hs

/-! #### A thread that frees the tunnel cancels the hop -/

/-- A thread that is in the loop goes on with it. -/
lemma ConnOk.setFreeing (hx : ConnOk x) (hf : f.hops.Nodup)
    (hw : x.freeing w ≠ .entered) (hfe : f ≠ .entered) : ConnOk (x.setFreeing w f) := by
  have hentered : (∃ w', x.freeing w' = .entered) → ∃ w', (x.setFreeing w f).freeing w' =
    .entered := by
    rintro ⟨w', hw'⟩
    have hne : w' ≠ w := fun he ↦ hw (he ▸ hw')
    exact ⟨w', (setFreeing_of_ne hne).trans hw'⟩
  exact ⟨hx.nodup, forall_setFreeing (P := fun _ f ↦ f.hops.Nodup) hf hx.splicedNodup,
    hx.callsNodup, hx.calls, hx.popped, hx.unregistered,
    fun h hh ↦ (hx.served h hh).imp_right (Or.imp_right (Or.imp_right hentered)),
    hx.failed, fun hc ↦ (hx.closed hc).imp_left hentered, hx.fresh,
    forall_setFreeing (P := fun w f ↦ w = .own → f = .entered → ∀ h, x.run ≠ .popped h)
      (fun _ he ↦ absurd he hfe) (fun _ hw ↦ hw ▸ hx.own) .own rfl⟩

/-- What is at the places that another thread has in hand, or none, stays there. -/
lemma at_setFreeing {a b : Spot} (hw : ∀ q ∈ [.spliced w, .cancelled w, .released w],
      q ≠ a → q ≠ b → ∀ y, At q (x.setFreeing w f) y ↔ At q x y) (q : Spot) (hqa : q ≠ a)
    (hqb : q ≠ b) (y : ℕ) : At q (x.setFreeing w f) y ↔ At q x y := by
  cases q with
  | spliced w' | cancelled w' | released w' =>
    by_cases hww : w' = w
    · exact hw _ (by simp [hww]) hqa hqb y
    · dsimp only [At]
      rw [setFreeing_of_ne hww]
  | _ => exact Iff.rfl

lemma Inv.cancel (hs : Inv s) (w : Freer) : Inv (step s (.cancel c w)) := by
  dsimp only [step]
  split
  next h hops hw =>
    obtain ⟨p, hp⟩ := hs.placed
    have hx := hp.conn c
    have hnodup := nodup_cons.mp (show (h :: hops).Nodup from (hw ▸ hx.splicedNodup w :))
    have hat : At (.spliced w) (s.conn c) h := by
      show h ∈ ((s.conn c).freeing w).hops
      rw [hw]
      exact .head _
    refine hs.move hp (b := .cancelled w) rfl hat
      (fun x ↦ { x with cancels := x.cancels + 1 }) rfl rfl rfl rfl (fun hhop ↦ ?_) rfl
      (fun y ↦ ?_) ?_ (at_setFreeing (by simp [At, setFreeing_self, hw])) nofun
      (hx.setFreeing hnodup.2 (by rw [hw]; nofun) nofun)
    · show (s.fault || (s.hop h).freed) = false
      rw [hs.untouched, hhop]
      rfl
    · simp only [At, setFreeing_self, hw, Freeing.hops, mem_cons]
      exact ⟨fun hy ↦ ⟨.inr hy, fun he ↦ hnodup.1 (he ▸ hy)⟩, fun hy ↦ hy.1.resolve_left hy.2⟩
    · simp [At, setFreeing_self, hw, eq_comm (a := h)]
  next => exact hs

lemma Inv.freeHop (hs : Inv s) (w : Freer) : Inv (step s (.freeHop c w)) := by
  dsimp only [step]
  split
  next h hops hw =>
    obtain ⟨p, hp⟩ := hs.placed
    have hx := hp.conn c
    have hnodup : hops.Nodup := (hw ▸ hx.splicedNodup w :)
    refine hs.move hp (a := .cancelled w) (b := .released w) rfl ⟨hops, hw⟩
      (fun x ↦ { x with freed := true }) rfl rfl rfl rfl (fun hhop ↦ ?_) rfl (fun y ↦ ?_) ?_
      (at_setFreeing (by simp [At, setFreeing_self, hw, Freeing.hops])) nofun
      (hx.setFreeing hnodup (by rw [hw]; nofun) nofun)
    · show (s.fault || (s.hop h).freed) = false
      rw [hs.untouched, hhop]
      rfl
    · simp [At, setFreeing_self, hw, eq_comm]
    · simp [At, setFreeing_self, hw, eq_comm (a := h)]
  next => exact hs

lemma Inv.cancelDone (hs : Inv s) (w : Freer) : Inv (step s (.cancelDone c w)) := by
  dsimp only [step]
  split
  next h hops hw =>
    obtain ⟨p, hp⟩ := hs.placed
    have hx := hp.conn c
    have hnodup : hops.Nodup := (hw ▸ hx.splicedNodup w :)
    refine hs.move hp (a := .released w) (b := .dropped) rfl ⟨hops, hw⟩
      (fun x ↦ { x with done := true }) rfl rfl rfl rfl (fun _ ↦ hs.untouched) rfl (fun y ↦ ?_)
      nofun (at_setFreeing (by simp [At, setFreeing_self, hw, Freeing.hops])) nofun
      (hx.setFreeing hnodup (by rw [hw]; nofun) nofun)
    simp [At, setFreeing_self, hw, eq_comm]
  next => exact hs

/-! #### All hops of a tunnel are taken at once -/

lemma ConnOk.splice_eq (hx : ConnOk x) (w : Freer) : HopSys.splice x w =
    { x.setFreeing w (.looping x.switchHops) with
      switchHops := [], calls := [], tpd := false } := by
  dsimp only [HopSys.splice]
  split
  · rfl
  next htpd =>
    have htpd : x.tpd = false := eq_false_of_not_eq_true htpd
    rw [← hx.unregistered htpd, ← htpd]
    rfl

lemma ConnOk.spliced (hx : ConnOk x) (hrun : ∀ h, x.run ≠ .popped h) :
    ConnOk { x.setFreeing w (.looping x.switchHops) with
      switchHops := [], calls := [], tpd := false } where
  nodup := nodup_nil
  splicedNodup := forall_setFreeing (P := fun _ f ↦ f.hops.Nodup) hx.nodup hx.splicedNodup
  callsNodup := nodup_nil
  calls := nofun
  popped h hr := absurd hr (hrun h)
  unregistered _ := rfl
  served := nofun
  failed _ := rfl
  closed _ := .inr ⟨rfl, rfl⟩
  fresh hf := ⟨rfl, (hx.fresh hf).2⟩
  own _ := hrun

lemma Inv.splice (hs : Inv s) (hfit : Fit s (.splice c w)) : Inv (step s (.splice c w)) := by
  dsimp only [step]
  split
  next hw =>
    obtain ⟨p, hp⟩ := hs.placed
    have hx := hp.conn c
    have hrun : ∀ h, (s.conn c).run ≠ .popped h := by
      cases w with
      | own => exact hx.own hw
      | starter => exact hfit
    rw [hx.splice_eq]
    refine { hs with placed := ⟨shift p (fun h ↦ (s.hop h).target) .queued (.spliced w) c,
      ⟨fun h ↦ ?_,
      fun h hh ↦ ?_, fun q hq ↦ ?_, ?_⟩⟩ }
    · refine (hp.hop h).trans ?_
      unfold shift
      split
      next hh =>
        rw [hh.1]
        rfl
      next => rfl
    · rw [shift, hp.unused h hh]
      rfl
    · refine (hp.held q hq).shift (At q) fun y ↦ ?_
      rw [← hp.held .queued rfl c y]
      cases q with
      | queued =>
        refine iff_of_false nofun ?_
        rintro (hf | hf)
        · nomatch hf.1
        · exact hf.1 rfl
      | spliced w' =>
        dsimp only [At]
        by_cases hww : w' = w
        · rw [hww, setFreeing_self, hw]
          exact ⟨fun hy ↦ .inl ⟨rfl, hy⟩, fun hy ↦ (hy.resolve_right fun hf ↦ nomatch hf.2).2⟩
        · rw [setFreeing_of_ne hww]
          refine ⟨fun hy ↦ .inr ⟨nofun, hy⟩, fun hy ↦ (hy.resolve_left fun hf ↦ hww ?_).2⟩
          exact (Spot.spliced.inj hf.1).symm
      | cancelled w' | released w' =>
        dsimp only [At]
        by_cases hww : w' = w
        · rw [hww, setFreeing_self, hw]
          simp
        · rw [setFreeing_of_ne hww]
          simp
      | taken | inFunc =>
        exact ⟨fun hy ↦ .inr ⟨nofun, hy⟩, fun hy ↦ (hy.resolve_left nofun).2⟩
      | unused | ran | dropped => nomatch hq
    · exact hp.update_conn (hx.spliced hrun)
  next => exact hs

/-! #### A hop is scheduled -/

lemma ConnOk.queue (hx : ConnOk x) (htpd : x.tpd = true) (hnew : h ∉ x.switchHops) :
    ConnOk { x with switchHops := x.switchHops ++ [h], calls := x.calls ++ [h] } :=
  { hx with
    nodup := nodup_append.mpr ⟨hx.nodup, nodup_singleton h, fun y hy _ hz he ↦
      hnew (mem_singleton.mp hz ▸ he ▸ hy)⟩
    callsNodup := nodup_append.mpr ⟨hx.callsNodup, nodup_singleton h, fun y hy _ hz he ↦
      hnew (mem_singleton.mp hz ▸ he ▸ hx.calls y hy)⟩
    calls y hy := by
      rcases mem_append.mp hy with hy | hy
      · exact mem_append_left _ (hx.calls y hy)
      · exact mem_append_right _ hy
    popped y hy := by
      obtain ⟨hmem, hnot⟩ := hx.popped y hy
      refine ⟨mem_append_left _ hmem, fun hf ↦ ?_⟩
      rcases mem_append.mp hf with hf | hf
      · exact hnot hf
      · exact hnew (mem_singleton.mp hf ▸ hmem)
    unregistered hf := nomatch htpd.symm.trans hf
    served y hy := by
      rcases mem_append.mp hy with hy | hy
      · exact (hx.served y hy).imp_left (mem_append_left _)
      · exact .inl (mem_append_right _ hy)
    closed hc := by
      rcases hx.closed hc with hw | ⟨hf, -⟩
      · exact .inl hw
      · nomatch htpd.symm.trans hf }

lemma Inv.hop (hs : Inv s) (alloc called : Bool) : Inv (step s (.hop c alloc called)) := by
  dsimp only [step, switchHop]
  split
  next t ht =>
    split at ht
    · nomatch ht
    split at ht
    · nomatch ht
    next htpd =>
    split at ht
    · nomatch ht
    cases ht
    obtain ⟨p, hp⟩ := hs.placed
    have htpd : (s.conn c).tpd = true := by simpa using htpd
    have hnew : p s.scheduled = .unused := hp.unused _ (le_refl _)
    have hself : (update s.hop s.scheduled
        { target := c, scheduled := true }) s.scheduled = Spot.queued.hop c :=
      update_self ..
    have hother : ∀ {y} (x : Hop), y ≠ s.scheduled →
        update s.hop s.scheduled x y = s.hop y := fun x hy ↦ update_of_ne hy ..
    refine ⟨hs.untouched, ⟨update p s.scheduled .queued, ⟨fun y ↦ ?_, fun y hy ↦ ?_,
      fun q hq ↦ ?_, ?_⟩⟩, ?_⟩
    · show update s.hop s.scheduled _ y = Spot.hop (update s.hop _ _ y).target _
      by_cases hy : y = s.scheduled
      · rw [hy, hself, update_self]
        rfl
      · rw [hother _ hy, update_of_ne hy]
        exact hp.hop y
    · have hlt : s.scheduled < y := hy
      rw [update_of_ne (ne_of_gt hlt)]
      exact hp.unused y (le_of_lt hlt)
    · refine (hp.held q hq).move (At q) (fun y hy ↦ ?_) (fun _ ↦ ?_) (fun hf ↦ ?_) ?_
      · exact congrArg Hop.target (hother _ hy)
      · exact congrArg Hop.target hself
      · rw [← hf, hnew] at hq
        nomatch hq
      · cases q with
        | queued =>
          refine (hp.held .queued rfl).enters hnew fun y ↦ ?_
          exact mem_append.trans (or_congr_right mem_singleton)
        | taken | inFunc | spliced | cancelled | released =>
          exact (hp.held _ rfl).stays hnew
        | unused | ran | dropped => nomatch hq
    · refine hp.update_conn ((hp.conn c).queue htpd fun hf ↦ ?_)
      nomatch hnew.symm.trans ((hp.held .queued rfl c _).mp hf).1
    · show s.hopsPending + 1 = count (fun h ↦ Hop.outstanding (update s.hop _ _ h) = true)
        (s.scheduled + 1)
      rw [count_succ, hself, hs.pending]
      refine congrArg (fun n : ℕ ↦ (n : ℤ) + 1) (Counting.count_congr fun y hy ↦ ?_)
      rw [hother _ (Nat.ne_of_lt hy)]
  next => exact hs

/-! ### All runs -/

lemma Inv.step (hs : Inv s) (e : HopEvent) (hfit : Fit s e) : Inv (step s e) := by
  cases e with
  | register c ok => exact hs.register ok
  | startEnd c ok => exact hs.startEnd ok
  | hop c alloc called => exact hs.hop alloc called
  | pop c => exact hs.pop
  | unlink c => exact hs.unlink
  | call c => exact hs.call
  | runDone c => exact hs.runDone
  | free c w stale => exact hs.free w stale
  | splice c w => exact hs.splice hfit
  | cancel c w => exact hs.cancel w
  | freeHop c w => exact hs.freeHop w
  | cancelDone c w => exact hs.cancelDone w

/-- **Hops are run or cancelled once**, in every run in which the thread that could not start a
tunnel takes its hops only while its context is not about to run one. -/
theorem hops_always_once (es : List HopEvent) (hfit : Along HopSys.step Fit {} es) :
    Always HopSys.step Sound {} es :=
  fun _ hpre ↦ (Along.inv (fun _ e hs hf ↦ hs.step e hf) inv_init (hfit.of_prefix hpre)).sound

/-- A tunnel with a hop in its queue cannot be started; the hop is cancelled. Another tunnel runs
one. -/
def twoTunnels : List HopEvent :=
  [.register 0 true, .hop 0 true true, .startEnd 0 false, .free 0 .starter false,
    .splice 0 .starter, .register 1 true, .hop 1 true true, .pop 1, .cancel 0 .starter, .unlink 1,
    .freeHop 0 .starter, .call 1, .cancelDone 0 .starter, .runDone 1]

theorem hops_always_once_twoTunnels :
    Along HopSys.step Fit {} twoTunnels ∧ Always HopSys.step Sound {} twoTunnels :=
  have hfit : Along HopSys.step Fit {} twoTunnels := by
    refine ⟨trivial, trivial, trivial, trivial, nofun, trivial, trivial, trivial, trivial, trivial,
      trivial, trivial, trivial, trivial, trivial⟩
  ⟨hfit, hops_always_once twoTunnels hfit⟩

/-- The context of a tunnel that is being started has taken a hop off its queue when the start
fails: the hop is cancelled, touched after it has been released, and run. -/
theorem hop_run_and_cancelled :
    let s := run HopSys.step {} [.register 0 true, .hop 0 true true, .pop 0, .startEnd 0 false,
      .free 0 .starter false, .splice 0 .starter, .cancel 0 .starter, .freeHop 0 .starter,
      .cancelDone 0 .starter, .unlink 0, .call 0, .runDone 0]
    s.hop 0 =
      { target := 0, scheduled := true, freed := true, runs := 1, cancels := 1, done := true } ∧
      s.fault = true ∧ s.hopsPending = -1 := by
  decide

end HopSys
end Switch
end AccelPpp.L2tp
