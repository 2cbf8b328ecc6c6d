import AccelPpp.Lib.Count
import AccelPpp.Lib.Run

/-!
# Calls that wait for the answer of a switch target

A call that is placed on the tunnel of its switch target is **in flight** until the other end
answers with an ICRP. `switch_inflight` marks such a call, and `inflight_count` of the target says
how many there are: with `L2TP_SWITCH_INFLIGHT_MAX` of them no further call is placed.

Two contexts work on a call at a time.

* That of its own tunnel handles the ICCN, which places the call or queues it
  (`l2tp_switch_place_downstream_call`), and frees the session (`l2tp_session_free`): `Own`.
* On the side of the target the call is handed on: from the queue to the context of a tunnel that
  has come up, from one such context to another by a hop, and in the end to the context of the
  downstream session. `Place` says which has it, and where that context is.

Steps are the sections under `target->lock` and the pair lock, and the atomic operations outside of
them, as those of `l2tp_switch_inflight_begin` in `l2tp_switch_drain_pending_calls`. Left open is
when tunnels come and go, which of the drained calls is next, and what fails.

`Sound`: the counter of a target is the number of its marked calls, except for operations that are
half way; it is not negative; and it is zero when all calls of the target are over. There are three
ways to break this (`inflight_used_up`), and it holds in all other runs (`inflight_always_counted`).

* `l2tp_session_free` takes the mark off first and closes the session later. A call that is marked
  in between keeps its mark.
* The mark is set before the counter is raised. If the session is freed in between, the counter
  falls below zero.
* A call that is placed anew after its session was closed keeps its mark if the hop to the new
  tunnel is dropped.
-/

namespace AccelPpp.L2tp.Switch.Inflight

open Bool Counting Function Nat Transition

/-- `L2TP_SWITCH_PENDING_MAX` -/
def pendingMax : ℕ := 64

/-- `L2TP_SWITCH_INFLIGHT_MAX` -/
def inflightMax : ℕ := pendingMax

/-- Where the context of the call's own tunnel is. -/
inductive Own
  /-- The ICCN has not come yet. -/
  | waiting
  /-- In `l2tp_switch_place_via_tunnel`, for the tunnel `c`. -/
  | via (c : ℕ)
  | idle
  /-- In `l2tp_session_free`, before `l2tp_switch_inflight_end`. -/
  | freeing
  /-- It has taken the mark off. -/
  | subtracting
  /-- `l2tp_switch_inflight_end` is over, the session is not yet closed. -/
  | ended
  /-- `STATE_CLOSE` -/
  | closed
deriving DecidableEq

/-- Between taking the mark off and closing the session. -/
def Own.between : Own → Bool
  | .subtracting | .ended => true
  | .waiting | .via _ | .idle | .freeing | .closed => false

/-- What a context of the target's side calls `l2tp_switch_inflight_end` for. -/
inductive Why
  /-- The session of the call is closed. -/
  | closed
  /-- The tunnel is not up; the call is placed anew. -/
  | requeue
  /-- The ICRP. -/
  | answer
deriving DecidableEq

/-- Who has the call on the target's side, and where they are. -/
inductive Place
  | unplaced
  /-- On `pending_calls` of the target. -/
  | pending
  /-- On the local list of `l2tp_switch_drain_pending_calls`, for the tunnel `c`. -/
  | drained (c : ℕ)
  /-- In `l2tp_switch_inflight_begin`, before the operation. -/
  | load (c : ℕ)
  | store (c : ℕ)
  | add (c : ℕ)
  /-- At the beginning of `l2tp_switch_place_call_on`. -/
  | placing (c : ℕ)
  /-- Before the section that pairs the two legs. -/
  | pairing
  /-- The downstream session has the call as its `switch_upstream`. -/
  | paired
  /-- In `l2tp_switch_inflight_end`, before the exchange. -/
  | ending (w : Why)
  /-- It has taken the mark off. -/
  | subtracting (w : Why)
  /-- In `l2tp_switch_requeue_call`, after `l2tp_switch_inflight_end`. -/
  | requeuing
  /-- In `l2tp_switch_place_via_tunnel`. -/
  | via (c : ℕ)
  /-- A hop to the tunnel `c` has the call. -/
  | hopped (c : ℕ)
  /-- Nobody has the call any more. -/
  | gone
deriving DecidableEq

/-- The mark is set and the counter not yet raised. -/
def Place.adding : Place → Bool
  | .add _ => true
  | _ => false

/-- The mark is taken off and the counter not yet lowered. -/
def Place.isSubtracting : Place → Bool
  | .subtracting _ => true
  | _ => false

/-- Where `l2tp_switch_inflight_end` leaves the call. -/
def Why.next : Why → Place
  | .closed => .gone
  | .requeue => .requeuing
  | .answer => .paired

/-- The upstream session of a switched call. By default there is none. -/
structure Call where
  /-- `switch_target` -/
  target : ℕ := 0
  /-- `switch_inflight` -/
  inflight : Bool := false
  own : Own := .closed
  place : Place := .gone
deriving DecidableEq

/-- `struct l2tp_switch_target_t` -/
structure Target where
  /-- `mode` is `L2TP_SWITCH_MODE_PERSISTENT`. -/
  persistent : Bool := false
  tunnel : Option ℕ := none
  connectBudgetOpen : Bool := false
  pendingCount : ℕ := 0
  /-- The source has an `unsigned int`. -/
  inflightCount : ℤ := 0

structure Sys where
  call : ℕ → Call := fun _ ↦ {}
  /-- How many calls there have been so far. -/
  calls : ℕ := 0
  target : ℕ → Target := fun _ ↦ {}
  /-- The tunnel is in `STATE_ESTB`. -/
  estb : ℕ → Bool := fun _ ↦ false

/-! ### The functions that run under the lock of the target -/

/-- `l2tp_switch_inflight_begin`, without `force`. -/
def inflightBegin (t : Target) (x : Call) : Option (Target × Call) :=
  if x.inflight then some (t, x)
  else if inflightMax ≤ t.inflightCount % 2 ^ 32 then none
  else some ({ t with inflightCount := t.inflightCount + 1 }, { x with inflight := true })

/-- `l2tp_switch_enqueue_call_locked`; `timer` says whether the timer can be armed. -/
def enqueueCallLocked (t : Target) (timer : Bool) : Option Target :=
  if pendingMax ≤ t.pendingCount then none
  else if !t.connectBudgetOpen && !timer then none
  else some { t with connectBudgetOpen := true, pendingCount := t.pendingCount + 1 }

/-- What is to be done after the section of `l2tp_switch_place_downstream_call`. -/
inductive Verdict
  | via (c : ℕ)
  | queued
  | refused
deriving DecidableEq

/-- The tunnel of the target, if it is up. -/
def up (estb : ℕ → Bool) (t : Target) : Option ℕ :=
  t.tunnel.filter estb

/-- The section of `l2tp_switch_place_downstream_call`. -/
def placeDownstreamCall (estb : ℕ → Bool) (timer : Bool) (t : Target) (x : Call) :
    Verdict × Target × Call :=
  match up estb t with
  | some c =>
    match inflightBegin t x with
    | none => (.refused, t, x)
    | some (t, x) => (.via c, t, x)
  | none =>
    if t.persistent then (.refused, t, x)
    else match enqueueCallLocked t timer with
      | none => (.refused, t, x)
      | some t => (.queued, t, x)

/-- In `l2tp_recv_ICCN`, which ends the session if the call cannot be placed. -/
def Call.onIccn (x : Call) : Verdict → Call
  | .via c => { x with own := .via c }
  | .queued => { x with own := .idle, place := .pending }
  | .refused => { x with own := .freeing }

/-- In `l2tp_switch_requeue_call`; a call that cannot be placed is left to its own context
(`l2tp_switch_disconnect_upstream_async`). -/
def Verdict.place : Verdict → Place
  | .via c => .via c
  | .queued => .pending
  | .refused => .gone

namespace Sys

/-- There are no calls yet. -/
def init (persistent : ℕ → Bool) : Sys where
  target k := { persistent := persistent k }

section

variable (s : Sys) (u : ℕ)

/-- The call `u` and its target are written to. -/
def put (x : Call) (t : Target) : Sys :=
  { s with
    call := Function.update s.call u x
    target := Function.update s.target (s.call u).target t }

/-- The call `u` is written to, and the counter of its target changes by `d`. -/
def count (x : Call) (d : ℤ) : Sys :=
  let t := s.target (s.call u).target
  s.put u x { t with inflightCount := t.inflightCount + d }

/-- The call goes on to another place. -/
def goTo (q : Place) : Sys :=
  s.count u { s.call u with place := q } 0

/-- The context of the call's own tunnel goes on. -/
def ownTo (o : Own) : Sys :=
  s.count u { s.call u with own := o } 0

/-- All calls on the queue of the target `k` go to another place. -/
def splice (k : ℕ) (q : Place) : Sys :=
  { s with
    call := fun u ↦
      if (s.call u).place = .pending ∧ (s.call u).target = k then { s.call u with place := q }
      else s.call u
    target := Function.update s.target k
      { s.target k with connectBudgetOpen := false, pendingCount := 0 } }

end

end Sys

/-- A call's number comes first. -/
inductive Event
  /-- A call is matched to the target `k`. -/
  | arrive (k : ℕ)
  /-- The tunnel of a target is another one, under the lock of the target. -/
  | setTunnel (k : ℕ) (o : Option ℕ)
  /-- A tunnel comes up, or is up no more. -/
  | setEstb (c : ℕ) (b : Bool)
  /-- The context of the call's own tunnel: `l2tp_recv_ICCN`, and the hop that it schedules. -/
  | iccn (u : ℕ) (timer : Bool)
  | iccnHop (u : ℕ) (ok : Bool)
  /-- The same context, through `l2tp_session_free`. -/
  | free (u : ℕ)
  | freeExchange (u : ℕ)
  | freeSub (u : ℕ)
  | close (u : ℕ)
  /-- The context of the tunnel `c`, through `l2tp_switch_drain_pending_calls`. -/
  | drain (k c : ℕ)
  | take (u : ℕ)
  | load (u : ℕ)
  | store (u : ℕ)
  | add (u : ℕ)
  /-- `l2tp_switch_place_call_on`; `alloc` says whether there is memory for a session. -/
  | place (u : ℕ) (alloc : Bool)
  | pair (u : ℕ)
  /-- `l2tp_switch_inflight_end` on the target's side. -/
  | exchange (u : ℕ)
  | sub (u : ℕ)
  /-- `l2tp_switch_requeue_call`, and the hop that it schedules. -/
  | requeue (u : ℕ) (timer : Bool)
  | hop (u : ℕ) (ok : Bool)
  /-- `l2tp_switch_place_call` or `l2tp_switch_place_call_cancel`. -/
  | runHop (u : ℕ)
  | cancelHop (u : ℕ)
  /-- `l2tp_recv_ICRP` -/
  | icrp (u : ℕ)
  /-- The downstream session leaves the pair. -/
  | unpair (u : ℕ)
  /-- `l2tp_switch_on_demand_timeout` -/
  | timeout (k : ℕ)

namespace Sys

def step (s : Sys) : Event → Sys
  | .arrive k =>
    { s with
      call := Function.update s.call s.calls { target := k, own := .waiting, place := .unplaced }
      calls := s.calls + 1 }
  | .setTunnel k o =>
    { s with target := Function.update s.target k { s.target k with tunnel := o } }
  | .setEstb c b => { s with estb := Function.update s.estb c b }
  | .iccn u timer =>
    if (s.call u).own = .waiting then
      match placeDownstreamCall s.estb timer (s.target (s.call u).target) (s.call u) with
      | (v, t, x) => s.put u (x.onIccn v) t
    else s
  | .iccnHop u ok =>
    match (s.call u).own with
    | .via c =>
      if ok then s.count u { s.call u with own := .idle, place := .hopped c } 0
      else s.ownTo u .freeing
    | _ => s
  | .free u =>
    if (s.call u).own = .waiting ∨ (s.call u).own = .idle then s.ownTo u .freeing else s
  | .freeExchange u =>
    if (s.call u).own = .freeing then
      if (s.call u).inflight then
        s.count u { s.call u with inflight := false, own := .subtracting } 0
      else s.ownTo u .ended
    else s
  | .freeSub u =>
    if (s.call u).own = .subtracting then s.count u { s.call u with own := .ended } (-1) else s
  | .close u => if (s.call u).own = .ended then s.ownTo u .closed else s
  | .drain k c => if (s.target k).tunnel = some c then s.splice k (.drained c) else s
  | .take u =>
    match (s.call u).place with
    | .drained c => s.goTo u (.load c)
    | _ => s
  | .load u =>
    match (s.call u).place with
    | .load c => s.goTo u (if (s.call u).inflight then .placing c else .store c)
    | _ => s
  | .store u =>
    match (s.call u).place with
    | .store c => s.count u { s.call u with inflight := true, place := .add c } 0
    | _ => s
  | .add u =>
    match (s.call u).place with
    | .add c => s.count u { s.call u with place := .placing c } 1
    | _ => s
  | .place u alloc =>
    match (s.call u).place with
    | .placing c =>
      if (s.call u).own = .closed then s.goTo u (.ending .closed)
      else if !s.estb c then s.goTo u (.ending .requeue)
      else if alloc then s.goTo u .pairing
      else s.goTo u .gone
    | _ => s
  | .pair u =>
    if (s.call u).place = .pairing then
      s.goTo u (if (s.call u).own = .closed then .ending .closed else .paired)
    else s
  | .exchange u =>
    match (s.call u).place with
    | .ending w =>
      if (s.call u).inflight then
        s.count u { s.call u with inflight := false, place := .subtracting w } 0
      else s.goTo u w.next
    | _ => s
  | .sub u =>
    match (s.call u).place with
    | .subtracting w => s.count u { s.call u with place := w.next } (-1)
    | _ => s
  | .requeue u timer =>
    if (s.call u).place = .requeuing then
      if (s.target (s.call u).target).persistent then s.goTo u .gone
      else match placeDownstreamCall s.estb timer (s.target (s.call u).target) (s.call u) with
        | (v, t, x) => s.put u { x with place := v.place } t
    else s
  | .hop u ok =>
    match (s.call u).place with
    | .via c => s.goTo u (if ok then .hopped c else .gone)
    | _ => s
  | .runHop u =>
    match (s.call u).place with
    | .hopped c => s.goTo u (.placing c)
    | _ => s
  | .cancelHop u =>
    match (s.call u).place with
    | .hopped _ => s.goTo u .gone
    | _ => s
  | .icrp u => if (s.call u).place = .paired then s.goTo u (.ending .answer) else s
  | .unpair u => if (s.call u).place = .paired then s.goTo u .gone else s
  | .timeout k => if (s.target k).connectBudgetOpen then s.splice k .gone else s

end Sys

/-! ### What is to hold -/

/-- The session is closed, and nobody has the call. -/
def Call.over (x : Call) : Bool :=
  x.own == .closed && (x.place == .gone || x.place == .unplaced)

/-- An operation on the mark and the counter is half way. -/
def Call.halfway (x : Call) : Bool :=
  x.place.adding || x.place.isSubtracting || x.own == .subtracting

/-- The call has been added to the counter of its target and not subtracted. -/
def Call.counted (x : Call) : Bool :=
  (x.inflight && !x.place.adding) || x.place.isSubtracting || x.own == .subtracting

/-- The counter in which the call is. -/
def Call.kind (x : Call) : Option ℕ :=
  if x.counted then some x.target else none

structure Sound (s : Sys) : Prop where
  counted : Tally (fun u ↦ (s.call u).kind) s.calls fun k ↦ (s.target k).inflightCount
  marked : ∀ k, (∀ u, (s.call u).target = k → (s.call u).halfway = false) →
    (s.target k).inflightCount =
      count (fun u ↦ (s.call u).inflight = true ∧ (s.call u).target = k) s.calls
  nonneg : ∀ k, 0 ≤ (s.target k).inflightCount
  zero : ∀ k, (∀ u, (s.call u).target = k → (s.call u).over = true) →
    (s.target k).inflightCount = 0

/-- The mark of a call is not set while its session is being freed, nor is the session freed before
the counter is raised; and a hop is not dropped with a call that was marked when its session was
closed already. -/
def Fit (s : Sys) : Event → Prop
  | .store u => (s.call u).own.between = false
  | .requeue u _ =>
    up s.estb (s.target (s.call u).target) ≠ none → (s.call u).own.between = false
  | .freeExchange u => (s.call u).place.adding = false
  | .hop u ok => ok = false → (s.call u).own = .closed → (s.call u).inflight = false
  | .cancelHop u => (s.call u).own = .closed → (s.call u).inflight = false
  | _ => True

instance (s : Sys) (e : Event) : Decidable (Fit s e) := by
  cases e <;> dsimp only [Fit] <;> infer_instance

/-! ### One call -/

/-- The context that has the call is going to take off a mark, or to hand the call on to one that
does. -/
def Place.willEnd : Place → Bool
  | .add _ | .placing _ | .ending .closed | .via _ | .hopped _ => true
  | _ => false

/-- The call was found unmarked. -/
def Place.storing : Place → Bool
  | .store _ => true
  | _ => false

/-- The call may be marked or not there, and is counted if it is. -/
def Place.calm : Place → Bool
  | .store _ | .add _ | .subtracting _ => false
  | _ => true

/-- Somebody has the call, and it may be marked or not. -/
def Place.held : Place → Bool
  | .unplaced | .gone | .store _ | .add _ | .subtracting _ => false
  | _ => true

/-- The call has not been placed yet. -/
def Own.early : Own → Bool
  | .waiting | .via _ => true
  | .idle | .freeing | .subtracting | .ended | .closed => false

lemma Place.calm_iff {q : Place} :
    q.calm = true ↔ q.adding = false ∧ q.isSubtracting = false ∧ q.storing = false := by
  cases q <;> simp [calm, adding, isSubtracting, storing]

lemma Place.held_iff {q : Place} : q.held = true ↔ q.calm = true ∧ q ≠ .unplaced ∧ q ≠ .gone := by
  cases q <;> simp [held, calm]

structure CallOk (x : Call) : Prop where
  early : x.own.early = true → x.place = .unplaced
  storing : x.place.storing = true → x.inflight = false
  adding : x.place.adding = true → x.inflight = true
  subtracting : x.place.isSubtracting = true → x.inflight = false ∧ x.own ≠ .subtracting
  between : x.inflight = true → x.own.between = false
  closed : x.inflight = true → x.own = .closed → x.place.willEnd = true

variable {x : Call} {o : Own} {q : Place}

lemma CallOk.goTo (h : CallOk x) (hx : x.place ≠ .unplaced) (hq : q.calm = true)
    (hend : x.inflight = true → x.own = .closed → q.willEnd = true) :
    CallOk { x with place := q } where
  early ho := absurd (h.early ho) hx
  storing hf := nomatch (Place.calm_iff.mp hq).2.2.symm.trans hf
  adding hf := nomatch (Place.calm_iff.mp hq).1.symm.trans hf
  subtracting hf := nomatch (Place.calm_iff.mp hq).2.1.symm.trans hf
  between := h.between
  closed := hend

lemma CallOk.ownTo (h : CallOk x) (hearly : o.early = false) (hsub : o ≠ .subtracting)
    (hbetween : x.inflight = true → o.between = false) (hclosed : x.inflight = true → o ≠ .closed) :
    CallOk { x with own := o } :=
  { h with
    early hf := nomatch hearly.symm.trans hf
    subtracting hf := ⟨(h.subtracting hf).1, hsub⟩
    between := hbetween
    closed hi hf := absurd hf (hclosed hi) }

lemma Own.ne_subtracting (ho : o.between = false) : o ≠ .subtracting := by
  rintro rfl
  nomatch ho

lemma CallOk.ne_subtracting (h : CallOk x) (hi : x.inflight = true) : x.own ≠ .subtracting :=
  Own.ne_subtracting (h.between hi)

/-! ### What a call adds to the counter -/

/-- One, if the call is in the counter of its target. -/
def Call.weight (x : Call) : ℤ :=
  if x.counted then 1 else 0

lemma unit_kind (x : Call) (k : ℕ) : unit x.kind k = if k = x.target then x.weight else 0 := by
  unfold unit Call.kind Call.weight
  cases x.counted <;> simp [eq_comm]

lemma weight_eq {b : Bool} (h : x.counted = b) : x.weight = if b then 1 else 0 := by
  rw [Call.weight, h]

lemma counted_goTo (hx : x.place.calm = true) (hq : q.calm = true) :
    ({ x with place := q } : Call).counted = x.counted := by
  obtain ⟨hx₁, hx₂, -⟩ := Place.calm_iff.mp hx
  obtain ⟨hq₁, hq₂, -⟩ := Place.calm_iff.mp hq
  simp only [Call.counted, hx₁, hx₂, hq₁, hq₂]

/-- A mark counts where no operation is half way. -/
lemma counted_calm (hx : x.place.calm = true) (ho : x.own ≠ .subtracting) :
    x.counted = x.inflight := by
  obtain ⟨hx₁, hx₂, -⟩ := Place.calm_iff.mp hx
  simp only [Call.counted, hx₁, hx₂, beq_eq_false_iff_ne.mpr ho, Bool.not_false, Bool.and_true,
    Bool.or_false]

lemma counted_at (hq : q.calm = true) (ho : x.own ≠ .subtracting) :
    ({ x with place := q } : Call).counted = x.inflight :=
  counted_calm hq ho

/-! ### All calls -/

structure Inv (s : Sys) : Prop where
  ok : ∀ u, CallOk (s.call u)
  absent : ∀ u, s.calls ≤ u → s.call u = {}
  tally : Tally (fun u ↦ (s.call u).kind) s.calls fun k ↦ (s.target k).inflightCount

variable {s : Sys} {t : Target} {u k : ℕ} {d : ℤ} {p : Place}

lemma inv_init (persistent : ℕ → Bool) : Inv (Sys.init persistent) :=
  ⟨fun _ ↦ ⟨nofun, nofun, nofun, nofun, nofun, nofun⟩, fun _ _ ↦ rfl, tally_zero _⟩

section

variable (h : Inv s)

include h

lemma Inv.put (hu : u < s.calls) (hx : CallOk x)
    (hk : x.target = (s.call u).target)
    (hcount : t.inflightCount + (s.call u).weight =
      (s.target (s.call u).target).inflightCount + x.weight) : Inv (s.put u x t) where
  ok := (forall_update_iff s.call fun _ x ↦ CallOk x).mpr ⟨hx, fun v _ ↦ h.ok v⟩
  absent v hv := by
    have hvu : v ≠ u := ne_of_gt (lt_of_lt_of_le hu hv)
    exact (update_of_ne hvu ..).trans (h.absent v hv)
  tally := by
    have hkinds : (fun v ↦ (update s.call u x v).kind) =
        update (fun v ↦ (s.call v).kind) u x.kind :=
      funext fun v ↦ apply_update (fun _ ↦ Call.kind) s.call u x v
    show Tally (fun v ↦ (update s.call u x v).kind) s.calls fun k ↦
      (update s.target (s.call u).target t k).inflightCount
    rw [hkinds, tally_update_iff h.tally hu]
    intro k
    rw [unit_kind, unit_kind, hk]
    by_cases hku : k = (s.call u).target
    · rw [hku, update_self, if_pos rfl]
      omega
    · rw [update_of_ne hku, if_neg hku]
      omega

lemma Inv.count (b b' : Bool) (hu : u < s.calls) (hx : CallOk x)
    (hk : x.target = (s.call u).target) (hd : d + (if b then 1 else 0) = if b' then 1 else 0)
    (hold : (s.call u).counted = b) (hnew : x.counted = b') : Inv (s.count u x d) := by
  refine h.put hu hx hk ?_
  rw [weight_eq hold, weight_eq hnew, ← hd, Int.add_assoc]

lemma Inv.lt_of_place (hp : (s.call u).place = p) (hne : p ≠ .gone) :
    u < s.calls := by
  by_contra hu
  rw [h.absent u (Nat.le_of_not_lt hu)] at hp
  exact hne hp.symm

lemma Inv.lt_of_own (ho : (s.call u).own = o) (hne : o ≠ .closed) :
    u < s.calls := by
  by_contra hu
  rw [h.absent u (Nat.le_of_not_lt hu)] at ho
  exact hne ho.symm

lemma Inv.goTo (hp : (s.call u).place.held = true) (hq : q.calm = true)
    (hend : (s.call u).inflight = true → (s.call u).own = .closed → q.willEnd = true) :
    Inv (s.goTo u q) := by
  obtain ⟨hcalm, hunplaced, hgone⟩ := Place.held_iff.mp hp
  exact h.count _ _ (h.lt_of_place rfl hgone) ((h.ok u).goTo hunplaced hq hend) rfl (Int.zero_add _)
    rfl (counted_goTo hcalm hq)

lemma Inv.ownTo {o₀ : Own} (hx : (s.call u).own = o₀) (ho : CallOk { s.call u with own := o })
    (hclosed : o₀ ≠ .closed) (hsub₀ : o₀ ≠ .subtracting) (hsub : o ≠ .subtracting) :
    Inv (s.ownTo u o) :=
  h.count _ _ (h.lt_of_own hx hclosed) ho rfl (Int.zero_add _) rfl (by
    simp only [Call.counted, beq_eq_false_iff_ne.mpr (hx ▸ hsub₀), beq_eq_false_iff_ne.mpr hsub])

/-- The call goes on, and who takes off a mark at the end still does so. -/
lemma Inv.goOn (hp : (s.call u).place = p) (hheld : p.held = true)
    (hq : q.calm = true) (hend : p.willEnd = true → q.willEnd = true) : Inv (s.goTo u q) :=
  h.goTo (hp ▸ hheld) hq fun hi ho ↦ hend (hp ▸ (h.ok u).closed hi ho)

/-- Where the call is, nobody will take off a mark: it has none then, once the session is closed. -/
lemma Inv.not_closed (hp : (s.call u).place.willEnd = false)
    (hi : (s.call u).inflight = true) : (s.call u).own ≠ .closed :=
  fun ho ↦ nomatch hp.symm.trans ((h.ok u).closed hi ho)

lemma Inv.splice (hq : q.calm = true) : Inv (s.splice k q) where
  ok v := by
    show CallOk (if _ then _ else _)
    split
    next hv =>
      have hplace := hv.1
      refine (h.ok v).goTo (by rw [hplace]; nofun) hq fun hi ho ↦ absurd ho ?_
      exact h.not_closed (by rw [hplace]; rfl) hi
    next => exact h.ok v
  absent v hv := by
    have hnone := h.absent v hv
    refine (if_neg ?_).trans hnone
    rw [hnone]
    nofun
  tally := by
    have htarget : (fun j ↦ ((s.splice k q).target j).inflightCount) =
        fun j ↦ (s.target j).inflightCount :=
      funext ((forall_update_iff s.target fun j t ↦
        t.inflightCount = (s.target j).inflightCount).mpr ⟨rfl, fun _ _ ↦ rfl⟩)
    rw [htarget]
    refine h.tally.congr fun v _ ↦ ?_
    show _ = Call.kind (if _ then _ else _)
    split
    next hv =>
      have hcalm : (s.call v).place.calm = true := by rw [hv.1]; rfl
      rw [Call.kind, Call.kind, counted_goTo hcalm hq]
    next => rfl

/-! ### The steps -/

omit h in
/-- The section of `l2tp_switch_place_downstream_call` leaves the call and the counter as they are,
or marks the call and counts it. -/
lemma placeDownstreamCall_spec (estb : ℕ → Bool) (timer : Bool) (t : Target) (x : Call) :
    match placeDownstreamCall estb timer t x with
    | (v, t', x') =>
      (x' = x ∧ t'.inflightCount = t.inflightCount) ∨
        (∃ c, v = .via c) ∧ up estb t ≠ none ∧ x.inflight = false ∧
          x' = { x with inflight := true } ∧ t'.inflightCount = t.inflightCount + 1 := by
  unfold placeDownstreamCall
  cases hup : up estb t with
  | some c =>
    unfold inflightBegin
    by_cases hi : x.inflight = true
    · rw [if_pos hi]
      exact .inl ⟨rfl, rfl⟩
    rw [if_neg hi]
    by_cases hmax : (inflightMax : ℤ) ≤ t.inflightCount % 2 ^ 32
    · rw [if_pos hmax]
      exact .inl ⟨rfl, rfl⟩
    · rw [if_neg hmax]
      exact .inr ⟨⟨c, rfl⟩, nofun, eq_false_iff.mpr hi, rfl, rfl⟩
  | none =>
    unfold enqueueCallLocked
    dsimp only
    split
    · exact .inl ⟨rfl, rfl⟩
    split
    · exact .inl ⟨rfl, rfl⟩
    next hqueue =>
      split at hqueue
      · nomatch hqueue
      · split at hqueue
        · nomatch hqueue
        · obtain rfl := Option.some.inj hqueue
          exact .inl ⟨rfl, rfl⟩

omit h in
/-- A call that has just been placed, or not, is in the counter if it is marked. -/
lemma onIccn_spec (hx : x.place = .unplaced) (v : Verdict) :
    CallOk (x.onIccn v) ∧ (x.onIccn v).counted = x.inflight ∧ (x.onIccn v).target = x.target := by
  obtain ⟨target, inflight, own, place⟩ := x
  obtain rfl : place = .unplaced := hx
  cases v with
  | via c =>
    exact ⟨⟨fun _ ↦ rfl, nofun, nofun, nofun, fun _ ↦ rfl, fun _ ↦ nofun⟩,
      counted_calm rfl nofun, rfl⟩
  | queued | refused =>
    exact ⟨⟨nofun, nofun, nofun, nofun, fun _ ↦ rfl, fun _ ↦ nofun⟩, counted_calm rfl nofun, rfl⟩

lemma Inv.iccn (ho : (s.call u).own = .waiting) (timer : Bool) :
    Inv (s.step (.iccn u timer)) := by
  have hplace : (s.call u).place = .unplaced := (h.ok u).early (by rw [ho]; rfl)
  have hu : u < s.calls := h.lt_of_own ho nofun
  have hold : (s.call u).counted = (s.call u).inflight :=
    counted_calm (by rw [hplace]; rfl) (by rw [ho]; nofun)
  have hspec := placeDownstreamCall_spec s.estb timer (s.target (s.call u).target) (s.call u)
  rw [Sys.step, if_pos ho]
  generalize placeDownstreamCall s.estb timer (s.target (s.call u).target) (s.call u) = r at hspec ⊢
  obtain ⟨v, t, x⟩ := r
  rcases hspec with ⟨rfl, ht⟩ | ⟨-, -, hi, rfl, ht⟩
  · obtain ⟨hok, hcounted, htarget⟩ := onIccn_spec hplace v
    refine h.put hu hok htarget ?_
    rw [ht, weight_eq hcounted, weight_eq hold]
  obtain ⟨hok, hcounted, htarget⟩ := onIccn_spec (x := { s.call u with inflight := true }) hplace v
  refine h.put hu hok htarget ?_
  rw [ht, weight_eq hcounted, weight_eq (hold.trans hi)]
  exact Int.add_zero _

lemma Inv.requeue (hp : (s.call u).place = .requeuing) {timer : Bool}
    (hfit : Fit s (.requeue u timer)) : Inv (s.step (.requeue u timer)) := by
  have hheld : (s.call u).place.held = true := by rw [hp]; rfl
  have hcalm : (s.call u).place.calm = true := by rw [hp]; rfl
  have hunplaced : (s.call u).place ≠ .unplaced := by rw [hp]; nofun
  have hu : u < s.calls := h.lt_of_place hp nofun
  have hopen := h.not_closed (by rw [hp]; rfl)
  have hspec := placeDownstreamCall_spec s.estb timer (s.target (s.call u).target) (s.call u)
  rw [Sys.step, if_pos hp]
  split
  · exact h.goTo hheld rfl fun hi ho ↦ absurd ho (hopen hi)
  generalize placeDownstreamCall s.estb timer (s.target (s.call u).target) (s.call u) = r
    at hspec ⊢
  obtain ⟨v, t, x⟩ := r
  rcases hspec with ⟨rfl, ht⟩ | ⟨⟨c, rfl⟩, hup, hi, rfl, ht⟩
  · have hv : v.place.calm = true := by cases v <;> rfl
    refine h.put hu ((h.ok u).goTo hunplaced hv fun hi ho ↦ absurd ho (hopen hi)) rfl ?_
    rw [ht, weight_eq (counted_goTo hcalm hv), Call.weight]
  -- the session is not just being freed, so that the call is not still to be subtracted
  have hbetween : (s.call u).own.between = false := hfit hup
  have hsub : (s.call u).own ≠ .subtracting := Own.ne_subtracting hbetween
  refine h.put hu ⟨?_, nofun, nofun, nofun, fun _ ↦ hbetween, fun _ _ ↦ rfl⟩ rfl ?_
  · exact fun ho ↦ absurd ((h.ok u).early ho) hunplaced
  · rw [ht, weight_eq ((counted_calm hcalm hsub).trans hi), Verdict.place]
    exact Int.add_zero _

/-! The operations on the mark and on the counter -/

lemma Inv.freeExchange (ho : (s.call u).own = .freeing)
    (hfit : (s.call u).place.adding = false) : Inv (s.step (.freeExchange u)) := by
  rw [Sys.step, if_pos ho]
  by_cases hi : (s.call u).inflight = true
  · rw [if_pos hi]
    have hnot : ¬ (s.call u).place.isSubtracting = true := fun hf ↦
      nomatch hi.symm.trans ((h.ok u).subtracting hf).1
    refine h.count true true (h.lt_of_own ho nofun) ⟨nofun, fun _ ↦ rfl, ?_, ?_, nofun, nofun⟩ rfl
      rfl ?_ ?_
    · exact fun hf ↦ nomatch hfit.symm.trans hf
    · exact fun hf ↦ absurd hf hnot
    · simp [Call.counted, hi, hfit]
    · simp [Call.counted]
  · rw [if_neg hi]
    exact h.ownTo ho ((h.ok u).ownTo rfl nofun (fun hf ↦ absurd hf hi) fun hf ↦ absurd hf hi)
      nofun nofun nofun

lemma Inv.freeSub (ho : (s.call u).own = .subtracting) :
    Inv (s.count u { s.call u with own := .ended } (-1)) := by
  have hi : (s.call u).inflight = false :=
    eq_false_iff.mpr fun hi ↦ (h.ok u).ne_subtracting hi ho
  have hnot : (s.call u).place.isSubtracting = false :=
    eq_false_iff.mpr fun hf ↦ ((h.ok u).subtracting hf).2 ho
  refine h.count true false (h.lt_of_own ho nofun) ((h.ok u).ownTo rfl nofun ?_ ?_) rfl rfl ?_ ?_
  · exact fun hf ↦ nomatch hi.symm.trans hf
  · exact hi ▸ nofun
  · simp [Call.counted, ho]
  · simp [Call.counted, hi, hnot]

end

variable {c : ℕ}

lemma Why.next_calm (w : Why) : w.next.calm = true := by
  cases w <;> rfl

section

variable (h : Inv s)

include h

lemma Inv.load (hp : (s.call u).place = .load c) :
    Inv (s.goTo u (if (s.call u).inflight then .placing c else .store c)) := by
  have hheld : (s.call u).place.held = true := by rw [hp]; rfl
  obtain ⟨hcalm, hunplaced, -⟩ := Place.held_iff.mp hheld
  by_cases hi : (s.call u).inflight = true
  · rw [if_pos hi]
    exact h.goTo hheld rfl fun _ _ ↦ rfl
  rw [if_neg hi]
  refine h.count _ _ (h.lt_of_place hp nofun) ⟨?_, fun _ ↦ eq_false_iff.mpr hi, nofun, nofun,
    ?_, ?_⟩ rfl (Int.zero_add _) rfl ?_
  · exact fun ho ↦ absurd ((h.ok u).early ho) hunplaced
  · exact fun hf ↦ absurd hf hi
  · exact fun hf ↦ absurd hf hi
  · obtain ⟨hadd, hsub, -⟩ := Place.calm_iff.mp hcalm
    simp only [Call.counted, hadd, hsub]
    rfl

lemma Inv.store (hp : (s.call u).place = .store c) (hfit : (s.call u).own.between = false) :
    Inv (s.count u { s.call u with inflight := true, place := .add c } 0) := by
  have hi : (s.call u).inflight = false := (h.ok u).storing (by rw [hp]; rfl)
  have hsub : (s.call u).own ≠ .subtracting := Own.ne_subtracting hfit
  have hunplaced : (s.call u).place ≠ .unplaced := by rw [hp]; nofun
  refine h.count false false (h.lt_of_place hp nofun) ⟨?_, nofun, fun _ ↦ rfl, nofun, fun _ ↦ hfit,
    fun _ _ ↦ rfl⟩ rfl rfl ?_ ?_
  · exact fun ho ↦ absurd ((h.ok u).early ho) hunplaced
  · simp [Call.counted, hi, hp, hsub, Place.isSubtracting]
  · simp [Call.counted, hsub, Place.adding, Place.isSubtracting]

lemma Inv.add (hp : (s.call u).place = .add c) :
    Inv (s.count u { s.call u with place := .placing c } 1) := by
  have hi : (s.call u).inflight = true := (h.ok u).adding (by rw [hp]; rfl)
  have hsub : (s.call u).own ≠ .subtracting := (h.ok u).ne_subtracting hi
  refine h.count false true (h.lt_of_place hp nofun) ((h.ok u).goTo (by rw [hp]; nofun) rfl
    fun _ _ ↦ rfl) rfl rfl ?_ ((counted_at rfl hsub).trans hi)
  simp [Call.counted, hp, hsub, Place.adding, Place.isSubtracting]

lemma Inv.exchange {w : Why} (hp : (s.call u).place = .ending w) :
    Inv (s.step (.exchange u)) := by
  have hheld : (s.call u).place.held = true := by rw [hp]; rfl
  obtain ⟨hcalm, hunplaced, -⟩ := Place.held_iff.mp hheld
  rw [Sys.step, hp]
  dsimp only
  by_cases hi : (s.call u).inflight = true
  · have hsub : (s.call u).own ≠ .subtracting := (h.ok u).ne_subtracting hi
    rw [if_pos hi]
    refine h.count true true (h.lt_of_place hp nofun)
      ⟨?_, nofun, nofun, fun _ ↦ ⟨rfl, hsub⟩, nofun, nofun⟩ rfl rfl
      ((counted_calm hcalm hsub).trans hi) ?_
    · exact fun ho ↦ absurd ((h.ok u).early ho) hunplaced
    · simp [Call.counted, Place.isSubtracting]
  · rw [if_neg hi]
    exact h.goTo hheld w.next_calm fun hf ↦ absurd hf hi

lemma Inv.sub {w : Why} (hp : (s.call u).place = .subtracting w) :
    Inv (s.count u { s.call u with place := w.next } (-1)) := by
  obtain ⟨hi, hsub⟩ := (h.ok u).subtracting (by rw [hp]; rfl)
  refine h.count true false (h.lt_of_place hp nofun) ((h.ok u).goTo (by rw [hp]; nofun) w.next_calm
    fun hf ↦ nomatch hi.symm.trans hf) rfl rfl ?_ ((counted_at w.next_calm hsub).trans hi)
  simp [Call.counted, hp, Place.isSubtracting]

/-! The other steps -/

lemma Inv.arrive (k : ℕ) : Inv (s.step (.arrive k)) where
  ok := (forall_update_iff s.call fun _ x ↦ CallOk x).mpr
    ⟨⟨fun _ ↦ rfl, nofun, nofun, nofun, nofun, nofun⟩, fun v _ ↦ h.ok v⟩
  absent v hv := by
    have hne : v ≠ s.calls := ne_of_gt hv
    exact (update_of_ne hne ..).trans (h.absent v (le_of_succ_le hv))
  tally := by
    have hold : Tally (fun v ↦ ((s.step (.arrive k)).call v).kind) s.calls
        fun k ↦ (s.target k).inflightCount := by
      refine h.tally.congr fun v hv ↦ ?_
      exact congrArg Call.kind (update_of_ne (Nat.ne_of_lt hv) ..).symm
    have hnew : ((s.step (.arrive k)).call s.calls).kind = none := by
      show (update s.call s.calls _ s.calls).kind = none
      rw [update_self]
      rfl
    have hsucc := hold.succ
    rw [hnew] at hsucc
    have hcount : ∀ j, (s.target j).inflightCount + unit none j = (s.target j).inflightCount :=
      fun _ ↦ Int.add_zero _
    rwa [funext hcount] at hsucc

/-- What does not change the calls and the counters does not matter. -/
lemma Inv.frame {s' : Sys} (hcall : s'.call = s.call) (hcalls : s'.calls = s.calls)
    (hcount : ∀ k, (s'.target k).inflightCount = (s.target k).inflightCount) : Inv s' := by
  refine ⟨fun u ↦ hcall ▸ h.ok u, fun u hu ↦ ?_, ?_⟩
  · rw [hcall]
    exact h.absent u (hcalls ▸ hu)
  · rw [hcall, hcalls, funext hcount]
    exact h.tally

lemma Inv.place (hp : (s.call u).place = .placing c) (alloc : Bool) :
    Inv (s.step (.place u alloc)) := by
  have hheld : (s.call u).place.held = true := by rw [hp]; rfl
  rw [Sys.step, hp]
  dsimp only
  by_cases ho : (s.call u).own = .closed
  · rw [if_pos ho]
    exact h.goTo hheld rfl fun _ _ ↦ rfl
  rw [if_neg ho]
  split
  · exact h.goTo hheld rfl fun _ hf ↦ absurd hf ho
  · split
    · exact h.goTo hheld rfl fun _ hf ↦ absurd hf ho
    · exact h.goTo hheld rfl fun _ hf ↦ absurd hf ho

lemma Inv.iccnHop (ho : (s.call u).own = .via c) (ok : Bool) : Inv (s.step (.iccnHop u ok)) := by
  have hplace : (s.call u).place = .unplaced := (h.ok u).early (by rw [ho]; rfl)
  rw [Sys.step, ho]
  cases ok with
  | true =>
    exact h.count _ _ (h.lt_of_own ho nofun)
      ⟨nofun, nofun, nofun, nofun, fun _ ↦ rfl, fun _ ↦ nofun⟩ rfl (Int.zero_add _)
      (counted_calm (by rw [hplace]; rfl) (by rw [ho]; nofun)) (counted_calm rfl nofun)
  | false =>
    exact h.ownTo ho ((h.ok u).ownTo rfl nofun (fun _ ↦ rfl) fun _ ↦ nofun) nofun nofun nofun

lemma Inv.free (ho : (s.call u).own = .waiting ∨ (s.call u).own = .idle) :
    Inv (s.ownTo u .freeing) := by
  have hok : CallOk { s.call u with own := .freeing } :=
    (h.ok u).ownTo rfl nofun (fun _ ↦ rfl) fun _ ↦ nofun
  rcases ho with ho | ho
  · exact h.ownTo ho hok nofun nofun nofun
  · exact h.ownTo ho hok nofun nofun nofun

lemma Inv.close (ho : (s.call u).own = .ended) : Inv (s.ownTo u .closed) := by
  have hi : ¬ (s.call u).inflight = true := fun hi ↦ by
    have hbetween := (h.ok u).between hi
    rw [ho] at hbetween
    nomatch hbetween
  exact h.ownTo ho ((h.ok u).ownTo rfl nofun (fun _ ↦ rfl) fun hf ↦ absurd hf hi) nofun nofun
    nofun

lemma Inv.pair (hp : (s.call u).place = .pairing) :
    Inv (s.goTo u (if (s.call u).own = .closed then .ending .closed else .paired)) := by
  split
  · exact h.goOn hp rfl rfl fun _ ↦ rfl
  · exact h.goOn hp rfl rfl nofun

/-- A hop is dropped with the call. -/
lemma Inv.drop (hp : (s.call u).place.held = true)
    (hfit : (s.call u).own = .closed → (s.call u).inflight = false) : Inv (s.goTo u .gone) :=
  h.goTo hp rfl fun hi ho ↦ nomatch hi.symm.trans (hfit ho)

/-- A step under a condition. -/
lemma Inv.ite {P : Prop} [Decidable P] {s' : Sys} (hs : P → Inv s') :
    Inv (if P then s' else s) := by
  split
  next hP => exact hs hP
  next => exact h

lemma Inv.step {e : Event} (hfit : Fit s e) : Inv (s.step e) := by
  cases e with
  | arrive k => exact h.arrive k
  | setTunnel k o =>
    exact h.frame rfl rfl ((forall_update_iff s.target fun j t ↦
      t.inflightCount = (s.target j).inflightCount).mpr ⟨rfl, fun _ _ ↦ rfl⟩)
  | setEstb c b => exact h.frame rfl rfl fun _ ↦ rfl
  | iccn u timer =>
    by_cases ho : (s.call u).own = .waiting
    · exact h.iccn ho timer
    · rwa [Sys.step, if_neg ho]
  | iccnHop u ok =>
    cases ho : (s.call u).own with
    | via c => exact h.iccnHop ho ok
    | waiting | idle | freeing | subtracting | ended | closed => rwa [Sys.step, ho]
  | free u => exact h.ite h.free
  | freeExchange u =>
    by_cases ho : (s.call u).own = .freeing
    · exact h.freeExchange ho hfit
    · rwa [Sys.step, if_neg ho]
  | freeSub u => exact h.ite h.freeSub
  | close u => exact h.ite h.close
  | drain k c | timeout k => exact h.ite fun _ ↦ h.splice rfl
  | pair u => exact h.ite h.pair
  | requeue u timer =>
    by_cases hp : (s.call u).place = .requeuing
    · exact h.requeue hp hfit
    · rwa [Sys.step, if_neg hp]
  | icrp u | unpair u => exact h.ite fun hp ↦ h.goOn hp rfl rfl nofun
  | take u =>
    simp only [Sys.step]
    split
    next c hp => exact h.goOn hp rfl rfl nofun
    next => exact h
  | load u =>
    simp only [Sys.step]
    split
    next c hp => exact h.load hp
    next => exact h
  | store u =>
    simp only [Sys.step]
    split
    next c hp => exact h.store hp hfit
    next => exact h
  | add u =>
    simp only [Sys.step]
    split
    next c hp => exact h.add hp
    next => exact h
  | place u alloc =>
    cases hp : (s.call u).place with
    | placing c => exact h.place hp alloc
    | _ => rwa [Sys.step, hp]
  | exchange u =>
    cases hp : (s.call u).place with
    | ending w => exact h.exchange hp
    | _ => rwa [Sys.step, hp]
  | sub u =>
    simp only [Sys.step]
    split
    next w hp => exact h.sub hp
    next => exact h
  | hop u ok =>
    simp only [Sys.step]
    split
    next c hp =>
      cases ok with
      | true => exact h.goOn hp rfl rfl fun _ ↦ rfl
      | false => exact h.drop (by rw [hp]; rfl) (hfit rfl)
    next => exact h
  | runHop u =>
    simp only [Sys.step]
    split
    next c hp => exact h.goOn hp rfl rfl fun _ ↦ rfl
    next => exact h
  | cancelHop u =>
    simp only [Sys.step]
    split
    next c hp => exact h.drop (by rw [hp]; rfl) hfit
    next => exact h

end

/-! ### The results -/

/-- No mark is left on a call that is over. -/
lemma CallOk.not_counted (h : CallOk x) (hover : x.over = true) : x.counted = false := by
  obtain ⟨ho, hp⟩ : x.own = .closed ∧ (x.place = .gone ∨ x.place = .unplaced) := by
    simpa [Call.over] using hover
  have hcalm : x.place.calm = true := by rcases hp with hp | hp <;> rw [hp] <;> rfl
  have hend : x.place.willEnd = false := by rcases hp with hp | hp <;> rw [hp] <;> rfl
  refine (counted_calm hcalm (by rw [ho]; nofun)).trans (eq_false_iff.mpr fun hi ↦ ?_)
  nomatch hend.symm.trans (h.closed hi ho)

lemma counted_of_not_halfway (h : x.halfway = false) : x.counted = x.inflight := by
  obtain ⟨⟨hadd, hsub⟩, ho⟩ : (x.place.adding = false ∧ x.place.isSubtracting = false) ∧
      x.own ≠ .subtracting := by
    simpa [Call.halfway] using h
  simp [Call.counted, hadd, hsub, ho]

lemma kind_eq_some : x.kind = some k ↔ x.counted = true ∧ x.target = k := by
  unfold Call.kind
  cases x.counted <;> simp

lemma Inv.sound (h : Inv s) : Sound s where
  counted := h.tally
  marked k hidle := by
    refine (h.tally k).trans ?_
    refine congrArg _ (count_congr fun u _ ↦ kind_eq_some.trans (and_congr_left fun hk ↦ ?_))
    rw [counted_of_not_halfway (hidle u hk)]
  nonneg := h.tally.nonneg
  zero k hover := by
    refine (h.tally k).trans (Int.natCast_eq_zero.mpr ?_)
    by_contra hcount
    obtain ⟨u, -, hu⟩ := count_ne_iff_exists.mp hcount
    obtain ⟨hcounted, hk⟩ := kind_eq_some.mp hu
    nomatch ((h.ok u).not_counted (hover u hk)).symm.trans hcounted

/-- **The counters of calls in flight are right** in every run in which no call is marked while its
session is being freed, no session is freed between mark and counter, and no hop is dropped with a
call that was marked when its session was closed already. -/
theorem inflight_always_counted (persistent : ℕ → Bool) (es : List Event)
    (hfit : Along Sys.step Fit (Sys.init persistent) es) :
    Always Sys.step Sound (Sys.init persistent) es := by
  intro pre hpre
  refine Inv.sound (Along.inv (fun s e hs he ↦ Inv.step hs he) (inv_init persistent) ?_)
  exact hfit.of_prefix hpre

/-- A call waits on the queue of its target until a tunnel comes up, and is about to be marked. -/
def drainedCall : List Event :=
  [.arrive 0, .iccn 0 true, .setTunnel 0 (some 0), .setEstb 0 true, .drain 0 0, .take 0, .load 0]

/-- The call is placed and answered, and ends later. -/
theorem inflight_always_counted_answered :
    Along Sys.step Fit (Sys.init fun _ ↦ false) (drainedCall ++ [.store 0, .add 0, .place 0 true,
      .pair 0, .icrp 0, .exchange 0, .sub 0, .free 0, .freeExchange 0, .close 0, .unpair 0]) ∧
    Always Sys.step Sound (Sys.init fun _ ↦ false) (drainedCall ++ [.store 0, .add 0, .place 0 true,
      .pair 0, .icrp 0, .exchange 0, .sub 0, .free 0, .freeExchange 0, .close 0, .unpair 0]) :=
  ⟨by decide +kernel, inflight_always_counted _ _ (by decide +kernel)⟩

/-- The session of the only call is freed just before the call is marked. It is marked and paired
before the session is closed, and the downstream session goes with it: the call is over, and still
counted. -/
def markedLate : List Event :=
  drainedCall ++ [.free 0, .freeExchange 0, .store 0, .add 0, .place 0 true, .pair 0, .close 0,
    .unpair 0]

/-- The session is freed between the setting of the mark and the raising of the counter. -/
def freedEarly : List Event :=
  drainedCall ++ [.store 0, .free 0, .freeExchange 0, .freeSub 0]

/-- The tunnel is gone when the call is to be placed on it, the session is closed while the call is
placed anew, and then the second tunnel is gone too. -/
def hopDropped : List Event :=
  [.arrive 0, .setTunnel 0 (some 0), .setEstb 0 true, .iccn 0 true, .iccnHop 0 true,
    .setEstb 0 false, .runHop 0, .place 0 true, .free 0, .freeExchange 0, .freeSub 0, .close 0,
    .exchange 0, .setTunnel 0 (some 1), .setEstb 1 true, .requeue 0 true, .hop 0 true, .cancelHop 0]

/-- The counter stays up when the only call is over, and falls below zero. -/
theorem inflight_used_up :
    (∀ es ∈ [markedLate, hopDropped],
      (run Sys.step (Sys.init fun _ ↦ false) es).calls = 1 ∧
        ((run Sys.step (Sys.init fun _ ↦ false) es).call 0).over = true ∧
        ((run Sys.step (Sys.init fun _ ↦ false) es).target 0).inflightCount = 1) ∧
      ((run Sys.step (Sys.init fun _ ↦ false) freedEarly).target 0).inflightCount = -1 := by
  decide +kernel

end AccelPpp.L2tp.Switch.Inflight
