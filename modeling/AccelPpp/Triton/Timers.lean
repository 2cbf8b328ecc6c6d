import AccelPpp.Lib.Run

/-!
# Timers do not expire early

`timer.c` and the timer part of `ctx_thread`: each timer is a `timerfd`. `timer_thread` collects the
expirations the kernel reports, a batch at a time, and puts the timers of the batch into the list of
their context one by one; the context takes them from there and calls `expire`.

`triton_timer_del` takes the timer from the list and marks it, so that it is passed over in the
batch. `triton_timer_mod` resets what the kernel has, and nothing else: if the expiration is further
on its way, `expire` is called although the new delay has only begun. `ctx_thread` could tell, since
it finds nothing to read, but does not look. So the runs here are those in which a timer whose
expiration is in the batch or in the list is not modified (`Undisturbed`).

The other way to be early is in the conversion of the delay: `period` is in milliseconds, and its
part below a second is multiplied by 1000 instead of 1000000 on the way to `tv_nsec`. It matters
where the first expiration is taken from `period`.

Times are in nanoseconds, on one clock that is not set back. The run is that of one context, which
does its own things one after another, of the kernel, and of `timer_thread`. Each timer that is
added has a record of its own.
-/

open List

namespace AccelPpp.Triton

open Function Transition

/-- What a caller sets in `struct triton_timer_t`. -/
structure TimerSetting where
  tvSec : ℤ := 0
  tvUsec : ℤ := 0
  period : ℤ := 0

/-- `struct timespec` -/
structure Timespec where
  tvSec : ℤ
  tvNsec : ℤ
deriving DecidableEq

namespace Timespec

/-- The kernel accepts it. -/
def Valid (x : Timespec) : Prop := 0 ≤ x.tvSec ∧ 0 ≤ x.tvNsec ∧ x.tvNsec < 10 ^ 9

instance (x : Timespec) : Decidable x.Valid := inferInstanceAs (Decidable (_ ∧ _ ∧ _))

def ns (x : Timespec) : ℕ := (x.tvSec * 10 ^ 9 + x.tvNsec).toNat

end Timespec

/-- `struct itimerspec` -/
structure Itimerspec where
  itInterval : Timespec
  itValue : Timespec

namespace TimerSetting

section

variable (ud : TimerSetting)

/-- `ts` in `triton_timer_mod` -/
def ts : Itimerspec :=
  let itInterval : Timespec := ⟨ud.period.tdiv 1000, ud.period.tmod 1000 * 1000⟩
  { itInterval := itInterval
    itValue := if ud.tvSec = 0 ∧ ud.tvUsec = 0 then itInterval else ⟨ud.tvSec, ud.tvUsec * 1000⟩ }

/-- `timerfd_settime` succeeds. -/
def Valid (ud : TimerSetting) : Prop := ud.ts.itInterval.Valid ∧ ud.ts.itValue.Valid

instance : Decidable ud.Valid := inferInstanceAs (Decidable (_ ∧ _))

/-- The delay a caller asks for: `expire_tv`, or `period` milliseconds if that is zero. -/
def delay : ℕ :=
  if ud.tvSec = 0 ∧ ud.tvUsec = 0 then (ud.period * 10 ^ 6).toNat
  else (ud.tvSec * 10 ^ 9 + ud.tvUsec * 10 ^ 3).toNat

/-- `expire_tv` is given, or `period` is a whole number of seconds. -/
def Exact : Prop :=
  ud.tvSec ≠ 0 ∨ ud.tvUsec ≠ 0 ∨ ud.period.tmod 1000 = 0

instance : Decidable ud.Exact := inferInstanceAs (Decidable (_ ∨ _ ∨ _))

end

end TimerSetting

/-- `struct _triton_timer_t`, with the state of its `timerfd`. -/
structure Timer where
  /-- The record has been allocated. -/
  used : Bool := false
  /-- `ud` is not null. -/
  ud : Bool := false
  pending : Bool := false
  /-- The time of the next expiration. -/
  value : Option ℕ := none
  interval : ℕ := 0
  /-- The expirations that have not been read. -/
  ticks : ℕ := 0

/-- When `expire` may be called. -/
inductive Due
  /-- The timer has not been added, or has been deleted. -/
  | absent
  /-- No delay is set. -/
  | never
  | since (time : ℕ)

/-- `expire` may be called now. -/
def Due.Passed (now : ℕ) : Due → Prop
  | .since time => time ≤ now
  | _ => False

instance (now : ℕ) : DecidablePred (Due.Passed now)
  | .since time => inferInstanceAs (Decidable (time ≤ now))
  | .absent | .never => isFalse id

/-- A call of `expire`: the timer, the time, and when it was due. -/
structure Call where
  timer : ℕ
  now : ℕ
  due : Due

/-- The timers of a context, on their way. -/
structure Timers where
  now : ℕ := 0
  timers : ℕ → Timer := fun _ ↦ {}
  pendingTimers : List ℕ := []
  /-- The events of the batch that `timer_thread` has not come to. -/
  epollEvents : List ℕ := []
  /-- The timer that `ctx_thread` has taken from the list. -/
  taken : Option ℕ := none
  /-- The due times, as the calls of the context have set them. -/
  due : ℕ → Due := fun _ ↦ .absent
  calls : List Call := []

/-- What happens to the timers. -/
inductive TimerEvent
  /-- Time passes. -/
  | tick (ns : ℕ)
  /-- The kernel notices that a timer has expired. -/
  | expire (t : ℕ)
  /-- `epoll_wait` returns in `timer_thread`. -/
  | collect (events : List ℕ)
  /-- `timer_thread` processes the next event of the batch. -/
  | notice
  /-- `triton_timer_add` -/
  | add (t : ℕ) (ud : TimerSetting) (absTime : Bool)
  /-- `triton_timer_mod` -/
  | mod (t : ℕ) (ud : TimerSetting) (absTime : Bool)
  /-- `triton_timer_del` -/
  | del (t : ℕ)
  /-- `ctx_thread` takes a timer from the list. -/
  | take
  /-- `ctx_thread` goes on to `read` and `expire`. -/
  | fire

namespace Timers

section

variable (s : Timers)

/-- Writes to a timer. -/
def setTimer (t : ℕ) (x : Timer) : Timers :=
  { s with timers := Function.update s.timers t x }

/-- The time that a delay is added to. -/
def base (absTime : Bool) : ℕ := if absTime then 0 else s.now

/-- `timerfd_settime`, which also forgets the expirations that have not been read. -/
def timerfdSettime (x : Timer) (ts : Itimerspec) (absTime : Bool) : Timer :=
  { x with
    value := if ts.itValue = ⟨0, 0⟩ then none else some (s.base absTime + ts.itValue.ns)
    interval := ts.itInterval.ns
    ticks := 0 }

/-- When a timer becomes due that is set now. -/
def dueAfter (ud : TimerSetting) (absTime : Bool) : Due :=
  if ud.delay = 0 then .never else .since (s.base absTime + ud.delay)

/-- `triton_timer_mod` for the record `x` of the timer `t`. -/
def timerMod (t : ℕ) (x : Timer) (ud : TimerSetting) (absTime : Bool) : Timers :=
  if ud.Valid then
    { s.setTimer t (s.timerfdSettime x ud.ts absTime) with
      due := Function.update s.due t (s.dueAfter ud absTime) }
  else s

/-- One step. What the context does by itself is not done while it is between `take` and `fire`. -/
def step : TimerEvent → Timers
  | .tick ns => { s with now := s.now + ns }
  | .expire t =>
    let x := s.timers t
    match x.value with
    | some time =>
      if time ≤ s.now then
        s.setTimer t { x with
          ticks := x.ticks + 1
          value := if x.interval = 0 then none else some (time + x.interval) }
      else s
    | none => s
  | .collect events =>
    if s.epollEvents = [] then
      { s with epollEvents := events.filter fun t ↦ (s.timers t).ticks ≠ 0 }
    else s
  | .notice =>
    match s.epollEvents with
    | [] => s
    | t :: events =>
      let s := { s with epollEvents := events }
      let x := s.timers t
      if x.ud ∧ ¬ x.pending then
        { s.setTimer t { x with pending := true } with pendingTimers := s.pendingTimers ++ [t] }
      else s
  | .add t ud absTime =>
    if s.taken = none ∧ ¬ (s.timers t).used then
      s.timerMod t { used := true, ud := true } ud absTime
    else s
  | .mod t ud absTime =>
    if s.taken = none ∧ (s.timers t).ud then s.timerMod t (s.timers t) ud absTime else s
  | .del t =>
    let x := s.timers t
    if s.taken = none ∧ x.ud then
      { s.setTimer t { x with ud := false } with
        pendingTimers := if x.pending then s.pendingTimers.erase t else s.pendingTimers
        due := Function.update s.due t .absent }
    else s
  | .take =>
    match s.taken, s.pendingTimers with
    | none, t :: timers =>
      { s.setTimer t { s.timers t with pending := false } with
        pendingTimers := timers, taken := some t }
    | _, _ => s
  | .fire =>
    match s.taken with
    | none => s
    | some t =>
      -- The result of `read` is not looked at.
      let s := { s.setTimer t { s.timers t with ticks := 0 } with taken := none }
      if (s.timers t).ud then { s with calls := ⟨t, s.now, s.due t⟩ :: s.calls } else s

/-- Each call of `expire` was due. -/
def OnTime : Prop := ∀ c ∈ s.calls, c.due.Passed c.now

/-- A delay that is set is converted exactly, and no expiration of the timer is in the batch or in
the list when it is modified. -/
def Undisturbed : TimerEvent → Prop
  | .add _ ud _ => ud.Valid → ud.Exact
  | .mod t ud _ => ud.Valid →
    ud.Exact ∧ (s.timers t).pending = false ∧ t ∉ s.epollEvents
  | _ => True

end

end Timers

lemma Due.Passed.mono {due : Due} {now now' : ℕ} (h : due.Passed now) (hle : now ≤ now') :
    due.Passed now' := by
  cases due with
  | since time => exact h.trans hle
  | absent | never => exact h

/-- Only a zero value switches a timer off. -/
lemma Timespec.Valid.ns_ne_zero {x : Timespec} (h : x.Valid) (hne : x ≠ ⟨0, 0⟩) : x.ns ≠ 0 := by
  obtain ⟨sec, nsec⟩ := x
  obtain ⟨hsec, hnsec, -⟩ := h
  intro hzero
  rw [Timespec.ns] at hzero
  dsimp only at hsec hnsec hzero
  have hzero' : sec = 0 ∧ nsec = 0 := by constructor <;> omega
  rw [hzero'.1, hzero'.2] at hne
  exact hne rfl

/-- **What is converted exactly** is the delay. -/
theorem TimerSetting.Exact.ns_itValue {ud : TimerSetting} (h : ud.Exact) :
    ud.ts.itValue.ns = ud.delay := by
  rw [ts, delay, Timespec.ns]
  split
  · next hzero =>
    have hwhole : ud.period.tmod 1000 = 0 := by
      rcases h with h | h | h
      · exact absurd hzero.1 h
      · exact absurd hzero.2 h
      · exact h
    have hdiv := Int.mul_tdiv_add_tmod ud.period 1000
    congr 1
    dsimp only
    omega
  · rfl

namespace Timers

variable {s s' : Timers} {t : ℕ} {x : Timer} {due : Due}

/-- What the kernel has of a timer is not early. -/
structure Punctual (now : ℕ) (x : Timer) (due : Due) : Prop where
  unused : x.used = false → x = {}
  value : x.ud = true → ∀ time, x.value = some time → ∃ d, due = .since d ∧ d ≤ time
  ticks : x.ud = true → x.ticks ≠ 0 → due.Passed now

lemma Punctual.used {now : ℕ} (h : Punctual now x due) (hud : x.ud = true) : x.used = true := by
  by_contra hf
  rw [h.unused (Bool.eq_false_iff.mpr hf)] at hud
  nomatch hud

/-- What is on its way is not early. -/
structure Inv (s : Timers) : Prop where
  onTime : s.OnTime
  timer : ∀ t, Punctual s.now (s.timers t) (s.due t)
  batch : ∀ t ∈ s.epollEvents,
    (s.timers t).used = true ∧ ((s.timers t).ud = true → (s.due t).Passed s.now)
  nodup : s.pendingTimers.Nodup
  pending : ∀ t ∈ s.pendingTimers,
    (s.timers t).ud = true ∧ (s.timers t).pending = true ∧ (s.due t).Passed s.now
  taken : ∀ t, s.taken = some t → (s.timers t).ud = true ∧ (s.due t).Passed s.now

lemma inv_init : Inv {} where
  onTime _ h := nomatch h
  timer _ := ⟨fun _ ↦ rfl, nofun, nofun⟩
  batch _ h := nomatch h
  nodup := nodup_nil
  pending _ h := nomatch h
  taken _ h := nomatch h

section

variable (h : s.Inv)

include h

/-- **Less is on its way.** -/
theorem Inv.shrink (htimers : s'.timers = s.timers) (hdue : s'.due = s.due) (hnow : s'.now = s.now)
    (hcalls : s'.calls = s.calls) (hbatch : ∀ t ∈ s'.epollEvents, t ∈ s.epollEvents)
    (hpending : s'.pendingTimers.Sublist s.pendingTimers)
    (htaken : ∀ t, s'.taken = some t → s.taken = some t ∨ t ∈ s.pendingTimers) : s'.Inv := by
  refine ⟨?_, ?_, fun t ht ↦ ?_, hpending.nodup h.nodup, fun t ht ↦ ?_, fun t ht ↦ ?_⟩
  · rw [OnTime, hcalls]
    exact h.onTime
  · rw [htimers, hdue, hnow]
    exact h.timer
  · rw [htimers, hdue, hnow]
    exact h.batch t (hbatch t ht)
  · rw [htimers, hdue, hnow]
    exact h.pending t (hpending.subset ht)
  · rw [htimers, hdue, hnow]
    rcases htaken t ht with ht | ht
    · exact h.taken t ht
    · exact ⟨(h.pending t ht).1, (h.pending t ht).2.2⟩

/-- **One timer changes**: what is on its way from it must be due by the new time. -/
theorem Inv.write (htimers : s'.timers = update s.timers t x) (hdue : s'.due = update s.due t due)
    (hnow : s'.now = s.now) (hcalls : s'.calls = s.calls) (hbatch : s'.epollEvents = s.epollEvents)
    (hlist : s'.pendingTimers = s.pendingTimers) (htaken : s'.taken = s.taken)
    (hx : Punctual s.now x due)
    (hb : t ∈ s.epollEvents → x.used = true ∧ (x.ud = true → due.Passed s.now))
    (hp : t ∈ s.pendingTimers → x.ud = true ∧ x.pending = true ∧ due.Passed s.now)
    (ht : s.taken = some t → x.ud = true ∧ due.Passed s.now) : s'.Inv := by
  -- what holds of the new timer, and of all there were
  have hall {P : ℕ → Timer → Due → Prop} (hnew : P t x due)
      (hold : ∀ t', P t' (s.timers t') (s.due t')) (t' : ℕ) : P t' (s'.timers t') (s'.due t') := by
    rw [htimers, hdue]
    by_cases htt : t' = t
    · rw [htt, update_self, update_self]
      exact hnew
    · rw [update_of_ne htt, update_of_ne htt]
      exact hold t'
  refine ⟨?_, ?_, ?_, hlist ▸ h.nodup, ?_, ?_⟩
  · rw [OnTime, hcalls]
    exact h.onTime
  · rw [hnow]
    exact hall hx h.timer
  · rw [hnow, hbatch]
    exact hall (P := fun t' x due ↦ t' ∈ s.epollEvents →
      x.used = true ∧ (x.ud = true → due.Passed s.now)) hb h.batch
  · rw [hnow, hlist]
    exact hall (P := fun t' x due ↦ t' ∈ s.pendingTimers →
      x.ud = true ∧ x.pending = true ∧ due.Passed s.now) hp h.pending
  · rw [hnow, htaken]
    exact hall (P := fun t' x due ↦ s.taken = some t' → x.ud = true ∧ due.Passed s.now) ht h.taken

/-- A timer changes, but not the time at which it is due. -/
lemma Inv.setTimer (hx : Punctual s.now x (s.due t))
    (hused : x.used = (s.timers t).used) (hud : x.ud = (s.timers t).ud)
    (hpending : t ∈ s.pendingTimers → x.pending = true) : (s.setTimer t x).Inv := by
  refine h.write rfl (update_eq_self t s.due).symm rfl rfl rfl rfl rfl hx ?_ ?_ ?_
  · rw [hused, hud]
    exact h.batch t
  · rw [hud]
    exact fun ht ↦ ⟨(h.pending t ht).1, hpending ht, (h.pending t ht).2.2⟩
  · rw [hud]
    exact h.taken t

/-- **`triton_timer_mod`** of a timer of which nothing is on its way. -/
theorem Inv.timerMod {ud : TimerSetting} {absTime : Bool}
    (hexact : ud.Valid → ud.Exact) (hused : x.used = true)
    (hbatch : ud.Valid → t ∉ s.epollEvents) (hpending : ud.Valid → t ∉ s.pendingTimers)
    (htaken : s.taken = none) : (s.timerMod t x ud absTime).Inv := by
  rw [Timers.timerMod]
  split
  · next hvalid =>
    refine h.write rfl rfl rfl rfl rfl rfl rfl ?_ (fun hf ↦ absurd hf (hbatch hvalid))
      (fun hf ↦ absurd hf (hpending hvalid)) fun hf ↦ nomatch htaken.symm.trans hf
    refine ⟨hused ▸ nofun, fun _ time htime ↦ ?_, fun _ hf ↦ absurd rfl hf⟩
    have hns := (hexact hvalid).ns_itValue
    rw [timerfdSettime] at htime
    split at htime
    · nomatch htime
    · next hne =>
      have hdelay : ud.delay ≠ 0 := hns ▸ hvalid.2.ns_ne_zero hne
      refine ⟨s.base absTime + ud.delay, if_neg hdelay, ?_⟩
      rw [← Option.some.inj htime, hns]
  · exact h

/-- The kernel notices an expiration. -/
lemma Inv.expire (t : ℕ) : (s.step (.expire t)).Inv := by
  have hx := h.timer t
  rw [step]
  split
  · next time htime =>
    split
    · next hle =>
      refine h.setTimer ⟨fun hf ↦ ?_, fun hud time' htime' ↦ ?_, fun hud _ ↦ ?_⟩ rfl rfl
        fun ht ↦ (h.pending t ht).2.1
      · rw [hx.unused hf] at htime
        nomatch htime
      · obtain ⟨d, hd, hdle⟩ := hx.value hud time htime
        refine ⟨d, hd, ?_⟩
        split at htime'
        · nomatch htime'
        · rw [← Option.some.inj htime']
          omega
      · obtain ⟨d, hd, hdle⟩ := hx.value hud time htime
        rw [hd]
        exact hdle.trans hle
    · exact h
  · exact h

lemma Inv.collect (events : List ℕ) : (s.step (.collect events)).Inv := by
  rw [step]
  split
  · refine { h with batch := fun t ht ↦ ?_ }
    have hticks : (s.timers t).ticks ≠ 0 := of_decide_eq_true (mem_filter.mp ht).2
    refine ⟨?_, fun hud ↦ (h.timer t).ticks hud hticks⟩
    by_contra hf
    rw [(h.timer t).unused (Bool.eq_false_iff.mpr hf)] at hticks
    exact hticks rfl
  · exact h

/-- `timer_thread` puts a timer into the list. -/
lemma Inv.notice : (s.step .notice).Inv := by
  rw [step]
  split
  · exact h
  next t events hevents =>
  have hmem : t ∈ s.epollEvents := by rw [hevents]; exact mem_cons_self
  have hpop : Inv { s with epollEvents := events } :=
    h.shrink rfl rfl rfl rfl (fun t' ht' ↦ by rw [hevents]; exact mem_cons_of_mem t ht')
      (List.Sublist.refl _) fun _ ↦ .inl
  dsimp only
  split
  · next hud =>
    obtain ⟨hud, hpending⟩ := hud
    have hnot : t ∉ s.pendingTimers := fun hf ↦ hpending (h.pending t hf).2.1
    have hx := h.timer t
    have hset := hpop.setTimer (t := t) (x := { s.timers t with pending := true })
      ⟨fun hf ↦ (nomatch hf.symm.trans (hx.used hud)), hx.value, hx.ticks⟩ rfl rfl fun _ ↦ rfl
    refine { hset with nodup := h.nodup.append (nodup_singleton t) ?_, pending := ?_ }
    · exact disjoint_singleton.mpr hnot
    intro t' ht'
    rcases mem_append.mp ht' with ht' | ht'
    · exact hset.pending t' ht'
    obtain rfl := mem_singleton.mp ht'
    show (update s.timers t' _ t').ud = true ∧
      (update s.timers t' _ t').pending = true ∧ _
    rw [update_self]
    exact ⟨hud, rfl, (h.batch t' hmem).2 hud⟩
  · exact hpop

lemma Inv.del (t : ℕ) : (s.step (.del t)).Inv := by
  rw [step]
  split
  · next hc =>
    obtain ⟨htaken, hud⟩ := hc
    -- The list does not hold the timer any more.
    obtain ⟨l, hl, hsub, hnot⟩ : ∃ l, (if (s.timers t).pending then s.pendingTimers.erase t
        else s.pendingTimers) = l ∧ l.Sublist s.pendingTimers ∧ t ∉ l := by
      split
      · exact ⟨_, rfl, erase_sublist, h.nodup.not_mem_erase⟩
      · next hpending => exact ⟨_, rfl, .refl _, fun hf ↦ hpending (h.pending t hf).2.1⟩
    have hless : Inv { s with pendingTimers := l } :=
      h.shrink rfl rfl rfl rfl (fun _ ↦ id) hsub fun _ ↦ .inl
    rw [hl]
    refine hless.write rfl rfl rfl rfl rfl rfl rfl ⟨fun hf ↦ ?_, nofun, nofun⟩
      (fun hf ↦ ⟨(h.batch t hf).1, nofun⟩) (fun hf ↦ absurd hf hnot)
      fun hf ↦ nomatch htaken.symm.trans hf
    nomatch hf.symm.trans ((h.timer t).used hud)
  · exact h

lemma Inv.take : (s.step .take).Inv := by
  rw [step]
  split
  · next t timers htaken hlist =>
    have hmem : t ∈ s.pendingTimers := by rw [hlist]; exact mem_cons_self
    have hnodup := h.nodup
    rw [hlist, nodup_cons] at hnodup
    have hpop : Inv { s with pendingTimers := timers, taken := some t } :=
      h.shrink rfl rfl rfl rfl (fun _ ↦ id) (by rw [hlist]; exact sublist_cons_self t timers)
        fun t' ht' ↦ .inr (Option.some.inj ht' ▸ hmem)
    have hx := h.timer t
    refine hpop.setTimer ⟨fun hf ↦ ?_, hx.value, hx.ticks⟩ rfl rfl fun hf ↦ absurd hf hnodup.1
    nomatch hf.symm.trans (hx.used (h.pending t hmem).1)
  · exact h

lemma Inv.fire : (s.step .fire).Inv := by
  rw [step]
  split
  · exact h
  next t htaken =>
  obtain ⟨hud, hpassed⟩ := h.taken t htaken
  have hx := h.timer t
  have hread := h.setTimer (t := t) (x := { s.timers t with ticks := 0 })
    ⟨fun hf ↦ by rw [hx.unused hf], hx.value, fun _ hf ↦ absurd rfl hf⟩ rfl rfl
    fun ht ↦ (h.pending t ht).2.1
  have hdone : Inv { s.setTimer t { s.timers t with ticks := 0 } with taken := none } :=
    hread.shrink rfl rfl rfl rfl (fun _ ↦ id) (List.Sublist.refl _) nofun
  dsimp only
  split
  · exact { hdone with onTime := forall_mem_cons.mpr ⟨hpassed, hdone.onTime⟩ }
  · exact hdone

lemma Inv.step {e : TimerEvent} (hok : s.Undisturbed e) : (s.step e).Inv := by
  cases e with
  | tick ns =>
    have hle : s.now ≤ s.now + ns := Nat.le_add_right _ _
    exact ⟨h.onTime, fun t ↦ ⟨(h.timer t).unused, (h.timer t).value,
        fun hud ht ↦ ((h.timer t).ticks hud ht).mono hle⟩,
      fun t ht ↦ ⟨(h.batch t ht).1, fun hud ↦ ((h.batch t ht).2 hud).mono hle⟩, h.nodup,
      fun t ht ↦ ⟨(h.pending t ht).1, (h.pending t ht).2.1, (h.pending t ht).2.2.mono hle⟩,
      fun t ht ↦ ⟨(h.taken t ht).1, (h.taken t ht).2.mono hle⟩⟩
  | expire t => exact h.expire t
  | collect events => exact h.collect events
  | notice => exact h.notice
  | add t ud absTime =>
    rw [Timers.step]
    split
    · next hc =>
      -- nothing is on its way from a record that has not been allocated
      have hused := Bool.eq_false_iff.mpr hc.2
      refine h.timerMod hok rfl (fun _ hf ↦ (nomatch hused.symm.trans (h.batch t hf).1))
        (fun _ hf ↦ ?_) hc.1
      nomatch hused.symm.trans ((h.timer t).used (h.pending t hf).1)
    · exact h
  | mod t ud absTime =>
    rw [Timers.step]
    split
    · next hc =>
      refine h.timerMod (fun hv ↦ (hok hv).1) ((h.timer t).used hc.2) (fun hv ↦ (hok hv).2.2)
        (fun hv hf ↦ ?_) hc.1
      nomatch (hok hv).2.1.symm.trans (h.pending t hf).2.1
    · exact h
  | del t => exact h.del t
  | take => exact h.take
  | fire => exact h.fire

end

/-- **Timers do not expire early**, nor after they have been deleted: in every run in which delays
are converted exactly and no timer is modified while an expiration of it is in the batch or in the
list, each call of `expire` is made when the delay that was set last has passed. -/
theorem calls_onTime (es : List TimerEvent) (h : Along step Undisturbed {} es) :
    Always step OnTime {} es :=
  fun _ hpre ↦ (((h.of_prefix hpre).inv fun _ _ hs he ↦ hs.step he) inv_init).onTime

instance (s : Timers) (e : TimerEvent) : Decidable (s.Undisturbed e) := by
  cases e <;> dsimp only [Undisturbed] <;> infer_instance

/-- A timer expires and its expiration goes all the way. -/
def expireZero : List TimerEvent := [.expire 0, .collect [0], .notice, .take, .fire]

/-- A timer of two seconds is set to five after one, and called after six. -/
theorem calls_onTime_modified :
    let es := [.add 0 ⟨2, 0, 0⟩ false, .tick (10 ^ 9), .mod 0 ⟨5, 0, 0⟩ false,
      .tick (5 * 10 ^ 9)] ++
      expireZero
    let s := run step {} es
    Along step Undisturbed {} es ∧ s.calls = [⟨0, 6 * 10 ^ 9, .since (6 * 10 ^ 9)⟩] ∧ s.OnTime := by
  intro es s
  have h : Along step Undisturbed {} es := by decide
  exact ⟨h, by rfl, (calls_onTime _ h).last⟩

/-- **Two early calls.** A timer of one second has expired and is in the list when it is set to ten
seconds: it is called at once. And a period of 500 milliseconds is over after half a millisecond.
-/
theorem modified_fires_early :
    let modified := [.add 0 ⟨1, 0, 0⟩ false, .tick (10 ^ 9), .expire 0, .collect [0], .notice,
      .mod 0 ⟨10, 0, 0⟩ false, .take, .fire]
    let periodic := [.add 0 ⟨0, 0, 500⟩ false, .tick 500000] ++ expireZero
    (run step {} modified).calls = [⟨0, 10 ^ 9, .since (11 * 10 ^ 9)⟩] ∧
      ¬ Always step OnTime {} modified ∧
      (run step {} periodic).calls = [⟨0, 500000, .since 500000000⟩] ∧
      ¬ Always step OnTime {} periodic := by
  refine ⟨by rfl, fun h ↦ ?_, by rfl, fun h ↦ ?_⟩
  · exact absurd (h.last ⟨0, 10 ^ 9, .since (11 * 10 ^ 9)⟩ mem_cons_self) (by decide)
  · exact absurd (h.last ⟨0, 500000, .since 500000000⟩ mem_cons_self) (by decide)

end Timers

end AccelPpp.Triton
