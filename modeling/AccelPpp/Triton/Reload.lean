import AccelPpp.Lib.Count
import AccelPpp.Lib.Run
import AccelPpp.Triton.Scheduler

/-!
# A reload and the contexts

The configuration is reloaded when no worker thread is active: by the last thread that goes to sleep
after the request, or by the caller if there is none. Until the reload has ended no context is taken
from a queue, and none is assigned to a sleeping thread. So the threads stay out of the contexts,
**provided that none has been assigned to a thread before**: a thread that `triton_queue_ctx` has
given a context is active only after it has woken up, and having woken up it runs the context
without looking at `need_config_reload`.
-/

namespace AccelPpp.Triton

open Transition Counting

namespace Sched

variable {s s' : Sched} {t c : ℕ}

/-- The callback of a reload is running, in a worker thread or in the caller. -/
def Reloading (s : Sched) : Prop := s.callerReloads ∨ ∃ t < s.n, (s.threads t).pc = .reload

/-- While the callback of a reload is running, no thread runs a context. -/
def Exclusive (s : Sched) : Prop := s.Reloading → ∀ t < s.n, (s.threads t).pc.running = false

/-- The step starts a reload. -/
def Starts (s : Sched) : Event → Prop
  | .confReload => s.need = .idle ∧ s.active = 0
  | .next t => t < s.n ∧ (s.threads t).pc = .top ∧ s.need = .requested ∧ s.active = 1
  | _ => False

/-- No thread has a context when a reload starts. -/
def Unassigned (s : Sched) (e : Event) : Prop := s.Starts e → ∀ t < s.n, (s.threads t).ctx = none

/-! ### The invariant -/

/-- The thread is out of the contexts, and stays out of them. -/
def Out (x : Thread) : Prop := x.ctx = none ∧ (x.pc = .top ∨ x.pc.sleeping)

/-- The active threads are counted; at most one of all is in `__config_reload`, and then all threads
are out of the contexts. -/
structure Quiet (s : Sched) : Prop where
  counted : s.active = Nat.count (fun t ↦ (s.threads t).pc.sleeping = false) s.n
  caller : s.callerReloads = true → s.need = .running ∧ ∀ t < s.n, (s.threads t).pc ≠ .reload
  thread : ∀ t < s.n, (s.threads t).pc = .reload → s.need = .running ∧
    ∀ t' < s.n, (s.threads t').pc = .reload → t' = t
  out : s.need = .running → ∀ t < s.n, Out (s.threads t)

lemma Quiet.exclusive (h : s.Quiet) : s.Exclusive := by
  intro hr t ht
  have hneed : s.need = .running := by
    rcases hr with hr | ⟨t', ht', hpc⟩
    · exact (h.caller hr).1
    · exact (h.thread t' ht' hpc).1
  rcases (h.out hneed t ht).2 with hpc | hpc
  · rw [hpc]
    rfl
  · revert hpc
    cases (s.threads t).pc <;> decide

/-- What a reload depends on is the same. -/
structure SameThreads (s s' : Sched) : Prop where
  n : s'.n = s.n
  active : s'.active = s.active
  need : s'.need = s.need
  caller : s'.callerReloads = s.callerReloads
  pc : ∀ t < s.n, (s'.threads t).pc = (s.threads t).pc
  ctx : ∀ t < s.n, (s'.threads t).ctx = (s.threads t).ctx

/-- The parts of the state it depends on. -/
def shared (s : Sched) := (s.n, s.active, s.need, s.callerReloads, s.threads)

lemma sameThreads_of_eq (h : s'.shared = s.shared) : SameThreads s s' := by
  simp only [shared, Prod.mk.injEq] at h
  obtain ⟨hn, ha, hneed, hc, ht⟩ := h
  exact ⟨hn, ha, hneed, hc, fun t _ ↦ by rw [ht], fun t _ ↦ by rw [ht]⟩

lemma sameThreads_unlink : SameThreads s (s.unlink c) := by
  unfold unlink
  split <;> exact sameThreads_of_eq rfl

lemma Quiet.congr (h : s.Quiet) (hs : SameThreads s s') : s'.Quiet where
  counted := by
    rw [hs.active, hs.n, h.counted]
    exact count_congr fun t ht ↦ by rw [hs.pc t ht]
  caller hc := by
    rw [hs.need, hs.n]
    refine ⟨(h.caller (hs.caller ▸ hc)).1, fun t ht ↦ ?_⟩
    rw [hs.pc t ht]
    exact (h.caller (hs.caller ▸ hc)).2 t ht
  thread t ht hpc := by
    rw [hs.n] at ht
    rw [hs.pc t ht] at hpc
    rw [hs.need, hs.n]
    refine ⟨(h.thread t ht hpc).1, fun t' ht' hpc' ↦ ?_⟩
    rw [hs.pc t' ht'] at hpc'
    exact (h.thread t ht hpc).2 t' ht' hpc'
  out hneed t ht := by
    rw [hs.n] at ht
    rw [Out, hs.ctx t ht, hs.pc t ht]
    exact h.out (hs.need ▸ hneed) t ht

lemma Quiet.same (h : s.Quiet) (hs : s'.shared = s.shared) : s'.Quiet :=
  h.congr (sameThreads_of_eq hs)

lemma sameThreads_signal {s : Sched} {t : ℕ} :
    SameThreads s (s.setThread t { s.threads t with signal := true }) := by
  refine ⟨rfl, rfl, rfl, rfl, fun t' _ ↦ ?_, fun t' _ ↦ ?_⟩ <;> by_cases htt : t' = t
  · rw [htt, setThread_self]
  · rw [setThread_of_ne htt]
  · rw [htt, setThread_self]
  · rw [setThread_of_ne htt]

/-- `1` for an active thread. -/
def tally (x : Thread) : ℕ := if x.pc.sleeping then 0 else 1

/-- The number of active threads. -/
abbrev awake (s : Sched) : ℕ :=
  Nat.count (fun t ↦ (s.threads t).pc.sleeping = false) s.n

lemma count_setThread {s : Sched} (ht : t < s.n) (x : Thread) :
    (s.setThread t x).awake + tally (s.threads t) = s.awake + tally x := by
  have hsame : (s.threads t).pc.sleeping = x.pc.sleeping → (s.setThread t x).awake = s.awake :=
    fun h ↦ count_congr fun t' _ ↦ by
      by_cases htt : t' = t
      · rw [htt, setThread_self, h]
      · rw [setThread_of_ne htt]
  rw [tally, tally]
  rcases hp : (s.threads t).pc.sleeping with _ | _ <;> rcases hq : x.pc.sleeping with _ | _
  · rw [hsame (hp.trans hq.symm)]
  · exact (count_raise ht (by rw [setThread_self, hq]; decide) hp fun t' ht' ↦ by
      rw [setThread_of_ne ht']).symm
  · exact count_raise ht (by rw [hp]; decide) (by rw [setThread_self, hq]) fun t' ht' ↦ by
      rw [setThread_of_ne ht']
  · rw [hsame (hp.trans hq.symm)]

/-- Where no reload is running. -/
lemma Quiet.of_ne (hneed : s.need ≠ .running) (hcaller : s.callerReloads = false)
    (hpc : ∀ t < s.n, (s.threads t).pc ≠ .reload) (hcounted : s.active = s.awake) : s.Quiet where
  counted := hcounted
  caller hf := nomatch hcaller.symm.trans hf
  thread t ht hf := absurd hf (hpc t ht)
  out hf := absurd hf hneed

section

variable (h : s.Quiet)

include h

section

variable (ht : t < s.n) (x : Thread) (hx : x.pc = .reload → (s.threads t).pc = .reload)
  (hout : s.need = .running → Out x)

include ht x hx hout

/-- **One thread goes on**, but not into `__config_reload`; it may begin or cease to be active. -/
theorem Quiet.setActive (a : ℕ) (ha : a + tally (s.threads t) = s.active + tally x) :
    Quiet { s.setThread t x with active := a } := by
  have hreload : ∀ t', ((s.setThread t x).threads t').pc = .reload →
      (s.threads t').pc = .reload := fun t' ht' ↦ by
    by_cases htt : t' = t
    · rw [htt, setThread_self] at ht'
      exact htt ▸ hx ht'
    · rwa [setThread_of_ne htt] at ht'
  refine ⟨?_, fun hc ↦ ⟨(h.caller hc).1, fun t' ht' hf ↦ ?_⟩, fun t' ht' hpc' ↦ ?_,
    fun hneed t' ht' ↦ ?_⟩
  · have := count_setThread ht x
    have hcounted : s.active = s.awake := h.counted
    show a = (s.setThread t x).awake
    omega
  · exact (h.caller hc).2 t' ht' (hreload t' hf)
  · obtain ⟨hneed, honly⟩ := h.thread t' ht' (hreload t' hpc')
    exact ⟨hneed, fun t'' ht'' hpc'' ↦ honly t'' ht'' (hreload t'' hpc'')⟩
  by_cases htt : t' = t
  · rw [htt, setThread_self]
    exact hout hneed
  · rw [setThread_of_ne htt]
    exact h.out hneed t' ht'

lemma Quiet.setThread (htally : x.pc.sleeping = (s.threads t).pc.sleeping) :
    (s.setThread t x).Quiet :=
  h.setActive ht x hx hout s.active (by rw [tally, tally, htally])

end

lemma Quiet.pc_ne_reload (hneed : s.need ≠ .running) (ht : t < s.n) :
    (s.threads t).pc ≠ .reload := fun hf ↦ hneed (h.thread t ht hf).1

lemma Quiet.need_ne (ht : t < s.n) (hctx : (s.threads t).ctx = some c) :
    s.need ≠ .running := fun hneed ↦ by
  rw [(h.out hneed t ht).1] at hctx
  nomatch hctx

/-! ### Steps -/

omit h in
lemma quiet_triton {n : ℕ} : (triton n).Quiet :=
  Quiet.of_ne NeedReload.noConfusion rfl (fun _ _ ↦ Pc.noConfusion) (Nat.count_true n).symm

/-- If no thread is active, all are asleep. -/
lemma Quiet.sleeping (hactive : s.active = 0) (ht : t < s.n) :
    (s.threads t).pc.sleeping = true := by
  by_contra hf
  have := Nat.count_strict_mono (p := fun t ↦ (s.threads t).pc.sleeping = false)
    (Bool.eq_false_iff.mpr hf) ht
  rw [← h.counted, hactive] at this
  exact Nat.not_lt_zero _ this

/-- A thread is given a context, or loses it. -/
lemma Quiet.setThreadCtx (hneed : s.need ≠ .running) (v : Option ℕ) :
    (s.setThread t { s.threads t with ctx := v }).Quiet := by
  by_cases ht : t < s.n
  · exact h.setThread ht { s.threads t with ctx := v } id (fun hf ↦ absurd hf hneed) rfl
  · have hother : ∀ t' < s.n, (s.setThread t { s.threads t with ctx := v }).threads t' =
        s.threads t' := fun t' ht' ↦ setThread_of_ne (by omega)
    exact h.congr ⟨rfl, rfl, rfl, rfl, fun t' ht' ↦ by rw [hother t' ht'],
      fun t' ht' ↦ by rw [hother t' ht']⟩

section

variable (ht : t < s.n)

include ht

lemma Quiet.active_pos (hpc : (s.threads t).pc.sleeping = false) : 0 < s.active := by
  refine Nat.pos_of_ne_zero fun hf ↦ ?_
  rw [h.sleeping hf ht] at hpc
  nomatch hpc

lemma Quiet.sleep (hpc : (s.threads t).pc = .top)
    (hstart : s.need = .requested → s.active = 1 → ∀ t' < s.n, (s.threads t').ctx = none) :
    (s.sleep t).Quiet := by
  have hawake : (s.threads t).pc.sleeping = false := by rw [hpc]; rfl
  have hpos := h.active_pos ht hawake
  have htally : ∀ x : Thread, x.pc.sleeping = true →
      s.active - 1 + tally (s.threads t) = s.active + tally x := fun x hx ↦ by
    rw [tally, hawake, tally, hx]
    show s.active - 1 + 1 = s.active
    omega
  have hsleep := h.setActive ht { s.threads t with pc := .sigwait } Pc.noConfusion
    (fun hneed ↦ ⟨(h.out hneed t ht).1, .inr rfl⟩) (s.active - 1) (htally _ rfl)
  rw [Sched.sleep]
  dsimp only
  split
  · next hlast =>
    -- The last one starts the reload: all others are asleep, and none has a context.
    have hall : ∀ t' < s.n, t' ≠ t → (s.threads t').pc.sleeping = true := fun t' ht' htt ↦ by
      rw [← setThread_of_ne htt]
      exact hsleep.sleeping hlast.1 ht'
    have hctx := hstart hlast.2 (by omega)
    have hneed : s.need ≠ .running := by rw [hlast.2]; decide
    have honly : ∀ t' < s.n, ((s.setThread t { s.threads t with pc := .reload }).threads t').pc =
        .reload → t' = t := fun t' ht' hpc' ↦ by
      by_contra htt
      rw [setThread_of_ne htt] at hpc'
      exact h.pc_ne_reload hneed ht' hpc'
    refine ⟨?_, fun hc ↦ absurd (h.caller hc).1 hneed, fun t' ht' hpc' ↦ ⟨rfl, fun t'' ht'' hpc'' ↦
      (honly t'' ht'' hpc'').trans (honly t' ht' hpc').symm⟩, fun _ t' ht' ↦ ?_⟩
    · have := count_setThread ht { s.threads t with pc := .reload }
      have hcounted : s.active = s.awake := h.counted
      have hmove := htally { s.threads t with pc := .reload } rfl
      show s.active - 1 = (s.setThread t { s.threads t with pc := .reload }).awake
      omega
    · by_cases htt : t' = t
      · rw [htt, setThread_self]
        exact ⟨hctx t ht, .inr rfl⟩
      · rw [setThread_of_ne htt]
        exact ⟨hctx t' ht', .inr (hall t' ht' htt)⟩
  · exact hsleep.same rfl

lemma Quiet.reloaded (hpc : (s.threads t).pc = .reload) :
    (s.reloaded.setThread t { s.threads t with pc := .sigwait, signal := true }).Quiet := by
  have hcaller : s.callerReloads = false := Bool.eq_false_iff.mpr fun hf ↦ (h.caller hf).2 t ht hpc
  have hsame : ∀ t' ≠ t, ((s.reloaded.setThread t
      { s.threads t with pc := .sigwait, signal := true }).threads t').pc = (s.threads t').pc :=
    fun t' htt ↦ by
      rw [setThread_of_ne htt]
      rfl
  refine Quiet.of_ne NeedReload.noConfusion hcaller (fun t' ht' hf ↦ ?_) ?_
  · by_cases htt : t' = t
    · rw [htt, setThread_self] at hf
      nomatch hf
    · rw [hsame t' htt] at hf
      exact htt ((h.thread t ht hpc).2 t' ht' hf)
  · refine h.counted.trans (count_congr fun t' _ ↦ ?_)
    by_cases htt : t' = t
    · rw [htt, setThread_self, hpc]
      rfl
    · rw [hsame t' htt]

lemma Quiet.take (hpc : (s.threads t).pc = .top)
    (hneed : s.need = .idle) : (s.take t c).Quiet := by
  have hset : ∀ pc : Pc, pc ≠ .reload → pc.sleeping = false →
      (s.setThread t { s.threads t with ctx := some c, pc := pc }).Quiet := fun pc hpc' hsleeping ↦
    h.setThread ht { s.threads t with ctx := some c, pc := pc } (fun hf ↦ absurd hf hpc')
      (hneed ▸ nofun) (by rw [hpc]; exact hsleeping)
  rw [Sched.take]
  split
  · exact (hset .resume Pc.noConfusion rfl).congr sameThreads_unlink
  · exact ((hset .loop Pc.noConfusion rfl).congr sameThreads_unlink).same rfl

section

variable (hctx : (s.threads t).ctx = some c)

include hctx

/-- A thread that has a context goes on with it. -/
lemma Quiet.goOn (x : Context) (y : Thread) (hy : y.pc.sleeping = false)
    (hpc : (s.threads t).pc.sleeping = false) : ((s.setCtx c x).setThread t y).Quiet := by
  have hset : (s.setThread t y).Quiet :=
    h.setThread ht y (fun hf ↦ by rw [hf] at hy; nomatch hy)
      (fun hf ↦ absurd hf (h.need_ne ht hctx)) (hy.trans hpc.symm)
  exact hset.same rfl

section

variable (hpc : (s.threads t).pc.sleeping = false)

include hpc

lemma Quiet.scheduleSection (back : Site) : (s.scheduleSection t c back).Quiet := by
  rw [Sched.scheduleSection]
  split
  · exact h.goOn ht hctx _ _ (by cases back <;> rfl) hpc
  split
  · exact h.same rfl
  · next t' _ =>
    have hneed := h.need_ne ht hctx
    have hlost : ((s.setCtx c { s.ctxs c with asleep := true }).setThread t'
        { s.threads t' with ctx := none }).Quiet :=
      (h.setThreadCtx hneed none).same rfl
    refine hlost.setThread ht _ Pc.noConfusion (fun hf ↦ absurd hf hneed) ?_
    by_cases htt : t = t'
    · rw [← htt, setThread_self]
      exact hpc.symm
    · rw [setThread_of_ne htt]
      exact hpc.symm

lemma Quiet.pick : (s.pick t c).Quiet := by
  rw [Sched.pick]
  split <;> exact h.goOn ht hctx _ _ rfl hpc

lemma Quiet.runCtx : (s.runCtx t c).Quiet := by
  rw [Sched.runCtx]
  split
  · split
    · exact h.pick ht hctx hpc
    · exact h
  · exact h.goOn ht hctx _ _ rfl hpc
  · split
    · exact h.goOn ht hctx _ _ (by split <;> rfl) hpc
    · exact h
  · split
    · exact h.goOn ht hctx _ _ rfl hpc
    · exact h
  · split <;> exact h.goOn ht hctx _ _ rfl hpc
  · exact h.setThread ht _ Pc.noConfusion (fun hf ↦ absurd hf (h.need_ne ht hctx)) hpc.symm
  · split
    · next back _ => exact h.scheduleSection ht hctx hpc back
    · exact h.same rfl
  · exact h

end

end

omit ht in
lemma Quiet.next (hok : s.Unassigned (.next t)) (ht : t < s.n) : (s.next t).Quiet := by
  rw [Sched.next]
  split
  · next _ hpc =>
    have hsleep := h.sleep ht hpc fun hneed hactive ↦ hok ⟨ht, hpc, hneed, hactive⟩
    split
    · next hneed _ => exact h.take ht hpc hneed
    · exact hsleep
  · next _ hpc => exact h.reloaded ht hpc
  · next _ hpc =>
    split
    · refine h.setThread ht _ Pc.noConfusion (fun hneed ↦ ⟨(h.out hneed t ht).1, .inr rfl⟩) ?_
      rw [hpc]
      rfl
    · exact h
  · next hpc hctx =>
    have hwake := h.setActive ht { s.threads t with pc := .top } Pc.noConfusion
      (fun _ ↦ ⟨hctx, .inl rfl⟩) (s.active + 1) (by rw [tally, hpc]; rfl)
    exact hwake.same rfl
  · next c hpc hctx =>
    exact h.setActive ht { s.threads t with pc := .loop } Pc.noConfusion
      (fun hf ↦ absurd hf (h.need_ne ht hctx)) (s.active + 1) (by rw [tally, hpc]; rfl)
  · next c hctx htop hreload hwait hwoken =>
    refine h.runCtx ht hctx ?_
    revert htop hreload hwait hwoken
    cases (s.threads t).pc <;> simp [Pc.sleeping]
  · exact h.same rfl

lemma Quiet.schedule : (s.schedule t).Quiet := by
  have hset : ∀ (c : ℕ) (x : Context), (s.setCtx c x).Quiet := fun c x ↦
    h.same rfl
  rw [Sched.schedule]
  split
  iterate 2
    next c hpc hctx =>
      refine (hset c _).scheduleSection ht hctx ?_ _
      show (s.threads t).pc.sleeping = _
      rw [hpc]
      rfl
  · exact h

end

lemma Quiet.queueCtx : (s.queueCtx c).1.Quiet := by
  have hset : (s.setCtx c { s.ctxs c with pending := true }).Quiet :=
    h.same rfl
  rw [Sched.queueCtx]
  split
  · exact hset
  split
  · next t ts hsleep hneed =>
    have hgiven := hset.setThreadCtx (t := t) (by rw [hneed]; exact NeedReload.noConfusion)
      (some c)
    exact hgiven.same rfl
  · exact hset.same rfl

lemma Quiet.act {e : Event} (hok : s.Unassigned e) : (s.act e).Quiet := by
  cases e <;> rw [Sched.act]
  case register c =>
    split
    · exact h
    · exact h.same rfl
  case setPriority c i | work c w | unlock c | cancel c w =>
    split
    · exact h.same rfl
    · exact h
  case unregister c =>
    split
    · exact h
    · split <;> exact h.same rfl
  case wakeup c =>
    split
    · exact h
    split
    · exact h.same rfl
    · rw [wakeupSection]
      dsimp only
      split
      · split
        · split <;> exact h.same rfl
        · exact h.same rfl
      · exact h.same rfl
  case start c =>
    split
    · exact h.same rfl
    · exact h
  case queue c =>
    split
    · exact h.queueCtx.same rfl
    · exact h
  case signal c =>
    split
    · split
      · next t _ =>
        exact (h.congr sameThreads_signal).same rfl
      · exact h.same rfl
    · exact h
  case confReload =>
    split
    · exact h
    next hneed =>
    have hidle : s.need = .idle := not_not.mp hneed
    have hrun : s.need ≠ .running := by rw [hidle]; exact NeedReload.noConfusion
    have hcaller : s.callerReloads = false :=
      Bool.eq_false_iff.mpr fun hf ↦ hrun (h.caller hf).1
    split
    · next hactive =>
      refine ⟨h.counted, fun _ ↦ ⟨rfl, fun t ht ↦ h.pc_ne_reload hrun ht⟩,
        fun t ht hf ↦ absurd hf (h.pc_ne_reload hrun ht), fun _ t ht ↦ ?_⟩
      exact ⟨hok ⟨hidle, hactive⟩ t ht, .inr (h.sleeping hactive ht)⟩
    · exact Quiet.of_ne NeedReload.noConfusion hcaller (fun t ht ↦ h.pc_ne_reload hrun ht) h.counted
  case confReloaded =>
    split
    · next hcaller =>
      exact Quiet.of_ne NeedReload.noConfusion rfl (h.caller hcaller).2 h.counted
    · exact h
  case next t =>
    split
    · next ht => exact h.next hok ht
    · exact h
  case schedule t =>
    split
    · next ht => exact h.schedule ht
    · exact h

lemma Quiet.step {e : Event} (hok : s.Unassigned e) : (s.step e).Quiet := by
  rw [Sched.step]
  split
  · exact h
  · exact h.act hok

end

/-- **A reload is exclusive** in every run, of any number of threads, in which no thread has a
context when a reload starts: none runs a context while the callback of the reload runs. -/
theorem reload_exclusive (n : ℕ) (es : List Event) (h : Along step Unassigned (triton n) es) :
    Always step Exclusive (triton n) es := by
  intro pre hpre
  exact Quiet.exclusive (((h.of_prefix hpre).inv fun _ _ hs he ↦ hs.step he) quiet_triton)

instance (s : Sched) : ∀ e, Decidable (s.Starts e)
  | .confReload => inferInstanceAs (Decidable (s.need = .idle ∧ s.active = 0))
  | .next t => inferInstanceAs
      (Decidable (t < s.n ∧ (s.threads t).pc = .top ∧ s.need = .requested ∧ s.active = 1))
  | .register _ | .setPriority _ _ | .unregister _ | .wakeup _ | .start _ | .work _ _ | .queue _
  | .unlock _ | .signal _ | .cancel _ _ | .confReloaded | .schedule _ => isFalse id

instance (s : Sched) (e : Event) : Decidable (s.Unassigned e) :=
  inferInstanceAs (Decidable (s.Starts e → ∀ t < s.n, (s.threads t).ctx = none))

/-- A context is registered and started, and a call is queued for it. -/
def callZero : List Event :=
  [.register 0, .wakeup 0, .start 0, .work 0 (.call 7), .queue 0, .unlock 0]

/-- The only thread is on its way to the queue when the reload is requested. It sleeps first and
does the reload, and then runs the call. -/
theorem reload_exclusive_queued :
    let es := callZero ++ [.confReload, .next 0]
    Along step Unassigned (triton 1) es ∧ (run step (triton 1) es).Reloading ∧
      Always step Exclusive (triton 1) es ∧
      ((run step (triton 1) (es ++ [.next 0, .next 0, .next 0, .next 0, .next 0])).threads 0).pc =
        .callback := by
  have h : Along step Unassigned (triton 1) (callZero ++ [.confReload, .next 0]) := by decide
  exact ⟨h, .inr ⟨0, by decide, by decide⟩, reload_exclusive 1 _ h, by decide⟩

/-- **A call during a reload.** The only thread is asleep and is given the context; before it wakes
up the reload starts, as no thread is active. The thread runs the call meanwhile. -/
theorem assigned_runs_in_reload :
    let es := [.next 0] ++ callZero ++ [.signal 0, .confReload, .next 0, .next 0, .next 0]
    let s := run step (triton 1) es
    s.callerReloads = true ∧ (s.threads 0).pc = .callback ∧ s.broken = false ∧
      ¬ Always step Exclusive (triton 1) es := by
  refine ⟨by decide, by decide, by decide, fun h ↦ ?_⟩
  have hrun := h.last (.inl (by decide)) 0 (by decide)
  revert hrun
  decide

end Sched

end AccelPpp.Triton
