import AccelPpp.Lib.Places
import AccelPpp.Lib.Run
import AccelPpp.Triton.Scheduler

/-!
# Contexts are run by one thread, and none is forgotten

A context is in one of four places (`Place`): free, and possibly queued; with a thread that runs it
or has been given it; suspended by `triton_context_schedule`; or about to be resumed. Work for a
context leaves its mark in `ctx->pending`, which a thread looks at before it lets go of the context,
or in the lock of the context, whose holder is about to queue it (`Settled`).

What may go wrong is that a suspended context is woken up twice. `triton_context_wakeup` links a
context into the list of its thread whenever `asleep` is set, also between being taken from the list
and resuming. If the context then suspends itself again, its thread takes it from the list, runs it
from the beginning and lets go of it. So the runs here are those without a second wakeup (`Single`).
-/

open List Option

namespace AccelPpp.Triton

open Function Transition

/-- The thread has a context and the context is not suspended. -/
def Pc.holding : Pc → Bool
  | .reload | .sigwait | .woken | .loop | .callback | .drained | .close | .left => true
  | _ => false

lemma Pc.running_or_sleeping {pc : Pc} (h : pc.holding = true) :
    pc.running = true ∨ pc.sleeping = true := by
  revert h
  cases pc <;> decide

/-- The parts of a context that say where it is. -/
structure SamePlace (x y : Context) : Prop where
  thread : y.thread = x.thread
  entry2 : y.entry2 = x.entry2
  asleep : y.asleep = x.asleep
  wakeup : y.wakeup = x.wakeup
  uc : y.uc = x.uc

/-- Work is not forgotten. -/
structure Settled (x : Context) : Prop where
  /-- A context that is registered is not to be freed. -/
  needFree : x.registered = true → x.needFree = false
  /-- One that has never been registered is as it was. -/
  blank : x.registered = false → x.needFree = false → x = {}
  /-- If `pending` is set, a thread has the context, it is queued, or is about to be. -/
  placed : x.registered = true → x.init = false → x.pending = true →
    x.thread ≠ none ∨ x.entry2 ≠ none ∨ x.lock = some .queueing
  /-- If there is work, `pending` is set or is about to be. -/
  pending : x.hasWork → x.pending = true ∨ x.lock = some .queueing

variable {x : Context}

/-- The lock of a context is given back. -/
lemma Settled.unlock (h : Settled x) {r : Bool}
    (hlock : x.lock = some (.returned r)) : Settled { x with lock := none } where
  needFree := h.needFree
  blank hr hf := by
    rw [h.blank hr hf] at hlock
    nomatch hlock
  placed hr hi hp := (h.placed hr hi hp).imp_right (Or.imp_right fun hf ↦ by
    rw [hlock] at hf
    nomatch hf)
  pending hw := (h.pending hw).imp_right fun hf ↦ by
    rw [hlock] at hf
    nomatch hf

variable {x y : Context}

/-- What a context that a thread has must meet. -/
lemma Settled.running {t : ℕ} (h : Settled x) (hx : x.thread = some t)
    (hy : y.thread = some t) (hwork : y.hasWork → y.pending = true ∨ y.lock = some .queueing)
    (hr : y.registered = x.registered) (hf : y.needFree = x.needFree) : Settled y where
  needFree hreg := hf.trans (h.needFree (hr ▸ hreg))
  blank hreg hfree := by
    have := h.blank (hr ▸ hreg) (hf ▸ hfree)
    rw [this] at hx
    nomatch hx
  placed _ _ _ := .inl (hy ▸ some_ne_none t)
  pending := hwork

variable {w : Work}

/-- Adding work to a context leaves it where it is. -/
lemma samePlace_add (h : x.add w = some y) :
    SamePlace x y ∧ y.registered = x.registered ∧ y.needFree = x.needFree := by
  cases w with
  | timer i | handler i =>
    rw [Context.add] at h
    split at h
    · nomatch h
    · obtain rfl := some.inj h
      exact ⟨⟨rfl, rfl, rfl, rfl, rfl⟩, rfl, rfl⟩
  | call i | close =>
    obtain rfl := some.inj h
    exact ⟨⟨rfl, rfl, rfl, rfl, rfl⟩, rfl, rfl⟩

lemma hasWork_of_cancel (h : (x.cancel w).hasWork) : x.hasWork := by
  cases w with
  | timer i =>
    refine h.imp_left fun hw hf ↦ hw ?_
    show x.pendingTimers.erase i = []
    rw [hf, erase_nil]
  | handler i =>
    refine h.imp_right (Or.imp_left fun hw hf ↦ hw ?_)
    show x.pendingHandlers.erase i = []
    rw [hf, erase_nil]
  | call i =>
    refine h.imp_right (Or.imp_right fun hw hf ↦ hw ?_)
    show x.pendingCalls.filter (· ≠ i) = []
    rw [hf, filter_nil]
  | close => exact h

lemma Settled.cancel (h : Settled x) (w : Work) : Settled (x.cancel w) where
  needFree := by cases w <;> exact h.needFree
  blank hr hf := by
    obtain rfl := h.blank (by cases w <;> exact hr) (by cases w <;> exact hf)
    cases w <;> rfl
  placed := by cases w <;> exact h.placed
  pending hw := by
    have := h.pending (hasWork_of_cancel hw)
    cases w <;> exact this

namespace Sched

variable {s s' : Sched} {t t' c c' : ℕ}

/-- Where a context is. -/
inductive Place (s : Sched) (c : ℕ) : Prop
  /-- No thread has it. It may be in one of the `ctx_queue[i]`. -/
  | free (hthread : (s.ctxs c).thread = none) (hasleep : (s.ctxs c).asleep = false)
    (hentry : ∀ t i, (s.ctxs c).entry2 ≠ some (.wakeupList t i))
  /-- A thread runs it or has been given it. -/
  | held (t : ℕ) (hthread : (s.ctxs c).thread = some t) (hasleep : (s.ctxs c).asleep = false)
    (hentry : (s.ctxs c).entry2 = none) (hctx : (s.threads t).ctx = some c)
    (hpc : (s.threads t).pc.holding = true)
  /-- It is suspended, and in the list of its thread if it has been woken up. -/
  | suspended (t : ℕ) (hthread : (s.ctxs c).thread = some t) (hasleep : (s.ctxs c).asleep = true)
    (hentry : if (s.ctxs c).wakeup then ∃ i, (s.ctxs c).entry2 = some (.wakeupList t i)
      else (s.ctxs c).entry2 = none)
    (huc : (s.ctxs c).uc ≠ none) (hctx : (s.threads t).ctx ≠ some c)
  /-- Its thread is about to resume it. -/
  | resuming (t : ℕ) (hthread : (s.ctxs c).thread = some t) (hasleep : (s.ctxs c).asleep = true)
    (hwakeup : (s.ctxs c).wakeup = true) (hentry : (s.ctxs c).entry2 = none)
    (huc : (s.ctxs c).uc ≠ none) (hctx : (s.threads t).ctx = some c)
    (hpc : (s.threads t).pc = .resume)

/-- A thread that has been given a context is signalled, or is going to be. -/
def Signalled (s : Sched) (t c : ℕ) : Prop :=
  (s.threads t).signal = true ∨ c ∈ s.signallers ∨ (s.ctxs c).lock = some (.returned true)

/-- What holds of one context and the threads that have it. -/
structure CtxOk (s : Sched) (c : ℕ) : Prop where
  owner : ∀ t, (s.threads t).ctx = some c → (s.threads t).pc ≠ .released →
    (s.ctxs c).thread = some t
  bound : ∀ t, (s.ctxs c).thread = some t → t < s.n
  place : s.Place c
  settled : Settled (s.ctxs c)
  starters : c ∈ s.starters → (s.ctxs c).registered = true ∨ (s.ctxs c).needFree = true
  signalled : ∀ t, (s.threads t).ctx = some c → (s.threads t).pc = .sigwait → s.Signalled t c

/-- The invariant. -/
structure Inv (s : Sched) : Prop where
  mem_iff : ∀ c l, c ∈ s.lists l ↔ (s.ctxs c).entry2 = some l
  nodup : ∀ l, (s.lists l).Nodup
  sleepers : s.sleepThreads.Nodup
  sleeper : ∀ t ∈ s.sleepThreads, t < s.n ∧ (s.threads t).ctx = none ∧
    (s.threads t).pc.sleeping = true
  top : ∀ t, (s.threads t).pc = .top → (s.threads t).ctx = none
  ctx : ∀ c, s.CtxOk c

lemma inv_triton {n : ℕ} : (triton n).Inv where
  mem_iff _ _ := iff_of_false nofun nofun
  nodup _ := nodup_nil
  sleepers := nodup_nil
  sleeper _ h := nomatch h
  top _ _ := rfl
  ctx _ := ⟨nofun, nofun, .free rfl rfl nofun,
    ⟨nofun, fun _ _ ↦ rfl, nofun, by rintro (h | h | h) <;> exact absurd rfl h⟩, nofun, nofun⟩

/-- A context stays where it is when its thread keeps its hands off it. -/
lemma Place.congr (h : s.Place c) (hc : SamePlace (s.ctxs c) (s'.ctxs c))
    (ht : ∀ t, (s.ctxs c).thread = some t →
      ((s'.threads t).ctx = some c ↔ (s.threads t).ctx = some c) ∧
        ((s.threads t).ctx = some c → (s'.threads t).pc = (s.threads t).pc)) : s'.Place c := by
  cases h with
  | free hthread hasleep hentry =>
    exact .free (hc.thread.trans hthread) (hc.asleep.trans hasleep) fun t i ↦
      hc.entry2 ▸ hentry t i
  | held t hthread hasleep hentry hctx hpc =>
    obtain ⟨hiff, hsame⟩ := ht t hthread
    exact .held t (hc.thread.trans hthread) (hc.asleep.trans hasleep) (hc.entry2.trans hentry)
      (hiff.mpr hctx) ((hsame hctx) ▸ hpc)
  | suspended t hthread hasleep hentry huc hctx =>
    refine .suspended t (hc.thread.trans hthread) (hc.asleep.trans hasleep) ?_ (hc.uc ▸ huc)
      fun hf ↦ hctx ((ht t hthread).1.mp hf)
    rw [hc.wakeup, hc.entry2]
    exact hentry
  | resuming t hthread hasleep hwakeup hentry huc hctx hpc =>
    obtain ⟨hiff, hsame⟩ := ht t hthread
    exact .resuming t (hc.thread.trans hthread) (hc.asleep.trans hasleep)
      (hc.wakeup.trans hwakeup) (hc.entry2.trans hentry) (hc.uc ▸ huc) (hiff.mpr hctx)
      ((hsame hctx).trans hpc)

/-- What a change of a context or of a thread leaves alone. -/
structure Frame (s s' : Sched) : Prop where
  n : s'.n = s.n := by rfl
  starters : ∀ c ∈ s'.starters, c ∈ s.starters := by exact fun _ ↦ id
  signallers : ∀ c ∈ s.signallers, c ∈ s'.signallers := by exact fun _ ↦ id

/-- A context is left alone, and so is the thread that has it. -/
lemma CtxOk.congr (h : s.CtxOk c) (hf : Frame s s') (hctx : s'.ctxs c = s.ctxs c)
    (hthreads : ∀ t, (s'.threads t).ctx = some c ∨
      (s.ctxs c).thread = some t ∧ (s.threads t).ctx = some c → s'.threads t = s.threads t) :
    s'.CtxOk c where
  owner t ht := by
    have hsame := hthreads t (.inl ht)
    rw [hsame] at ht ⊢
    rw [hctx]
    exact h.owner t ht
  bound := by rw [hctx, hf.n]; exact h.bound
  place := by
    refine h.place.congr (by rw [hctx]; exact ⟨rfl, rfl, rfl, rfl, rfl⟩) fun t hthread ↦ ?_
    refine ⟨⟨fun ht ↦ ?_, fun ht ↦ ?_⟩, fun ht ↦ ?_⟩
    · rwa [hthreads t (.inl ht)] at ht
    · rwa [hthreads t (.inr ⟨hthread, ht⟩)]
    · rw [hthreads t (.inr ⟨hthread, ht⟩)]
  settled := hctx ▸ h.settled
  starters hc := by rw [hctx]; exact h.starters (hf.starters c hc)
  signalled t ht hpc := by
    have hsame := hthreads t (.inl ht)
    rw [hsame] at ht hpc
    rw [Signalled, hsame, hctx]
    exact (h.signalled t ht hpc).imp_right (Or.imp_left (hf.signallers c))

/-- **Threads are signalled**, and nothing else happens to contexts and threads. -/
theorem Inv.signal (h : s.Inv)
    (hsig : ∀ t c, (s.threads t).ctx = some c → (s.threads t).pc = .sigwait → s.Signalled t c →
      s'.Signalled t c := by exact fun _ _ _ _ ↦ id)
    (hstarters : ∀ c ∈ s'.starters, c ∈ s.starters ∨ (s.ctxs c).registered = true := by
      exact fun _ ↦ .inl)
    (hpc : ∀ t, (s'.threads t).pc = (s.threads t).pc := by exact fun _ ↦ rfl)
    (hctx : ∀ t, (s'.threads t).ctx = (s.threads t).ctx := by exact fun _ ↦ rfl)
    (hctxs : s'.ctxs = s.ctxs := by rfl) (hn : s'.n = s.n := by rfl)
    (hlists : s'.lists = s.lists := by rfl)
    (hsleep : s'.sleepThreads = s.sleepThreads := by rfl) : s'.Inv where
  mem_iff := by rw [hlists, hctxs]; exact h.mem_iff
  nodup := hlists ▸ h.nodup
  sleepers := hsleep ▸ h.sleepers
  sleeper t ht := by rw [hn, hpc, hctx]; exact h.sleeper t (hsleep ▸ ht)
  top t := by rw [hpc, hctx]; exact h.top t
  ctx c :=
    { owner t := by rw [hpc, hctx, hctxs]; exact (h.ctx c).owner t
      bound := by rw [hctxs, hn]; exact (h.ctx c).bound
      place := (h.ctx c).place.congr (by rw [hctxs]; exact ⟨rfl, rfl, rfl, rfl, rfl⟩) fun t _ ↦ by
        rw [hpc, hctx]
        exact ⟨Iff.rfl, fun _ ↦ rfl⟩
      settled := hctxs ▸ (h.ctx c).settled
      starters hc := by rw [hctxs]; exact (hstarters c hc).elim (h.ctx c).starters .inl
      signalled t hc hp := by
        rw [hctx] at hc
        rw [hpc] at hp
        exact hsig t c hc hp ((h.ctx c).signalled t hc hp) }

variable {y : Context} {z : Thread} {l : Link}

lemma Inv.mem_update (h : s.Inv) (hentry : y.entry2 = (s.ctxs c).entry2) (c' : ℕ) (l : Link) :
    c' ∈ s.lists l ↔ (update s.ctxs c y c').entry2 = some l := by
  rw [h.mem_iff, update_apply]
  split
  · next hc' => rw [hc', hentry]
  · rfl

lemma place_free (hc : s.ctxs c = y) (hthread : y.thread = none) (hasleep : y.asleep = false)
    (hentry : ∀ t i, y.entry2 ≠ some (.wakeupList t i)) : s.Place c := by
  subst hc
  exact .free hthread hasleep hentry

section

variable (hc : s.ctxs c = y) (ht : s.threads t = z) (hthread : y.thread = some t)

include hc ht hthread

lemma place_held (hasleep : y.asleep = false) (hentry : y.entry2 = none) (hctx : z.ctx = some c)
    (hpc : z.pc.holding = true) : s.Place c := by
  subst hc ht
  exact .held t hthread hasleep hentry hctx hpc

lemma place_suspended (hasleep : y.asleep = true)
    (hentry : if y.wakeup then ∃ i, y.entry2 = some (.wakeupList t i) else y.entry2 = none)
    (huc : y.uc ≠ none) (hctx : z.ctx ≠ some c) : s.Place c := by
  subst hc ht
  exact .suspended t hthread hasleep hentry huc hctx

lemma place_resuming (hasleep : y.asleep = true) (hwakeup : y.wakeup = true)
    (hentry : y.entry2 = none) (huc : y.uc ≠ none) (hctx : z.ctx = some c) (hpc : z.pc = .resume) :
    s.Place c := by
  subst hc ht
  exact .resuming t hthread hasleep hwakeup hentry huc hctx hpc

end

/-- **One context changes**, but no thread does. -/
theorem Inv.relink (h : s.Inv) (hctxs : s'.ctxs = update s.ctxs c y)
    (hmem : ∀ c' l, c' ∈ s'.lists l ↔ (s'.ctxs c').entry2 = some l)
    (hnodup : ∀ l, (s'.lists l).Nodup) (hplace : s'.Place c) (hsettled : Settled y)
    (hlock : (s.ctxs c).lock = some (.returned true) →
      y.lock = some (.returned true) ∨ c ∈ s'.signallers := by exact .inl)
    (hf : Frame s s' := by exact {})
    (hreg : (s.ctxs c).registered = true ∨ (s.ctxs c).needFree = true →
      y.registered = true ∨ y.needFree = true := by exact id)
    (hthread : y.thread = (s.ctxs c).thread := by rfl)
    (hthreads : s'.threads = s.threads := by rfl)
    (hsleep : s'.sleepThreads = s.sleepThreads := by rfl) : s'.Inv := by
  have hself : s'.ctxs c = y := by rw [hctxs, update_self]
  refine ⟨hmem, hnodup, hsleep ▸ h.sleepers, ?_, hthreads ▸ h.top, fun c' ↦ ?_⟩
  · rw [hsleep, hf.n, hthreads]
    exact h.sleeper
  by_cases hc' : c' = c
  · rw [hc']
    refine ⟨fun t ↦ ?_, ?_, hplace, hself ▸ hsettled, fun hs ↦ ?_, fun t hctx hpc ↦ ?_⟩
    · rw [hself, hthread, hthreads]
      exact (h.ctx c).owner t
    · rw [hself, hthread, hf.n]
      exact (h.ctx c).bound
    · rw [hself]
      exact hreg ((h.ctx c).starters (hf.starters c hs))
    rw [hthreads] at hctx hpc
    rw [Signalled, hthreads, hself]
    rcases (h.ctx c).signalled t hctx hpc with hsig | hm | hl
    · exact .inl hsig
    · exact .inr (.inl (hf.signallers c hm))
    · exact .inr (hlock hl).symm
  · exact (h.ctx c').congr hf (by rw [hctxs, update_of_ne hc']) fun _ _ ↦ by rw [hthreads]

/-- **One context changes**, but stays where it is. -/
theorem Inv.setCtx (h : s.Inv) (hctxs : s'.ctxs = update s.ctxs c y) (hsettled : Settled y)
    (hlock : (s.ctxs c).lock = some (.returned true) →
      y.lock = some (.returned true) ∨ c ∈ s'.signallers := by exact .inl)
    (hreg : (s.ctxs c).registered = true ∨ (s.ctxs c).needFree = true →
      y.registered = true ∨ y.needFree = true := by exact id)
    (hsame : SamePlace (s.ctxs c) y := by exact ⟨rfl, rfl, rfl, rfl, rfl⟩)
    (hf : Frame s s' := by exact {}) (hthreads : s'.threads = s.threads := by rfl)
    (hlists : s'.lists = s.lists := by rfl)
    (hsleep : s'.sleepThreads = s.sleepThreads := by rfl) : s'.Inv := by
  refine h.relink hctxs ?_ (hlists ▸ h.nodup) ?_ hsettled hlock hf hreg hsame.thread hthreads hsleep
  · rw [hlists, hctxs]
    exact h.mem_update hsame.entry2
  refine (h.ctx c).place.congr ?_ fun t _ ↦ ?_
  · rw [hctxs, update_self]
    exact hsame
  · rw [hthreads]
    exact ⟨Iff.rfl, fun _ ↦ rfl⟩

/-- **One thread changes**: what holds of the sleeping threads and of those at the top. -/
theorem Inv.threads (h : s.Inv) (hthreads : s'.threads = update s.threads t z) (hn : s'.n = s.n)
    (hsleep : t ∈ s'.sleepThreads → t < s.n ∧ z.ctx = none ∧ z.pc.sleeping = true)
    (hsleeper : ∀ t' ∈ s'.sleepThreads, t' ≠ t → t' ∈ s.sleepThreads)
    (htop : z.pc = .top → z.ctx = none) :
    (∀ t' ∈ s'.sleepThreads, t' < s'.n ∧ (s'.threads t').ctx = none ∧
      (s'.threads t').pc.sleeping = true) ∧
    ∀ t', (s'.threads t').pc = .top → (s'.threads t').ctx = none := by
  rw [hthreads, hn]
  exact ⟨(forall_update_iff s.threads fun t z ↦ t ∈ s'.sleepThreads →
      t < s.n ∧ z.ctx = none ∧ z.pc.sleeping = true).mpr
        ⟨hsleep, fun t' hne hm ↦ h.sleeper t' (hsleeper t' hm hne)⟩,
    Places.forall_update s.threads (fun _ z ↦ z.pc = .top → z.ctx = none) htop h.top⟩

/-- **One context and one thread change.** The thread has had no other context, and gets no other;
and no other thread has had this context. -/
theorem Inv.move (h : s.Inv) (hctxs : s'.ctxs = update s.ctxs c y)
    (hthreads : s'.threads = update s.threads t z)
    (hbefore : (s.threads t).ctx = none ∨ (s.threads t).ctx = some c)
    (hthread : (s.ctxs c).thread = none ∨ (s.ctxs c).thread = some t)
    (hafter : z.ctx = none ∨ z.ctx = some c)
    (hmem : ∀ c' l, c' ∈ s'.lists l ↔ (s'.ctxs c').entry2 = some l)
    (hnodup : ∀ l, (s'.lists l).Nodup) (hsleepers : s'.sleepThreads.Nodup)
    (hsleep : t ∉ s'.sleepThreads) (htop : z.pc = .top → z.ctx = none)
    (howner : z.ctx = some c → z.pc ≠ .released → y.thread = some t)
    (hbound : ∀ t', y.thread = some t' → t' < s.n) (hplace : s'.Place c) (hsettled : Settled y)
    (hsig : z.ctx = some c → z.pc = .sigwait → s'.Signalled t c)
    (hreg : y.registered = (s.ctxs c).registered ∧ y.needFree = (s.ctxs c).needFree := by
      exact ⟨rfl, rfl⟩)
    (hsleeper : ∀ t' ∈ s'.sleepThreads, t' ≠ t → t' ∈ s.sleepThreads := by exact fun _ hm _ ↦ hm)
    (hf : Frame s s' := by exact {}) : s'.Inv := by
  have hself : s'.ctxs c = y := by rw [hctxs, update_self]
  have htself : s'.threads t = z := by rw [hthreads, update_self]
  have htother : ∀ t' ≠ t, s'.threads t' = s.threads t' := fun t' ht' ↦ by
    rw [hthreads, update_of_ne ht']
  -- Nobody but `t` can have had `c`.
  have honly : ∀ t' ≠ t, (s.threads t').ctx = some c → (s.threads t').pc = .released :=
    fun t' ht' hctx ↦ by
      by_contra hpc
      have := (h.ctx c).owner t' hctx hpc
      rcases hthread with hnone | hsome
      · nomatch hnone.symm.trans this
      · exact ht' (mem_unique this hsome)
  obtain ⟨hasleep, htops⟩ := h.threads hthreads hf.n (fun hm ↦ absurd hm hsleep) hsleeper htop
  refine ⟨hmem, hnodup, hsleepers, hasleep, htops, fun c' ↦ ?_⟩
  by_cases hc' : c' = c
  · rw [hc']
    refine ⟨fun t' hctx hpc ↦ ?_, ?_, hplace, hself ▸ hsettled, fun hs ↦ ?_, fun t' hctx hpc ↦ ?_⟩
    · by_cases ht' : t' = t
      · rw [ht', htself] at hctx hpc
        rw [hself, ht']
        exact howner hctx hpc
      · rw [htother t' ht'] at hctx hpc
        exact absurd (honly t' ht' hctx) hpc
    · rw [hself, hf.n]
      exact hbound
    · rw [hself, hreg.1, hreg.2]
      exact (h.ctx c).starters (hf.starters c hs)
    · by_cases ht' : t' = t
      · rw [ht', htself] at hctx hpc
        exact ht' ▸ hsig hctx hpc
      · rw [htother t' ht'] at hctx hpc
        nomatch hpc.symm.trans (honly t' ht' hctx)
  · refine (h.ctx c').congr hf (by rw [hctxs, update_of_ne hc']) fun t' hctx ↦ ?_
    by_cases ht' : t' = t
    · rw [ht', htself] at hctx
      rcases hctx with hz | ⟨-, hz⟩
      · rcases hafter with ha | ha
        · nomatch ha.symm.trans hz
        · exact absurd (mem_unique hz ha) hc'
      · rcases hbefore with hb | hb
        · nomatch hb.symm.trans hz
        · exact absurd (mem_unique hz hb) hc'
    · exact htother t' ht'

/-- A thread runs a context or has been given it. -/
structure Held (s : Sched) (t c : ℕ) : Prop where
  thread : (s.ctxs c).thread = some t
  asleep : (s.ctxs c).asleep = false
  entry2 : (s.ctxs c).entry2 = none

section

variable (h : s.Inv)

include h

lemma Inv.not_sleeper_of_top (hpc : (s.threads t).pc = .top) :
    t ∉ s.sleepThreads := fun hf ↦ by
  have := (h.sleeper t hf).2.2
  rw [hpc] at this
  nomatch this

section

variable (hctx : (s.threads t).ctx = some c)

include hctx

/-- A context whose thread has it is run, or is about to be resumed. -/
lemma Inv.held_or_resuming (hthread : (s.ctxs c).thread = some t) :
    (s.threads t).pc.holding = true ∧ s.Held t c ∨
      (s.threads t).pc = .resume ∧ (s.ctxs c).wakeup = true ∧ (s.ctxs c).entry2 = none := by
  cases (h.ctx c).place with
  | free hf => nomatch hf.symm.trans hthread
  | held t' hthread' hasleep hentry _ hpc =>
    obtain rfl := mem_unique hthread' hthread
    exact .inl ⟨hpc, hthread, hasleep, hentry⟩
  | suspended t' hthread' _ _ _ hctx' =>
    obtain rfl := mem_unique hthread' hthread
    exact absurd hctx hctx'
  | resuming t' hthread' _ hwakeup hentry _ _ hpc =>
    obtain rfl := mem_unique hthread' hthread
    exact .inr ⟨hpc, hwakeup, hentry⟩

lemma Inv.held_of_ctx (hpc : (s.threads t).pc.holding = true) : s.Held t c := by
  have hthread := (h.ctx c).owner t hctx fun hf ↦ by rw [hf] at hpc; nomatch hpc
  rcases h.held_or_resuming hctx hthread with ⟨-, hheld⟩ | ⟨hf, -⟩
  · exact hheld
  · rw [hf] at hpc
    nomatch hpc

/-- A thread with a context is not among the sleeping ones. -/
lemma Inv.not_sleeper : t ∉ s.sleepThreads :=
  fun hf ↦ nomatch hctx.symm.trans (h.sleeper t hf).2.1

omit hctx in
/-- **One thread changes**, but keeps the context it has, unless it has let go of it before. -/
theorem Inv.setThread (hthreads : s'.threads = update s.threads t z)
    (hctx : z.ctx = (s.threads t).ctx ∨ (z.ctx = none ∧ (s.threads t).pc = .released))
    (hpc : z.ctx ≠ none → (s.threads t).pc.holding = true ∧ z.pc.holding = true)
    (hsleepers : s'.sleepThreads.Nodup)
    (hsleep : t ∈ s'.sleepThreads → t < s.n ∧ z.ctx = none ∧ z.pc.sleeping = true)
    (htop : z.pc = .top → z.ctx = none)
    (hsig : ∀ c, z.ctx = some c → z.pc = .sigwait → s'.Signalled t c)
    (hsleeper : ∀ t' ∈ s'.sleepThreads, t' ≠ t → t' ∈ s.sleepThreads := by exact fun _ hm _ ↦ hm)
    (hctxs : s'.ctxs = s.ctxs := by rfl) (hlists : s'.lists = s.lists := by rfl)
    (hf : Frame s s' := by exact {}) : s'.Inv := by
  have hmem : ∀ c l, c ∈ s'.lists l ↔ (s'.ctxs c).entry2 = some l := by
    rw [hlists, hctxs]
    exact h.mem_iff
  cases hz : z.ctx with
  | some c =>
    -- It is the context the thread had before.
    obtain ⟨hold, hnew⟩ := hpc (by rw [hz]; exact some_ne_none c)
    have hbefore : (s.threads t).ctx = some c := by
      rcases hctx with hctx | ⟨hnone, -⟩
      · exact hctx ▸ hz
      · nomatch hnone.symm.trans hz
    have hheld := h.held_of_ctx hbefore hold
    refine h.move (by rw [hctxs, update_eq_self]) hthreads (.inr hbefore)
      (.inr hheld.thread) (.inr hz) hmem (hlists ▸ h.nodup) hsleepers
      (fun hm ↦ nomatch hz.symm.trans (hsleep hm).2.1) htop (fun _ _ ↦ hheld.thread)
      (h.ctx c).bound ?_ (h.ctx c).settled (hsig c) ⟨rfl, rfl⟩ hsleeper hf
    exact place_held (congrFun hctxs c) (by rw [hthreads, update_self]) hheld.thread hheld.asleep
      hheld.entry2 hz hnew
  | none =>
    obtain ⟨hasleep, htops⟩ := h.threads hthreads hf.n hsleep hsleeper htop
    refine ⟨hmem, hlists ▸ h.nodup, hsleepers, hasleep, htops, fun c ↦
      (h.ctx c).congr hf (by rw [hctxs]) fun t' hctx' ↦ ?_⟩
    by_cases ht' : t' = t
    · rw [ht', hthreads, update_self, hz] at hctx'
      obtain ⟨hthread, hc⟩ := hctx'.resolve_left nofun
      rcases hctx with hctx | ⟨-, hreleased⟩
      · nomatch hz.symm.trans (hctx.trans hc)
      · -- a thread that has let go of a context is not the context's any more
        rcases h.held_or_resuming hc hthread with ⟨hf, -⟩ | ⟨hf, -⟩
        · rw [hreleased] at hf
          nomatch hf
        · nomatch hreleased.symm.trans hf
    · rw [hthreads, update_of_ne ht']

/-- A thread has a context, and runs it from now on. -/
lemma Inv.hold (hthread : (s.ctxs c).thread = some t) (hentry : (s.ctxs c).entry2 = none)
    (hpc : z.pc.holding = true) (hwait : z.pc.sleeping = false) (hsettled : Settled y)
    (hy : y.asleep = false) (hz : z.ctx = (s.threads t).ctx)
    (hthread' : y.thread = (s.ctxs c).thread) (hentry' : y.entry2 = (s.ctxs c).entry2)
    (hreg : y.registered = (s.ctxs c).registered ∧ y.needFree = (s.ctxs c).needFree) :
    ((s.setCtx c y).setThread t z).Inv := by
  have hown := hthread'.trans hthread
  refine h.move rfl rfl (.inr hctx) (.inr hthread) (.inr (hz.trans hctx)) (h.mem_update hentry')
    h.nodup h.sleepers (h.not_sleeper hctx) (fun hf ↦ ?_) (fun _ _ ↦ hown)
    (fun t' ht' ↦ (h.ctx c).bound t' (hthread'.symm.trans ht')) ?_ hsettled (fun _ hf ↦ ?_) hreg
  · rw [hf] at hpc
    nomatch hpc
  · exact place_held setCtx_self setThread_self hown hy (hentry'.trans hentry) (hz.trans hctx) hpc
  · rw [hf] at hwait
    nomatch hwait

/-- A thread goes on with the context it runs, and the context stays with it. -/
lemma Inv.goOn
    (hpc : (s.threads t).pc.holding = true) (pc : Pc) (hsettled : Settled y)
    (hpc' : pc.holding = true := by rfl) (hwait : pc.sleeping = false := by rfl)
    (hsame : SamePlace (s.ctxs c) y := by exact ⟨rfl, rfl, rfl, rfl, rfl⟩)
    (hreg : y.registered = (s.ctxs c).registered ∧ y.needFree = (s.ctxs c).needFree := by
      exact ⟨rfl, rfl⟩) :
    ((s.setCtx c y).setThread t { s.threads t with pc := pc }).Inv := by
  have hheld := h.held_of_ctx hctx hpc
  exact h.hold hctx hheld.thread hheld.entry2 hpc' hwait hsettled (hsame.asleep.trans hheld.asleep)
    rfl hsame.thread hsame.entry2 hreg

/-! ### The steps of a thread -/

lemma Inv.pick (hpc : (s.threads t).pc = .loop)
    (hlock : (s.ctxs c).lock = none) : (s.pick t c).Inv := by
  have hholding : (s.threads t).pc.holding = true := by rw [hpc]; rfl
  have hthread := (h.held_of_ctx hctx hholding).thread
  have hs := (h.ctx c).settled
  have hpending : (s.ctxs c).hasWork → (s.ctxs c).pending = true := fun hw ↦
    (hs.pending hw).resolve_right fun hf ↦ nomatch hlock.symm.trans hf
  rw [Sched.pick]
  split
  iterate 3
    · have hp := hpending (by simp [Context.hasWork, *])
      exact h.goOn hctx hholding .callback (hs.running hthread hthread (fun _ ↦ .inl hp) rfl rfl)
  next htimers hhandlers hcalls =>
  -- `pending` is cleared, and there is nothing left.
  refine h.goOn hctx hholding .drained (hs.running hthread hthread (fun hw ↦ ?_) rfl rfl)
  rcases hw with hw | hw | hw
  · exact absurd htimers hw
  · exact absurd hhandlers hw
  · exact absurd hcalls hw

/-- A thread lets go of its context. -/
lemma Inv.release (hpc : (s.threads t).pc = .left)
    (hdone : ¬ (s.ctxs c).pending = true ∨ (s.ctxs c).needFree = true) :
    ((s.setCtx c { s.ctxs c with thread := none }).setThread t
      { s.threads t with pc := .released }).Inv := by
  have hholding : (s.threads t).pc.holding = true := by rw [hpc]; rfl
  have hheld := h.held_of_ctx hctx hholding
  have hs := (h.ctx c).settled
  refine h.move rfl rfl (.inr hctx) (.inr hheld.thread) (.inr hctx) (h.mem_update rfl) h.nodup
    h.sleepers (h.not_sleeper hctx) Pc.noConfusion (fun _ hf ↦ absurd rfl hf)
    nofun ?_ ?_ fun _ ↦ Pc.noConfusion
  · refine place_free setCtx_self rfl hheld.asleep fun t' i hf ↦ ?_
    nomatch hheld.entry2.symm.trans hf
  refine ⟨hs.needFree, fun hr hf ↦ ?_, fun hr _ hp ↦ ?_, hs.pending⟩
  · have := hheld.thread
    rw [hs.blank hr hf] at this
    nomatch this
  · rcases hdone with hd | hd
    · exact absurd hp hd
    · nomatch (hs.needFree hr).symm.trans hd

end

/-- A thread is running a context. -/
def Runs (s : Sched) (t c : ℕ) : Prop :=
  t < s.n ∧ (s.threads t).ctx = some c ∧ (s.threads t).pc.running = true

instance (s : Sched) (t c : ℕ) : Decidable (s.Runs t c) :=
  inferInstanceAs (Decidable (_ ∧ _ ∧ _))

lemma Inv.fault : s.fault.Inv := h.signal

section

variable (hctx : (s.threads t).ctx = some c)

include hctx

/-- A thread resumes a context. -/
lemma Inv.resume
    (hpc : (s.threads t).pc = .resume) (back : Site) : (s.scheduleSection t c back).Inv := by
  have hthread := (h.ctx c).owner t hctx (by rw [hpc]; exact Pc.noConfusion)
  have hback : back.pc.holding = true ∧ back.pc.sleeping = false := by
    cases back <;> decide
  rcases h.held_or_resuming hctx hthread with ⟨hf, -⟩ | ⟨-, hwakeup, hentry⟩
  · rw [hpc] at hf
    nomatch hf
  rw [scheduleSection]
  rw [if_pos hwakeup]
  have hs := (h.ctx c).settled
  exact h.hold hctx hthread hentry hback.1 hback.2
    (hs.running hthread hthread hs.pending rfl rfl) rfl rfl rfl rfl ⟨rfl, rfl⟩

/-- A callback calls `triton_context_schedule`. -/
lemma Inv.suspend {site : Site} (hpc : (s.threads t).pc = site.pc) :
    ((s.setCtx c { s.ctxs c with uc := some site }).scheduleSection t c site).Inv := by
  have hsite : site.pc.holding = true ∧ site.pc.sleeping = false := by
    cases site <;> decide
  have hheld := h.held_of_ctx hctx (hpc ▸ hsite.1)
  rw [scheduleSection]
  rw [setCtx_self, setCtx_setCtx]
  split
  · have hs := (h.ctx c).settled
    exact h.hold hctx hheld.thread hheld.entry2 hsite.1 hsite.2
      (hs.running hheld.thread hheld.thread hs.pending rfl rfl) rfl rfl rfl rfl ⟨rfl, rfl⟩
  · next hwakeup =>
    rw [hheld.thread]
    dsimp only
    rw [setCtx_setCtx, setThread_self, setThread_setThread]
    refine h.move rfl rfl (.inr hctx) (.inr hheld.thread) (.inl rfl) (h.mem_update rfl) h.nodup
      h.sleepers (h.not_sleeper hctx) (fun _ ↦ rfl) nofun
      (fun t' ht' ↦ (h.ctx c).bound t' (hheld.thread.trans ht')) ?_
      ((h.ctx c).settled.running hheld.thread rfl (h.ctx c).settled.pending rfl rfl) nofun
    refine place_suspended setCtx_self setThread_self rfl rfl ?_ (some_ne_none site) nofun
    rw [if_neg hwakeup]
    exact hheld.entry2

lemma Inv.runCtx : (s.runCtx t c).Inv := by
  have hs := (h.ctx c).settled
  rw [Sched.runCtx]
  split
  · next hpc =>
    split
    · next hlock => exact h.pick hctx hpc hlock
    · exact h
  · next hpc => exact h.goOn hctx (by rw [hpc]; rfl) .loop hs
  · next hpc =>
    split
    · split
      · exact h.goOn hctx (by rw [hpc]; rfl) .close hs
      · exact h.goOn hctx (by rw [hpc]; rfl) .left hs
    · exact h
  · next hpc =>
    split
    · have hholding : (s.threads t).pc.holding = true := by rw [hpc]; rfl
      have hthread := (h.held_of_ctx hctx hholding).thread
      exact h.goOn hctx hholding .left (hs.running hthread hthread hs.pending rfl rfl)
    · exact h
  · next hpc =>
    split
    · next hdone => exact h.release hctx hpc hdone
    · exact h.goOn hctx (by rw [hpc]; rfl) .loop hs
  · next hpc =>
    exact h.setThread rfl (.inr ⟨rfl, hpc⟩) (fun hf ↦ absurd rfl hf) h.sleepers
      (fun hf ↦ absurd hf (h.not_sleeper hctx)) (fun _ ↦ rfl) nofun
  · next hpc =>
    split
    · exact h.resume hctx hpc _
    · exact h.fault
  · exact h

end

end

/-- What `check_ctx_queue_empty` finds is in a list. -/
lemma mem_of_check (h : s.checkCtxQueueEmpty t = some c) :
    ∃ i, c ∈ s.lists (.wakeupList t i) ∨ c ∈ s.lists (.ctxQueue i) := by
  obtain ⟨i, -, hi⟩ := exists_of_findSome?_eq_some h
  refine ⟨i, ?_⟩
  split at hi
  · next hl =>
    obtain rfl := some.inj hi
    exact .inl (by rw [hl]; exact mem_cons_self)
  · exact .inr (mem_of_head? hi)

section

variable (h : s.Inv)

include h

/-- The lists when a context is taken out. -/
lemma Inv.mem_unlink (hl : (s.ctxs c).entry2 = some l) (hy : y.entry2 = none) (c' : ℕ)
    (l' : Link) :
    c' ∈ update s.lists l ((s.lists l).erase c) l' ↔ (update s.ctxs c y c').entry2 = some l' := by
  rw [update_apply s.ctxs]
  obtain rfl | hl' := eq_or_ne l' l
  · rw [update_self, (h.nodup l').mem_erase_iff, h.mem_iff]
    split <;> simp [*]
  · rw [update_of_ne hl', h.mem_iff]
    split <;> simp [*, hl'.symm]

lemma Inv.nodup_unlink (l : Link) : ∀ l', (update s.lists l ((s.lists l).erase c) l').Nodup :=
  Places.forall_update s.lists (fun _ l ↦ l.Nodup) ((h.nodup l).erase c) h.nodup

/-- **A context is taken from a list.** One from `ctx_queue` is free and one from `wakeup_list` is
suspended, so the thread starts the former and resumes the latter. -/
theorem Inv.take (ht : t < s.n) (hpc : (s.threads t).pc = .top)
    (hc : s.checkCtxQueueEmpty t = some c) : (s.take t c).Inv := by
  have hnone := h.top t hpc
  have hsleep := h.not_sleeper_of_top hpc
  have hs := (h.ctx c).settled
  obtain ⟨i, hi⟩ := mem_of_check hc
  rw [h.mem_iff, h.mem_iff] at hi
  cases (h.ctx c).place with
  | free hthread hasleep hentry =>
    have hl := hi.resolve_left (hentry t i)
    simp only [Sched.take, hasleep, Bool.false_eq_true, false_and, if_false, unlink,
      Sched.setThread, hl, Sched.setCtx, update_self, update_idem]
    refine h.move rfl rfl (.inl hnone) (.inl hthread) (.inr rfl) (h.mem_unlink hl rfl)
      (h.nodup_unlink _) h.sleepers hsleep Pc.noConfusion (fun _ _ ↦ rfl)
      (fun t' ht' ↦ some.inj ht' ▸ ht) ?_ ?_ fun _ ↦ Pc.noConfusion
    · exact place_held (update_self ..) (update_self ..) rfl rfl rfl rfl rfl
    · refine ⟨hs.needFree, fun hr hf ↦ ?_, fun _ _ _ ↦ .inl (some_ne_none t), hs.pending⟩
      rw [hs.blank hr hf] at hl
      cases hl
  | held t' _ _ hentry | resuming t' _ _ _ hentry =>
    rcases hi with hi | hi <;> cases hentry.symm.trans hi
  | suspended t' hthread hasleep hentry huc hctx =>
    have hwakeup : (s.ctxs c).wakeup = true := by
      by_contra hf
      rw [if_neg hf] at hentry
      rcases hi with hi | hi <;> cases hentry.symm.trans hi
    rw [if_pos hwakeup] at hentry
    obtain ⟨j, hj⟩ := hentry
    obtain rfl : t' = t := by
      rcases hi with hi | hi
      · cases hj.symm.trans hi
        rfl
      · cases hj.symm.trans hi
    simp only [Sched.take, hasleep, hwakeup, and_self, if_true, unlink, Sched.setThread, hj]
    refine h.move rfl rfl (.inl hnone) (.inr hthread) (.inr rfl) (h.mem_unlink hj rfl)
      (h.nodup_unlink _) h.sleepers hsleep Pc.noConfusion (fun _ _ ↦ hthread) (h.ctx c).bound ?_
      (hs.running hthread hthread hs.pending rfl rfl) fun _ ↦ Pc.noConfusion
    exact place_resuming setCtx_self setThread_self hthread rfl rfl rfl huc rfl rfl

lemma Inv.sleep (ht : t < s.n) (hpc : (s.threads t).pc = .top) : (s.sleep t).Inv := by
  have hnone := h.top t hpc
  have hnodup := nodup_cons.mpr ⟨h.not_sleeper_of_top hpc, h.sleepers⟩
  rw [Sched.sleep]
  split
  all_goals
    exact h.setThread rfl (.inl rfl) (fun hf ↦ absurd hnone hf) hnodup
      (fun _ ↦ ⟨ht, hnone, rfl⟩) Pc.noConfusion (fun c hf ↦ nomatch hnone.symm.trans hf)
      fun t' ht' hne ↦ (mem_cons.mp ht').resolve_left hne

/-- The end of `__config_reload`. -/
lemma Inv.reloaded : s.reloaded.Inv :=
  h.signal (fun _ _ _ _ _ ↦ .inl rfl) (fun _ ↦ .inl) (fun _ ↦ rfl) (fun _ ↦ rfl) rfl rfl rfl rfl

lemma Inv.next (ht : t < s.n) : (s.next t).Inv := by
  rw [Sched.next]
  split
  · next _ hpc =>
    split
    · next _ hc => exact h.take ht hpc hc
    · exact h.sleep ht hpc
  · next _ hpc =>
    have hpc' : (s.reloaded.threads t).pc = .reload := hpc
    refine h.reloaded.setThread rfl (.inl rfl) (fun _ ↦ ⟨by rw [hpc']; rfl, rfl⟩) h.sleepers
      (fun hm ↦ ⟨ht, (h.sleeper t hm).2.1, rfl⟩) Pc.noConfusion fun c _ _ ↦ .inl ?_
    rw [setThread_self]
  · next _ hpc =>
    split
    · exact h.setThread rfl (.inl rfl) (fun _ ↦ ⟨by rw [hpc]; rfl, rfl⟩) h.sleepers
        (fun hm ↦ ⟨ht, (h.sleeper t hm).2.1, rfl⟩) Pc.noConfusion fun _ _ ↦ Pc.noConfusion
    · exact h
  · next hpc hctx =>
    exact h.setThread rfl (.inl rfl) (fun hf ↦ absurd hctx hf) (h.sleepers.erase t)
      (fun hf ↦ absurd hf h.sleepers.not_mem_erase) (fun _ ↦ hctx) (fun _ _ ↦ Pc.noConfusion)
      fun _ hm _ ↦ mem_of_mem_erase hm
  · next c hpc hctx =>
    exact h.setThread rfl (.inl rfl) (fun _ ↦ ⟨by rw [hpc]; rfl, rfl⟩) h.sleepers
      (fun hf ↦ absurd hf (h.not_sleeper hctx)) Pc.noConfusion fun _ _ ↦ Pc.noConfusion
  · next c hctx htop hreload hwait hwoken => exact h.runCtx hctx
  · exact h.fault

lemma Inv.schedule : (s.schedule t).Inv := by
  rw [Sched.schedule]
  split
  · next c hpc hctx => exact h.suspend hctx hpc
  · next c hpc hctx => exact h.suspend hctx hpc
  · exact h

end

/-! ### The steps of everyone else -/

/-- A context that `triton_queue_ctx` only marks. -/
abbrev Busy (x : Context) : Prop :=
  x.thread.isSome ∨ x.entry2.isSome ∨ x.needFree ∨ x.init

lemma wakeupSection_of_awake (h : (s.ctxs c).asleep = false) :
    s.wakeupSection c = s.setCtx c { s.ctxs c with wakeup := true } := by
  simp [wakeupSection, setCtx_self, h]

lemma wakeupSection_of_asleep (h : (s.ctxs c).asleep = true)
    (hthread : (s.ctxs c).thread = some t) (hentry : (s.ctxs c).entry2 = none) :
    s.wakeupSection c =
      { s.setCtx c { s.ctxs c with
          wakeup := true, entry2 := some (.wakeupList t (s.ctxs c).priority) } with
        lists := update s.lists (.wakeupList t (s.ctxs c).priority)
          (s.lists (.wakeupList t (s.ctxs c).priority) ++ [c])
        signallers := if (s.threads t).ctx = none then c :: s.signallers else s.signallers } := by
  by_cases hc : (s.threads t).ctx = none <;>
    simp [wakeupSection, Sched.setCtx, link, h, hthread, hentry, hc]

section

variable (h : s.Inv)

include h

/-- The lists when a context is put in. -/
lemma Inv.mem_link (hnone : (s.ctxs c).entry2 = none) (hy : y.entry2 = some l)
    (c' : ℕ) (l' : Link) :
    c' ∈ update s.lists l (s.lists l ++ [c]) l' ↔ (update s.ctxs c y c').entry2 = some l' := by
  rw [update_apply s.ctxs]
  obtain rfl | hl' := eq_or_ne l' l
  · rw [update_self, mem_append, h.mem_iff]
    split <;> simp [*]
  · rw [update_of_ne hl', h.mem_iff]
    split <;> simp [*, hl'.symm]

lemma Inv.nodup_link (hnone : (s.ctxs c).entry2 = none) (l : Link) :
    ∀ l', (update s.lists l (s.lists l ++ [c]) l').Nodup := by
  have hnot : c ∉ s.lists l := by
    rw [h.mem_iff, hnone]
    nofun
  exact Places.forall_update s.lists (fun _ l ↦ l.Nodup)
    ((h.nodup l).append (nodup_singleton c) (disjoint_singleton.mpr hnot)) h.nodup

/-- Somebody is going to look at the lists of a context. -/
inductive Served (s : Sched) (c : ℕ) : Prop
  /-- A thread runs it. If it has been through the lists, `pending` keeps it from letting go of the
  context. -/
  | run (t : ℕ) (hruns : s.Runs t c)
    (hagain : (s.threads t).pc = .drained ∨ (s.threads t).pc = .close ∨ (s.threads t).pc = .left →
      (s.ctxs c).pending = true)
  /-- One of its callbacks is suspended, and is in the list of its thread if it has been woken up.
  -/
  | suspended (t : ℕ) (ht : t < s.n) (hthread : (s.ctxs c).thread = some t)
    (hasleep : (s.ctxs c).asleep = true)
    (hwoken : (s.ctxs c).wakeup = true → ∃ i, c ∈ s.lists (.wakeupList t i))
  /-- It has been given to a thread that was asleep, which is signalled or is going to be. -/
  | assigned (t : ℕ) (ht : t < s.n) (hctx : (s.threads t).ctx = some c)
    (hpc : (s.threads t).pc.sleeping = true)
    (hsignal : (s.threads t).pc = .sigwait → s.Signalled t c)
  /-- It is queued. -/
  | queued (i : Fin 4) (hmem : c ∈ s.lists (.ctxQueue i))

/-- **`triton_queue_ctx`** -/
theorem Inv.queue (hlock : (s.ctxs c).lock = some .queueing) :
    (s.act (.queue c)).Inv := by
  have hs := (h.ctx c).settled
  have hnot : ∀ r, (s.ctxs c).lock ≠ some (.returned r) := fun r hf ↦
    nomatch hlock.symm.trans hf
  have hblank : (s.ctxs c).registered = false → (s.ctxs c).needFree = false → False :=
    fun hr hf ↦ by
      rw [hs.blank hr hf] at hlock
      nomatch hlock
  by_cases hbusy : Busy (s.ctxs c)
  · simp only [Sched.act, hlock, if_true, Sched.queueCtx, setCtx_self, if_pos hbusy, setCtx_setCtx]
    refine h.setCtx rfl ?_ fun hf ↦ absurd hf (hnot true)
    refine ⟨hs.needFree, fun hr hf ↦ (hblank hr hf).elim, fun hr hi _ ↦ ?_, fun _ ↦ .inl rfl⟩
    rcases hbusy with hb | hb | hb | hb
    · exact .inl (isSome_iff_ne_none.mp hb)
    · exact .inr (.inl (isSome_iff_ne_none.mp hb))
    · nomatch (hs.needFree hr).symm.trans hb
    · nomatch hb.symm.trans hi
  · have hthread : (s.ctxs c).thread = none :=
      not_isSome_iff_eq_none.mp fun hf ↦ hbusy (.inl hf)
    have hentry : (s.ctxs c).entry2 = none :=
      not_isSome_iff_eq_none.mp fun hf ↦ hbusy (.inr (.inl hf))
    have hasleep : (s.ctxs c).asleep = false := by
      cases (h.ctx c).place with
      | free _ hasleep => exact hasleep
      | held _ hf | suspended _ hf | resuming _ hf => nomatch hthread.symm.trans hf
    simp only [Sched.act, hlock, if_true, Sched.queueCtx, setCtx_self, if_neg hbusy]
    split
    rotate_left
    · simp only [link, Sched.setCtx, update_self, update_idem]
      refine h.relink rfl (h.mem_link hentry rfl) (h.nodup_link hentry _) ?_ ?_
        fun hf ↦ absurd hf (hnot true)
      · refine place_free (update_self ..) hthread hasleep fun t i hf ↦ ?_
        cases some.inj hf
      · exact ⟨hs.needFree, fun hr hf ↦ (hblank hr hf).elim,
          fun _ _ _ ↦ .inr (.inl (some_ne_none _)), fun _ ↦ .inl rfl⟩
    · next t ts hts _ =>
      have hts : s.sleepThreads = t :: ts := hts
      obtain ⟨ht, hnone, hpc⟩ := h.sleeper t (by rw [hts]; exact mem_cons_self)
      have hnodup := h.sleepers
      rw [hts, nodup_cons] at hnodup
      simp only [assign, Sched.setCtx, Sched.setThread, update_self, update_idem]
      refine h.move rfl rfl (.inl hnone) (.inl hthread) (.inr rfl) (h.mem_update rfl) h.nodup
        hnodup.2 hnodup.1 (fun hf ↦ ?_) (fun _ _ ↦ rfl) (fun t' ht' ↦ some.inj ht' ▸ ht) ?_
        ?_ (fun _ _ ↦ .inr (.inr ?_)) ⟨rfl, rfl⟩ (fun t' ht' _ ↦ ?_)
      · rw [show (s.threads t).pc = .top from hf] at hpc
        cases hpc
      · refine place_held setCtx_self setThread_self rfl hasleep hentry rfl ?_
        revert hpc
        cases (s.threads t).pc <;> decide
      · exact ⟨hs.needFree, fun hr hf ↦ (hblank hr hf).elim,
          fun _ _ _ ↦ .inl (some_ne_none _), fun _ ↦ .inl rfl⟩
      · exact congrArg Context.lock setCtx_self
      · rw [hts]
        exact mem_cons_of_mem t ht'

/-- No suspended context is woken up a second time. -/
def Single (s : Sched) : Event → Prop
  | .wakeup c => ¬ ((s.ctxs c).asleep ∧ (s.ctxs c).wakeup)
  | _ => True

/-- **`triton_context_wakeup`** of a context that is not new. -/
theorem Inv.wakeupSection (hok : s.Single (.wakeup c))
    (hreg : (s.ctxs c).registered = true) : (s.wakeupSection c).Inv := by
  have hs := (h.ctx c).settled
  have hsettled (l : Option Link) (hl : (s.ctxs c).entry2 ≠ none → l ≠ none) :
      Settled { s.ctxs c with wakeup := true, entry2 := l } :=
    ⟨hs.needFree, fun hr ↦ (nomatch hreg.symm.trans hr),
      fun hr hi hp ↦ (hs.placed hr hi hp).imp_right (Or.imp_left hl), hs.pending⟩
  rcases hasleep : (s.ctxs c).asleep with _ | _
  · rw [wakeupSection_of_awake hasleep]
    refine h.relink rfl (h.mem_update rfl) h.nodup ?_ (hsettled _ id)
    cases (h.ctx c).place with
    | free hthread _ hentry => exact place_free setCtx_self hthread hasleep hentry
    | held t hthread _ hentry hctx hpc =>
      exact place_held setCtx_self rfl hthread hasleep hentry hctx hpc
    | suspended _ _ hf | resuming _ _ hf => nomatch hasleep.symm.trans hf
  · have hwakeup : ¬ (s.ctxs c).wakeup = true := fun hf ↦ hok ⟨hasleep, hf⟩
    cases (h.ctx c).place with
    | free _ hf | held _ _ hf => nomatch hasleep.symm.trans hf
    | resuming _ _ _ hf => exact absurd hf hwakeup
    | suspended t hthread _ hentry huc hctx =>
      rw [if_neg hwakeup] at hentry
      rw [wakeupSection_of_asleep hasleep hthread hentry]
      refine h.relink rfl (h.mem_link hentry rfl) (h.nodup_link hentry _) ?_
        (hsettled _ fun _ ↦ some_ne_none _) .inl { signallers := fun c' hc' ↦ ?_ }
      · exact place_suspended setCtx_self rfl hthread hasleep ⟨_, rfl⟩ huc hctx
      · split
        · exact mem_cons_of_mem c hc'
        · exact hc'

/-- `triton_context_register` -/
lemma Inv.register : (s.act (.register c)).Inv := by
  rw [Sched.act]
  split
  · exact h
  next hnew =>
  obtain ⟨hr, hf⟩ := not_or.mp hnew
  have hblank := (h.ctx c).settled.blank (Bool.eq_false_iff.mpr hr) (Bool.eq_false_iff.mpr hf)
  refine h.setCtx rfl ⟨fun _ ↦ rfl, nofun, nofun, fun hw ↦ ?_⟩
    (fun hf ↦ by rw [hblank] at hf; nomatch hf) (fun _ ↦ .inl rfl)
    (by rw [hblank]; exact ⟨rfl, rfl, rfl, rfl, rfl⟩)
  rcases hw with hw | hw | hw <;> exact absurd rfl hw

/-- `triton_context_unregister` -/
lemma Inv.unregister : (s.act (.unregister c)).Inv := by
  rw [Sched.act]
  split
  · exact h
  split
  · exact h.fault
  · next hempty =>
    obtain ⟨hhandlers, htimers⟩ := not_or.mp hempty
    refine h.setCtx rfl ⟨nofun, nofun, nofun, fun hw ↦ ?_⟩ .inl fun _ ↦ .inr rfl
    rcases hw with hw | hw | hw
    · exact absurd hw htimers
    · exact absurd hw hhandlers
    · exact absurd rfl hw

lemma Inv.start : (s.act (.start c)).Inv := by
  rw [Sched.act]
  split
  · next hc =>
    obtain ⟨hmem, hlock⟩ := hc
    have hs := (h.ctx c).settled
    have hreg := (h.ctx c).starters hmem
    refine h.setCtx rfl ⟨hs.needFree, fun hr hf ↦ ?_, fun _ _ hp ↦ .inr (.inr (if_pos hp)),
      fun hw ↦ .inl ?_⟩ (fun hf ↦ nomatch hlock.symm.trans hf) id ⟨rfl, rfl, rfl, rfl, rfl⟩
      { starters := fun _ ↦ mem_of_mem_erase }
    · rcases hreg with hreg | hreg
      · nomatch hreg.symm.trans hr
      · nomatch hreg.symm.trans hf
    · exact (hs.pending hw).resolve_right fun hf ↦ nomatch hlock.symm.trans hf
  · exact h

/-- No two threads run a context, and one with work is not forgotten, once those who have added work
to it have passed through `triton_queue_ctx`. -/
structure Scheduled (s : Sched) : Prop where
  once : ∀ t t' c, s.Runs t c → s.Runs t' c → t = t'
  served : ∀ c, (s.ctxs c).registered = true → (s.ctxs c).init = false → (s.ctxs c).hasWork →
    (s.ctxs c).lock ≠ some .queueing → s.Served c

lemma Inv.work {w : Work} : (s.act (.work c w)).Inv := by
  rw [Sched.act]
  split
  · next y hreg hlock hadd =>
    obtain ⟨hsame, hr, hf⟩ := samePlace_add hadd
    have hs := (h.ctx c).settled
    exact h.setCtx rfl
      ⟨fun _ ↦ hf.trans (hs.needFree hreg), fun hf ↦ (nomatch (hr.trans hreg).symm.trans hf),
        fun _ _ _ ↦ .inr (.inr rfl), fun _ ↦ .inr rfl⟩
      (fun hf ↦ nomatch hlock.symm.trans hf) (fun _ ↦ .inl (hr.trans hreg)) { hsame with }
  · exact h

lemma Inv.unlock : (s.act (.unlock c)).Inv := by
  rw [Sched.act]
  split
  · next r hlock =>
    have hs := (h.ctx c).settled
    refine h.setCtx rfl (hs.unlock hlock) (fun hf ↦ .inr ?_) id ⟨rfl, rfl, rfl, rfl, rfl⟩
      { signallers := fun c' hc' ↦ ?_ }
    · cases hlock.symm.trans hf
      exact mem_cons_self
    · split
      · exact mem_cons_of_mem c hc'
      · exact hc'
  · exact h

/-- `triton_thread_wakeup` -/
lemma Inv.signalThread : (s.act (.signal c)).Inv := by
  rw [Sched.act]
  split
  · split
    · next t hthread =>
      refine h.signal (fun t' c' hctx hpc hsig ↦ ?_) (fun _ ↦ .inl) (fun t' ↦ ?_) fun t' ↦ ?_
      · -- The thread that is signalled is the one that has been given the context.
        by_cases htt : t' = t
        · exact .inl (by rw [htt, setThread_self])
        rw [Signalled, setThread_of_ne htt]
        refine hsig.imp_right (Or.imp_left fun hmem ↦ (mem_erase_of_ne ?_).mpr hmem)
        rintro rfl
        have hown := (h.ctx c').owner t' hctx (by rw [hpc]; exact Pc.noConfusion)
        exact htt (mem_unique hown hthread)
      iterate 2
        · by_cases htt : t' = t
          · rw [htt, setThread_self]
          · rw [setThread_of_ne htt]
    · exact h.fault
  · exact h

/-- **Every event keeps the invariant.** -/
lemma Inv.act {e : Event} (hok : s.Single e) : (s.act e).Inv := by
  cases e <;> rw [Sched.act]
  case register => exact h.register
  case setPriority c i =>
    split
    · next hreg =>
      have hs := (h.ctx c).settled
      exact h.setCtx rfl { hs with blank := fun hf ↦ by cases hreg.symm.trans hf }
    · exact h
  case unregister => exact h.unregister
  case wakeup c =>
    split
    · exact h
    next hreg =>
    have hreg := not_not.mp hreg
    split
    · exact h.signal (fun _ _ _ _ ↦ id) (forall_mem_cons.mpr ⟨.inr hreg, fun _ ↦ .inl⟩)
    · exact h.wakeupSection hok hreg
  case start => exact h.start
  case work => exact h.work
  case queue c =>
    by_cases hlock : (s.ctxs c).lock = some .queueing
    · exact h.queue hlock
    · rw [if_neg hlock]
      exact h
  case unlock => exact h.unlock
  case signal => exact h.signalThread
  case cancel c w =>
    split
    · next hlock =>
      exact h.setCtx rfl ((h.ctx c).settled.cancel w) (hlock ▸ nofun)
        (by cases w <;> exact id) (by cases w <;> exact ⟨rfl, rfl, rfl, rfl, rfl⟩)
    · exact h
  case confReload =>
    split
    · exact h
    · split <;> exact h.signal
  case confReloaded =>
    split
    · exact h.reloaded.signal
    · exact h
  case next t =>
    split
    · next ht => exact h.next ht
    · exact h
  case schedule t =>
    split
    · exact h.schedule
    · exact h

lemma Inv.step {e : Event} (hok : s.Single e) : (s.step e).Inv := by
  rw [Sched.step]
  split
  · exact h
  · exact h.act hok

/-! ### What a context can rely on -/

lemma Inv.thread_of_runs (hruns : s.Runs t c) : (s.ctxs c).thread = some t :=
  (h.ctx c).owner t hruns.2.1 fun hf ↦ by
    have := hruns.2.2
    rw [hf] at this
    nomatch this

lemma Inv.served (hreg : (s.ctxs c).registered = true)
    (hinit : (s.ctxs c).init = false) (hwork : (s.ctxs c).hasWork)
    (hlock : (s.ctxs c).lock ≠ some .queueing) : s.Served c := by
  have hpending := ((h.ctx c).settled.pending hwork).resolve_right hlock
  cases (h.ctx c).place with
  | free hthread _ hentry =>
    rcases (h.ctx c).settled.placed hreg hinit hpending with hf | hlinked | hf
    · exact absurd hthread hf
    · obtain ⟨l, hl⟩ := ne_none_iff_exists'.mp hlinked
      cases l with
      | ctxQueue i => exact .queued i ((h.mem_iff c _).mpr hl)
      | wakeupList t i => exact absurd hl (hentry t i)
    · exact absurd hf hlock
  | held t hthread _ _ hctx hpc =>
    have ht := (h.ctx c).bound t hthread
    rcases Pc.running_or_sleeping hpc with hrun | hsleep
    · exact .run t ⟨ht, hctx, hrun⟩ fun _ ↦ hpending
    · exact .assigned t ht hctx hsleep ((h.ctx c).signalled t hctx)
  | suspended t hthread hasleep hentry =>
    refine .suspended t ((h.ctx c).bound t hthread) hthread hasleep fun hw ↦ ?_
    rw [if_pos hw] at hentry
    obtain ⟨i, hi⟩ := hentry
    exact ⟨i, (h.mem_iff c _).mpr hi⟩
  | resuming t hthread _ _ _ _ hctx hpc =>
    exact .run t ⟨(h.ctx c).bound t hthread, hctx, by rw [hpc]; rfl⟩ fun _ ↦ hpending

lemma Inv.scheduled : s.Scheduled where
  once _ _ _ ht ht' :=
    mem_unique (h.thread_of_runs ht) (h.thread_of_runs ht')
  served _ := h.served

end

/-- **Contexts are scheduled** in every run, of any number of threads, in which no suspended context
is woken up a second time: a context is run by at most one thread at a time, and one that has work
is being run, with its lists to be looked at again, or is queued for a thread or assigned to one. A
run ends where the process does, as with `triton_thread_wakeup(NULL)`. -/
theorem contexts_scheduled (n : ℕ) (es : List Event) (h : Along step Single (triton n) es) :
    Always step Scheduled (triton n) es := by
  intro pre hpre
  exact Inv.scheduled (((h.of_prefix hpre).inv fun _ _ hs he ↦ hs.step he) inv_triton)

instance (s : Sched) (e : Event) : Decidable (s.Single e) := by
  cases e <;> dsimp only [Single] <;> infer_instance

/-- A call is queued for a context. -/
def queueCall (c i : ℕ) : List Event := [.work c (.call i), .queue c, .unlock c]

/-- A context is started. -/
def startZero : List Event := [.register 0, .wakeup 0, .start 0]

/-- A call suspends itself and is woken up, with another call pending: the first resumes. -/
theorem contexts_scheduled_resumed :
    let es := startZero ++ queueCall 0 7 ++ [.next 0, .next 0, .schedule 0] ++ queueCall 0 8 ++
      [.wakeup 0, .next 0, .next 0]
    let s := run step (triton 2) es
    Along step Single (triton 2) es ∧ s.Runs 0 0 ∧ (s.ctxs 0).hasWork ∧ s.Scheduled := by
  intro es s
  have h : Along step Single (triton 2) es := by decide
  exact ⟨h, by decide, by decide, (contexts_scheduled 2 _ h).last⟩

/-- The call of a context suspends itself twice, and is woken up twice for the first time, the
second time before it has resumed. Then its thread runs the context anew and lets go of it. -/
def wokenTwice : List Event :=
  startZero ++ queueCall 0 7 ++
    [.next 0, .next 0, .schedule 0, .wakeup 0, .next 0, .wakeup 0, .next 0, .schedule 0] ++
    [.next 0, .next 0, .next 0, .next 0, .next 0]

/-- The context is suspended, but no thread has it any more. It is run for the next call and woken
up meanwhile, so that its thread is about to resume it. Then it is assigned for a third call. -/
def assignedToOther : List Event :=
  wokenTwice ++ queueCall 0 8 ++ [.next 0, .next 0, .wakeup 0] ++
    [.next 0, .next 0, .next 0, .next 0, .next 0, .next 0] ++
    [.next 1] ++ queueCall 0 9 ++ [.signal 0, .next 1, .next 1]

/-- **Two threads run one context** if it has been woken up twice. -/
theorem run_by_two_threads :
    let s := run step (triton 2) assignedToOther
    s.broken = false ∧ s.Runs 0 0 ∧ s.Runs 1 0 ∧
      ¬ Always step Scheduled (triton 2) assignedToOther := by
  have hzero : (run step (triton 2) assignedToOther).Runs 0 0 := by decide +kernel
  have hone : (run step (triton 2) assignedToOther).Runs 1 0 := by decide +kernel
  exact ⟨by decide +kernel, hzero, hone, fun h ↦ nomatch h.last.once 0 1 0 hzero hone⟩

end Sched

end AccelPpp.Triton
