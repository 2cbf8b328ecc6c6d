import Mathlib

/-!
# Worker threads and contexts of triton

`triton.c`: worker threads (`triton_thread`) run contexts (`ctx_thread`), and anyone may queue work
for a context (`triton_queue_ctx`), wake it up, or ask for the configuration to be reloaded.

A step is what happens between two points at which another thread can get in between:

* a section under `threads_lock` is one step;
* a section under the lock of a context is one step as well, unless it calls `triton_queue_ctx`.
  Then it is three: the caller takes the lock and adds its work, it passes through
  `triton_queue_ctx`, and it gives the lock back. Meanwhile nobody else gets the lock (`lock`);
* what is done without a lock, such as reading `ctx->thread` in order to signal it, is a step of its
  own. Those on the way to it are in `signallers` and `starters`.

Who calls is left open, so each of these steps may come at any time. Only what is done from within a
callback, to return from it or to suspend it by `triton_context_schedule`, belongs to the thread
that runs it.

`broken` is set where the source follows a null pointer, unlinks what is not linked, links what is
linked already, or calls `abort`. A run ends there, as the process does: a context that is let go of
between a queue and the signal makes it call `triton_thread_wakeup(NULL)`. Left out are the
termination of the daemon and the statistics, apart from the number of active threads.
-/

open Function

namespace AccelPpp.Triton

/-- `need_config_reload` -/
inductive NeedReload
  | idle
  | requested
  | running
deriving DecidableEq

/-- Where a worker thread is. -/
inductive Pc
  /-- At the top of the loop of `triton_thread`. -/
  | top
  /-- In `__config_reload`. -/
  | reload
  /-- In `sigwait`, or on the way to it. -/
  | sigwait
  /-- Behind `sigwait`. -/
  | woken
  /-- In `before_switch`, or at the top of the loop of `ctx_thread`. -/
  | loop
  /-- In a callback: `expire` of a timer, `read` or `write` of a handler, or a call. -/
  | callback
  /-- Behind the loop of `ctx_thread`. -/
  | drained
  /-- In the callback `close`. -/
  | close
  /-- Behind `ctx_thread`. -/
  | left
  /-- Behind the section in which it lets go of the context. -/
  | released
  /-- In `before_switch` of a context that it is going to resume by `setcontext`. -/
  | resume
deriving DecidableEq

/-- The callbacks that may call `triton_context_schedule`. -/
inductive Site
  | callback
  | close

/-- Where a thread is while it is in the callback. -/
def Site.pc : Site → Pc
  | .callback => .callback
  | .close => .close

/-- The thread is running a context. -/
def Pc.running : Pc → Bool
  | .loop | .callback | .drained | .close | .left | .resume => true
  | _ => false

/-- The thread is not counted as active. -/
def Pc.sleeping : Pc → Bool
  | .reload | .sigwait | .woken => true
  | _ => false

/-- `ctx_queue[i]`, or `wakeup_list[i]` of a thread. -/
inductive Link
  | ctxQueue (i : Fin 4)
  | wakeupList (t : ℕ) (i : Fin 4)
deriving DecidableEq

/-- How far the holder of a context's lock has got. -/
inductive Holder
  /-- Before `triton_queue_ctx`. -/
  | queueing
  /-- `triton_queue_ctx` has returned. -/
  | returned (r : Bool)
deriving DecidableEq

/-- `struct _triton_context_t` -/
structure Context where
  /-- It is in `ctx_list`. -/
  registered : Bool := false
  init : Bool := false
  thread : Option ℕ := none
  /-- The list into which `entry2` is linked; `none` if `entry2.next` is null. -/
  entry2 : Option Link := none
  pending : Bool := false
  asleep : Bool := false
  wakeup : Bool := false
  needClose : Bool := false
  needFree : Bool := false
  priority : Fin 4 := ⟨1, by decide⟩
  pendingTimers : List ℕ := []
  pendingHandlers : List ℕ := []
  pendingCalls : List ℕ := []
  /-- The callback that has called `triton_context_schedule`. -/
  uc : Option Site := none
  lock : Option Holder := none

/-- The context has pending timers, handlers or calls. -/
def Context.hasWork (x : Context) : Prop :=
  x.pendingTimers ≠ [] ∨ x.pendingHandlers ≠ [] ∨ x.pendingCalls ≠ []

instance : DecidablePred Context.hasWork := fun x ↦
  inferInstanceAs (Decidable (x.pendingTimers ≠ [] ∨ x.pendingHandlers ≠ [] ∨ x.pendingCalls ≠ []))

/-- `struct _triton_thread_t` -/
structure Thread where
  pc : Pc := .top
  ctx : Option ℕ := none
  /-- `SIGUSR1` has been sent and not been waited for. -/
  signal : Bool := false

/-- What can be queued for a context. -/
inductive Work
  /-- An expiration, by `timer_thread`. -/
  | timer (i : ℕ)
  /-- An event, by `md_thread`. -/
  | handler (i : ℕ)
  /-- `triton_context_call` -/
  | call (i : ℕ)
  /-- `triton_terminate` -/
  | close

/-- The state of triton. -/
structure Sched where
  /-- `thread_count` -/
  n : ℕ
  threads : ℕ → Thread := fun _ ↦ {}
  sleepThreads : List ℕ := []
  /-- `triton_stat.thread_active` -/
  active : ℕ
  need : NeedReload := .idle
  /-- The caller of `triton_conf_reload` is in `__config_reload`. -/
  callerReloads : Bool := false
  lists : Link → List ℕ := fun _ ↦ []
  ctxs : ℕ → Context := fun _ ↦ {}
  /-- Contexts whose `init` has been found set by `triton_context_wakeup`. -/
  starters : List ℕ := []
  /-- Contexts whose thread is about to be signalled. -/
  signallers : List ℕ := []
  broken : Bool := false

/-- The state when `n` threads have been created. -/
def triton (n : ℕ) : Sched where
  n := n
  active := n

namespace Sched

/-- Writes to a context. -/
def setCtx (s : Sched) (c : ℕ) (x : Context) : Sched :=
  { s with ctxs := Function.update s.ctxs c x }

/-- Writes to a thread. -/
def setThread (s : Sched) (t : ℕ) (x : Thread) : Sched :=
  { s with threads := Function.update s.threads t x }

variable {s : Sched}

lemma setCtx_self {c : ℕ} {x : Context} : (s.setCtx c x).ctxs c = x :=
  update_self ..

lemma setCtx_setCtx (c : ℕ) (x y : Context) : (s.setCtx c x).setCtx c y = s.setCtx c y := by
  rw [setCtx, setCtx, setCtx, update_idem]

lemma setThread_self {t : ℕ} {x : Thread} : (s.setThread t x).threads t = x :=
  update_self ..

lemma setThread_of_ne {x : Thread} {t t' : ℕ} (h : t' ≠ t) :
    (s.setThread t x).threads t' = s.threads t' :=
  update_of_ne h ..

lemma setThread_setThread (t : ℕ) (x y : Thread) :
    (s.setThread t x).setThread t y = s.setThread t y := by
  rw [setThread, setThread, setThread, update_idem]

section

variable (s : Sched) (t c : ℕ)

/-- Undefined behaviour. -/
def fault : Sched := { s with broken := true }

/-- `list_add_tail(&ctx->entry2, ...)` -/
def link (c : ℕ) (l : Link) : Sched :=
  { s.setCtx c { s.ctxs c with entry2 := some l } with
    lists := Function.update s.lists l (s.lists l ++ [c]) }

/-- `list_del(&ctx->entry2)` -/
def unlink (c : ℕ) : Sched :=
  match (s.ctxs c).entry2 with
  | none => s.fault
  | some l =>
    { s.setCtx c { s.ctxs c with entry2 := none } with
      lists := Function.update s.lists l ((s.lists l).erase c) }

/-- `check_ctx_queue_empty`: the context it finds, if the queues are not empty. -/
def checkCtxQueueEmpty (t : ℕ) : Option ℕ :=
  (List.finRange 4).findSome? fun i ↦
    match s.lists (.wakeupList t i) with
    | c :: _ => some c
    | [] => (s.lists (.ctxQueue i)).head?

/-- `ctx->thread = ...`, the first of the sleeping threads. -/
def assign (c t : ℕ) (ts : List ℕ) : Sched :=
  { (s.setCtx c { s.ctxs c with thread := some t }).setThread t
      { s.threads t with ctx := some c } with sleepThreads := ts }

/-- `triton_queue_ctx` -/
def queueCtx (c : ℕ) : Sched × Bool :=
  let s := s.setCtx c { s.ctxs c with pending := true }
  let x := s.ctxs c
  if x.thread.isSome ∨ x.entry2.isSome ∨ x.needFree ∨ x.init then (s, false)
  else
    match s.sleepThreads, s.need with
    | t :: ts, .idle => (s.assign c t ts, true)
    | _, _ => (s.link c (.ctxQueue x.priority), false)

/-! ### Worker threads -/

/-- `triton_thread` finds nothing to do. The last one to go to sleep does the reload. -/
def sleep (t : ℕ) : Sched :=
  let s := { s with sleepThreads := t :: s.sleepThreads, active := s.active - 1 }
  if s.active = 0 ∧ s.need = .requested then
    { s.setThread t { s.threads t with pc := .reload } with need := .running }
  else s.setThread t { s.threads t with pc := .sigwait }

/-- `triton_thread` takes a context from a queue. -/
def take : Sched :=
  if (s.ctxs c).asleep ∧ (s.ctxs c).wakeup then
    (s.setThread t { s.threads t with ctx := some c, pc := .resume }).unlink c
  else
    let s := (s.setThread t { s.threads t with ctx := some c, pc := .loop }).unlink c
    s.setCtx c { s.ctxs c with thread := some t }

/-- The section of `triton_context_schedule`, which is entered a second time when the context is
resumed. It returns to `back`, or leaves by `longjmp`. -/
def scheduleSection (back : Site) : Sched :=
  let x := s.ctxs c
  if x.wakeup then
    (s.setCtx c { x with asleep := false, wakeup := false, uc := none }).setThread t
      { s.threads t with pc := back.pc }
  else
    match x.thread with
    | none => s.fault
    | some t' =>
      let s := (s.setCtx c { x with asleep := true }).setThread t'
        { s.threads t' with ctx := none }
      s.setThread t { s.threads t with pc := .top }

/-- The end of `__config_reload`: every thread is woken up. -/
def reloaded : Sched :=
  { s with need := .idle, threads := fun t ↦ { s.threads t with signal := true } }

/-- One round of the loop of `ctx_thread`: timers first, then handlers, then calls. -/
def pick : Sched :=
  let x := s.ctxs c
  let goOn (pc : Pc) (x : Context) := (s.setCtx c x).setThread t { s.threads t with pc := pc }
  match x.pendingTimers, x.pendingHandlers, x.pendingCalls with
  | _ :: timers, _, _ => goOn .callback { x with pendingTimers := timers }
  | [], _ :: handlers, _ => goOn .callback { x with pendingHandlers := handlers }
  | [], [], _ :: calls => goOn .callback { x with pendingCalls := calls }
  | [], [], [] => goOn .drained { x with pending := false }

/-- What thread `t` does next with the context `c` it is running. It waits if it needs the lock of
the context and somebody else has it. -/
def runCtx : Sched :=
  let x := s.ctxs c
  let goOn (pc : Pc) (x : Context) := (s.setCtx c x).setThread t { s.threads t with pc := pc }
  match (s.threads t).pc with
  | .loop => if x.lock = none then s.pick t c else s
  | .callback => goOn .loop x
  | .drained =>
    if x.lock = none then goOn (if x.needClose ∧ ¬ x.needFree then .close else .left) x else s
  | .close => if x.lock = none then goOn .left { x with needClose := false } else s
  | .left =>
    if ¬ x.pending ∨ x.needFree then goOn .released { x with thread := none } else goOn .loop x
  | .released => s.setThread t { s.threads t with ctx := none, pc := .top }
  | .resume =>
    match x.uc with
    | some back => s.scheduleSection t c back
    | none => s.fault
  | _ => s

/-- What thread `t` does next. In a callback it returns from it. -/
def next (t : ℕ) : Sched :=
  match (s.threads t).pc, (s.threads t).ctx with
  | .top, _ =>
    match s.need, s.checkCtxQueueEmpty t with
    | .idle, some c => s.take t c
    | _, _ => s.sleep t
  | .reload, _ => s.reloaded.setThread t { s.threads t with pc := .sigwait, signal := true }
  | .sigwait, _ =>
    if (s.threads t).signal then s.setThread t { s.threads t with pc := .woken, signal := false }
    else s
  | .woken, none =>
    { s.setThread t { s.threads t with pc := .top } with
      active := s.active + 1, sleepThreads := s.sleepThreads.erase t }
  | .woken, some _ =>
    { s.setThread t { s.threads t with pc := .loop } with active := s.active + 1 }
  | _, some c => s.runCtx t c
  | _, none => s.fault

/-- `triton_context_schedule`, in a callback that thread `t` runs. -/
def schedule (t : ℕ) : Sched :=
  match (s.threads t).pc, (s.threads t).ctx with
  | .callback, some c =>
    (s.setCtx c { s.ctxs c with uc := some .callback }).scheduleSection t c .callback
  | .close, some c => (s.setCtx c { s.ctxs c with uc := some .close }).scheduleSection t c .close
  | _, _ => s

/-! ### Everyone else -/

/-- The part of `triton_context_wakeup` for a context that is not new. -/
def wakeupSection (c : ℕ) : Sched :=
  let s := s.setCtx c { s.ctxs c with wakeup := true }
  let x := s.ctxs c
  if x.asleep then
    match x.thread, x.entry2 with
    | some t, none =>
      let s := s.link c (.wakeupList t x.priority)
      if (s.threads t).ctx = none then { s with signallers := c :: s.signallers } else s
    | _, _ => s.fault
  else s

end

end Sched

/-- Work is added to a context; `none` if it is there already. -/
def Context.add (x : Context) : Work → Option Context
  | .timer i =>
    if i ∈ x.pendingTimers then none else some { x with pendingTimers := x.pendingTimers ++ [i] }
  | .handler i =>
    if i ∈ x.pendingHandlers then none
    else some { x with pendingHandlers := x.pendingHandlers ++ [i] }
  | .call i => some { x with pendingCalls := x.pendingCalls ++ [i] }
  | .close => some { x with needClose := true }

/-- Work is taken back: by `triton_timer_del`, `triton_md_unregister_handler` or
`triton_cancel_call`. -/
def Context.cancel (x : Context) : Work → Context
  | .timer i => { x with pendingTimers := x.pendingTimers.erase i }
  | .handler i => { x with pendingHandlers := x.pendingHandlers.erase i }
  | .call i => { x with pendingCalls := x.pendingCalls.filter (· ≠ i) }
  | .close => x

/-- The steps. -/
inductive Event
  /-- `triton_context_register` -/
  | register (c : ℕ)
  /-- `triton_context_set_priority` -/
  | setPriority (c : ℕ) (i : Fin 4)
  /-- `triton_context_unregister` -/
  | unregister (c : ℕ)
  /-- `triton_context_wakeup`, as far as the lock of the context for a new one. -/
  | wakeup (c : ℕ)
  /-- The rest of `triton_context_wakeup` for a new context, as far as `triton_queue_ctx`. -/
  | start (c : ℕ)
  /-- Somebody takes the lock of a context and adds work. -/
  | work (c : ℕ) (w : Work)
  /-- The holder of the lock of a context passes through `triton_queue_ctx`. -/
  | queue (c : ℕ)
  /-- It gives the lock back. -/
  | unlock (c : ℕ)
  /-- `triton_thread_wakeup(ctx->thread)` -/
  | signal (c : ℕ)
  /-- Work is taken back. -/
  | cancel (c : ℕ) (w : Work)
  /-- `triton_conf_reload` -/
  | confReload
  /-- The caller of `triton_conf_reload` ends the reload. -/
  | confReloaded
  /-- A thread does what it does next. -/
  | next (t : ℕ)
  /-- A callback calls `triton_context_schedule`. -/
  | schedule (t : ℕ)

namespace Sched

/-- One step. -/
def act (s : Sched) : Event → Sched
  | .register c =>
    if (s.ctxs c).registered ∨ (s.ctxs c).needFree then s
    else s.setCtx c { registered := true, init := true }
  | .setPriority c i =>
    if (s.ctxs c).registered then s.setCtx c { s.ctxs c with priority := i } else s
  | .unregister c =>
    let x := s.ctxs c
    if ¬ x.registered then s
    else if x.pendingHandlers ≠ [] ∨ x.pendingTimers ≠ [] then s.fault
    else s.setCtx c { x with registered := false, needFree := true, pendingCalls := [] }
  | .wakeup c =>
    if ¬ (s.ctxs c).registered then s
    else if (s.ctxs c).init then { s with starters := c :: s.starters }
    else s.wakeupSection c
  | .start c =>
    let x := s.ctxs c
    if c ∈ s.starters ∧ x.lock = none then
      { s.setCtx c
          { x with init := false, lock := if x.pending then some .queueing else none } with
        starters := s.starters.erase c }
    else s
  | .work c w =>
    let x := s.ctxs c
    match x.registered, x.lock, x.add w with
    | true, none, some y => s.setCtx c { y with lock := some .queueing }
    | _, _, _ => s
  | .queue c =>
    if (s.ctxs c).lock = some .queueing then
      let (s, r) := s.queueCtx c
      s.setCtx c { s.ctxs c with lock := some (.returned r) }
    else s
  | .unlock c =>
    match (s.ctxs c).lock with
    | some (.returned r) =>
      { s.setCtx c { s.ctxs c with lock := none } with
        signallers := if r then c :: s.signallers else s.signallers }
    | _ => s
  | .signal c =>
    if c ∈ s.signallers then
      match (s.ctxs c).thread with
      | some t =>
        { s.setThread t { s.threads t with signal := true } with
          signallers := s.signallers.erase c }
      | none => s.fault
    else s
  | .cancel c w => if (s.ctxs c).lock = none then s.setCtx c ((s.ctxs c).cancel w) else s
  | .confReload =>
    if s.need ≠ .idle then s
    else if s.active = 0 then { s with need := .running, callerReloads := true }
    else { s with need := .requested }
  | .confReloaded =>
    if s.callerReloads then { s.reloaded with callerReloads := false } else s
  | .next t => if t < s.n then s.next t else s
  | .schedule t => if t < s.n then s.schedule t else s

/-- One step, unless something undefined has happened. -/
def step (s : Sched) (e : Event) : Sched := if s.broken then s else s.act e

end Sched

end AccelPpp.Triton
