import Mathlib

/-!
# The records of handlers and timers

`md.c`, `timer.c` and `ctx_thread`: each handler and each timer has a record, which the kernel hands
back in the events that it reports. So a record cannot be freed as soon as it is unregistered. Each
of the two epoll threads goes through rounds: it waits for a batch of events, processes them one by
one, frees the records of `freed_list2`, and moves those of `freed_list` there. An unregistered
record is put into `freed_list`. Each record holds a reference to its context, which the thread
gives back just before it frees the record.

A step is a section under the lock of a context or under `freed_list_lock`, an atomic operation on
`refs`, or a look at a record without a lock. The context's own code runs on one thread at a time.
It is not interrupted between taking a record from a list of pending ones and calling the callback,
nor between the two sections of an unregistration, by other code of the same context.

Each registration is successful and has a record of its own, numbered in the order of allocation.
A context is registered from the beginning. `broken` is set where freed memory is accessed.
-/

namespace AccelPpp.Triton

/-- Handlers belong to `md_thread`, timers to `timer_thread`. -/
inductive Kind
  | md
  | timer
deriving DecidableEq

/-- `struct _triton_md_handler_t` or `struct _triton_timer_t` -/
structure Record where
  kind : Kind := .md
  ctx : ℕ := 0
  /-- `ud` is not null. -/
  ud : Bool := false
  pending : Bool := false
  /-- The kernel may report events of it. -/
  inEpoll : Bool := false
  /-- How often it has been freed. -/
  frees : ℕ := 0
  /-- The round of its thread in which it was put into `freed_list`. -/
  pushed : Option ℕ := none

/-- How far `ctx_thread` has got with a record. -/
inductive Dispatch
  | idle
  /-- It has taken the record from a list of pending ones. -/
  | popped (r : ℕ)
  /-- It is in the callback `read`. -/
  | reading (r : ℕ)
  /-- It is in the callback `write`. -/
  | writing (r : ℕ)
  /-- It is in the callback `expire`. -/
  | expiring (r : ℕ)
deriving DecidableEq

/-- `struct _triton_context_t`, as the owner of records. -/
structure Owner where
  refs : ℕ := 1
  needFree : Bool := false
  /-- The reference of the registration has not been given back. -/
  own : Bool := true
  /-- How often it has been freed. -/
  frees : ℕ := 0
  /-- `pending_handlers` and `pending_timers` -/
  pending : Kind → List ℕ := fun _ ↦ []
  dispatch : Dispatch := .idle
  /-- The record that is unregistered and not yet in `freed_list`. -/
  pushing : Option ℕ := none

/-- Where an epoll thread is. -/
inductive Stage
  /-- In `epoll_wait`. -/
  | waiting
  /-- At the top of the loop over the events. -/
  | processing (events : List ℕ)
  /-- It has found `ud` set, and is about to take the lock. -/
  | locking (r : ℕ) (events : List ℕ)
  /-- It has queued the context, and is about to wake up its thread. -/
  | signalling (r : ℕ) (events : List ℕ)
  /-- At the top of the loop over `freed_list2`. -/
  | freeing
  /-- It has given back the record's reference, and is about to free it. -/
  | released (r : ℕ)
  /-- Behind that loop. -/
  | splicing
deriving DecidableEq

/-- The records of the batch that the thread may still access. -/
def Stage.events : Stage → List ℕ
  | .processing events => events
  | .locking r events | .signalling r events => r :: events
  | _ => []

/-- An epoll thread. -/
structure Epoll where
  stage : Stage := .waiting
  freedList : List ℕ := []
  freedList2 : List ℕ := []
  /-- How often it has been through its loop. -/
  rounds : ℕ := 0

/-- The two threads, the contexts and the records. -/
structure Reactor where
  /-- The number of records that have been allocated. -/
  allocated : ℕ := 0
  records : ℕ → Record := fun _ ↦ {}
  ctxs : ℕ → Owner := fun _ ↦ {}
  epoll : Kind → Epoll := fun _ ↦ {}
  /-- The records whose callbacks have been called, each with whether it was registered. -/
  calls : List (ℕ × Bool) := []
  broken : Bool := false

/-- The steps. -/
inductive ReactorEvent
  /-- `triton_md_register_handler` or `triton_timer_add` -/
  | register (c : ℕ) (k : Kind)
  /-- A handler is added to the epoll set, or removed from it. -/
  | interest (c r : ℕ) (on : Bool)
  /-- `triton_md_unregister_handler` or `triton_timer_del`, as far as the lock of the context. -/
  | unregister (c r : ℕ)
  /-- The rest of it: the record is put into `freed_list`. -/
  | push (c : ℕ)
  /-- `triton_context_unregister` -/
  | unregisterCtx (c : ℕ)
  /-- The thread of an unregistered context lets go of it. -/
  | letGo (c : ℕ)
  /-- `ctx_thread` takes a record from a list of pending ones. -/
  | take (c : ℕ)
  /-- `ctx_thread` goes on with it. What is to be called depends on the events and the interest. -/
  | dispatch (c : ℕ) (toRead toWrite : Bool)
  /-- A callback returns. -/
  | ret (c : ℕ) (zero toWrite : Bool)
  /-- `epoll_wait` returns. -/
  | collect (k : Kind) (events : List ℕ)
  /-- An epoll thread does what it does next. -/
  | next (k : Kind)

namespace Reactor

section

variable (s : Reactor) (c : ℕ) (k : Kind) (r : ℕ)

/-- Writes to a record. -/
def setRecord (x : Record) : Reactor :=
  { s with records := Function.update s.records r x }

/-- Writes to a context. -/
def setCtx (y : Owner) : Reactor :=
  { s with ctxs := Function.update s.ctxs c y }

/-- Writes to an epoll thread. -/
def setEpoll (z : Epoll) : Reactor :=
  { s with epoll := Function.update s.epoll k z }

/-- Goes on to `t` if the record has not been freed. -/
def touch (t : Reactor) : Reactor :=
  if (s.records r).frees = 0 then t else { s with broken := true }

/-- Goes on to `t` if the context has not been freed. -/
def touchCtx (t : Reactor) : Reactor :=
  if (s.ctxs c).frees = 0 then t else { s with broken := true }

/-- `triton_context_release` -/
def contextRelease : Reactor :=
  let y := s.ctxs c
  s.setCtx c { y with
    refs := y.refs - 1
    frees := if y.refs - 1 = 0 then y.frees + 1 else y.frees }

/-! ### The epoll threads -/

/-- The section of an epoll thread under the lock of the context. -/
def queueSection (events : List ℕ) : Reactor :=
  let x := s.records r
  let y := s.ctxs x.ctx
  if x.ud ∧ ¬ x.pending then
    ((s.setRecord r { x with pending := true }).setCtx x.ctx
      { y with pending := Function.update y.pending k (y.pending k ++ [r]) }).setEpoll k
      { s.epoll k with stage := .signalling r events }
  else s.setEpoll k { s.epoll k with stage := .processing events }

/-- The next step of an epoll thread. -/
def next : Reactor :=
  let z := s.epoll k
  match z.stage with
  | .waiting => s
  | .processing (r :: events) =>
    s.touch r (s.setEpoll k
      { z with
        stage := if (s.records r).ud then .locking r events else .processing events })
  | .processing [] => s.setEpoll k { z with stage := .freeing }
  | .locking r events =>
    s.touch r (s.touchCtx (s.records r).ctx (s.queueSection k r events))
  | .signalling r events =>
    s.touch r (s.touchCtx (s.records r).ctx (s.setEpoll k { z with stage := .processing events }))
  | .freeing =>
    match z.freedList2 with
    | [] => s.setEpoll k { z with stage := .splicing }
    | r :: freed =>
      let x := s.records r
      -- `timer_thread` removes the timer from its epoll set here.
      s.touch r (s.touchCtx x.ctx
        (((s.setRecord r { x with inEpoll := if k = .timer then false else x.inEpoll }).setEpoll k
          { z with freedList2 := freed, stage := .released r }).contextRelease x.ctx))
  | .released r =>
    (s.setRecord r { s.records r with frees := (s.records r).frees + 1 }).setEpoll k
      { z with stage := .freeing }
  | .splicing =>
    s.setEpoll k
      { stage := .waiting, freedList := [], freedList2 := z.freedList ++ z.freedList2
        rounds := z.rounds + 1 }

/-! ### The contexts -/

/-- Code of the context may be running, other than `ctx_thread` itself. -/
def Runs : Prop :=
  (s.ctxs c).own = true ∧ (s.ctxs c).needFree = false ∧ (s.ctxs c).pushing = none ∧
    ∀ r, (s.ctxs c).dispatch ≠ .popped r

instance : Decidable (s.Runs c) :=
  have : Decidable (∀ r, (s.ctxs c).dispatch ≠ .popped r) :=
    match (s.ctxs c).dispatch with
    | .popped r => isFalse fun h ↦ h r rfl
    | .idle | .reading _ | .writing _ | .expiring _ => isTrue nofun
  inferInstanceAs (Decidable (_ ∧ _ ∧ _ ∧ _))

/-- `ctx_thread` goes on from a list of pending records. -/
def pop (rest : List ℕ) : Reactor :=
  s.touchCtx c (s.touch r ((s.setRecord r { s.records r with pending := false }).setCtx c
    { s.ctxs c with
      pending := Function.update (s.ctxs c).pending k rest, dispatch := .popped r }))

/-- A callback of a record is called. -/
def call (d : Dispatch) (r : ℕ) : Reactor :=
  { s.setCtx c { s.ctxs c with dispatch := d } with calls := (r, (s.records r).ud) :: s.calls }

/-- One step. A callback that has unregistered its own handler does not return zero. -/
def act : ReactorEvent → Reactor
  | .register c k =>
    if s.Runs c then
      { (s.setRecord s.allocated
          { kind := k, ctx := c, ud := true, inEpoll := decide (k = .timer) }).setCtx c
          { s.ctxs c with refs := (s.ctxs c).refs + 1 } with
        allocated := s.allocated + 1 }
    else s
  | .interest c r on =>
    let x := s.records r
    if s.Runs c ∧ x.ud ∧ x.ctx = c ∧ x.kind = .md then s.setRecord r { x with inEpoll := on } else s
  | .unregister c r =>
    let x := s.records r
    let y := s.ctxs c
    if s.Runs c ∧ x.ud ∧ x.ctx = c then
      s.touchCtx c (s.touch r
        ((s.setRecord r
          { x with ud := false, inEpoll := if x.kind = .md then false else x.inEpoll }).setCtx c
          { y with
            pending := if x.pending
              then Function.update y.pending x.kind ((y.pending x.kind).erase r) else y.pending
            pushing := some r }))
    else s
  | .push c =>
    match (s.ctxs c).pushing with
    | none => s
    | some r =>
      let x := s.records r
      let z := s.epoll x.kind
      s.touch r (((s.setRecord r { x with pushed := some z.rounds }).setCtx c
        { s.ctxs c with pushing := none }).setEpoll x.kind
        { z with freedList := z.freedList ++ [r] })
  | .unregisterCtx c =>
    if s.Runs c ∧ ∀ r < s.allocated, (s.records r).ud → (s.records r).ctx ≠ c then
      s.setCtx c { s.ctxs c with needFree := true }
    else s
  | .letGo c =>
    let y := s.ctxs c
    if y.own ∧ y.needFree ∧ y.pushing = none ∧ y.dispatch = .idle then
      s.touchCtx c ((s.setCtx c { y with own := false }).contextRelease c)
    else s
  | .take c =>
    let y := s.ctxs c
    if y.own ∧ y.pushing = none ∧ y.dispatch = .idle then
      match y.pending .timer, y.pending .md with
      | r :: rest, _ => s.pop c .timer r rest
      | [], r :: rest => s.pop c .md r rest
      | [], [] => s
    else s
  | .dispatch c toRead toWrite =>
    match (s.ctxs c).dispatch with
    | .popped r =>
      let x := s.records r
      s.touch r
        (match x.kind with
        | .timer =>
          if x.ud then s.call c (.expiring r) r
          else s.setCtx c { s.ctxs c with dispatch := .idle }
        | .md =>
          if toRead ∧ x.ud then s.call c (.reading r) r
          else if toWrite ∧ x.ud then s.call c (.writing r) r
          else s.setCtx c { s.ctxs c with dispatch := .idle })
    | _ => s
  | .ret c zero toWrite =>
    if (s.ctxs c).pushing = none then
      match (s.ctxs c).dispatch with
      | .reading r =>
        if zero ∧ (s.records r).ud then
          s.touch r
            (if toWrite then s.call c (.writing r) r
            else s.setCtx c { s.ctxs c with dispatch := .idle })
        else s.setCtx c { s.ctxs c with dispatch := .idle }
      | .writing r =>
        if zero ∧ (s.records r).ud then
          s.touch r (s.setCtx c { s.ctxs c with dispatch := .idle })
        else s.setCtx c { s.ctxs c with dispatch := .idle }
      | .expiring _ => s.setCtx c { s.ctxs c with dispatch := .idle }
      | .idle | .popped _ => s
    else s
  | .collect k events =>
    if (s.epoll k).stage = .waiting then
      s.setEpoll k { s.epoll k with
        stage := .processing
          (events.filter fun r ↦ (s.records r).inEpoll ∧ (s.records r).kind = k) }
    else s
  | .next k => s.next k

/-- One step, unless something undefined has happened. -/
def step (e : ReactorEvent) : Reactor := if s.broken then s else s.act e

end

end Reactor

end AccelPpp.Triton
