import AccelPpp.Lib.Run

/-!
# The interest of a handler

`md.c`: a handler asks to be told when its descriptor can be read or written
(`triton_md_enable_handler`, `triton_md_disable_handler`), and its record hands the request on to
the kernel. While one of the handler's callbacks runs, a change of the interest is only noted
(`mod`) and passed on behind the callbacks (`md_rearm`). That they are running is read off `armed`,
which is cleared before them and set by `md_rearm`; but it is clear before the first event as well.
A change that is made then is not passed on until an event arrives.

The run of one handler starts when it has been registered. It stays edge-triggered, its callbacks
return zero, and `epoll_ctl` fails only for want of a registration or because of one. The interest
that was asked for last is kept beside the record, as `requested`.
-/

namespace AccelPpp.Triton

open Bool Transition

/-- `MD_MODE_READ`, `MD_MODE_WRITE`, both or none. -/
structure Mode where
  read : Bool := false
  write : Bool := false
deriving DecidableEq

namespace Mode

/-- Read and write interest after an enabling request. -/
def union (m m' : Mode) : Mode := ⟨m.read || m'.read, m.write || m'.write⟩

/-- Read and write interest after a disabling request. -/
def diff (m m' : Mode) : Mode := ⟨m.read && !m'.read, m.write && !m'.write⟩

end Mode

/-- `epoll_event.events` of a handler. -/
structure EpollEvents where
  epollin : Bool := false
  epollout : Bool := false
  epollet : Bool := false
  epolloneshot : Bool := false
deriving DecidableEq

namespace EpollEvents

/-- What the bits ask for. -/
def interest (e : EpollEvents) : Mode := ⟨e.epollin, e.epollout⟩

/-- The bits that `triton_md_enable_handler` sets. -/
def enable (e : EpollEvents) (mode : Mode) (trigLevel : Bool) : EpollEvents where
  epollin := e.epollin || mode.read
  epollout := e.epollout || mode.write
  epollet := e.epollet || !trigLevel
  epolloneshot := e.epolloneshot || trigLevel

/-- The bits that `triton_md_disable_handler` leaves. -/
def disable (e : EpollEvents) (mode : Mode) : EpollEvents :=
  let e := { e with
    epollin := e.epollin && !mode.read, epollout := e.epollout && !mode.write }
  if e.epollin || e.epollout then e else {}

end EpollEvents

/-- The events that `epoll_wait` reports. -/
structure Ready where
  epollin : Bool := false
  epollout : Bool := false
  epollerr : Bool := false
  epollhup : Bool := false

namespace Ready

/-- `events & (EPOLLIN | EPOLLERR | EPOLLHUP)` -/
def toRead (r : Ready) : Bool := r.epollin || r.epollerr || r.epollhup

/-- `events & (EPOLLOUT | EPOLLERR | EPOLLHUP)` -/
def toWrite (r : Ready) : Bool := r.epollout || r.epollerr || r.epollhup

/-- `trig_epoll_events |= ...` -/
def merge (r r' : Ready) : Ready :=
  ⟨r.epollin || r'.epollin, r.epollout || r'.epollout, r.epollerr || r'.epollerr,
    r.epollhup || r'.epollhup⟩

end Ready

/-- `struct _triton_md_handler_t` -/
structure MdHandler where
  events : EpollEvents := {}
  trigEpollEvents : Ready := {}
  pending : Bool := false
  trigLevel : Bool := false
  armed : Bool := false
  mod : Bool := false

/-- Which callback of the handler is running. -/
inductive Phase
  | idle
  /-- `read`, with the events that have been taken from the record. -/
  | reading (events : Ready)
  | writing

/-- One handler, and what the kernel knows of it. -/
structure Watch where
  h : MdHandler := {}
  /-- The handler has a `read` callback. -/
  hasRead : Bool
  /-- The handler has a `write` callback. -/
  hasWrite : Bool
  /-- The registration of the descriptor with the kernel. -/
  kernel : Option EpollEvents := none
  phase : Phase := .idle
  /-- The interest that was requested last. -/
  requested : Mode := {}
  /-- `abort` has been called. -/
  aborted : Bool := false

/-- `triton_md_register_handler` -/
def mdRegisterHandler (hasRead hasWrite : Bool) : Watch where
  hasRead := hasRead
  hasWrite := hasWrite

namespace Watch

section

variable (s : Watch)

/-- `epoll_ctl(epoll_fd, EPOLL_CTL_ADD, ...)` -/
def epollCtlAdd : Watch :=
  match s.kernel with
  | none => { s with kernel := some s.h.events }
  | some _ => { s with aborted := true }

/-- `epoll_ctl(epoll_fd, EPOLL_CTL_MOD, ...)` -/
def epollCtlMod : Watch :=
  match s.kernel with
  | some _ => { s with kernel := some s.h.events }
  | none => { s with aborted := true }

/-- `epoll_ctl(epoll_fd, EPOLL_CTL_DEL, ...)` -/
def epollCtlDel : Watch :=
  match s.kernel with
  | some _ => { s with kernel := none }
  | none => { s with aborted := true }

/-- The bits have changed and some are left: the kernel is told, or `mod` is set. -/
def change (events : EpollEvents) : Watch :=
  if s.h.armed then { s with h := { s.h with events := events } }.epollCtlMod
  else { s with h := { s.h with events := events, mod := true } }

/-- `triton_md_enable_handler` -/
def mdEnableHandler (mode : Mode) : Watch :=
  let events := s.h.events.enable mode s.h.trigLevel
  if s.h.events = events then s
  else if s.h.events ≠ {} then s.change events
  else { s with h := { s.h with events := events } }.epollCtlAdd

/-- `triton_md_disable_handler` -/
def mdDisableHandler (mode : Mode) : Watch :=
  let events := s.h.events.disable mode
  if s.h.events = {} then s
  else if s.h.events = events then s
  else if events ≠ {} then s.change events
  else { s with h := { s.h with events := {}, mod := false } }.epollCtlDel

/-- `md_rearm`. It does not look at the result of `epoll_ctl`. -/
def mdRearm : Watch :=
  { s with
    kernel := if s.h.mod ∧ s.kernel.isSome then some s.h.events else s.kernel
    h := { s.h with mod := false, armed := true } }

/-- `ctx_thread` behind the callback `read`. -/
def dispatchWrite (events : Ready) : Watch :=
  if events.toWrite ∧ s.h.events.epollout ∧ s.hasWrite then { s with phase := .writing }
  else { s with phase := .idle }.mdRearm

/-- `ctx_thread` takes the handler from `pending_handlers`. -/
def dispatch : Watch :=
  let events := s.h.trigEpollEvents
  let s := { s with h := { s.h with pending := false, trigEpollEvents := {}, armed := false } }
  if events.toRead ∧ s.h.events.epollin ∧ s.hasRead then { s with phase := .reading events }
  else s.dispatchWrite events

end

end Watch

/-- What happens to a handler. -/
inductive MdEvent
  /-- Its context calls `triton_md_enable_handler`, in a callback or not. -/
  | enable (mode : Mode)
  /-- Its context calls `triton_md_disable_handler`, in a callback or not. -/
  | disable (mode : Mode)
  /-- `md_thread` gets an event of it. -/
  | notice (events : Ready)
  /-- `ctx_thread` takes it up. -/
  | dispatch
  /-- The callback that is running returns zero. -/
  | ret

namespace Watch

/-- One step. -/
def step (s : Watch) (e : MdEvent) : Watch :=
  if s.aborted then s
  else
    match e with
    | .enable mode => { s.mdEnableHandler mode with requested := s.requested.union mode }
    | .disable mode => { s.mdDisableHandler mode with requested := s.requested.diff mode }
    | .notice events =>
      { s with
        h := { s.h with
          trigEpollEvents := s.h.trigEpollEvents.merge events, pending := true } }
    | .dispatch =>
      match s.phase, s.h.pending with
      | .idle, true => s.dispatch
      | _, _ => s
    | .ret =>
      match s.phase with
      | .idle => s
      | .reading events => s.dispatchWrite events
      | .writing => { s with phase := .idle }.mdRearm

/-- The interest that the kernel knows of. -/
def registered (s : Watch) : Mode := (s.kernel.getD {}).interest

/-- While no callback of the handler is running, the kernel knows the interest. -/
def Told (s : Watch) : Prop :=
  s.aborted = false ∧ (s.phase = .idle → s.registered = s.requested)

/-- A request that finds no callback running and the handler not armed leaves no interest, finds
none or changes nothing. -/
def Heard (s : Watch) : MdEvent → Prop
  | .enable mode => s.phase = .idle → s.h.armed = false →
    s.h.events = {} ∨
      ((mode.read → s.h.events.epollin) ∧ (mode.write → s.h.events.epollout))
  | .disable mode => s.phase = .idle → s.h.armed = false →
    (¬ (mode.read ∧ s.h.events.epollin) ∧ ¬ (mode.write ∧ s.h.events.epollout)) ∨
      ((s.h.events.epollin → mode.read) ∧ (s.h.events.epollout → mode.write))
  | _ => True

end Watch

namespace EpollEvents

variable {e e' : EpollEvents} {mode : Mode}

/-- Bits that are registered with the kernel. -/
def Edge (e : EpollEvents) : Prop := e.epollet = true ∧ e.epolloneshot = false

lemma Edge.ne_empty (h : Edge e) : e ≠ {} := by
  rintro rfl
  nomatch h.1

lemma Edge.eq (h : Edge e) (h' : Edge e') (heq : e.interest = e'.interest) : e = e' := by
  obtain ⟨epollin, epollout, _, _⟩ := e
  obtain ⟨epollin', epollout', _, _⟩ := e'
  obtain ⟨rfl, rfl⟩ := h
  obtain ⟨rfl, rfl⟩ := h'
  obtain ⟨rfl, rfl⟩ := Mode.mk.inj heq
  rfl

lemma edge_enable (h : e = {} ∨ Edge e) {mode : Mode} : Edge (e.enable mode false) := by
  refine ⟨or_true _, ?_⟩
  rcases h with rfl | h
  · rfl
  · rw [enable, h.2]
    rfl

lemma edge_disable (h : Edge e) {mode : Mode} : e.disable mode = {} ∨ Edge (e.disable mode) := by
  rw [disable]
  split
  · exact .inr h
  · exact .inl rfl

/-- Enabling changes nothing. -/
lemma Edge.enable_eq_iff (h : Edge e) : e = e.enable mode false ↔
    (mode.read → e.epollin) ∧ (mode.write → e.epollout) := by
  obtain ⟨epollin, epollout, _, _⟩ := e
  obtain ⟨read, write⟩ := mode
  obtain ⟨rfl, rfl⟩ := h
  cases epollin <;> cases epollout <;> cases read <;> cases write <;> decide

/-- Disabling changes nothing, or leaves nothing. -/
lemma Edge.disable_eq_iff (h : Edge e) : e = e.disable mode ∨ e.disable mode = {} ↔
    (¬ (mode.read ∧ e.epollin) ∧ ¬ (mode.write ∧ e.epollout)) ∨
      ((e.epollin → mode.read) ∧ (e.epollout → mode.write)) := by
  obtain ⟨epollin, epollout, _, _⟩ := e
  obtain ⟨read, write⟩ := mode
  obtain ⟨rfl, rfl⟩ := h
  cases epollin <;> cases epollout <;> cases read <;> cases write <;> decide

end EpollEvents

namespace Watch

open EpollEvents

variable {s : Watch} {events : EpollEvents} {mode : Mode}

/-- The record holds the interest that was requested, and the kernel knows of the handler if there
is any. Unless `mod` is set, it knows the interest. -/
structure Inv (s : Watch) : Prop where
  aborted : s.aborted = false
  requested : s.requested = s.h.events.interest
  trigLevel : s.h.trigLevel = false
  kernel : (s.kernel = none ∧ s.h.events = {}) ∨ ∃ k, s.kernel = some k ∧ Edge k ∧ Edge s.h.events
  busy : s.phase ≠ .idle → s.h.armed = false
  known : s.h.mod = false → s.kernel.getD {} = s.h.events

section

variable (h : s.Inv)

include h

lemma Inv.shape : s.h.events = {} ∨ Edge s.h.events := by
  rcases h.kernel with ⟨-, hempty⟩ | ⟨_, -, -, hedge⟩
  · exact .inl hempty
  · exact .inr hedge

lemma Inv.isSome (hne : s.h.events ≠ {}) : ∃ k, s.kernel = some k ∧ Edge k ∧ Edge s.h.events :=
  h.kernel.resolve_left fun hf ↦ hne hf.2

/-- **Where the kernel knows the interest**, it knows the bits of the record. -/
theorem Inv.kernel_eq (htold : s.registered = s.requested) : s.kernel.getD {} = s.h.events := by
  rw [registered, h.requested] at htold
  rcases h.kernel with ⟨hnone, hempty⟩ | ⟨k, hk, hedge, hedge'⟩
  · rw [hnone, hempty]
    rfl
  · rw [hk] at htold ⊢
    exact hedge.eq hedge' htold

/-- The kernel is told. -/
lemma Inv.tell (hshape : events = {} ∨ Edge events) (mod : Bool) :
    let s' := { s with
      h := { s.h with events := events, mod := mod }
      kernel := if events = ({} : EpollEvents) then none else some events
      requested := events.interest }
    s'.Inv ∧ s'.Told := by
  have hkernel : Option.getD (if events = {} then none else some events) ({} : EpollEvents) =
      events := by
    split
    · next hempty => exact hempty.symm
    · rfl
  refine ⟨⟨h.aborted, rfl, h.trigLevel, ?_, h.busy, fun _ ↦ hkernel⟩,
    h.aborted, fun _ ↦ congrArg interest hkernel⟩
  rcases hshape with rfl | hedge
  · exact .inl ⟨rfl, rfl⟩
  · exact .inr ⟨events, if_neg hedge.ne_empty, hedge, hedge⟩

/-- The change is noted. It is lost if no callback is running. -/
lemma Inv.note (hne : s.h.events ≠ {}) (hedge : Edge events) :
    let s' := { s with
      h := { s.h with events := events, mod := true }, requested := events.interest }
    s'.Inv ∧ (s.Told → s.h.events ≠ events → (s'.Told ↔ s.phase ≠ .idle)) := by
  obtain ⟨k, hk, hedge', hedge''⟩ := h.isSome hne
  refine ⟨⟨h.aborted, rfl, h.trigLevel, .inr ⟨k, hk, hedge', hedge⟩, h.busy, nofun⟩,
    fun htold hchange ↦ ⟨fun htold' hidle ↦ hchange ?_, fun hbusy ↦
      ⟨h.aborted, fun hidle ↦ absurd hidle hbusy⟩⟩⟩
  have hold := h.kernel_eq (htold.2 hidle)
  have hnew : (s.kernel.getD {}).interest = events.interest := htold'.2 hidle
  rw [hold] at hnew
  exact hedge''.eq hedge hnew

/-- A change of the bits, with some left. `P` is what would make it none. -/
lemma Inv.change (hne : s.h.events ≠ {}) (hedge : Edge events) (hchange : s.h.events ≠ events)
    {P : Prop} (hP : ¬ P) :
    let s' := { s.change events with requested := events.interest }
    s'.Inv ∧ (s.Told → (s'.Told ↔ (s.phase = .idle → s.h.armed = false → P))) := by
  obtain ⟨k, hk, -⟩ := h.isSome hne
  rw [Watch.change]
  split
  · next harmed =>
    have htell := h.tell (.inr hedge) s.h.mod
    rw [if_neg hedge.ne_empty] at htell
    simp only [epollCtlMod, hk]
    exact ⟨htell.1, fun _ ↦ iff_of_true htell.2 fun _ hf ↦ nomatch harmed.symm.trans hf⟩
  · next harmed =>
    refine ⟨(h.note hne hedge).1, fun htold ↦ ((h.note hne hedge).2 htold hchange).trans ?_⟩
    exact ⟨fun hbusy hidle ↦ absurd hidle hbusy, fun hf hidle ↦
      hP (hf hidle (eq_false_iff.mpr harmed))⟩

/-- **`triton_md_enable_handler`** -/
theorem Inv.enable (mode : Mode) :
    (s.step (.enable mode)).Inv ∧
      (s.Told → ((s.step (.enable mode)).Told ↔ s.Heard (.enable mode))) := by
  have hedge : Edge (s.h.events.enable mode false) := edge_enable h.shape
  have htrig : s.h.events.enable mode s.h.trigLevel = s.h.events.enable mode false := by
    rw [h.trigLevel]
  have hreq : s.requested.union mode = (s.h.events.enable mode false).interest := by
    rw [h.requested]
    rfl
  rw [step, if_neg (by rw [h.aborted]; exact false_ne_true)]
  simp only [mdEnableHandler, htrig, hreq]
  split
  · next hsame =>
    have hself : { s with requested := (s.h.events.enable mode false).interest } = s := by
      rw [← hsame, ← h.requested]
    rw [hself]
    refine ⟨h, fun htold ↦ iff_of_true htold fun _ _ ↦ h.shape.imp_right fun he ↦ ?_⟩
    exact he.enable_eq_iff.mp hsame
  · next hchange =>
    split
    · next hne =>
      obtain ⟨-, -, -, hedge'⟩ := h.isSome hne
      refine h.change hne hedge hchange ?_
      rintro (hf | hf)
      · exact hne hf
      · exact hchange (hedge'.enable_eq_iff.mpr hf)
    · next hempty =>
      have hempty := not_not.mp hempty
      have hnone : s.kernel = none := by
        rcases h.kernel with ⟨hnone, -⟩ | ⟨_, -, -, hf⟩
        · exact hnone
        · exact absurd hempty hf.ne_empty
      have htell := h.tell (.inr hedge) s.h.mod
      rw [if_neg hedge.ne_empty] at htell
      simp only [epollCtlAdd, hnone]
      exact ⟨htell.1, fun _ ↦ iff_of_true htell.2 fun _ _ ↦ .inl hempty⟩

/-- **`triton_md_disable_handler`** -/
theorem Inv.disable (mode : Mode) :
    (s.step (.disable mode)).Inv ∧
      (s.Told → ((s.step (.disable mode)).Told ↔ s.Heard (.disable mode))) := by
  have hreq : s.requested.diff mode = (s.h.events.disable mode).interest := by
    rw [h.requested, EpollEvents.disable]
    split
    · rfl
    · next hnone =>
      obtain ⟨hin, hout⟩ := or_eq_false_iff.mp (eq_false_iff.mpr hnone)
      exact (Mode.mk.injEq ..).mpr ⟨hin, hout⟩
  have hsame : s.h.events = s.h.events.disable mode →
      { s with requested := (s.h.events.disable mode).interest } = s := fun hsame ↦ by
    rw [← hsame, ← h.requested]
  rw [step, if_neg (by rw [h.aborted]; exact false_ne_true)]
  simp only [mdDisableHandler, hreq]
  split
  · next hempty =>
    rw [hsame (by rw [hempty]; rfl)]
    refine ⟨h, fun htold ↦ iff_of_true htold fun _ _ ↦ .inl ?_⟩
    rw [hempty]
    exact ⟨fun hf ↦ (nomatch hf.2), fun hf ↦ (nomatch hf.2)⟩
  · next hne =>
    obtain ⟨k, hk, -, hedge⟩ := h.isSome hne
    split
    · next hsame' =>
      rw [hsame hsame']
      exact ⟨h, fun htold ↦ iff_of_true htold fun _ _ ↦ hedge.disable_eq_iff.mp (.inl hsame')⟩
    next hchange =>
    split
    · next hleft =>
      have hedge' := (edge_disable hedge).resolve_left hleft
      refine h.change hne hedge' hchange fun hf ↦ ?_
      rcases hedge.disable_eq_iff.mpr hf with hf | hf
      · exact hchange hf
      · exact hleft hf
    · next hempty =>
      have hempty := not_not.mp hempty
      have htell := h.tell (.inl hempty) false
      rw [hempty] at htell
      simp only [epollCtlDel, hk, hempty]
      exact ⟨htell.1, fun _ ↦ iff_of_true htell.2 fun _ _ ↦
        hedge.disable_eq_iff.mp (.inr hempty)⟩

/-- **`md_rearm`**: the kernel knows the interest behind the callbacks. -/
theorem Inv.rearm : { s with phase := .idle }.mdRearm.Inv ∧
    { s with phase := .idle }.mdRearm.Told := by
  have hkernel : (if s.h.mod ∧ s.kernel.isSome then some s.h.events else s.kernel).getD {} =
      s.h.events := by
    split
    · rfl
    next hnot =>
    rcases h.kernel with ⟨hnone, hempty⟩ | ⟨k, hk, -⟩
    · rw [hnone, hempty]
      rfl
    · refine h.known (eq_false_iff.mpr fun hmod ↦ hnot ⟨hmod, ?_⟩)
      rw [hk]
      rfl
  refine ⟨⟨h.aborted, h.requested, h.trigLevel, ?_, fun hf ↦ absurd rfl hf, fun _ ↦ hkernel⟩,
    h.aborted, fun _ ↦ (congrArg interest hkernel).trans h.requested.symm⟩
  rcases h.kernel with ⟨hnone, hempty⟩ | ⟨k, hk, hedge, hedge'⟩
  · refine .inl ⟨?_, hempty⟩
    rw [hnone]
    exact if_neg fun hf ↦ nomatch hf.2
  refine .inr ?_
  show ∃ k, (if s.h.mod ∧ s.kernel.isSome then some s.h.events else s.kernel) = some k ∧ _
  split
  · exact ⟨s.h.events, rfl, hedge', hedge'⟩
  · exact ⟨k, hk, hedge, hedge'⟩

/-- A callback is started. -/
lemma Inv.call (harmed : s.h.armed = false) {phase : Phase} (hphase : phase ≠ .idle) :
    { s with phase := phase }.Inv ∧ { s with phase := phase }.Told :=
  ⟨{ h with busy := fun _ ↦ harmed },
    h.aborted, fun hidle ↦ absurd hidle hphase⟩

lemma Inv.dispatchWrite (harmed : s.h.armed = false) {events : Ready} :
    (s.dispatchWrite events).Inv ∧ (s.dispatchWrite events).Told := by
  rw [Watch.dispatchWrite]
  split
  · exact h.call harmed Phase.noConfusion
  · exact h.rearm

lemma Inv.dispatch : s.dispatch.Inv ∧ s.dispatch.Told := by
  have hclear : Inv { s with
      h := { s.h with pending := false, trigEpollEvents := {}, armed := false } } :=
    { h with busy := fun _ ↦ rfl }
  rw [Watch.dispatch]
  split
  · exact hclear.call rfl Phase.noConfusion
  · exact hclear.dispatchWrite rfl

/-- **One step** keeps the invariant; and if the kernel knows the interest, it goes on to do so
exactly if the request, if it is one, is heard. -/
theorem Inv.step (e : MdEvent) : (s.step e).Inv ∧ (s.Told → ((s.step e).Told ↔ s.Heard e)) := by
  have hrunning : ¬ s.aborted = true := by rw [h.aborted]; exact false_ne_true
  cases e with
  | enable mode => exact h.enable mode
  | disable mode => exact h.disable mode
  | notice events =>
    rw [Watch.step, if_neg hrunning]
    exact ⟨{ h with }, fun htold ↦ iff_of_true htold trivial⟩
  | dispatch =>
    rw [Watch.step, if_neg hrunning]
    split
    · exact ⟨h.dispatch.1, fun _ ↦ iff_of_true h.dispatch.2 trivial⟩
    · exact ⟨h, fun htold ↦ iff_of_true htold trivial⟩
  | ret =>
    rw [Watch.step, if_neg hrunning]
    split
    · exact ⟨h, fun htold ↦ iff_of_true htold trivial⟩
    · next events hphase =>
      have harmed := h.busy (by rw [hphase]; exact Phase.noConfusion)
      exact ⟨(h.dispatchWrite harmed).1, fun _ ↦
        iff_of_true (h.dispatchWrite harmed).2 trivial⟩
    · exact ⟨h.rearm.1, fun _ ↦ iff_of_true h.rearm.2 trivial⟩

end

/-- **The kernel knows the interest** whenever no callback of the handler is running, throughout a
run, exactly if each request is heard: one that changes an interest into another while the handler
has not been armed by a first event is not. -/
theorem always_told_iff (hasRead hasWrite : Bool) (es : List MdEvent) :
    Always step Told (mdRegisterHandler hasRead hasWrite) es ↔
      Along step Heard (mdRegisterHandler hasRead hasWrite) es :=
  always_iff_along_of_inv (fun _ e h ↦ (Inv.step h e).1) (fun _ e h htold ↦ (Inv.step h e).2 htold)
    ⟨rfl, rfl, rfl, .inl ⟨rfl, rfl⟩, fun h ↦ absurd rfl h, fun _ ↦ rfl⟩ ⟨rfl, fun _ ↦ rfl⟩

/-- **`abort` is never called**, and unless `mod` is set the kernel knows the record's events. -/
theorem always_known (hasRead hasWrite : Bool) (es : List MdEvent) :
    Always step Inv (mdRegisterHandler hasRead hasWrite) es :=
  fun pre _ ↦ List.foldlRecOn pre step
    ⟨rfl, rfl, rfl, .inl ⟨rfl, rfl⟩, fun h ↦ absurd rfl h, fun _ ↦ rfl⟩ fun _ h e _ ↦ (h.step e).1

/-- **A lost request.** Write interest is enabled after read interest and before the first event:
the kernel knows of the read interest only. -/
theorem write_interest_lost :
    let es := [.enable ⟨true, false⟩, .enable ⟨false, true⟩]
    let s := run step (mdRegisterHandler true true) es
    s.phase = .idle ∧ s.requested = ⟨true, true⟩ ∧ s.registered = ⟨true, false⟩ ∧
      ¬ Always step Told (mdRegisterHandler true true) es := by
  refine ⟨rfl, rfl, rfl, fun h ↦ ?_⟩
  nomatch h.last.2 rfl

end Watch

end AccelPpp.Triton
