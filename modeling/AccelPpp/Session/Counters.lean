import AccelPpp.Lib.Count
import AccelPpp.Lib.Run

/-!
# The counters of starting, active and finishing sessions

`session.c` keeps three counters beside the sessions. `ap_session_starting` adds a session to the
first, `ap_session_activate` moves it to the second, `ap_session_terminate` to the third, and
`ap_session_finished` takes it off the counter of its state. A soft shutdown is complete when all
three are zero.

Each session has its own context, and within it the calls are nested: the event handlers and the
callbacks of the controller, which these functions call, may terminate or finish the session again.
`Ses.frames` is the stack of such calls that have not returned; while the innermost runs, or if
there is none, any further call may be made. A step is either the code up to the next counter
operation (`Ses.op`) or that operation. The steps of different sessions are interleaved in any way.

What the callers see to is part of the model. A session is not activated while it is active or after
it has been finished, and only from outside all other calls. It is finished once, from outside or
from within `ctrl->terminate`. `establish_ppp` gives a session up when `ap_session_starting` refuses
it; `ipoe_session_start` and the restoring of a session go on with it (`checked`).

`always_counted_iff` says exactly which runs keep the counters right. There are two ways to fail.

* A session that was refused because of a shutdown, and that its caller goes on with, is in none
  of the three states. Terminating it takes one off `starting` nevertheless (`starting_below_zero`).
* A move is a decrement and then an increment. In between, the session is counted nowhere, and if it
  is the only one left the shutdown is complete (the example at the end).
-/

namespace AccelPpp.Session

open Counting List Transition
open Function (forall_update_iff update update_of_ne update_self)

/-- The counters of `struct ap_session_stat`. -/
inductive Stat where
  | starting
  | active
  | finishing
deriving DecidableEq

/-- `AP_STATE_…`; zero after `ap_session_init`. -/
inductive ApState where
  | unset
  | starting
  | active
  | finishing
  | restore
deriving DecidableEq

/-- The counter that `ap_session_finished` decrements. -/
def ApState.stat : ApState → Option Stat
  | .unset => none
  | .starting => some .starting
  | .restore => some .starting
  | .active => some .active
  | .finishing => some .finishing

lemma ApState.stat_eq_starting {state : ApState} (hunset : state ≠ .unset)
    (hactive : state ≠ .active) (hfinishing : state ≠ .finishing) :
    state.stat = some .starting := by
  cases state with
  | unset => exact absurd rfl hunset
  | active => exact absurd rfl hactive
  | finishing => exact absurd rfl hfinishing
  | starting => rfl
  | restore => rfl

/-- A call to the outside that has not returned. -/
inductive Frame where
  /-- `EV_SES_STARTING`. -/
  | starting
  /-- `ap_session_ifup` in `ap_session_activate`. -/
  | ifup
  /-- `ctrl->terminate` in `ap_session_terminate`. -/
  | ctrlTerminate
  /-- `ctrl->terminate` where the session is terminating already. -/
  | ctrlAgain
  /-- `ap_session_ifdown` and `EV_SES_FINISHING` in `ap_session_terminate`. -/
  | terminateFinishing
  /-- The same in `ap_session_finished`. -/
  | finishing
  /-- `EV_SES_PRE_FINISHED`. -/
  | preFinished
  /-- `EV_SES_FINISHED` and `ctrl->finished`. -/
  | finished
deriving DecidableEq

/-- The calls of `ap_session_finished` before it has changed a counter. -/
def Frame.completing : Frame → Bool
  | .finishing => true
  | .preFinished => true
  | _ => false

/-- The counter operation that comes next. -/
inductive Op where
  | startingInc
  | activateDec
  | activateInc
  | terminateDec
  | terminateInc
  | finishedDec
deriving DecidableEq

/-- `struct ap_session`, and where its context is. -/
structure Ses where
  state : ApState := .unset
  /-- It is in `ses_list`. -/
  listed : Bool := false
  stopTime : Bool := false
  terminating : Bool := false
  terminated : Bool := false
  down : Bool := false
  op : Option Op := none
  frames : List Frame := []
  /-- How often its completion has been counted. -/
  completed : ℕ := 0

/-- What a session's context does next, when it is not about to change a counter. -/
inductive Call where
  | activate
  | terminate (hard : Bool)
  | finished
  /-- The innermost call to the outside returns. -/
  | ret (r : Bool)

namespace Ses

/-- `ap_session_activate` up to `ap_session_ifup`. -/
def activate (apShutdown : Bool) (x : Ses) : Ses :=
  if apShutdown then x else { x with frames := .ifup :: x.frames }

/-- `ap_session_terminate` up to the counters, or up to `ctrl->terminate`. -/
def terminate (hard : Bool) (x : Ses) : Ses :=
  if x.terminated then x
  else
    let x := { x with stopTime := true }
    if x.terminating then
      if hard then { x with frames := .ctrlAgain :: x.frames }
      else if x.state = .finishing then { x with frames := .ctrlAgain :: x.frames }
      else x
    else { x with op := some .terminateDec }

/-- `ap_session_finished` up to the first event. -/
def finished (x : Ses) : Ses :=
  let frame := if x.down then .preFinished else .finishing
  { x with terminated := true, frames := frame :: x.frames }

/-- What follows when the innermost call returns. -/
def ret (r : Bool) (x : Ses) : Ses :=
  match x.frames with
  | [] => x
  | frame :: rest =>
    let x := { x with frames := rest }
    match frame with
    | .starting => x
    | .ifup => if x.stopTime then x else { x with op := some .activateDec }
    | .ctrlTerminate => if r then { x with frames := .terminateFinishing :: rest } else x
    | .ctrlAgain => x
    | .terminateFinishing => { x with down := true }
    | .finishing => { x with frames := .preFinished :: rest }
    | .preFinished => { x with op := some .finishedDec }
    | .finished => x

/-- The calls that are made: of a session that is not about to change a counter. -/
def call (apShutdown : Bool) (x : Ses) : Call → Ses
  | .activate =>
    if x.op = none ∧ x.frames = [] ∧ x.terminated = false ∧ x.state ≠ .active then
      x.activate apShutdown
    else x
  | .terminate hard => if x.op = none then x.terminate hard else x
  | .finished =>
    if x.op = none ∧ x.terminated = false ∧
        (x.frames = [] ∨ x.frames.head? = some .ctrlTerminate ∨
          x.frames.head? = some .ctrlAgain) then x.finished
    else x
  | .ret r => if x.op = none then x.ret r else x

/-- The counter operation: `ap_session_stat_inc` or `ap_session_stat_dec` of one of the counters. -/
def change (x : Ses) : Op → Stat → ℤ
  | .startingInc, k => unit (some .starting) k
  | .activateDec, k => -unit (some .starting) k
  | .activateInc, k => unit (some .active) k
  | .terminateDec, k => -unit (some (if x.state = .active then .active else .starting)) k
  | .terminateInc, k => unit (some .finishing) k
  | .finishedDec, k => -unit x.state.stat k

/-- What the session does along with it. -/
def perform (x : Ses) : Op → Ses
  | .startingInc =>
    { x with
      state := if x.state = .restore then .restore else .starting
      listed := true
      op := none
      frames := .starting :: x.frames }
  | .activateDec => { x with state := .active, op := some .activateInc }
  | .activateInc => { x with op := none }
  | .terminateDec => { x with op := some .terminateInc }
  | .terminateInc =>
    { x with
      terminating := true
      state := .finishing
      op := none
      frames := .ctrlTerminate :: x.frames }
  | .finishedDec =>
    { x with
      listed := false
      op := none
      frames := .finished :: x.frames
      completed := x.completed + 1 }

end Ses

/-- All sessions, in the order in which they were created. -/
structure Sessions where
  total : ℕ := 0
  ses : ℕ → Ses := fun _ ↦ {}
  stat : Stat → ℤ := fun _ ↦ 0
  apShutdown : Bool := false
  /-- `list_del` was called for an entry that is in no list. -/
  corrupt : Bool := false

inductive SesEvent where
  /-- `ap_session_starting` for a new session, or for one that is being restored. -/
  | starting (restore checked : Bool)
  | call (i : ℕ) (c : Call)
  /-- The next counter operation of a session. -/
  | next (i : ℕ)
  /-- A soft shutdown is begun, or cancelled. -/
  | shutdown (on : Bool)

namespace Sessions

/-- `ap_session_stat_idle`; the hooks are asked besides. -/
def statIdle (s : Sessions) (hooksBusy : Bool) : Bool :=
  s.stat .starting = 0 && s.stat .active = 0 && s.stat .finishing = 0 && !hooksBusy

/-- `ap_session_starting` up to the counter. -/
def starting (s : Sessions) (restore checked : Bool) : Sessions :=
  let x : Ses := { state := if restore then .restore else .unset }
  if s.apShutdown then
    if checked then s else { s with total := s.total + 1, ses := Function.update s.ses s.total x }
  else
    { s with
      total := s.total + 1
      ses := Function.update s.ses s.total { x with op := some .startingInc } }

/-- The next counter operation. -/
def next (s : Sessions) (i : ℕ) : Sessions :=
  let x := s.ses i
  match x.op with
  | none => s
  | some o =>
    { s with
      ses := Function.update s.ses i (x.perform o)
      stat := fun k ↦ s.stat k + x.change o k
      corrupt := s.corrupt || (o == .finishedDec && !x.listed) }

def step (s : Sessions) : SesEvent → Sessions
  | .starting restore checked => s.starting restore checked
  | .call i c =>
    if i < s.total then
      { s with ses := Function.update s.ses i ((s.ses i).call s.apShutdown c) }
    else s
  | .next i => if i < s.total then s.next i else s
  | .shutdown on => { s with apShutdown := on }

end Sessions

/-! ### What holds of each session -/

namespace Ses

/-- In the middle of `ap_session_stat_move`. -/
def moving (x : Ses) : Bool :=
  x.op == some .activateInc || x.op == some .terminateInc

/-- **Where a session is counted.** In the middle of a move it is counted nowhere. -/
def place (x : Ses) : Option Stat :=
  if x.listed && !x.moving then x.state.stat else none

/-- The completions that have been begun and are still to be counted. -/
def pending (x : Ses) : ℕ :=
  x.frames.countP Frame.completing + if x.op = some .finishedDec then 1 else 0

/-- What a counter operation relies on. -/
def OpOk (x : Ses) : Op → Prop
  | .startingInc => x.listed = false ∧ x.frames = [] ∧ x.terminating = false ∧ x.terminated = false
  | .activateDec => x.stopTime = false ∧ x.state ≠ .active ∧ .ifup ∉ x.frames
  | .activateInc => x.state = .active ∧ .ifup ∉ x.frames
  | .terminateDec => x.stopTime = true ∧ x.terminating = false
  | .terminateInc => x.stopTime = true ∧ x.terminating = false
  | .finishedDec => True

/-- **A session's own state is consistent.** -/
structure Ok (x : Ses) : Prop where
  terminating_iff : x.terminating = true ↔ x.state = .finishing
  stopped : x.terminating = true → x.stopTime = true
  ifup : .ifup ∈ x.frames → x.stopTime = false → x.state ≠ .active
  ifup_once : x.frames.count .ifup ≤ 1
  op : ∀ o ∈ x.op, x.OpOk o
  once : x.completed + x.pending = if x.terminated then 1 else 0
  listed : x.listed = true → x.state ≠ .unset

variable {x : Ses}

lemma ok_new {state : ApState} {op : Option Op} (hstate : state = .restore ∨ state = .unset)
    (hop : op = none ∨ op = some .startingInc) : Ok { state, op } where
  terminating_iff := by obtain rfl | rfl := hstate <;> exact iff_of_false nofun nofun
  stopped := nofun
  ifup := nofun
  ifup_once := Nat.zero_le _
  op := by
    obtain rfl | rfl := hop
    · nofun
    · rintro _ ⟨⟩
      exact ⟨rfl, rfl, rfl, rfl⟩
  once := by obtain rfl | rfl := hop <;> rfl
  listed := nofun

/-- Without an operation, the completions to be counted are on the stack. -/
lemma Ok.once_frames (h : x.Ok) (hop : x.op = none) :
    x.completed + x.frames.countP Frame.completing = if x.terminated then 1 else 0 := by
  have honce := h.once
  rwa [pending, hop, if_neg nofun, Nat.add_zero] at honce

/-- Other calls are on the stack, none of them a new `ap_session_ifup`. -/
lemma Ok.reframe (h : x.Ok) (hop : x.op = none) {frames : List Frame} {terminated : Bool}
    (hifup : frames.count .ifup ≤ x.frames.count .ifup)
    (honce : x.completed + frames.countP Frame.completing = if terminated then 1 else 0) :
    Ok { x with frames, terminated } :=
  { h with
    ifup := fun hmem ↦ h.ifup (count_pos_iff.mp ((count_pos_iff.mpr hmem).trans_le hifup))
    ifup_once := hifup.trans h.ifup_once
    op := by
      rw [hop]
      nofun
    once := by
      rw [pending]
      rw [hop, if_neg nofun, Nat.add_zero, honce] }

/-- The session is to be stopped. -/
lemma Ok.stop (h : x.Ok) (hop : x.op = none) : Ok { x with stopTime := true } :=
  { h with
    stopped := fun _ ↦ rfl
    ifup := nofun
    op := by
      rw [hop]
      nofun }

variable {o : Op}

lemma place_of_not_listed (hlisted : x.listed = false) : x.place = none := by
  rw [place, hlisted]
  rfl

lemma place_of_moving (hmoving : x.moving = true) : x.place = none := by
  rw [place, hmoving, Bool.not_true, Bool.and_false]
  rfl

lemma place_of_listed (hlisted : x.listed = true) (hmoving : x.moving = false) :
    x.place = x.state.stat := by
  rw [place, hlisted, hmoving]
  rfl

section

variable (h : x.Ok)

include h

section

variable (hop : x.op = none)

include hop

/-- A counter operation comes next that is not the one of a completion. -/
lemma Ok.await (ho : x.OpOk o) (hfin : o ≠ .finishedDec) : Ok { x with op := some o } :=
  { h with
    op := by
      rintro _ ⟨⟩
      cases o <;> exact ho
    once := by
      rw [← h.once, pending, pending, hop, if_neg fun hf ↦ hfin (Option.some_inj.mp hf),
        if_neg nofun] }

lemma Ok.activate (hframes : x.frames = [])
    (hstate : x.state ≠ .active) (apShutdown : Bool) : (x.activate apShutdown).Ok := by
  rw [Ses.activate]
  split
  · exact h
  have honce := h.once_frames hop
  rw [hframes] at honce
  exact
    { terminating_iff := h.terminating_iff
      stopped := h.stopped
      ifup := fun _ _ ↦ hstate
      ifup_once := by rw [hframes]; exact le_rfl
      op := by rw [hop]; nofun
      once := by rw [hop, hframes]; exact honce
      listed := h.listed }

lemma Ok.terminate (hard : Bool) : (x.terminate hard).Ok := by
  have hstop := h.stop hop
  have hagain : Ok { x with stopTime := true, frames := .ctrlAgain :: x.frames } :=
    hstop.reframe hop le_rfl (h.once_frames hop)
  rw [Ses.terminate]
  split
  · exact h
  dsimp only
  split
  · split
    · exact hagain
    · split
      · exact hagain
      · exact hstop
  next hterm => exact hstop.await hop ⟨rfl, Bool.eq_false_iff.mpr hterm⟩ nofun

lemma Ok.finished (hlive : x.terminated = false) : x.finished.Ok := by
  have honce := h.once_frames hop
  rw [hlive] at honce
  rw [Ses.finished]
  split
  all_goals
    refine h.reframe hop le_rfl ?_
    rw [countP_cons_of_pos rfl, ← Nat.add_assoc, honce]
    rfl

lemma Ok.ret (r : Bool) : (x.ret r).Ok := by
  have honce := h.once_frames hop
  rw [Ses.ret]
  split
  next => exact h
  next frame rest hframes =>
    have hifup : rest.count .ifup ≤ x.frames.count .ifup := by
      rw [hframes]
      exact count_le_count_cons
    rw [hframes, countP_cons] at honce
    have hpop : frame.completing = false → Ok { x with frames := rest } := fun hf ↦ by
      rw [hf] at honce
      exact h.reframe hop hifup honce
    cases frame with
    | starting | ctrlAgain | finished => exact hpop rfl
    | ifup =>
      dsimp only
      split
      · exact hpop rfl
      next hstop =>
        have hlast : rest.count .ifup = 0 := by
          have hcount := h.ifup_once
          rw [hframes, count_cons_self] at hcount
          omega
        refine (hpop rfl).await hop ⟨Bool.eq_false_iff.mpr hstop, ?_, count_eq_zero.mp hlast⟩
          nofun
        exact h.ifup (hframes ▸ mem_cons_self) (Bool.eq_false_iff.mpr hstop)
    | ctrlTerminate =>
      dsimp only
      split
      · exact h.reframe hop hifup honce
      · exact hpop rfl
    | terminateFinishing =>
      have h' := hpop rfl
      exact ⟨h'.1, h'.2, h'.3, h'.4, by rw [hop]; nofun, h'.6, h'.7⟩
    | finishing =>
      refine h.reframe hop hifup ?_
      rw [countP_cons_of_pos rfl]
      exact honce
    | preFinished =>
      exact
        { terminating_iff := h.terminating_iff
          stopped := h.stopped
          ifup := fun hmem ↦ h.ifup (hframes ▸ mem_cons_of_mem _ hmem)
          ifup_once := hifup.trans h.ifup_once
          op := by rintro _ ⟨⟩; trivial
          once := honce
          listed := h.listed }

end

/-- **Whatever a session does by itself, it stays consistent.** -/
theorem Ok.call (apShutdown : Bool) (c : Call) : (x.call apShutdown c).Ok := by
  cases c with
  | activate =>
    exact iteInduction (fun hg ↦ h.activate hg.1 hg.2.1 hg.2.2.2 apShutdown) fun _ ↦ h
  | terminate hard => exact iteInduction (h.terminate · hard) fun _ ↦ h
  | finished => exact iteInduction (fun hg ↦ h.finished hg.1 hg.2.1) fun _ ↦ h
  | ret r => exact iteInduction (h.ret · r) fun _ ↦ h

/-- **A counter operation leaves the session consistent.** -/
theorem Ok.perform (ho : x.op = some o) : (x.perform o).Ok := by
  have hop := h.op o ho
  have honce : x.completed +
      (x.frames.countP Frame.completing + if o = .finishedDec then 1 else 0) =
      if x.terminated then 1 else 0 := by
    rw [← h.once, pending, ho]
    simp only [Option.some_inj]
  cases o with
  | startingInc =>
    obtain ⟨-, hframes, hterm, -⟩ := hop
    refine ⟨?_, h.stopped, fun _ _ ↦ ?_, ?_, nofun, honce, fun _ ↦ ?_⟩
    · refine iff_of_false (Bool.eq_false_iff.mp hterm) ?_
      dsimp only [Ses.perform]
      split <;> nofun
    · dsimp only [Ses.perform]
      split <;> nofun
    · rw [Ses.perform, hframes]
      exact Nat.zero_le _
    · dsimp only [Ses.perform]
      split <;> nofun
  | activateDec =>
    obtain ⟨hstop, hstate, hifup⟩ := hop
    have hterm : x.terminating = false :=
      Bool.eq_false_iff.mpr fun ht ↦ nomatch hstop.symm.trans (h.stopped ht)
    refine ⟨?_, h.stopped, fun hmem ↦ absurd hmem hifup, h.ifup_once, ?_, honce, fun _ ↦ nofun⟩
    · exact iff_of_false (Bool.eq_false_iff.mp hterm) nofun
    · rintro _ ⟨⟩
      exact ⟨rfl, hifup⟩
  | activateInc =>
    exact { h with op := nofun, once := honce }
  | terminateDec =>
    refine { h with op := ?_, once := honce }
    rintro _ ⟨⟩
    exact hop
  | terminateInc =>
    refine ⟨iff_of_true rfl rfl, fun _ ↦ hop.1, fun _ hstop ↦ ?_, h.ifup_once, nofun, honce,
      fun _ ↦ nofun⟩
    nomatch hop.1.symm.trans hstop
  | finishedDec =>
    refine ⟨h.terminating_iff, h.stopped, fun hmem ↦ h.ifup ?_, h.ifup_once, nofun, ?_, nofun⟩
    · exact (mem_cons.mp hmem).resolve_left nofun
    · exact (Nat.add_right_comm x.completed 1 _).trans honce

/-- **A counter operation changes the counters as the session changes its place**, when it is the
one that starts the session and when the session has been started. -/
theorem Ok.change_eq (ho : x.op = some o) (hlisted : o ≠ .startingInc → x.listed = true)
    (k : Stat) : x.change o k = -unit x.place k + unit (x.perform o).place k := by
  have hop := h.op o ho
  have hnone : unit (none : Option Stat) k = 0 := rfl
  have hmoving : x.moving = (o == .activateInc || o == .terminateInc) := by
    rw [moving, ho]
    rfl
  have hfinishing : x.terminating = false → x.state ≠ .finishing := fun hterm hstate ↦
    nomatch hterm.symm.trans (h.terminating_iff.mpr hstate)
  cases o with
  | startingInc =>
    have hplace : (x.perform .startingInc).place = some .starting := by
      dsimp only [Ses.perform]
      split <;> rfl
    rw [place_of_not_listed hop.1, hplace, Ses.change]
    omega
  | activateDec =>
    have hlisted := hlisted nofun
    have hterm : x.terminating = false :=
      Bool.eq_false_iff.mpr fun ht ↦ nomatch hop.1.symm.trans (h.stopped ht)
    rw [place_of_listed hlisted hmoving, place_of_moving rfl, Ses.change,
      ApState.stat_eq_starting (h.listed hlisted) hop.2.1 (hfinishing hterm)]
    omega
  | activateInc =>
    have hlisted := hlisted nofun
    have hplace : (x.perform .activateInc).place = x.state.stat := place_of_listed hlisted rfl
    rw [place_of_moving hmoving, hplace, hop.1, Ses.change, ApState.stat]
    omega
  | terminateDec =>
    have hlisted := hlisted nofun
    have hplace : x.place = some (if x.state = .active then .active else .starting) := by
      rw [place_of_listed hlisted hmoving]
      split
      next hactive => rw [hactive]; rfl
      next hactive =>
        exact ApState.stat_eq_starting (h.listed hlisted) hactive (hfinishing hop.2)
    rw [hplace, place_of_moving rfl, hnone, Ses.change]
    omega
  | terminateInc =>
    have hlisted := hlisted nofun
    have hplace : (x.perform .terminateInc).place = some .finishing := place_of_listed hlisted rfl
    rw [place_of_moving hmoving, hplace, hnone, Ses.change]
    omega
  | finishedDec =>
    have hlisted := hlisted nofun
    rw [place_of_listed hlisted hmoving, place_of_not_listed rfl, Ses.change]
    omega

end

/-- A counter operation of a session that has not been started changes a counter, which it should
not. A completion may have no counter to change. -/
lemma exists_change_ne (hlisted : x.listed = false) (hstart : o ≠ .startingInc)
    (hfin : o ≠ .finishedDec) :
    ∃ k, x.change o k ≠ -unit x.place k + unit (x.perform o).place k := by
  have hplace : (x.perform o).place = none := by
    cases o with
    | startingInc => exact absurd rfl hstart
    | finishedDec => exact absurd rfl hfin
    | _ => exact place_of_not_listed hlisted
  have hunit : ∀ k : Stat, unit (some k) k = 1 := fun k ↦ if_pos rfl
  rw [place_of_not_listed hlisted, hplace]
  cases o with
  | startingInc => exact absurd rfl hstart
  | finishedDec => exact absurd rfl hfin
  | activateDec => exact ⟨.starting, by rw [Ses.change]; nofun⟩
  | activateInc => exact ⟨.active, by rw [Ses.change, hunit]; nofun⟩
  | terminateDec => exact ⟨_, by rw [Ses.change, hunit]; nofun⟩
  | terminateInc => exact ⟨.finishing, by rw [Ses.change]; nofun⟩

/-- A session that is about to change a counter is still where it was. -/
lemma place_await (hop : x.op = none) (ho : o ≠ .activateInc ∧ o ≠ .terminateInc) :
    place { x with op := some o } = x.place := by
  have hmoving : moving { x with op := some o } = false := by
    cases o with
    | activateInc => exact absurd rfl ho.1
    | terminateInc => exact absurd rfl ho.2
    | _ => rfl
  rw [place, place, hmoving, moving, hop]
  rfl

/-- The calls do not change where a session is counted. -/
lemma call_place {x : Ses} {apShutdown : Bool} {c : Call} :
    (x.call apShutdown c).place = x.place ∧ (x.call apShutdown c).listed = x.listed := by
  cases c <;> rw [call]
  case activate =>
    split
    · rw [activate]
      split <;> exact ⟨rfl, rfl⟩
    · exact ⟨rfl, rfl⟩
  case terminate hard =>
    split
    next hop =>
      rw [terminate]
      dsimp only
      split
      · exact ⟨rfl, rfl⟩
      split
      · split
        · exact ⟨rfl, rfl⟩
        · split <;> exact ⟨rfl, rfl⟩
      · exact ⟨place_await hop ⟨nofun, nofun⟩, rfl⟩
    next => exact ⟨rfl, rfl⟩
  case finished =>
    split <;> exact ⟨rfl, rfl⟩
  case ret r =>
    split
    next hop =>
      rw [ret]
      split
      next => exact ⟨rfl, rfl⟩
      next frame rest hframes =>
        cases frame with
        | ifup =>
          dsimp only
          split
          · exact ⟨rfl, rfl⟩
          · exact ⟨place_await hop ⟨nofun, nofun⟩, rfl⟩
        | ctrlTerminate =>
          dsimp only
          split <;> exact ⟨rfl, rfl⟩
        | preFinished => exact ⟨place_await hop ⟨nofun, nofun⟩, rfl⟩
        | _ => exact ⟨rfl, rfl⟩
    next => exact ⟨rfl, rfl⟩

end Ses

/-! ### All sessions -/

namespace Sessions

/-- **The counters are right.** -/
structure Sound (s : Sessions) : Prop where
  counts : Tally (Ses.place ∘ s.ses) s.total s.stat
  nonneg : ∀ k, 0 ≤ s.stat k
  once : ∀ i < s.total, (s.ses i).completed + (s.ses i).pending =
    if (s.ses i).terminated then 1 else 0
  intact : s.corrupt = false
  idle : ∀ hooksBusy, s.statIdle hooksBusy = true ↔
    (∀ i < s.total, (s.ses i).listed = false) ∧ hooksBusy = false

/-- Another session than this is counted. -/
def Others (s : Sessions) (i : ℕ) : Prop :=
  ∃ j < s.total, j ≠ i ∧ (s.ses j).place ≠ none

/-- **The condition on a step.** A counter operation other than the first is made only for a session
that has been started. The decrement of a move leaves another session counted, and so does that of a
completion unless no session is left. -/
def Fit (s : Sessions) : SesEvent → Prop
  | .next i => i < s.total → ∀ o ∈ (s.ses i).op,
    (o ≠ .startingInc → (s.ses i).listed = true) ∧
    (o = .activateDec ∨ o = .terminateDec → s.Others i) ∧
    (o = .finishedDec → s.Others i ∨ ∀ j < s.total, j ≠ i → (s.ses j).listed = false)
  | _ => True

/-- Every session is consistent. -/
def Consistent (s : Sessions) : Prop :=
  ∀ i, (s.ses i).Ok

variable {s : Sessions}

lemma Consistent.step (h : s.Consistent) (e : SesEvent) : (s.step e).Consistent := by
  have hupdate : ∀ i x, x.Ok → ∀ j, (update s.ses i x j).Ok := fun i x hx ↦
    (forall_update_iff s.ses fun _ x ↦ x.Ok).mpr ⟨hx, fun j _ ↦ h j⟩
  cases e with
  | starting restore checked =>
    have hstate : (if restore then ApState.restore else .unset) = .restore ∨
        (if restore then ApState.restore else .unset) = .unset := by cases restore <;> simp
    rw [Sessions.step, starting]
    split
    · split
      · exact h
      · exact hupdate _ _ (Ses.ok_new hstate (.inl rfl))
    · exact hupdate _ _ (Ses.ok_new hstate (.inr rfl))
  | call i c =>
    rw [Sessions.step]
    split
    · exact hupdate i _ ((h i).call s.apShutdown c)
    · exact h
  | next i =>
    rw [Sessions.step]
    split
    · rw [next]
      split
      · exact h
      next o ho => exact hupdate i _ ((h i).perform ho)
    · exact h
  | shutdown on => exact h

/-- The counters are all zero if and only if no session is counted. -/
lemma statIdle_iff (h : Tally (Ses.place ∘ s.ses) s.total s.stat) {hooksBusy : Bool} :
    s.statIdle hooksBusy = true ↔ (∀ i < s.total, (s.ses i).place = none) ∧ hooksBusy = false := by
  have hzero : (∀ k, s.stat k = 0) ↔ ∀ i < s.total, (s.ses i).place = none := h.zero_iff
  have hall : (∀ k, s.stat k = 0) ↔
      s.stat .starting = 0 ∧ s.stat .active = 0 ∧ s.stat .finishing = 0 := by
    refine ⟨fun hs ↦ ⟨hs _, hs _, hs _⟩, fun hs k ↦ ?_⟩
    cases k with
    | starting => exact hs.1
    | active => exact hs.2.1
    | finishing => exact hs.2.2
  rw [← hzero, hall, statIdle]
  simp [and_assoc]

/-- A session that is left is counted, unless it is in the middle of a move. So the shutdown
condition is right if and only if with a session left there is one that is counted. -/
lemma idle_iff (h : Tally (Ses.place ∘ s.ses) s.total s.stat) :
    (∀ hooksBusy, s.statIdle hooksBusy = true ↔
        (∀ i < s.total, (s.ses i).listed = false) ∧ hooksBusy = false) ↔
      ((∀ i < s.total, (s.ses i).place = none) → ∀ i < s.total, (s.ses i).listed = false) := by
  constructor
  · intro hidle hnone
    exact ((hidle false).mp ((statIdle_iff h).mpr ⟨hnone, rfl⟩)).1
  · intro himp hooksBusy
    rw [statIdle_iff h]
    refine and_congr_left' ⟨himp, fun hlisted i hi ↦ ?_⟩
    exact Ses.place_of_not_listed (hlisted i hi)

/-- What is left to be shown where every session is consistent. -/
lemma Consistent.sound_iff (h : s.Consistent) :
    s.Sound ↔ Tally (Ses.place ∘ s.ses) s.total s.stat ∧ s.corrupt = false ∧
      ((∀ i < s.total, (s.ses i).place = none) → ∀ i < s.total, (s.ses i).listed = false) := by
  constructor
  · intro hs
    exact ⟨hs.counts, hs.intact, (idle_iff hs.counts).mp hs.idle⟩
  · rintro ⟨hcounts, hintact, hidle⟩
    exact ⟨hcounts, hcounts.nonneg, fun i _ ↦ (h i).once, hintact, (idle_iff hcounts).mpr hidle⟩

lemma not_others_iff : ¬ s.Others i ↔ ∀ j < s.total, j ≠ i → (s.ses j).place = none := by
  simp [Others]

/-- The shutdown condition after one session has changed. -/
lemma idle_update_iff (hi : i < s.total) (y : Ses) :
    ((∀ j < s.total, (update s.ses i y j).place = none) →
        ∀ j < s.total, (update s.ses i y j).listed = false) ↔
      (y.place = none → s.Others i ∨
        y.listed = false ∧ ∀ j < s.total, j ≠ i → (s.ses j).listed = false) := by
  have hplace := forall_update_iff s.ses (a := i) (b := y)
    fun j x ↦ j < s.total → x.place = none
  have hlisted := forall_update_iff s.ses (a := i) (b := y)
    fun j x ↦ j < s.total → x.listed = false
  have hswap : ∀ P : ℕ → Prop, (∀ j, j ≠ i → j < s.total → P j) ↔ ∀ j < s.total, j ≠ i → P j :=
    fun P ↦ forall_congr' fun j ↦ imp.swap
  rw [hplace, hlisted, hswap, hswap, imp_iff_right hi, imp_iff_right hi, ← not_others_iff, and_imp]
  refine imp_congr_right fun _ ↦ ?_
  rw [or_iff_not_imp_left]

section

variable (h : s.Sound) (hs : s.Consistent)

include h hs

/-- A session that has not been started changes nothing. -/
lemma Sound.starting (restore checked : Bool) : (s.step (.starting restore checked)).Sound := by
  have hidle := (hs.sound_iff.mp h).2.2
  have hnew : ∀ x : Ses, x.listed = false →
      Tally (Ses.place ∘ update s.ses s.total x) (s.total + 1) s.stat ∧ s.corrupt = false ∧
      ((∀ i < s.total + 1, (update s.ses s.total x i).place = none) →
        ∀ i < s.total + 1, (update s.ses s.total x i).listed = false) := by
    intro x hx
    have hold : ∀ i < s.total, update s.ses s.total x i = s.ses i := fun i hi ↦
      update_of_ne (Nat.ne_of_lt hi) ..
    have hself : update s.ses s.total x s.total = x := update_self ..
    refine ⟨?_, h.intact, fun hnone i hi ↦ ?_⟩
    · have hcounts := (h.counts.congr (g := Ses.place ∘ update s.ses s.total x)
        fun i hi ↦ congrArg Ses.place (hold i hi).symm).succ
      rw [Function.comp_apply, hself, Ses.place_of_not_listed hx] at hcounts
      exact fun k ↦ (Int.add_zero _).symm.trans (hcounts k)
    obtain hlt | rfl := Nat.lt_succ_iff_lt_or_eq.mp hi
    · rw [hold i hlt]
      refine hidle (fun j hj ↦ ?_) i hlt
      rw [← hold j hj]
      exact hnone j (Nat.lt_succ_of_lt hj)
    · rw [hself]
      exact hx
  refine (hs.step (.starting restore checked)).sound_iff.mpr ?_
  rw [step, Sessions.starting]
  split
  · split
    · exact hs.sound_iff.mp h
    · exact hnew _ rfl
  · exact hnew _ rfl

lemma Sound.call (i : ℕ) (c : Call) : (s.step (.call i c)).Sound := by
  obtain ⟨hcounts, hintact, hidle⟩ := hs.sound_iff.mp h
  refine (hs.step (.call i c)).sound_iff.mpr ?_
  rw [step]
  split
  next =>
    have hsame : ∀ j, (update s.ses i ((s.ses i).call s.apShutdown c) j).place =
        (s.ses j).place ∧ (update s.ses i ((s.ses i).call s.apShutdown c) j).listed =
        (s.ses j).listed :=
      (forall_update_iff s.ses fun j x ↦
        x.place = (s.ses j).place ∧ x.listed = (s.ses j).listed).mpr
        ⟨Ses.call_place, fun _ _ ↦ ⟨rfl, rfl⟩⟩
    refine ⟨hcounts.congr fun j _ ↦ (hsame j).1.symm, hintact, fun hnone j hj ↦ ?_⟩
    rw [(hsame j).2]
    exact hidle (fun j hj ↦ (hsame j).1.symm.trans (hnone j hj)) j hj
  next => exact ⟨hcounts, hintact, hidle⟩

variable {i : ℕ}

/-- The counters are right after a counter operation if and only if the session has been started, or
is being started. -/
lemma Sound.counts_iff (hi : i < s.total) {o : Op} (ho : (s.ses i).op = some o) :
    (Tally (Ses.place ∘ update s.ses i ((s.ses i).perform o)) s.total
        (fun k ↦ s.stat k + (s.ses i).change o k) ∧
      (s.corrupt || (o == .finishedDec && !(s.ses i).listed)) = false) ↔
      (o ≠ .startingInc → (s.ses i).listed = true) := by
  have hupdate := tally_update_iff (d := fun k ↦ s.stat k + (s.ses i).change o k) h.counts hi
    ((s.ses i).perform o).place
  have hk : (∀ k, s.stat k + (s.ses i).change o k = s.stat k - unit (s.ses i).place k +
      unit ((s.ses i).perform o).place k) ↔
      ∀ k, (s.ses i).change o k = -unit (s.ses i).place k + unit ((s.ses i).perform o).place k :=
    forall_congr' fun k ↦ by constructor <;> intro hk <;> omega
  rw [Function.comp_update, hupdate, Function.comp_apply, hk, h.intact, Bool.false_or]
  constructor
  · rintro ⟨hchange, hlist⟩ hstart
    by_contra hlisted
    have hlisted := Bool.eq_false_iff.mpr hlisted
    by_cases hfin : o = .finishedDec
    · rw [hfin, hlisted] at hlist
      nomatch hlist
    · obtain ⟨k, hne⟩ := Ses.exists_change_ne hlisted hstart hfin
      exact hne (hchange k)
  · intro hlisted
    refine ⟨(hs i).change_eq ho hlisted, ?_⟩
    obtain rfl | hlisted := or_iff_not_imp_left.mpr hlisted
    · rfl
    · rw [hlisted, Bool.not_true, Bool.and_false]

/-- **A counter operation keeps the counters right if and only if it is fit.** -/
theorem Sound.next_iff : (s.step (.next i)).Sound ↔ s.Fit (.next i) := by
  rw [(hs.step (.next i)).sound_iff, step, Fit]
  split
  next hi =>
    rw [Sessions.next]
    split
    next hop =>
      rw [hop]
      exact iff_of_true (hs.sound_iff.mp h) fun _ ↦ nofun
    next o hop =>
      have hcounts := h.counts_iff hs hi hop
      rw [hop, imp_iff_right hi]
      rw [← and_assoc, hcounts, idle_update_iff hi]
      simp only [Option.mem_some, forall_eq']
      refine and_congr_right fun hlisted ↦ ?_
      have hinc : ∀ k, (s.ses i).change o k = 1 → ((s.ses i).perform o).place ≠ none :=
        fun k hinc hnone ↦ by
          have hchange := (hs i).change_eq hop hlisted k
          rw [hinc, hnone] at hchange
          unfold unit at hchange
          split at hchange <;> simp at hchange
      -- The decrement of a move: the session is left, so another one has to be counted.
      have hmove : ((s.ses i).perform o).place = none → ((s.ses i).perform o).listed = true →
          ((((s.ses i).perform o).place = none → s.Others i ∨ ((s.ses i).perform o).listed = false ∧
            ∀ j < s.total, j ≠ i → (s.ses j).listed = false) ↔ s.Others i) := by
        intro hnone hleft
        rw [imp_iff_right hnone, hleft]
        exact or_iff_left fun hf ↦ nomatch hf.1
      cases o with
      | startingInc => exact iff_of_true (fun hf ↦ absurd hf (hinc .starting rfl)) ⟨by simp, nofun⟩
      | activateInc => exact iff_of_true (fun hf ↦ absurd hf (hinc .active rfl)) ⟨by simp, nofun⟩
      | terminateInc =>
        exact iff_of_true (fun hf ↦ absurd hf (hinc .finishing rfl)) ⟨by simp, nofun⟩
      | activateDec | terminateDec =>
        rw [hmove (Ses.place_of_moving rfl) (hlisted nofun)]
        exact ⟨fun hothers ↦ ⟨fun _ ↦ hothers, nofun⟩, fun hfit ↦ hfit.1 (by simp)⟩
      | finishedDec =>
        rw [imp_iff_right (Ses.place_of_not_listed rfl)]
        constructor
        · intro hleft
          exact ⟨by simp, fun _ ↦ hleft.imp_right And.right⟩
        · rintro ⟨-, hfit⟩
          exact (hfit rfl).imp_right fun hall ↦ ⟨rfl, hall⟩
  next hi => exact iff_of_true (hs.sound_iff.mp h) fun hlt ↦ absurd hlt hi

lemma Sound.step_iff (e : SesEvent) : (s.step e).Sound ↔ s.Fit e := by
  cases e with
  | starting restore checked => exact iff_of_true (h.starting hs restore checked) trivial
  | call i c => exact iff_of_true (h.call hs i c) trivial
  | next i => exact h.next_iff hs
  | shutdown on => exact iff_of_true { h with } trivial

end

/-- **The counters are right throughout a run, if and only if all its steps are fit.** -/
theorem always_counted_iff (es : List SesEvent) :
    Always step Sound {} es ↔ Along step Fit {} es := by
  have hs : Consistent {} := fun _ ↦ Ses.ok_new (.inr rfl) (.inl rfl)
  have hsound : Sound {} := hs.sound_iff.mpr ⟨tally_zero _, rfl, nofun⟩
  exact always_iff_along_of_inv (fun _ e hs ↦ hs.step e) (fun _ e hs h ↦ h.step_iff hs e) hs hsound

/-- **Every session is consistent**, whatever becomes of the counters: it is finishing exactly when
it has been told to terminate, it is not activated after that, and it completes once. -/
theorem always_consistent (es : List SesEvent) : Always step Consistent {} es :=
  fun pre _ ↦ foldlRecOn pre step (fun _ ↦ Ses.ok_new (.inr rfl) (.inl rfl))
    fun _ h e _ ↦ h.step e

/-- **A counter goes below zero.** A session is refused because of a shutdown, its caller goes on
with it all the same, and then it is terminated. -/
theorem starting_below_zero :
    let es := [.shutdown true, .starting false false, .call 0 (.terminate true), .next 0]
    (run step {} es).stat .starting = -1 := by
  decide

/-- The shutdown is complete with a session left. The only session is active, and it is being
terminated because of the shutdown: nothing is counted between the decrement and the increment. -/
example :
    let es := [.starting false true, .next 0, .call 0 (.ret false), .call 0 .activate,
      .call 0 (.ret false), .next 0, .next 0, .shutdown true, .call 0 (.terminate false), .next 0]
    let s := run step {} es
    s.apShutdown = true ∧ s.statIdle false = true ∧ (s.ses 0).listed = true ∧
      (s.ses 0).state = .active := by
  decide

end Sessions
end AccelPpp.Session
