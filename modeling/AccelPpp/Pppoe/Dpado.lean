import AccelPpp.Lib.Run

/-!
# The delay of a PADO (`ctrl/pppoe/dpado.c`)

A session that starts or ends changes the number of active sessions first. Then it takes a lock and
compares the number it has seen with the next threshold, or with the last one passed. Threads may
take the lock in another order than they have counted, and the delay is then left at that of a
number of sessions that there was (`end_overtakes_start`). If they take it in the order of counting,
the delay follows the number of sessions (`delay_follows`).
-/

open List Transition

namespace AccelPpp.Pppoe.Dpado

/-- `struct dpado_range_t` -/
structure Range where
  connCnt : ℕ
  padoDelay : ℤ

/-- The delay of the first range, whose `conn_cnt` is `INT_MAX` and is not reached, and the ranges
behind it in the list. -/
structure Conf where
  first : ℤ
  ranges : List Range

/-- The list before and behind the two pointers: `dpado_range_prev` is the first one of `passed`, or
the first range of the list, and `dpado_range_next` the first one of `ahead`. -/
structure Ranges where
  passed : List Range
  ahead : List Range
  padoDelay : ℤ

/-- What a thread that has counted a session is going to call. -/
inductive Check
  | next (cnt : ℕ)
  | prev (cnt : ℕ)

/-- The sessions that are counted, the ranges, and the threads that have yet to take the lock. -/
structure Stat where
  active : ℕ
  ranges : Ranges
  inProgress : List Check := []

/-- A session starts or ends, or a thread takes the lock. -/
inductive Event
  | start
  | finish
  | lock (i : ℕ)

namespace Conf

variable (conf : Conf)

/-- The delay of the last range that has been passed. -/
def delayOf (passed : List Range) : ℤ :=
  (passed.head?.map Range.padoDelay).getD conf.first

/-- The end of `dpado_parse`: the last range that the sessions reach. -/
def dpadoParse (active : ℕ) : Ranges :=
  let passed := conf.ranges.reverse.dropWhile (active < ·.connCnt)
  ⟨passed, (conf.ranges.reverse.takeWhile (active < ·.connCnt)).reverse, conf.delayOf passed⟩

/-- `dpado_check_next` -/
def dpadoCheckNext (cnt : ℕ) (l : Ranges) : Ranges :=
  match l.ahead with
  | r :: rest => if cnt = r.connCnt then ⟨r :: l.passed, rest, r.padoDelay⟩ else l
  | [] => l

/-- `dpado_check_prev` -/
def dpadoCheckPrev (cnt : ℕ) (l : Ranges) : Ranges :=
  match l.passed with
  | r :: rest => if cnt = r.connCnt then ⟨rest, r :: l.ahead, conf.delayOf rest⟩ else l
  | [] => l

/-- One step. -/
def step (s : Stat) : Event → Stat
  | .start =>
    { s with active := s.active + 1, inProgress := s.inProgress ++ [.next (s.active + 1)] }
  | .finish =>
    if s.active = 0 then s
    else { s with active := s.active - 1, inProgress := s.inProgress ++ [.prev s.active] }
  | .lock i =>
    match s.inProgress[i]? with
    | some (.next cnt) =>
      ⟨s.active, dpadoCheckNext cnt s.ranges, s.inProgress.eraseIdx i⟩
    | some (.prev cnt) =>
      ⟨s.active, conf.dpadoCheckPrev cnt s.ranges, s.inProgress.eraseIdx i⟩
    | none => s

/-- The delay is the one that the configuration would give if it were loaded now. -/
def Follows (s : Stat) : Prop :=
  s.inProgress = [] → s.ranges.padoDelay = (conf.dpadoParse s.active).padoDelay

/-- The lock is taken in the order of counting. -/
def InTurn (s : Stat) : Event → Prop
  | .lock i => i = 0 ∨ s.inProgress[i]? = none
  | _ => True

/-- The ranges are divided as `n` sessions want it. -/
structure Fits (l : Ranges) (n : ℕ) : Prop where
  whole : l.passed.reverse ++ l.ahead = conf.ranges
  passed : ∀ r ∈ l.passed, r.connCnt ≤ n
  ahead : ∀ r ∈ l.ahead, n < r.connCnt
  delay : l.padoDelay = conf.delayOf l.passed

/-- The checks lead from `n` sessions to `k`. -/
def Leads : ℕ → List Check → ℕ → Prop
  | n, [], k => n = k
  | n, .next cnt :: checks, k => cnt = n + 1 ∧ Leads (n + 1) checks k
  | n, .prev cnt :: checks, k => cnt = n ∧ ∃ m, n = m + 1 ∧ Leads m checks k

/-- The ranges are those of a number of sessions from which what is in progress leads on. -/
def Inv (s : Stat) : Prop :=
  ∃ n, conf.Fits s.ranges n ∧ Leads n s.inProgress s.active

variable {conf} {l l' : Ranges} {n : ℕ} {s : Stat}

/-- The number of sessions determines the delay. -/
lemma Fits.padoDelay_eq (h : conf.Fits l n) (h' : conf.Fits l' n) :
    l.padoDelay = l'.padoDelay := by
  have hpassed {l : Ranges} (h : conf.Fits l n) :
      (conf.ranges.filter (·.connCnt ≤ n)).reverse = l.passed := by
    rw [← h.whole, filter_append, filter_eq_self.mpr (by simpa using h.passed),
      filter_eq_nil_iff.mpr (by simpa using h.ahead), append_nil, reverse_reverse]
  rw [h.delay, h'.delay, ← hpassed h, ← hpassed h']

variable (hinc : conf.ranges.Pairwise fun r r' ↦ r.connCnt < r'.connCnt)

include hinc

lemma Fits.increasing (h : conf.Fits l n) :
    l.passed.Pairwise (fun r r' ↦ r'.connCnt < r.connCnt) ∧
      l.ahead.Pairwise fun r r' ↦ r.connCnt < r'.connCnt := by
  rw [← h.whole, pairwise_append] at hinc
  exact ⟨pairwise_reverse.mp hinc.1, hinc.2.1⟩

lemma fits_dpadoParse (n : ℕ) : conf.Fits (conf.dpadoParse n) n := by
  have hwhole : (conf.dpadoParse n).passed.reverse ++ (conf.dpadoParse n).ahead = conf.ranges := by
    rw [dpadoParse, ← reverse_append, takeWhile_append_dropWhile, reverse_reverse]
  refine ⟨hwhole, ?_, fun r hr ↦ ?_, rfl⟩
  · have hhead := head?_dropWhile_not (fun r : Range ↦ n < r.connCnt) conf.ranges.reverse
    have hsorted := (pairwise_reverse.mpr hinc).sublist
      (dropWhile_sublist fun r : Range ↦ n < r.connCnt)
    change ∀ r ∈ conf.ranges.reverse.dropWhile _, _
    revert hhead hsorted
    cases conf.ranges.reverse.dropWhile _ with
    | nil => exact nofun
    | cons r rest =>
      intro hhead hsorted
      have hr : r.connCnt ≤ n := by simpa using hhead
      exact forall_mem_cons.mpr ⟨hr, fun r' hr' ↦
        ((pairwise_cons.mp hsorted).1 r' hr').le.trans hr⟩
  · simpa using mem_takeWhile_imp (mem_reverse.mp hr)

lemma Fits.checkNext (h : conf.Fits l n) : conf.Fits (dpadoCheckNext (n + 1) l) (n + 1) := by
  have hahead := h.ahead
  have hpassed : ∀ r ∈ l.passed, r.connCnt ≤ n + 1 := fun r hr ↦ (h.passed r hr).trans n.le_succ
  have hsorted := (h.increasing hinc).2
  unfold dpadoCheckNext
  split
  · next r rest hl =>
    rw [hl] at hahead hsorted
    have hr := hahead r mem_cons_self
    have hrest := (pairwise_cons.mp hsorted).1
    split_ifs with heq
    · refine ⟨?_, forall_mem_cons.mpr ⟨heq.ge, hpassed⟩, fun r' hr' ↦ heq ▸ hrest r' hr', rfl⟩
      rw [← h.whole, hl, reverse_cons, append_assoc, singleton_append]
    · refine ⟨h.whole, hpassed, hl ▸ forall_mem_cons.mpr ⟨by omega, fun r' hr' ↦ ?_⟩, h.delay⟩
      have := hrest r' hr'
      omega
  · next hl => exact ⟨h.whole, hpassed, hl ▸ nofun, h.delay⟩

lemma Fits.checkPrev (h : conf.Fits l (n + 1)) : conf.Fits (conf.dpadoCheckPrev (n + 1) l) n := by
  have hpassed := h.passed
  have hahead : ∀ r ∈ l.ahead, n < r.connCnt := fun r hr ↦ n.lt_succ_self.trans (h.ahead r hr)
  have hsorted := (h.increasing hinc).1
  unfold dpadoCheckPrev
  split
  · next r rest hl =>
    rw [hl] at hpassed hsorted
    have hr := hpassed r mem_cons_self
    have hrest := (pairwise_cons.mp hsorted).1
    split_ifs with heq
    · refine ⟨?_, fun r' hr' ↦ ?_, forall_mem_cons.mpr ⟨by omega, hahead⟩, rfl⟩
      · rw [← h.whole, hl, reverse_cons, append_assoc, singleton_append]
      · have := hrest r' hr'
        omega
    · refine ⟨h.whole, hl ▸ forall_mem_cons.mpr ⟨by omega, fun r' hr' ↦ ?_⟩, hahead, h.delay⟩
      have := hrest r' hr'
      omega
  · next hl => exact ⟨h.whole, hl ▸ nofun, hahead, h.delay⟩

omit hinc in
/-- One more session is counted, up or down. By induction on the checks before it. -/
lemma Leads.append {n k k' : ℕ} {checks checks' : List Check} (h : Leads n checks k)
    (h' : Leads k checks' k') : Leads n (checks ++ checks') k' := by
  induction checks generalizing n with
  | nil => exact h ▸ h'
  | cons check checks ih =>
    cases check with
    | next cnt => exact ⟨h.1, ih h.2⟩
    | prev cnt =>
      obtain ⟨hcnt, m, hm, h⟩ := h
      exact ⟨hcnt, m, hm, ih h⟩

lemma inv_step (s : Stat) (e : Event) (h : conf.Inv s) (he : InTurn s e) :
    conf.Inv (conf.step s e) := by
  obtain ⟨n, hfits, hleads⟩ := h
  cases e with
  | start => exact ⟨n, hfits, hleads.append ⟨rfl, rfl⟩⟩
  | finish =>
    rw [step]
    split
    · exact ⟨n, hfits, hleads⟩
    · next hpos => exact ⟨n, hfits, hleads.append ⟨rfl, _, (Nat.succ_pred hpos).symm, rfl⟩⟩
  | lock i =>
    obtain ⟨active, l, checks⟩ := s
    rcases he with rfl | hnone
    · match checks with
      | [] => exact ⟨n, hfits, hleads⟩
      | .next cnt :: checks =>
        obtain ⟨rfl, hleads⟩ := hleads
        exact ⟨n + 1, hfits.checkNext hinc, hleads⟩
      | .prev cnt :: checks =>
        obtain ⟨rfl, m, rfl, hleads⟩ := hleads
        exact ⟨m, hfits.checkPrev hinc, hleads⟩
    · rw [step, hnone]
      exact ⟨n, hfits, hleads⟩

/-- **The delay follows the number of sessions**, in every run in which the lock is taken in the
order of counting. -/
theorem delay_follows (n : ℕ) (es : List Event)
    (h : Along conf.step InTurn ⟨n, conf.dpadoParse n, []⟩ es) :
    Always conf.step conf.Follows ⟨n, conf.dpadoParse n, []⟩ es := by
  intro pre hpre hidle
  have hinit : conf.Inv ⟨n, conf.dpadoParse n, []⟩ := ⟨n, fits_dpadoParse hinc n, rfl⟩
  obtain ⟨k, hfits, hleads⟩ := h.always (inv_step hinc) hinit pre hpre
  rw [hidle] at hleads
  exact hfits.padoDelay_eq (hleads ▸ fits_dpadoParse hinc _)

end Conf

/-- No delay below two sessions, and 100 milliseconds from there on. -/
def twoSessions : Conf :=
  ⟨0, [⟨2, 100⟩]⟩

theorem delay_follows_up_down :
    Always twoSessions.step twoSessions.Follows ⟨1, twoSessions.dpadoParse 1, []⟩
      [.start, .finish, .lock 0, .lock 0] :=
  Conf.delay_follows (pairwise_singleton ..) 1 _ ⟨trivial, trivial, .inl rfl, .inl rfl, trivial⟩

/-- A session starts and another one ends, and the one that ends takes the lock first: with one
session left the delay is that of two. -/
theorem end_overtakes_start :
    let s := run twoSessions.step ⟨1, twoSessions.dpadoParse 1, []⟩
      [.start, .finish, .lock 1, .lock 0]
    s.inProgress.length = 0 ∧ s.active = 1 ∧ s.ranges.padoDelay = 100 ∧
      (twoSessions.dpadoParse 1).padoDelay = 0 := by
  decide

end AccelPpp.Pppoe.Dpado
