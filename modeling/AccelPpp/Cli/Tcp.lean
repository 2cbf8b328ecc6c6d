import AccelPpp.Lib.Run

/-!
# The lines of the TCP console

`cln_read` reads into `cmdline` behind what it has, ends it with a zero byte and then runs the lines
it finds with `strchr`, one after the other. After each line the rest is moved to the front, without
a zero byte behind it: what stands there is the end of the line or of what has been moved. So
`strchr` may find a newline behind the received bytes, and `recv_pos` falls below zero
(`stale_newline`). `lines_run` is what holds if no line is of such a length (`Bad`).

A newline is the byte 10.
-/

open List Option Transition

namespace AccelPpp.Cli

/-- What the console does not decide. -/
structure Env where
  /-- `conf_cli_passwd` -/
  passwd : Option (List UInt8)
  /-- The last of these commands has set `disconnect`, or a reply could not be sent. -/
  quits : List (List UInt8) → Bool
  /-- What a command leaves of its line, as `split` does. -/
  ran : List UInt8 → List UInt8
  length_ran : ∀ l, (ran l).length = l.length
  not_mem_ran : ∀ l, 10 ∉ l → 10 ∉ ran l

/-- What has become of the lines. -/
structure Served where
  auth : Bool
  /-- The lines given to `cli_process_cmd` -/
  cmds : List (List UInt8) := []
  /-- The client is disconnected. -/
  left : Bool := false
deriving DecidableEq

/-- A connection to the console, with its buffer. -/
structure Client where
  cmdline : List UInt8
  recvPos : ℕ := 0
  served : Served
  /-- The buffer has overflown. -/
  dropped : Bool := false
  /-- All that has been read -/
  seen : List UInt8 := []

variable (E : Env)

def Env.start : Served :=
  { auth := E.passwd = none }

/-- A line: the password or a command. -/
def Env.onLine (v : Served) (line : List UInt8) : Served :=
  if v.left then v
  else if v.auth then { v with cmds := v.cmds ++ [line], left := E.quits (v.cmds ++ [line]) }
  else if some line = E.passwd then { v with auth := true }
  else { v with left := true }

/-- `strchr(s, '\n')` -/
def strchr : List UInt8 → Option ℕ
  | [] => none
  | b :: s => if b = 0 then none else if b = 10 then some 0 else (strchr s).map (· + 1)

/-- The inner loop of `cln_read`, which takes at most `recv_pos` turns. A `memmove` of a negative
size is not defined. -/
def Env.lineLoop : ℕ → Client → Option Client
  | 0, c => some c
  | n + 1, c =>
    if c.recvPos = 0 then some c
    else
      match strchr c.cmdline with
      | none => some { c with dropped := c.recvPos = 1023 }
      | some d =>
        let line := c.cmdline.take d
        let served := E.onLine c.served line
        if served.left then some { c with served := served }
        else if c.recvPos < d + 1 then none
        else
          let pos := c.recvPos - (d + 1)
          let text := if c.served.auth then E.ran line else line
          let rest := c.cmdline.drop (d + 1)
          lineLoop n { c with
            served := served
            recvPos := pos
            cmdline := rest.take pos ++ (text ++ 0 :: rest).drop pos }

/-- One turn of `cln_read`, with the bytes that `read` has delivered: at least one, and no more than
there is room for. -/
def Env.clnRead (o : Option Client) (chunk : List UInt8) : Option Client :=
  o.bind fun c ↦
    if c.served.left || c.dropped || chunk = [] || 1023 < c.recvPos + chunk.length then some c
    else
      let pos := c.recvPos + chunk.length
      E.lineLoop pos { c with
        cmdline := c.cmdline.take c.recvPos ++ chunk ++ 0 :: c.cmdline.drop (pos + 1)
        recvPos := pos
        seen := c.seen ++ chunk }

/-! ### What is to hold -/

/-- The lines of a text, and what is behind the last newline. -/
def pieces : List UInt8 → List (List UInt8) × List UInt8
  | [] => ([], [])
  | b :: s =>
    if b = 10 then ([] :: (pieces s).1, (pieces s).2)
    else
      match pieces s with
      | ([], r) => ([], b :: r)
      | (l :: ls, r) => ((b :: l) :: ls, r)

/-- The lines of what has been read have been served in order. -/
structure Env.Right (c : Client) : Prop where
  served : c.served = (pieces c.seen).1.foldl E.onLine E.start
  recvPos : c.recvPos ≤ 1023
  dropped : c.dropped = true ↔ c.served.left = false ∧ (pieces c.seen).2.length = 1023

/-- The text of lines and a rest. -/
def glue (ls : List (List UInt8)) (r : List UInt8) : List UInt8 :=
  (ls.map (· ++ [10])).flatten ++ r

/-- A line is not shorter than the rest, but shorter than all that follows it, and the lines after
it are shorter than the rest. -/
def Bad (ls : List (List UInt8)) (r : List UInt8) : Prop :=
  ∃ as l bs, ls = as ++ l :: bs ∧ r.length ≤ l.length ∧ l.length < (glue bs r).length ∧
    ∀ l' ∈ bs, l'.length < r.length

/-- No zero byte is read, and the buffer is then not bad. -/
def Clear (o : Option Client) (chunk : List UInt8) : Prop :=
  0 ∉ chunk ∧ ∀ c, o = some c →
    ¬ Bad (pieces (c.cmdline.take c.recvPos ++ chunk)).1
      (pieces (c.cmdline.take c.recvPos ++ chunk)).2

/-! ### Pieces -/

variable {E} {l r s t : List UInt8} {ls : List (List UInt8)} {c : Client}

lemma pieces_of_not_mem (h : 10 ∉ r) : pieces r = ([], r) := by
  induction r with
  | nil => rfl
  | cons b r ih =>
    obtain ⟨hb, hr⟩ := not_or.mp (mt mem_cons.mpr h)
    rw [pieces, if_neg (Ne.symm hb), ih hr]

lemma pieces_line (h : 10 ∉ l) : pieces (l ++ 10 :: s) = (l :: (pieces s).1, (pieces s).2) := by
  induction l with
  | nil => rfl
  | cons b l ih =>
    obtain ⟨hb, hl⟩ := not_or.mp (mt mem_cons.mpr h)
    rw [cons_append, pieces, if_neg (Ne.symm hb), ih hl]

lemma glue_cons : glue (l :: ls) r = l ++ 10 :: glue ls r := by
  simp [glue]

lemma pieces_glue (hls : ∀ l ∈ ls, 10 ∉ l) (t : List UInt8) :
    pieces (glue ls t) = (ls ++ (pieces t).1, (pieces t).2) := by
  induction ls with
  | nil => rfl
  | cons l ls ih =>
    obtain ⟨hl, hls⟩ := forall_mem_cons.mp hls
    rw [glue_cons, pieces_line hl, ih hls]
    rfl

lemma exists_glue (s : List UInt8) : ∃ ls r, s = glue ls r ∧ (∀ l ∈ ls, 10 ∉ l) ∧ 10 ∉ r := by
  induction s with
  | nil => exact ⟨[], [], rfl, nofun, nofun⟩
  | cons b s ih =>
    obtain ⟨ls, r, rfl, hls, hr⟩ := ih
    by_cases hb : b = 10
    · exact ⟨[] :: ls, r, by rw [hb]; rfl, forall_mem_cons.mpr ⟨nofun, hls⟩, hr⟩
    cases ls with
    | nil => exact ⟨[], b :: r, rfl, nofun, by simp [hr, Ne.symm hb]⟩
    | cons l ls =>
      obtain ⟨hl, hls⟩ := forall_mem_cons.mp hls
      refine ⟨(b :: l) :: ls, r, by rw [glue_cons, glue_cons]; rfl,
        forall_mem_cons.mpr ⟨by simp [hl, Ne.symm hb], hls⟩, hr⟩

lemma pieces_append (s t : List UInt8) : pieces (s ++ t) =
    ((pieces s).1 ++ (pieces ((pieces s).2 ++ t)).1, (pieces ((pieces s).2 ++ t)).2) := by
  obtain ⟨ls, r, rfl, hls, hr⟩ := exists_glue s
  have happ : glue ls r ++ t = glue ls (r ++ t) := by simp [glue]
  rw [happ, pieces_glue hls, pieces_glue hls, pieces_of_not_mem hr, append_nil]

lemma mem_of_mem_rest {b : UInt8} (h : b ∈ (pieces s).2) : b ∈ s := by
  obtain ⟨ls, r, rfl, hls, hr⟩ := exists_glue s
  rw [pieces_glue hls, pieces_of_not_mem hr] at h
  exact mem_append_right _ h

/-- A buffer with one line is not bad. -/
lemma not_bad_of_length (h : ls.length ≤ 1) : ¬ Bad ls r := by
  rintro ⟨as, l, bs, rfl, hle, hlt, -⟩
  have hbs : bs = [] := eq_nil_of_length_eq_zero (by simp at h; omega)
  rw [hbs] at hlt
  exact (not_lt.mpr hle) hlt

/-! ### The loop -/

lemma strchr_append (h : 0 ∉ l) (h' : 10 ∉ l) :
    strchr (l ++ t) = (strchr t).map (· + l.length) := by
  induction l with
  | nil => simp
  | cons b l ih =>
    obtain ⟨hb, hl⟩ := not_or.mp (mt mem_cons.mpr h)
    obtain ⟨hb', hl'⟩ := not_or.mp (mt mem_cons.mpr h')
    rw [cons_append, strchr, if_neg (Ne.symm hb), if_neg (Ne.symm hb'), ih hl hl', Option.map_map]
    rfl

/-- A zero byte ends the search. -/
lemma strchr_zero (h : 10 ∉ l) : strchr (l ++ 0 :: t) = none := by
  induction l with
  | nil => rfl
  | cons b l ih =>
    obtain ⟨hb, hl⟩ := not_or.mp (mt mem_cons.mpr h)
    rw [cons_append, strchr, if_neg (Ne.symm hb), ih hl]
    split <;> rfl

/-- No newline will be found in `t`, or a line is still to come that ends the search. -/
def Safe (ls : List (List UInt8)) (r t : List UInt8) : Prop :=
  strchr t = none ∨ ∃ as l bs, ls = as ++ l :: bs ∧ (glue bs r).length ≤ l.length

/-- **One line**: `text` is what the command leaves of it. -/
theorem Safe.line {text : List UInt8} (h : Safe (l :: ls) r t) (hbad : ¬ Bad (l :: ls) r)
    (hr : 10 ∉ r) (hr0 : 0 ∉ r) (hlen : text.length = l.length) (htext : 10 ∉ text) :
    Safe ls r ((text ++ 0 :: (glue ls r ++ t)).drop (glue ls r).length) := by
  by_cases hlong : (glue ls r).length ≤ l.length
  · -- the end of the line is left, and the zero byte in place of its newline
    left
    rw [drop_append_of_le_length (by omega)]
    exact strchr_zero fun hf ↦ htext (mem_of_mem_drop hf)
  by_cases hreset : ∃ as l bs, ls = as ++ l :: bs ∧ (glue bs r).length ≤ l.length
  · exact .inr hreset
  left
  have ht : strchr t = none := by
    refine h.resolve_right ?_
    rintro ⟨_ | ⟨a, as⟩, l', bs, heq, hle⟩
    · cases heq
      exact hlong hle
    · cases heq
      exact hreset ⟨as, l', bs, rfl, hle⟩
  have hshort : l.length < r.length := by
    by_contra hle
    have hlater : ∃ l' ∈ ls, r.length ≤ l'.length := by
      by_contra hno
      push Not at hno
      exact hbad ⟨[], l, ls, rfl, by omega, by omega, hno⟩
    -- the last of them
    obtain ⟨l', hfind⟩ : ∃ l', ls.reverse.find? (r.length ≤ ·.length) = some l' := by
      rw [← isSome_iff_exists]
      simpa using hlater
    obtain ⟨hl', bs, as, heq, hbs⟩ := find?_eq_some_iff_append.mp hfind
    obtain rfl : ls = as.reverse ++ l' :: bs.reverse := by
      rw [← ls.reverse_reverse, heq]
      simp
    refine hbad ⟨l :: as.reverse, l', bs.reverse, rfl, by simpa using hl', ?_, by simpa using hbs⟩
    by_contra hge
    exact hreset ⟨as.reverse, l', bs.reverse, rfl, by omega⟩
  -- the end of the rest is left, which has no newline
  have hdrop : (text ++ 0 :: (glue ls r ++ t)).drop (glue ls r).length =
      r.drop (r.length - (l.length + 1)) ++ t := by
    have hn : (glue ls r).length - text.length =
        (ls.map (· ++ [10])).flatten.length + (r.length - (l.length + 1)) + 1 := by
      rw [glue, length_append]
      omega
    rw [drop_append, drop_eq_nil_of_le (by omega), nil_append, hn, drop_succ_cons, glue,
      append_assoc, drop_length_add_append, drop_append_of_le_length (by omega)]
  rw [hdrop, strchr_append (fun hf ↦ hr0 (mem_of_mem_drop hf)) fun hf ↦ hr (mem_of_mem_drop hf), ht]
  rfl

lemma foldl_onLine_left {v : Served} (h : v.left = true) : ls.foldl E.onLine v = v := by
  induction ls with
  | nil => rfl
  | cons l ls ih => rw [foldl_cons, Env.onLine, if_pos h, ih]

lemma not_bad_tail (h : ¬ Bad (l :: ls) r) : ¬ Bad ls r :=
  fun ⟨as, l', bs, heq, hbad⟩ ↦ h ⟨l :: as, l', bs, by rw [heq]; rfl, hbad⟩

/-- **The loop** serves the lines in the buffer and leaves the rest, by induction on the lines. -/
theorem lineLoop_spec {n : ℕ} (hc : c.cmdline = glue ls r ++ t)
    (hpos : c.recvPos = (glue ls r).length) (hn : c.recvPos ≤ n) (hle : c.recvPos ≤ 1023)
    (hleft : c.served.left = false) (hdropped : c.dropped = false) (h0 : 0 ∉ glue ls r)
    (hls : ∀ l ∈ ls, 10 ∉ l) (hr : 10 ∉ r) (hbad : ¬ Bad ls r) (hsafe : Safe ls r t) :
    ∃ c', E.lineLoop n c = some c' ∧ c'.served = ls.foldl E.onLine c.served ∧ c'.seen = c.seen ∧
      c'.recvPos ≤ 1023 ∧ (c'.dropped = true ↔ c'.served.left = false ∧ r.length = 1023) ∧
      (c'.served.left = false → c'.cmdline.take c'.recvPos = r ∧ c'.recvPos = r.length) := by
  induction ls generalizing c t n with
  | nil =>
    have hrest : c.cmdline.take c.recvPos = r := by
      rw [hc, hpos]
      exact take_left
    replace hpos : c.recvPos = r.length := hpos
    have hempty (h : c.recvPos = 0) :
        c.dropped = true ↔ c.served.left = false ∧ r.length = 1023 :=
      iff_of_false (by simp [hdropped]) (by omega)
    cases n with
    | zero =>
      exact ⟨c, rfl, rfl, rfl, hle, hempty (Nat.le_zero.mp hn), fun _ ↦ ⟨hrest, hpos⟩⟩
    | succ n =>
      rw [Env.lineLoop]
      split
      · next hzero => exact ⟨c, rfl, rfl, rfl, hle, hempty hzero, fun _ ↦ ⟨hrest, hpos⟩⟩
      have hnone : strchr c.cmdline = none := by
        rw [hc, strchr_append h0 hr, hsafe.resolve_right (by simp)]
        rfl
      rw [hnone]
      refine ⟨_, rfl, rfl, rfl, hle, ?_, fun _ ↦ ⟨hrest, hpos⟩⟩
      rw [decide_eq_true_iff, hpos]
      exact (and_iff_right hleft).symm
  | cons l ls ih =>
    obtain ⟨hl, hls⟩ := forall_mem_cons.mp hls
    rw [glue_cons] at hc hpos h0
    obtain ⟨hl0, hrest0⟩ : 0 ∉ l ∧ 0 ∉ glue ls r := by simpa [not_or] using h0
    have hlen : (l ++ 10 :: glue ls r).length = (glue ls r).length + (l.length + 1) := by
      simp
      omega
    obtain ⟨n, rfl⟩ : ∃ k, n = k + 1 := ⟨n - 1, by omega⟩
    have hfound : strchr c.cmdline = some l.length := by
      rw [hc, append_assoc, strchr_append hl0 hl]
      simp [strchr]
    have htake : c.cmdline.take l.length = l := by rw [hc, append_assoc, take_left]
    have hdrop : c.cmdline.drop (l.length + 1) = glue ls r ++ t := by
      rw [hc, append_assoc, drop_length_add_append]
      rfl
    rw [Env.lineLoop, if_neg (by omega), hfound]
    simp only [htake, hdrop]
    split
    · next hquit =>
      have hopen {P : Prop} (hf : (E.onLine c.served l).left = false) : P :=
        nomatch hquit.symm.trans hf
      exact ⟨_, rfl, (foldl_onLine_left hquit).symm, rfl, hle,
        iff_of_false (by simp [hdropped]) fun hf ↦ hopen hf.1, hopen⟩
    next hstay =>
    rw [if_neg (by omega)]
    have hpos' : c.recvPos - (l.length + 1) = (glue ls r).length := by omega
    have htext : (if c.served.auth then E.ran l else l).length = l.length ∧
        10 ∉ (if c.served.auth then E.ran l else l) := by
      split
      · exact ⟨E.length_ran l, E.not_mem_ran l hl⟩
      · exact ⟨rfl, hl⟩
    rw [hpos', take_left]
    have hr0 : 0 ∉ r := fun hf ↦ hrest0 (mem_append_right _ hf)
    exact ih rfl rfl (by dsimp only; omega) (by dsimp only; omega) (by simpa using hstay) hdropped
      hrest0 hls (not_bad_tail hbad) (hsafe.line hbad hr hr0 htext.1 htext.2)

/-! ### Runs -/

/-- An open client has the rest in its buffer. -/
structure Env.Inv (E : Env) (c : Client) : Prop extends E.Right c where
  rest : c.served.left = false → c.cmdline.take c.recvPos = (pieces c.seen).2 ∧
    c.recvPos = (pieces c.seen).2.length
  noZero : 0 ∉ c.seen

/-- **One read.** -/
theorem Env.Inv.clnRead (h : E.Inv c) {chunk : List UInt8} (hclear : Clear (some c) chunk) :
    ∃ c', E.clnRead (some c) chunk = some c' ∧ E.Inv c' := by
  obtain ⟨hzero, hbad⟩ := hclear
  rw [Env.clnRead, bind_some]
  split
  · exact ⟨c, rfl, h⟩
  next hopen =>
  simp only [Bool.or_eq_true, decide_eq_true_eq, not_or, Bool.not_eq_true, not_lt] at hopen
  obtain ⟨⟨⟨hleft, hdropped⟩, -⟩, hroom⟩ := hopen
  obtain ⟨hrest, hpos⟩ := h.rest hleft
  have hbad := hbad c rfl
  rw [hrest] at hbad ⊢
  obtain ⟨ls, r, heq, hls, hr⟩ := exists_glue ((pieces c.seen).2 ++ chunk)
  rw [heq] at hbad ⊢
  rw [pieces_glue hls, pieces_of_not_mem hr, append_nil] at hbad
  have hlen : c.recvPos + chunk.length = (glue ls r).length := by
    rw [← heq, length_append, hpos]
  have h0 : 0 ∉ glue ls r := by
    rw [← heq, mem_append, not_or]
    exact ⟨fun hf ↦ h.noZero (mem_of_mem_rest hf), hzero⟩
  have hpieces : pieces (c.seen ++ chunk) = ((pieces c.seen).1 ++ ls, r) := by
    rw [pieces_append, heq, pieces_glue hls, pieces_of_not_mem hr, append_nil]
  obtain ⟨c', hloop, hserved, hseen, hle, hdrop, hstay⟩ := lineLoop_spec (E := E) (c := { c with
      cmdline := glue ls r ++ 0 :: c.cmdline.drop (c.recvPos + chunk.length + 1)
      recvPos := c.recvPos + chunk.length, seen := c.seen ++ chunk })
    rfl hlen le_rfl hroom hleft hdropped h0 hls hr hbad (.inl rfl)
  refine ⟨c', hloop, ⟨?_, hle, ?_⟩, ?_, ?_⟩
  · rw [hserved, hseen, hpieces, foldl_append, h.served]
  · rw [hseen, hpieces]
    exact hdrop
  · rw [hseen, hpieces]
    exact hstay
  · rw [hseen]
    simp [h.noZero, hzero]

/-- The commands are the lines that have been read, and `recv_pos` stays in the buffer, in every run
along which the buffer is never bad. -/
theorem lines_run (E : Env) (cmdline : List UInt8) (chunks : List (List UInt8))
    (h : Along E.clnRead Clear (some { cmdline := cmdline, served := E.start }) chunks) :
    Always E.clnRead (fun o ↦ ∃ c, o = some c ∧ E.Right c)
      (some { cmdline := cmdline, served := E.start }) chunks := by
  intro pre hpre
  obtain ⟨c, hc, hinv⟩ := (h.of_prefix hpre).inv (P := fun o ↦ ∃ c, o = some c ∧ E.Inv c) (by
    rintro o chunk ⟨c, rfl, hinv⟩ hclear
    exact hinv.clnRead hclear) ⟨_, rfl, ⟨rfl, Nat.zero_le _, by simp [pieces]⟩,
      fun _ ↦ ⟨rfl, rfl⟩, not_mem_nil⟩
  exact ⟨c, hc, hinv.toRight⟩

/-- `split`, which puts a zero byte behind each of the first `n` words. -/
def split : ℕ → List UInt8 → List UInt8
  | 0, s => s
  | n + 1, s =>
    let word := s.dropWhile fun b ↦ b = 32 || b = 9
    -- `isgraph`
    let rest := word.dropWhile fun b ↦ 32 < b && b < 127
    s.take (s.length - rest.length) ++
      match rest with
      | [] => []
      | _ :: rest => 0 :: split n rest

lemma split_spec (n : ℕ) (s : List UInt8) :
    (split n s).length = s.length ∧ ∀ b ∈ split n s, b = 0 ∨ b ∈ s := by
  induction n generalizing s with
  | zero => exact ⟨rfl, fun _ ↦ .inr⟩
  | succ n ih =>
    rw [split]
    have hrest := (dropWhile_suffix fun b ↦ decide (32 < b) && decide (b < 127)).trans
      (dropWhile_suffix (l := s) fun b ↦ decide (b = 32) || decide (b = 9))
    generalize dropWhile _ (dropWhile _ s) = rest at hrest ⊢
    have hlen := hrest.length_le
    cases rest with
    | nil => simp +contextual
    | cons c rest =>
      obtain ⟨hlength, hmem⟩ := ih rest
      refine ⟨by simp [hlength] at hlen ⊢; omega, fun b hb ↦ ?_⟩
      rcases mem_append.mp hb with hb | hb
      · exact .inr (mem_of_mem_take hb)
      rcases mem_cons.mp hb with rfl | hb
      · exact .inl rfl
      · exact (hmem b hb).imp_right fun hb ↦ hrest.subset (mem_cons_of_mem c hb)

/-- No password, and commands of at most `MAX_CMD_ITEMS` words. -/
def plain : Env where
  passwd := none
  quits _ := false
  ran := split 100
  length_ran l := (split_spec 100 l).1
  not_mem_ran l hl hmem := ((split_spec 100 l).2 10 hmem).elim nofun hl

/-- A new client. -/
def accepted : Client :=
  { cmdline := List.replicate 1024 0, served := plain.start }

/-- Two commands in three reads. -/
theorem lines_run_two : Always plain.clnRead (fun o ↦ ∃ c, o = some c ∧ plain.Right c)
    (some accepted) [[97], [98, 10, 99], [10]] := by
  refine lines_run plain _ _ ⟨⟨by decide, ?_⟩, ⟨by decide, ?_⟩, ⟨by decide, ?_⟩, trivial⟩
  all_goals
    rintro c hc
    refine not_bad_of_length ?_
    rw [← some.inj hc]
    decide +kernel

/-- The client sends a command, an empty line and the beginning of a third one, in one segment. -/
theorem stale_newline : plain.clnRead (some accepted) [97, 10, 10, 99] = none ∧
    ¬ Always plain.clnRead (fun o ↦ ∃ c, o = some c ∧ plain.Right c) (some accepted)
      [[97, 10, 10, 99]] := by
  have hnone : plain.clnRead (some accepted) [97, 10, 10, 99] = none :=
    not_isSome_iff_eq_none.mp (by decide +kernel)
  refine ⟨hnone, fun h ↦ ?_⟩
  obtain ⟨c, hc, -⟩ := h.last
  exact nomatch hnone.symm.trans hc

end AccelPpp.Cli
