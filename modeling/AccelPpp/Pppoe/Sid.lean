import AccelPpp.Lib.Bitmap
import AccelPpp.Lib.Run

/-!
# PPPoE session ids

The PPPoE server keeps the session ids that are free in a bitmap of 1024 words of 64 bits, a set
bit being a free id. `allocate_channel` looks for a word with a set bit, going round from where the
last allocation stopped, takes the lowest bit of it and clears it; `disconnect` sets a bit again.

`allocate_channel` clears with `1lu << bit`, a shift at the width of a word. `disconnect` sets with
`1 << (conn->sid % 64)`, a shift **of an int**, whose value is then widened to a word (`oneShl`).
Below position 31 the two agree (`getLsbD_oneShl_of_lt`). At position 31 the int is negative and its
sign fills the upper half of the word (`getLsbD_oneShl_sign`), and from position 32 on the C
language gives the shift no value at all, so `oneShl` takes that value as a parameter. The results
hold whatever it is; `x86Shift` is what the usual target computes.

`pppoe_init` takes two ids out of the map before anything else happens: 0, which `allocate_channel`
uses to say that it has found nothing, and 65535. The invariant `SidPool.Inv` is that the bitmap is
exactly the set of the ids from 1 to 65534 that no connection holds, and no id is held twice.
-/

open Bool List Nat

namespace AccelPpp.Pppoe

open Transition Bitmap

/-- The global state of the allocator. `sid_ptr` is always `sid_map + sid_idx`, so the pair is one
position here. -/
structure SidPool where
  /-- `sid_map`: a set bit is a free id. -/
  sidMap : Bitmap 1024 64
  /-- `sid_idx`: the word the next search starts from. -/
  sidIdx : Fin 1024
  /-- The session ids (`uint16_t`) of the connections on the servers' lists. -/
  conns : List (Fin 65536)

/-- The words `pppoe_init` leaves: all ones, but for bit 0 of the first byte (`0xfe`) and bit 7 of
the last byte (`0x7f`). -/
def initWord (k : Fin 1024) : BitVec 64 :=
  if k = 0 then 0xfffffffffffffffe#64
  else if k = 1023 then 0x7fffffffffffffff#64
  else 0xffffffffffffffff#64

def pppoeInit : SidPool :=
  { sidMap := ⟨initWord⟩, sidIdx := 0, conns := [] }

/-- What `allocate_channel` comes back with. -/
inductive AllocResult where
  /-- A connection with this session id. -/
  | conn (sid : Fin 65536)
  /-- `mempool_alloc` failed: "out of memory". -/
  | outOfMemory
  /-- `conn->sid` is still 0: "no free sid available". -/
  | noFreeSid
deriving DecidableEq

/-- The `while (1)` loop of `allocate_channel`: `old` is `old_sid_ptr`, and the result is
`conn->sid` with the new state. `none` means that the fuel has run out. -/
def sidLoop (old : Fin 1024) : ℕ → SidPool → Option (Fin 65536 × SidPool)
  | 0, _ => none
  | fuel + 1, s =>
    -- `ffsl(*sid_ptr) - 1`
    match lowestSet (s.sidMap.word s.sidIdx) with
    | some bit =>
      some (Fin.ofNat 65536 (s.sidIdx * 64 + bit),
        { s with sidMap := s.sidMap.clearBit s.sidIdx bit, sidIdx := next s.sidIdx })
    | none =>
      let s' := { s with sidIdx := next s.sidIdx }
      if s'.sidIdx = old then some (0, s') else sidLoop old fuel s'

/-- `allocate_channel`; `mem` says whether `mempool_alloc` has memory to give. There are 1024 words
to go round, which is the fuel. -/
def allocateChannel (mem : Bool) (s : SidPool) : Option (AllocResult × SidPool) :=
  if mem then
    match sidLoop s.sidIdx 1024 s with
    | none => none
    | some (sid, s') =>
      if sid = 0 then some (.noFreeSid, s')
      else some (.conn sid, { s' with conns := s'.conns ++ [sid] })
  else some (.outOfMemory, s)

variable (undef : ℕ → BitVec 32)

/-- The C expression `1 << n` at type `int`, converted to `unsigned long`. For a count outside the
int the language leaves the value open; `undef` supplies it. -/
def oneShl (n : ℕ) : BitVec 64 :=
  (if n < 32 then 1#32 <<< n else undef n).signExtend 64

/-- What an x86 shift instruction gives for a count outside the word: it uses the low five bits. -/
def x86Shift (n : ℕ) : BitVec 32 :=
  1#32 <<< (n % 32)

/-- The word of `sid_map` that holds `sid`. -/
def sidWord (sid : Fin 65536) : Fin 1024 :=
  ⟨sid / 64, by omega⟩

/-- `disconnect` of a connection with this id, as far as the pool goes: it leaves the server's list
and its bit is set. -/
def disconnect (sid : Fin 65536) (s : SidPool) : SidPool :=
  if sid ∈ s.conns then
    { s with
      conns := s.conns.erase sid
      sidMap := s.sidMap.orWord (sidWord sid) (oneShl undef (sid % 64)) }
  else s

inductive SidEvent where
  | alloc (mem : Bool)
  | disconnect (sid : Fin 65536)
deriving DecidableEq

def sidStep (s : SidPool) : SidEvent → SidPool
  | .alloc mem => ((allocateChannel mem s).map Prod.snd).getD s
  | .disconnect sid => disconnect undef sid s

/-- The ids the server has to give. -/
def Usable (id : ℕ) : Prop := 1 ≤ id ∧ id ≤ 65534

instance : DecidablePred Usable := fun _ ↦ inferInstanceAs (Decidable (_ ∧ _))

/-! ### The two shifts -/

variable {i : ℕ}

lemma getLsbD_oneShl {n : ℕ} (hn : n < 32) (hi : i < 64) :
    (oneShl undef n).getLsbD i = decide (i = n ∨ n = 31 ∧ 31 ≤ i) := by
  have hbit (j : ℕ) (hj : j < 32) : (1#32 <<< n).getLsbD j = decide (j = n) :=
    getLsbD_one_shiftLeft hj
  have hmsb : (1#32 <<< n).msb = decide (n = 31) := by
    rw [BitVec.msb_eq_getLsbD_last, hbit 31 (by omega)]
    exact decide_eq_decide.mpr eq_comm
  rw [oneShl, if_pos hn, BitVec.getLsbD_signExtend, hmsb]
  rcases lt_or_ge i 32 with h | h
  · rw [if_pos h, hbit i h]
    simp only [hi, decide_true, Bool.true_and, decide_eq_decide]
    omega
  · rw [if_neg (by omega)]
    simp only [hi, decide_true, Bool.true_and, decide_eq_decide]
    omega

/-- **Below the sign bit** the int shift is the word shift. -/
theorem getLsbD_oneShl_of_lt {n : ℕ} (hn : n < 31) (hi : i < 64) :
    (oneShl undef n).getLsbD i = true ↔ i = n := by
  rw [getLsbD_oneShl undef (by omega) hi, decide_eq_true_iff]
  omega

/-- **At the sign bit** the whole upper half of the word is set with it. -/
theorem getLsbD_oneShl_sign (hi : i < 64) : (oneShl undef 31).getLsbD i = true ↔ 31 ≤ i := by
  rw [getLsbD_oneShl undef (by omega) hi, decide_eq_true_iff]
  omega

/-! ### The search -/

/-- **All that is known of the search**: `s'` is `s` with the free id `sid` taken out of the map. -/
structure Takes (s : SidPool) (sid : Fin 65536) (s' : SidPool) : Prop where
  free : s.sidMap.has sid = true
  conns_eq : s'.conns = s.conns
  has_iff : ∀ id, s'.sidMap.has id = true ↔ s.sidMap.has id = true ∧ id ≠ sid

/-- The search has gone round without finding a free id. -/
structure FindsNone (s s' : SidPool) : Prop where
  none_free : ∀ id, s.sidMap.has id = false
  conns_eq : s'.conns = s.conns
  sidMap_eq : s'.sidMap = s.sidMap

/-- The loop, entered for the `j`-th word after `old` when the words before it are empty. -/
lemma sidLoop_spec {old : Fin 1024} {fuel : ℕ} :
    ∀ (j : ℕ) (s : SidPool), 0 < fuel → j + fuel = 1024 → s.sidIdx = cyc old j →
      (∀ i < j, lowestSet (s.sidMap.word (cyc old i)) = none) →
      ∃ sid s', sidLoop old fuel s = some (sid, s') ∧
        (Takes s sid s' ∨ sid = 0 ∧ FindsNone s s') := by
  induction fuel with
  | zero =>
    intro _ _ h
    exact absurd h (Nat.lt_irrefl 0)
  | succ fuel ih =>
    intro j s _ hj hidx hempty
    rcases hw : lowestSet (s.sidMap.word s.sidIdx) with - | bit
    · have hnext : next s.sidIdx = cyc old (j + 1) := by
        rw [hidx, next_cyc]
      have hempty' : ∀ i < j + 1, lowestSet (s.sidMap.word (cyc old i)) = none := by
        intro i hi
        rcases Nat.lt_succ_iff_lt_or_eq.mp hi with hlt | rfl
        · exact hempty i hlt
        · rwa [← hidx]
      by_cases hback : next s.sidIdx = old
      · -- back at the start: the words seen are all the words there are
        have hround : j + 1 = 1024 :=
          (cyc_eq_self_iff (by omega) (by omega)).mp (hnext ▸ hback)
        refine ⟨0, { s with sidIdx := next s.sidIdx }, ?_, .inr ⟨rfl, ?_, rfl, rfl⟩⟩
        · rw [sidLoop, hw]
          exact if_pos hback
        intro id
        by_cases hid : id / 64 < 1024
        · obtain ⟨i, hi, hcyc⟩ := exists_cyc_eq old ⟨id / 64, hid⟩
          rw [has_of_div_eq (k := ⟨id / 64, hid⟩) rfl, ← hcyc]
          exact getLsbD_of_lowestSet_none (hempty' i (by omega))
        · exact dif_neg hid
      · have hround : j + 1 ≠ 1024 := by
          intro h
          exact hback (hnext ▸ (cyc_eq_self_iff (by omega) (by omega)).mpr h)
        obtain ⟨sid, s', hrun, hspec⟩ :=
          ih (j + 1) { s with sidIdx := next s.sidIdx } (by omega) (by omega) hnext hempty'
        refine ⟨sid, s', ?_, ?_⟩
        · rw [sidLoop, hw]
          exact (if_neg hback).trans hrun
        · exact hspec.imp (fun h ↦ { h with })
            fun h ↦ ⟨h.1, h.2.none_free, h.2.conns_eq, h.2.sidMap_eq⟩
    · have hbit := lt_of_lowestSet hw
      have hval : (Fin.ofNat 65536 (s.sidIdx * 64 + bit)).val = s.sidIdx * 64 + bit := by
        show (s.sidIdx * 64 + bit) % 65536 = _
        omega
      refine ⟨_, { s with sidMap := s.sidMap.clearBit s.sidIdx bit, sidIdx := next s.sidIdx },
        by rw [sidLoop, hw], .inl ⟨?_, rfl, fun id ↦ ?_⟩⟩
      · rw [hval, has_word_bit hbit]
        exact getLsbD_of_lowestSet hw
      · rw [hval]
        exact has_clearBit hbit

/-- **The search always comes back**, with a free id or, when there is none, with 0. -/
theorem sidLoop_returns {s : SidPool} :
    ∃ sid s', sidLoop s.sidIdx 1024 s = some (sid, s') ∧
      (Takes s sid s' ∨ sid = 0 ∧ FindsNone s s') :=
  sidLoop_spec 0 s (by omega) rfl cyc_zero.symm
    nofun

/-! ### The invariant -/

/-- **The map mirrors the connections.** -/
structure SidPool.Inv (s : SidPool) : Prop where
  /-- No id is held twice. -/
  nodup : s.conns.Nodup
  /-- Only ids the server has to give are held. -/
  usable : ∀ sid ∈ s.conns, Usable sid
  /-- The free ids are those that may be given and that nobody holds. -/
  mirrors : ∀ id : Fin 65536, s.sidMap.has id = true ↔ Usable id ∧ id ∉ s.conns

lemma initWord_getLsbD {k : Fin 1024} (hi : i < 64) :
    (initWord k).getLsbD i = true ↔ Usable (k * 64 + i) := by
  have hfirst : ∀ j : Fin 64, (0xfffffffffffffffe#64).getLsbD j = decide (j.val ≠ 0) := by decide
  have hlast : ∀ j : Fin 64, (0x7fffffffffffffff#64).getLsbD j = decide (j.val ≠ 63) := by decide
  have hfull : ∀ j : Fin 64, (0xffffffffffffffff#64).getLsbD j = true := by decide
  rw [initWord, Usable]
  split
  · next h =>
    rw [hfirst ⟨i, hi⟩, h, decide_eq_true_iff]
    simp only [Fin.val_zero]
    omega
  next h0 =>
  split
  · next h =>
    rw [hlast ⟨i, hi⟩, decide_eq_true_iff]
    show i ≠ 63 ↔ _
    omega
  · next h1 =>
    rw [hfull ⟨i, hi⟩]
    exact ⟨fun _ ↦ by omega, fun _ ↦ rfl⟩

lemma pppoeInit_inv : pppoeInit.Inv := by
  refine ⟨nodup_nil, nofun, fun id ↦ ?_⟩
  have hword : pppoeInit.sidMap.has id = (initWord (sidWord id)).getLsbD (id % 64) :=
    has_of_div_eq rfl
  rw [hword, initWord_getLsbD (mod_lt _ (by omega))]
  have hid : (sidWord id).val * 64 + id % 64 = id := div_add_mod' id 64
  rw [hid]
  simp [pppoeInit]

namespace SidPool.Inv

variable {s s' : SidPool} {sid : Fin 65536}

lemma ne_zero_of_takes (h : s.Inv) (ht : Takes s sid s') : sid ≠ 0 := by
  rintro rfl
  exact absurd ((h.mirrors 0).mp ht.free).1.1 (by decide)

/-- The id the search takes goes to a new connection. -/
lemma of_takes (h : s.Inv) (ht : Takes s sid s') :
    ({ s' with conns := s'.conns ++ [sid] } : SidPool).Inv := by
  obtain ⟨hu, hnew⟩ := (h.mirrors sid).mp ht.free
  refine ⟨?_, ?_, fun id ↦ ?_⟩
  · show (s'.conns ++ [sid]).Nodup
    rw [ht.conns_eq, nodup_append]
    refine ⟨h.nodup, nodup_singleton sid, ?_⟩
    rintro a ha b hb rfl
    exact hnew (mem_singleton.mp hb ▸ ha)
  · intro id hid
    rcases mem_append.mp hid with hold | hold
    · exact h.usable id (ht.conns_eq ▸ hold)
    · rwa [mem_singleton.mp hold]
  · rw [ht.has_iff, h.mirrors, ht.conns_eq, mem_append, mem_singleton, Ne, Fin.val_inj]
    tauto

lemma of_findsNone (h : s.Inv) (hn : FindsNone s s') : s'.Inv := by
  obtain ⟨-, hconns, hmap⟩ := hn
  exact ⟨hconns ▸ h.nodup, hconns ▸ h.usable, hconns ▸ hmap ▸ h.mirrors⟩

/-- `disconnect` below the sign bit gives back the id released, and that one only. -/
lemma has_disconnect (hmem : sid ∈ s.conns) (hlow : sid.val % 64 < 31)
    (id : Fin 65536) :
    (disconnect undef sid s).sidMap.has id = true ↔ s.sidMap.has id = true ∨ id = sid := by
  rw [disconnect, if_pos hmem, has_orWord, getLsbD_oneShl_of_lt undef hlow (mod_lt _ (by omega))]
  have hsame : (id.val / 64 = (sidWord sid).val ∧ id.val % 64 = sid.val % 64) ↔ id = sid := by
    show (_ = sid.val / 64 ∧ _) ↔ _
    omega
  rw [hsame]

lemma of_disconnect (h : s.Inv) (hmem : sid ∈ s.conns) (hlow : sid.val % 64 < 31) :
    (disconnect undef sid s).Inv := by
  have hconns : (disconnect undef sid s).conns = s.conns.erase sid := by
    rw [disconnect, if_pos hmem]
  refine ⟨hconns ▸ h.nodup.erase sid, ?_, fun id ↦ ?_⟩
  · intro id hid
    exact h.usable id (mem_of_mem_erase (hconns ▸ hid))
  · rw [has_disconnect undef hmem hlow, h.mirrors, hconns, h.nodup.mem_erase_iff]
    have hu : id = sid → Usable id := fun he ↦ he ▸ h.usable sid hmem
    tauto

end SidPool.Inv

variable {s : SidPool}

/-- **What `allocate_channel` does** in a state that satisfies the invariant. -/
theorem allocateChannel_spec (h : s.Inv) :
    (∃ sid s', allocateChannel true s = some (.conn sid, s') ∧ s'.Inv ∧
      s.sidMap.has sid = true ∧ s'.conns = s.conns ++ [sid]) ∨
    (∃ s', allocateChannel true s = some (.noFreeSid, s') ∧ s'.Inv ∧ s'.conns = s.conns ∧
      ∀ id : Fin 65536, Usable id → id ∈ s.conns) := by
  obtain ⟨sid, s', hrun, ht | ⟨rfl, hn⟩⟩ := sidLoop_returns
  · refine .inl ⟨sid, { s' with conns := s'.conns ++ [sid] }, ?_, h.of_takes ht, ht.free, ?_⟩
    · rw [allocateChannel, hrun]
      exact if_neg (h.ne_zero_of_takes ht)
    · exact congrArg (· ++ [sid]) ht.conns_eq
  · refine .inr ⟨s', ?_, h.of_findsNone hn, hn.conns_eq, fun id hu ↦ ?_⟩
    · rw [allocateChannel, if_pos rfl, hrun]
      exact if_pos rfl
    · by_contra hmem
      have := (h.mirrors id).mpr ⟨hu, hmem⟩
      rw [hn.none_free id] at this
      exact false_ne_true this

/-! ### Runs -/

/-- What is asked of one step. An allocation comes back, with a connection unless there is no
memory or every id is held; a disconnect makes the id it releases free again, and no other. -/
def StepSound (s : SidPool) : SidEvent → Prop
  | .alloc mem => ∃ r s', allocateChannel mem s = some (r, s') ∧
      (r = .outOfMemory → mem = false) ∧
      (r = .noFreeSid → ∀ id : Fin 65536, Usable id → id ∈ s.conns)
  | .disconnect sid => sid ∈ s.conns → ∀ id : Fin 65536,
      (disconnect undef sid s).sidMap.has id = true ↔ s.sidMap.has id = true ∨ id = sid

/-- **The ids are sound over a run**: no two connections ever hold one id, none holds 0, and every
step does what is asked of it. -/
def SidsSound (es : List SidEvent) : Prop :=
  Always (sidStep undef) (fun s ↦ s.conns.Nodup ∧ 0 ∉ s.conns) pppoeInit es ∧
    Along (sidStep undef) (StepSound undef) pppoeInit es

/-- The condition on a step: a disconnect releases an id below bit 31 of its word. -/
def ReleasesLow (s : SidPool) : SidEvent → Prop
  | .alloc _ => True
  | .disconnect sid => sid ∈ s.conns → sid.val % 64 < 31

instance (s : SidPool) (e : SidEvent) : Decidable (ReleasesLow s e) := by
  cases e <;> dsimp only [ReleasesLow] <;> infer_instance

lemma inv_sidStep (s : SidPool) (e : SidEvent) (h : s.Inv)
    (hlow : ReleasesLow s e) : (sidStep undef s e).Inv := by
  rcases e with mem | sid
  · rcases mem with - | -
    · exact h
    · rcases allocateChannel_spec h with ⟨sid, s', hrun, hinv, -⟩ | ⟨s', hrun, hinv, -⟩ <;>
        · rw [sidStep, hrun]
          exact hinv
  · by_cases hmem : sid ∈ s.conns
    · exact h.of_disconnect undef hmem (hlow hmem)
    · rwa [sidStep, disconnect, if_neg hmem]

lemma stepSound_of_inv (s : SidPool) (e : SidEvent) (h : s.Inv)
    (hlow : ReleasesLow s e) : StepSound undef s e := by
  rcases e with mem | sid
  · rcases mem with - | -
    · exact ⟨.outOfMemory, s, rfl, fun _ ↦ rfl, nofun⟩
    · rcases allocateChannel_spec h with ⟨sid, s', hrun, -⟩ | ⟨s', hrun, -, -, hfull⟩
      · exact ⟨_, s', hrun, nofun,
          nofun⟩
      · exact ⟨_, s', hrun, nofun, fun _ ↦ hfull⟩
  · intro hmem
    exact SidPool.Inv.has_disconnect undef hmem (hlow hmem)

/-- **Session ids are sound over every run whose disconnects release ids below bit 31.** -/
theorem sids_sound (es : List SidEvent)
    (h : Along (sidStep undef) ReleasesLow pppoeInit es) : SidsSound undef es := by
  refine ⟨fun pre hpre ↦ ?_, h.along (inv_sidStep undef) (stepSound_of_inv undef) pppoeInit_inv⟩
  have hinv := h.always (inv_sidStep undef) pppoeInit_inv pre hpre
  exact ⟨hinv.nodup, fun h0 ↦ absurd (hinv.usable 0 h0).1 (by decide)⟩

theorem sids_sound_reuse :
    Along (sidStep x86Shift) ReleasesLow pppoeInit
        [.alloc true, .alloc true, .disconnect 64, .alloc false, .disconnect 1, .alloc true] ∧
      SidsSound x86Shift
        [.alloc true, .alloc true, .disconnect 64, .alloc false, .disconnect 1, .alloc true] := by
  refine ⟨?_, sids_sound x86Shift _ ?_⟩
  all_goals decide

/-! ### A run that goes wrong

Fill the pool, release id 31 and allocate twice: the release makes ids 31 to 63 free although 32 to
63 are held, and the allocations then hand out ids that are held. -/

/-- The ids the server has to give, as a finite set. -/
def usableIds : Finset (Fin 65536) := Finset.Icc 1 65534

variable {id : Fin 65536}

lemma mem_usableIds : id ∈ usableIds ↔ Usable id :=
  Finset.mem_Icc

lemma card_usableIds : usableIds.card = 65534 :=
  Fin.card_Icc 1 65534

lemma SidPool.Inv.full_iff (h : s.Inv) :
    (∀ id : Fin 65536, Usable id → id ∈ s.conns) ↔ s.conns.length = 65534 := by
  have hcard : s.conns.toFinset.card = s.conns.length := toFinset_card_of_nodup h.nodup
  have hsub : s.conns.toFinset ⊆ usableIds := fun id hid ↦
    mem_usableIds.mpr (h.usable id (mem_toFinset.mp hid))
  constructor
  · intro hfull
    have heq : s.conns.toFinset = usableIds := hsub.antisymm fun id hid ↦
      mem_toFinset.mpr (hfull id (mem_usableIds.mp hid))
    rw [← hcard, heq, card_usableIds]
  · intro hlen id hu
    have heq : s.conns.toFinset = usableIds :=
      Finset.eq_of_subset_of_card_le hsub (by rw [hcard, hlen, card_usableIds])
    exact mem_toFinset.mp (heq ▸ mem_usableIds.mpr hu)

/-- Allocations alone fill the pool one by one. -/
lemma run_alloc {n : ℕ} (hn : n ≤ 65534) :
    (run (sidStep undef) pppoeInit (List.replicate n (.alloc true))).Inv ∧
      (run (sidStep undef) pppoeInit (List.replicate n (.alloc true))).conns.length = n := by
  induction n with
  | zero => exact ⟨pppoeInit_inv, rfl⟩
  | succ n ih =>
    obtain ⟨hinv, hlen⟩ := ih (by omega)
    rw [replicate_succ', run_append, run_cons]
    generalize run (sidStep undef) pppoeInit (replicate n (.alloc true)) = s at hinv hlen
    rcases allocateChannel_spec hinv with ⟨sid, s', hrun, hinv', -, hconns⟩ | ⟨-, -, -, -, hfull⟩
    · rw [sidStep, hrun]
      refine ⟨hinv', ?_⟩
      show s'.conns.length = n + 1
      rw [hconns, length_append, hlen, length_singleton]
    · have := hinv.full_iff.mp hfull
      omega

/-- Releasing id 31 frees all ids from 31 to 63: the sign of the shifted word is extended. -/
lemma has_disconnect_31 (h31 : 31 ∈ s.conns) (id : Fin 65536)
    (hlo : 31 ≤ id.val) (hhi : id.val < 64) : (disconnect undef 31 s).sidMap.has id = true := by
  rw [disconnect, if_pos h31, has_orWord]
  refine .inr ⟨?_, (getLsbD_oneShl_sign undef (mod_lt _ (by omega))).mpr (by omega)⟩
  show id.val / 64 = 0
  omega

/-- **The whole run**: fill the pool, release id 31, allocate twice. The release is where it goes
wrong. -/
theorem sid_given_twice :
    ¬ SidsSound x86Shift
        (List.replicate 65534 (.alloc true) ++ [.disconnect 31, .alloc true, .alloc true]) := by
  rintro ⟨-, halong⟩
  obtain ⟨hinv, hlen⟩ := run_alloc x86Shift (le_refl 65534)
  have hfull := hinv.full_iff.mpr hlen
  obtain ⟨hrelease, -⟩ := (along_append.mp halong).2
  -- id 32 is held, and free after the release
  have h31 := hfull 31 (by decide)
  have hfree := has_disconnect_31 x86Shift h31 32 (by decide) (by decide)
  rcases (hrelease h31 32).mp hfree with hbefore | heq
  · exact ((hinv.mirrors 32).mp hbefore).2 (hfull 32 (by decide))
  · exact absurd heq (by decide)

end AccelPpp.Pppoe
