import AccelPpp.Lib.Count
import AccelPpp.Lib.Places
import AccelPpp.Lib.Run
import AccelPpp.Triton.Records

/-!
# Records are freed once, and late enough

A record is at one place at a time (`Spot`): registered; unregistered and about to be put into
`freed_list`; in that list; in `freed_list2`; taken from there, with its reference to the context
given back; or freed. What the epoll thread still has to process, it has collected from records that
are not further than `freed_list2`; and it takes records from there only between two batches.

The reference counts say that a context outlives its records, but for one moment: an epoll thread
gives back the reference of a record before it frees it, so that the last record of a context is
freed just after the context.
-/

open List Nat

namespace AccelPpp.Triton

open Transition Places
open Function (forall_update_iff update update_eq_self update_of_ne update_self)

namespace Reactor

/-- Where a record is. -/
inductive Spot
  | unused
  | registered
  | pushing
  | listed
  | listed2
  | releasing
  | gone
deriving DecidableEq

/-- The record holds a reference to its context. -/
def Spot.live : Spot → Bool
  | .registered | .pushing | .listed | .listed2 => true
  | .unused | .releasing | .gone => false

/-- How long ago the record was put into `freed_list`, in rounds of its thread. -/
def PushedIn (rounds : ℕ) (pushed : Option ℕ) : Spot → Prop
  | .unused | .registered | .pushing => pushed = none
  | .listed => pushed = some rounds
  | .listed2 | .releasing => ∃ n, pushed = some n ∧ n + 1 = rounds
  | .gone => True

/-- The records are where `p` says, and the counts are right. -/
structure Placed (s : Reactor) (p : ℕ → Spot) : Prop where
  unused : ∀ r, s.allocated ≤ r ↔ p r = .unused
  ud : ∀ r, (s.records r).ud = true ↔ p r = .registered
  frees : ∀ r, (s.records r).frees = if p r = .gone then 1 else 0
  pushing : Holds p (fun r ↦ (s.records r).ctx) .pushing fun c r ↦ (s.ctxs c).pushing = some r
  listed : Holds p (fun r ↦ (s.records r).kind) .listed fun k r ↦ r ∈ (s.epoll k).freedList
  listed2 : Holds p (fun r ↦ (s.records r).kind) .listed2 fun k r ↦ r ∈ (s.epoll k).freedList2
  releasing : Holds p (fun r ↦ (s.records r).kind) .releasing fun k r ↦
    (s.epoll k).stage = .released r
  nodup : ∀ k, (s.epoll k).freedList.Nodup ∧ (s.epoll k).freedList2.Nodup
  splicing : ∀ k, (s.epoll k).stage = .splicing → (s.epoll k).freedList2 = []
  pushed : ∀ r, PushedIn (s.epoll (s.records r).kind).rounds (s.records r).pushed (p r)
  refs : ∀ c, (s.ctxs c).refs = (if (s.ctxs c).own then 1 else 0) +
    count (fun r ↦ (p r).live = true ∧ (s.records r).ctx = c) s.allocated
  ctxFrees : ∀ c, (s.ctxs c).frees = if (s.ctxs c).refs = 0 then 1 else 0

/-- What refers to a record. -/
structure Referred (s : Reactor) (p : ℕ → Spot) : Prop where
  inEpoll : ∀ r, (s.records r).inEpoll = true →
    p r = .registered ∨ ((s.records r).kind = .timer ∧ (p r).live = true)
  events : ∀ k, ∀ r ∈ (s.epoll k).stage.events, (p r).live = true ∧ (s.records r).kind = k
  pending : ∀ c k, ∀ r ∈ (s.ctxs c).pending k, p r = .registered ∧ (s.records r).ctx = c ∧
    (s.records r).kind = k ∧ (s.records r).pending = true
  nodup : ∀ c k, ((s.ctxs c).pending k).Nodup
  popped : ∀ c r, (s.ctxs c).dispatch = .popped r → p r = .registered ∧ (s.records r).ctx = c

variable {a q : Spot} {x : Record} {y : Owner} {d : Dispatch}

/-- Nothing freed has been accessed, and no callback of an unregistered record has been called. -/
structure Inv (s : Reactor) : Prop where
  broken : s.broken = false
  calls : ∀ call ∈ s.calls, call.2 = true
  placed : ∃ p, Placed s p ∧ Referred s p

lemma inv_init : Inv {} where
  broken := rfl
  calls _ h := nomatch h
  placed := by
    refine ⟨fun _ ↦ .unused, ⟨fun r ↦ iff_of_true (zero_le r) rfl,
      fun _ ↦ iff_of_false nofun nofun, fun _ ↦ rfl, fun _ _ ↦ iff_of_false nofun fun h ↦
        (nomatch h.1),
      fun _ _ ↦ iff_of_false nofun fun h ↦ (nomatch h.1), fun _ _ ↦ iff_of_false nofun fun h ↦
        (nomatch h.1),
      fun _ _ ↦ iff_of_false nofun fun h ↦ (nomatch h.1), fun _ ↦ ⟨nodup_nil, nodup_nil⟩,
      fun _ _ ↦ rfl, fun _ ↦ rfl, fun _ ↦ rfl, fun _ ↦ rfl⟩, ?_⟩
    exact ⟨nofun, nofun, nofun,
      fun _ _ ↦ nodup_nil, nofun⟩

variable {s s' : Reactor} {p : ℕ → Spot} {r r' c : ℕ} {k : Kind}

/-! ### What is accessed has not been freed -/

lemma Spot.ne_gone (h : q.live = true) : q ≠ .gone := by
  rintro rfl
  nomatch h

section

variable (h : Placed s p)

include h

lemma Placed.frees_eq_zero (hr : p r = a) (ha : a ≠ .gone) :
    (s.records r).frees = 0 := by
  rw [h.frees r, if_neg (hr ▸ ha)]

lemma Placed.lt (hr : (p r).live = true) : r < s.allocated := by
  by_contra hf
  rw [(h.unused r).mp (Nat.le_of_not_lt hf)] at hr
  nomatch hr

/-- **A context that is referred to has not been freed.** -/
theorem Placed.ctxFrees_of_refs (hrefs : (s.ctxs c).refs ≠ 0) : (s.ctxs c).frees = 0 := by
  rw [h.ctxFrees c, if_neg hrefs]

lemma Placed.refs_of_live (hr : (p r).live = true) : (s.ctxs (s.records r).ctx).refs ≠ 0 := by
  have hcount : count (fun r' ↦ (p r').live = true ∧ (s.records r').ctx = (s.records r).ctx)
      s.allocated ≠ 0 := count_ne_iff_exists.mpr ⟨r, h.lt hr, hr, rfl⟩
  rw [h.refs]
  omega

lemma Placed.refs_of_own (hown : (s.ctxs c).own = true) : (s.ctxs c).refs ≠ 0 := by
  rw [h.refs, if_pos hown]
  omega

end

/-! ### Steps that leave the records where they are -/

/-- The parts of a record that say where it is. -/
structure SameRecord (x x' : Record) : Prop where
  kind : x'.kind = x.kind
  ctx : x'.ctx = x.ctx
  ud : x'.ud = x.ud
  frees : x'.frees = x.frees
  pushed : x'.pushed = x.pushed

/-- The parts of a context that its references and its unregistered record depend on. -/
structure SameOwner (y y' : Owner) : Prop where
  refs : y'.refs = y.refs
  own : y'.own = y.own
  frees : y'.frees = y.frees
  pushing : y'.pushing = y.pushing

/-- An epoll thread goes on without moving a record. -/
structure SameLists (z z' : Epoll) : Prop where
  freedList : z'.freedList = z.freedList
  freedList2 : z'.freedList2 = z.freedList2
  rounds : z'.rounds = z.rounds
  released : ∀ r, z'.stage = .released r ↔ z.stage = .released r
  splicing : z'.stage = .splicing → z.stage = .splicing ∨ z.freedList2 = []

lemma SameRecord.rfl : SameRecord x x := ⟨.refl _, .refl _, .refl _, .refl _, .refl _⟩

lemma SameOwner.rfl : SameOwner y y := ⟨.refl _, .refl _, .refl _, .refl _⟩

lemma SameLists.rfl {z : Epoll} : SameLists z z :=
  ⟨.refl _, .refl _, .refl _, fun _ ↦ Iff.rfl, .inl⟩

lemma ctx_eq {r : ℕ} (hrecords : s'.records = update s.records r x)
    (h : x.ctx = (s.records r).ctx) (r' : ℕ) : (s'.records r').ctx = (s.records r').ctx := by
  rw [hrecords]
  exact forall_update s.records (fun r' x ↦ x.ctx = (s.records r').ctx) h (fun _ ↦ rfl) r'

lemma Placed.congr (h : Placed s p)
    (hepoll : ∀ k, SameLists (s.epoll k) (s'.epoll k) := by exact fun _ ↦ .rfl)
    (hctx : ∀ c, SameOwner (s.ctxs c) (s'.ctxs c) := by
      first | exact fun _ ↦ .rfl | exact rel_update (fun _ ↦ .rfl) ⟨rfl, rfl, rfl, rfl⟩)
    (hrec : ∀ r, SameRecord (s.records r) (s'.records r) := by
      first | exact fun _ ↦ .rfl | exact rel_update (fun _ ↦ .rfl) ⟨rfl, rfl, rfl, rfl, rfl⟩)
    (halloc : s'.allocated = s.allocated := by rfl) : Placed s' p where
  unused r := by rw [halloc]; exact h.unused r
  ud r := by rw [(hrec r).ud]; exact h.ud r
  frees r := by rw [(hrec r).frees]; exact h.frees r
  pushing := h.pushing.congr (fun r ↦ (hrec r).ctx) fun c r ↦ by rw [(hctx c).pushing]
  listed := h.listed.congr (fun r ↦ (hrec r).kind) fun k r ↦ by rw [(hepoll k).freedList]
  listed2 := h.listed2.congr (fun r ↦ (hrec r).kind) fun k r ↦ by rw [(hepoll k).freedList2]
  releasing := h.releasing.congr (fun r ↦ (hrec r).kind) fun k ↦ (hepoll k).released
  nodup k := by rw [(hepoll k).freedList, (hepoll k).freedList2]; exact h.nodup k
  splicing k hk := by
    rw [(hepoll k).freedList2]
    exact ((hepoll k).splicing hk).elim (h.splicing k) id
  pushed r := by
    rw [(hrec r).kind, (hrec r).pushed, (hepoll _).rounds]
    exact h.pushed r
  refs c := by
    rw [(hctx c).refs, (hctx c).own, halloc, h.refs c]
    congr 1
    exact Counting.count_congr fun r _ ↦ by rw [(hrec r).ctx]
  ctxFrees c := by rw [(hctx c).frees, (hctx c).refs]; exact h.ctxFrees c

/-! ### Steps that move one record -/

section

variable (h : Referred s p)

include h

/-- **One record and its context change**, and the record may go on to another place. -/
theorem Referred.move {p' : ℕ → Spot}
    (hrecords : s'.records = update s.records r x) (hctxs : s'.ctxs = update s.ctxs c y)
    (hp : ∀ r' ≠ r, p' r' = p r') (hother : p r = .registered → (s.records r).ctx = c)
    (hin : x.inEpoll = true → p' r = .registered ∨ (x.kind = .timer ∧ (p' r).live = true))
    (hevents : ∀ k, ∀ r' ∈ (s'.epoll k).stage.events, r' ∈ (s.epoll k).stage.events ∧
      (r' = r → (p' r).live = true ∧ x.kind = k))
    (hpending : ∀ k, ∀ r' ∈ y.pending k, (r' ≠ r ∧ r' ∈ (s.ctxs c).pending k) ∨
      (r' = r ∧ p' r = .registered ∧ x.ctx = c ∧ x.kind = k ∧ x.pending = true))
    (hnodup : ∀ k, (y.pending k).Nodup) (hpopped : ∀ r', y.dispatch = .popped r' →
      (r' ≠ r ∧ (s.ctxs c).dispatch = .popped r') ∨ (r' = r ∧ p' r = .registered ∧ x.ctx = c)) :
    Referred s' p' := by
  have hself : s'.records r = x := by rw [hrecords, update_self]
  have hrest : ∀ r' ≠ r, s'.records r' = s.records r' := fun r' hne ↦ by
    rw [hrecords, update_of_ne hne]
  have hown : s'.ctxs c = y := by rw [hctxs, update_self]
  have howner : ∀ c' ≠ c, s'.ctxs c' = s.ctxs c' := fun c' hne ↦ by
    rw [hctxs, update_of_ne hne]
  -- What refers to a record of another context does not refer to `r`.
  have hne {c' r' : ℕ} (hc' : c' ≠ c) (hreg : p r' = .registered) (hctx : (s.records r').ctx = c') :
      r' ≠ r := by
    rintro rfl
    exact hc' (hctx.symm.trans (hother hreg))
  refine ⟨fun r' hr' ↦ ?_, fun k r' hr' ↦ ?_, fun c' k r' hr' ↦ ?_, fun c' k ↦ ?_,
    fun c' r' hr' ↦ ?_⟩
  · by_cases hrr : r' = r
    · subst hrr
      rw [hself] at hr' ⊢
      exact hin hr'
    · rw [hrest r' hrr] at hr' ⊢
      rw [hp r' hrr]
      exact h.inEpoll r' hr'
  · obtain ⟨hold, hlive⟩ := hevents k r' hr'
    by_cases hrr : r' = r
    · subst hrr
      rw [hself]
      exact hlive rfl
    · rw [hrest r' hrr, hp r' hrr]
      exact h.events k r' hold
  · by_cases hc' : c' = c
    · subst hc'
      rw [hown] at hr'
      rcases hpending k r' hr' with ⟨hrr, hold⟩ | ⟨rfl, hnew⟩
      · rw [hrest r' hrr, hp r' hrr]
        exact h.pending c' k r' hold
      · rw [hself]
        exact hnew
    · rw [howner c' hc'] at hr'
      have hold := h.pending c' k r' hr'
      have hrr := hne hc' hold.1 hold.2.1
      rw [hrest r' hrr, hp r' hrr]
      exact hold
  · by_cases hc' : c' = c
    · rw [hc', hown]
      exact hnodup k
    · rw [howner c' hc']
      exact h.nodup c' k
  · by_cases hc' : c' = c
    · subst hc'
      rw [hown] at hr'
      rcases hpopped r' hr' with ⟨hrr, hold⟩ | ⟨rfl, hnew⟩
      · rw [hrest r' hrr, hp r' hrr]
        exact h.popped c' r' hold
      · rw [hself]
        exact hnew
    · rw [howner c' hc'] at hr'
      have hold := h.popped c' r' hr'
      have hrr := hne hc' hold.1 hold.2
      rw [hrest r' hrr, hp r' hrr]
      exact hold

/-- One of the lists of pending records changes, by one record. -/
lemma Referred.setPending {b : Bool} {l : List ℕ} (hreg : p r = .registered)
    (hctx : (s.records r).ctx = c) (hkind : (s.records r).kind = k)
    (hrecords : s'.records = update s.records r { s.records r with pending := b })
    (hctxs : s'.ctxs = update s.ctxs c { s.ctxs c with
      pending := update (s.ctxs c).pending k l, dispatch := d })
    (hevents : ∀ k, (s'.epoll k).stage.events = (s.epoll k).stage.events)
    (hl : ∀ r' ∈ l, (r' ≠ r ∧ r' ∈ (s.ctxs c).pending k) ∨ (r' = r ∧ b = true)) (hnodup : l.Nodup)
    (hd : ∀ r', d = .popped r' → (s.ctxs c).dispatch = .popped r' ∨ r' = r) : Referred s' p := by
  refine h.move hrecords hctxs (fun _ _ ↦ rfl) (fun _ ↦ hctx) (h.inEpoll r) (fun k' r' hr' ↦ ?_)
    ?_ ?_ fun r' hr' ↦ ?_
  · rw [hevents] at hr'
    exact ⟨hr', fun hrr ↦ hrr ▸ h.events k' r' hr'⟩
  · refine (forall_update_iff (s.ctxs c).pending fun k' l ↦ ∀ r' ∈ l,
      (r' ≠ r ∧ r' ∈ (s.ctxs c).pending k') ∨ (r' = r ∧ p r = .registered ∧
        (s.records r).ctx = c ∧ (s.records r).kind = k' ∧ b = true)).mpr
      ⟨fun r' hr' ↦ ?_, fun k' hk' r' hr' ↦ .inl ⟨?_, hr'⟩⟩
    · exact (hl r' hr').imp_right fun hr' ↦ ⟨hr'.1, hreg, hctx, hkind, hr'.2⟩
    · rintro rfl
      exact hk' ((h.pending c k' r' hr').2.2.1.symm.trans hkind)
  · exact (forall_update_iff (s.ctxs c).pending fun _ l ↦ l.Nodup).mpr
      ⟨hnodup, fun k' _ ↦ h.nodup c k'⟩
  · by_cases hrr : r' = r
    · exact .inr ⟨hrr, hreg, hctx⟩
    · exact .inl ⟨hrr, (hd r' hr').resolve_right hrr⟩

/-- The lists of pending records, when a record is taken out. -/
lemma Referred.unpend {c r : ℕ} {k : Kind} :
    let l := if (s.records r).pending then update (s.ctxs c).pending (s.records r).kind
      (((s.ctxs c).pending (s.records r).kind).erase r) else (s.ctxs c).pending
    (l k).Sublist ((s.ctxs c).pending k) ∧ r ∉ l k := by
  dsimp only
  split
  · by_cases hk : k = (s.records r).kind
    · rw [hk, update_self]
      exact ⟨erase_sublist, (h.nodup c _).not_mem_erase⟩
    · rw [update_of_ne hk]
      exact ⟨List.Sublist.refl _, fun hf ↦ hk (h.pending c k r hf).2.2.1.symm⟩
  · next hpending => exact ⟨List.Sublist.refl _, fun hf ↦ hpending (h.pending c k r hf).2.2.2⟩

/-- An unregistered record that is in an epoll set is a timer. -/
lemma Referred.late (hin : (s.records r).inEpoll = true) (hr : p r = a)
    (ha : a ≠ .registered := by exact nofun) : (s.records r).kind = .timer ∧ a.live = true :=
  hr ▸ (h.inEpoll r hin).resolve_left (hr ▸ ha)

/-- A record goes on that is no longer registered. -/
lemma Referred.advance (hrecords : s'.records = update s.records r x)
    (hctxs : s'.ctxs = update s.ctxs c y) (hspot : p r = a)
    (hin : x.inEpoll = true → x.kind = .timer ∧ q.live = true)
    (hevents : ∀ k, ∀ r' ∈ (s'.epoll k).stage.events, r' ∈ (s.epoll k).stage.events ∧
      (r' = r → q.live = true ∧ x.kind = k)) (ha : a ≠ .registered := by exact nofun)
    (hpending : y.pending = (s.ctxs c).pending := by rfl)
    (hdispatch : y.dispatch = (s.ctxs c).dispatch := by rfl) : Referred s' (update p r q) := by
  subst hspot
  have hne : ∀ r', p r' = .registered → r' ≠ r := by
    rintro r' hr' rfl
    exact ha hr'
  refine h.move hrecords hctxs (fun r' hr' ↦ update_of_ne hr' ..)
    (fun hf ↦ absurd hf ha) (fun hx ↦ .inr ?_) ?_ (fun k r' hr' ↦ .inl ?_) ?_
    fun r' hr' ↦ .inl ?_
  · rw [update_self]
    exact hin hx
  · rw [update_self]
    exact hevents
  · rw [hpending] at hr'
    exact ⟨hne r' (h.pending c k r' hr').1, hr'⟩
  · rw [hpending]
    exact h.nodup c
  · rw [hdispatch] at hr'
    exact ⟨hne r' (h.popped c r' hr').1, hr'⟩

/-- A context changes, but not in what refers to a record. -/
lemma Referred.setCtx (hctxs : s'.ctxs = update s.ctxs c y)
    (hpopped : ∀ r, y.dispatch = .popped r → (s.ctxs c).dispatch = .popped r)
    (hrecords : s'.records = s.records) (hepoll : s'.epoll = s.epoll)
    (hpending : y.pending = (s.ctxs c).pending) : Referred s' p := by
  refine ⟨?_, ?_, ?_, ?_, ?_⟩
  · rw [hrecords]
    exact h.inEpoll
  · rw [hrecords, hepoll]
    exact h.events
  · rw [hrecords, hctxs]
    refine forall_update s.ctxs (fun c' y ↦ ∀ k, ∀ r ∈ y.pending k, p r = .registered ∧
      (s.records r).ctx = c' ∧ (s.records r).kind = k ∧ (s.records r).pending = true) ?_ h.pending
    rw [hpending]
    exact h.pending c
  · rw [hctxs]
    refine forall_update s.ctxs (fun _ y ↦ ∀ k, (y.pending k).Nodup) ?_ h.nodup
    rw [hpending]
    exact h.nodup c
  · rw [hrecords, hctxs]
    exact forall_update s.ctxs (fun c' y ↦ ∀ r, y.dispatch = .popped r → p r = .registered ∧
      (s.records r).ctx = c') (fun r hr ↦ h.popped c r (hpopped r hr)) h.popped

end

section

variable (h : Placed s p)

include h

/-- **A record goes on to another place.** -/
theorem Placed.move {z : Epoll} (hrecords : s'.records = update s.records r x)
    (hctxs : s'.ctxs = update s.ctxs x.ctx y) (hepoll : s'.epoll = update s.epoll x.kind z)
    (hsame : p r ≠ .unused → (s.records r).ctx = x.ctx ∧ (s.records r).kind = x.kind)
    (hunused : ∀ r', s'.allocated ≤ r' ↔ update p r q r' = .unused)
    (hud : x.ud = true ↔ q = .registered) (hfrees : x.frees = if q = .gone then 1 else 0)
    (hpushing : Follows (fun (y : Owner) r ↦ y.pushing = some r) .pushing q r (s.ctxs x.ctx) y)
    (hlisted : Follows (fun (z : Epoll) r ↦ r ∈ z.freedList) .listed q r (s.epoll x.kind) z)
    (hlisted2 : Follows (fun (z : Epoll) r ↦ r ∈ z.freedList2) .listed2 q r (s.epoll x.kind) z)
    (hreleasing : Follows (fun (z : Epoll) r ↦ z.stage = .released r) .releasing q r
      (s.epoll x.kind) z)
    (hnodup : z.freedList.Nodup ∧ z.freedList2.Nodup)
    (hsplicing : z.stage = .splicing → z.freedList2 = [])
    (hrounds : z.rounds = (s.epoll x.kind).rounds)
    (hpushed : PushedIn (s.epoll x.kind).rounds x.pushed q)
    (hrefs : ∀ c, (s'.ctxs c).refs = (if (s'.ctxs c).own then 1 else 0) + count
      (fun r' ↦ (update p r q r').live = true ∧ (s'.records r').ctx = c) s'.allocated)
    (hctxFrees : y.frees = if y.refs = 0 then 1 else 0) : Placed s' (update p r q) := by
  have hself : s'.records r = x := by rw [hrecords, update_self]
  have hrest : ∀ r' ≠ r, s'.records r' = s.records r' := fun r' hr' ↦ by
    rw [hrecords, update_of_ne hr']
  have hboth (P : Record → Spot → Prop) (hx : P x q) (hrest : ∀ r', P (s.records r') (p r'))
      (r' : ℕ) : P (s'.records r') (update p r q r') := by
    rw [hrecords]
    by_cases hrr : r' = r
    · rw [hrr, update_self, update_self]
      exact hx
    · rw [update_of_ne hrr, update_of_ne hrr]
      exact hrest r'
  -- The place that a thread of this kind holds.
  have hholds {a : Spot} {M : Epoll → ℕ → Prop} (hz : Follows M a q r (s.epoll x.kind) z)
      (hM : Holds p (fun r ↦ (s.records r).kind) a fun k ↦ M (s.epoll k)) (ha : a ≠ .unused) :
      Holds (update p r q) (fun r ↦ (s'.records r).kind) a fun k ↦ M (s'.epoll k) := by
    rw [hepoll]
    exact hM.move M (fun r' hr' ↦ by rw [hrest r' hr']) (fun _ ↦ by rw [hself])
      (fun hf ↦ (hsame (hf ▸ ha)).2) hz
  refine ⟨hunused, hboth (fun x q ↦ x.ud = true ↔ q = .registered) hud h.ud,
    hboth (fun x q ↦ x.frees = if q = .gone then 1 else 0) hfrees h.frees, ?_,
    hholds hlisted h.listed nofun, hholds hlisted2 h.listed2 nofun,
    hholds hreleasing h.releasing nofun, ?_, ?_, fun r' ↦ ?_, hrefs, ?_⟩
  · rw [hctxs]
    exact h.pushing.move (fun (y : Owner) r ↦ y.pushing = some r)
      (fun r' hr' ↦ by rw [hrest r' hr']) (fun _ ↦ by rw [hself])
      (fun hf ↦ (hsame (by rw [hf]; nofun)).1) hpushing
  · rw [hepoll]
    exact forall_update s.epoll (fun _ z ↦ z.freedList.Nodup ∧ z.freedList2.Nodup) hnodup h.nodup
  · rw [hepoll]
    exact forall_update s.epoll (fun _ z ↦ z.stage = .splicing → z.freedList2 = []) hsplicing
      h.splicing
  · have hsame := forall_update s.epoll (fun k z ↦ z.rounds = (s.epoll k).rounds) hrounds
      fun _ ↦ rfl
    rw [hepoll, hsame]
    exact hboth (fun x q ↦ PushedIn (s.epoll x.kind).rounds x.pushed q) hpushed h.pushed r'
  · rw [hctxs]
    exact forall_update s.ctxs (fun _ y ↦ y.frees = if y.refs = 0 then 1 else 0) hctxFrees
      h.ctxFrees

/-- The allocated records, when one of them moves. -/
lemma Placed.unused_move (hr : p r = a) (r' : ℕ) (ha : a ≠ .unused := by exact nofun)
    (hq : q ≠ .unused := by exact nofun) : s.allocated ≤ r' ↔ update p r q r' = .unused := by
  rw [h.unused]
  by_cases hrr : r' = r
  · rw [hrr, update_self]
    exact iff_of_false (hr ▸ ha) hq
  · rw [update_of_ne hrr]

lemma Placed.ud_move (hr : p r = a) (ha : a ≠ .registered := by exact nofun)
    (hq : q ≠ .registered := by exact nofun) : (s.records r).ud = true ↔ q = .registered :=
  (h.ud r).trans (iff_of_false (hr ▸ ha) hq)

/-- The references, when the record that moves keeps its own or has none. -/
lemma Placed.refs_move (hlive : q.live = (p r).live)
    (hrecords : s'.records = update s.records r x) (hctxs : s'.ctxs = update s.ctxs c y)
    (hctx : x.ctx = (s.records r).ctx)
    (hrefs : y.refs = (s.ctxs c).refs ∧ y.own = (s.ctxs c).own) (c' : ℕ) :
    (s'.ctxs c').refs = (if (s'.ctxs c').own then 1 else 0) + count
      (fun r' ↦ (update p r q r').live = true ∧ (s'.records r').ctx = c') s.allocated := by
  have hsame := forall_update s.ctxs (fun c y ↦ y.refs = (s.ctxs c).refs ∧ y.own = (s.ctxs c).own)
    hrefs (fun _ ↦ ⟨rfl, rfl⟩) c'
  rw [hctxs, hsame.1, hsame.2, h.refs c']
  congr 1
  refine Counting.count_congr fun r' _ ↦ ?_
  rw [ctx_eq hrecords hctx]
  by_cases hrr : r' = r
  · rw [hrr, update_self, hlive]
  · rw [update_of_ne hrr]

/-- The references, when a record gives back its own. -/
lemma Placed.count_release (hlive : (p r).live = true)
    (hctx : ∀ r', (s'.records r').ctx = (s.records r').ctx) (c : ℕ) :
    count (fun r' ↦ (p r').live = true ∧ (s.records r').ctx = c) s.allocated =
      count (fun r' ↦ (update p r .releasing r').live = true ∧
        (s'.records r').ctx = c) s.allocated + if (s.records r).ctx = c then 1 else 0 := by
  have hself : ¬ ((update p r .releasing r).live = true ∧ (s'.records r).ctx = c) := by
    rw [update_self]
    exact fun hf ↦ nomatch hf.1
  split
  · next hc =>
    refine Counting.count_raise (h.lt hlive) hself ⟨hlive, hc⟩ fun r' hr' ↦ ?_
    rw [update_of_ne hr', hctx]
  next hc =>
  refine Counting.count_congr fun r' _ ↦ ?_
  by_cases hrr : r' = r
  · rw [hrr]
    exact iff_of_false (fun hf ↦ hc hf.2) hself
  · rw [update_of_ne hrr, hctx]

end

/-! ### The steps of the contexts and of the epoll threads -/

section

variable (h : s.Inv)

include h

/-- `ctx_thread` goes on with a record, or is done with it. -/
lemma Inv.setDispatch (hd : ∀ r, d ≠ .popped r) :
    (s.setCtx c { s.ctxs c with dispatch := d }).Inv := by
  obtain ⟨p, hp, href⟩ := h.placed
  exact ⟨h.broken, h.calls, p, hp.congr (fun _ ↦ .rfl) (rel_update (fun _ ↦ .rfl)
    ⟨rfl, rfl, rfl, rfl⟩) (fun _ ↦ .rfl) rfl,
    href.setCtx rfl (fun r hf ↦ absurd hf (hd r)) rfl rfl rfl⟩

/-- A callback of a registered record is called. -/
lemma Inv.call (hd : ∀ r, d ≠ .popped r) (hud : (s.records r).ud = true) :
    (s.call c d r).Inv := by
  have hset := h.setDispatch (c := c) hd
  obtain ⟨p, hp, href⟩ := hset.placed
  exact ⟨hset.broken, forall_mem_cons.mpr ⟨hud, h.calls⟩, p, { hp with }, { href with }⟩

/-- An epoll thread goes on with its batch, or gets a new one. -/
lemma Inv.setStage {old new : Stage} (hold : (s.epoll k).stage = old)
    (hevents : ∀ r ∈ new.events, r ∈ old.events ∨
      ((s.records r).inEpoll = true ∧ (s.records r).kind = k))
    (hsplicing : new = .splicing → (s.epoll k).freedList2 = [])
    (hreleased : ∀ r, old ≠ .released r) (hnew : ∀ r, new ≠ .released r) :
    (s.setEpoll k { s.epoll k with stage := new }).Inv := by
  obtain ⟨p, hp, href⟩ := h.placed
  subst hold
  refine ⟨h.broken, h.calls, p, hp.congr
    (rel_update (fun _ ↦ .rfl) ⟨rfl, rfl, rfl, fun r ↦ iff_of_false (hnew r) (hreleased r),
      fun hs ↦ .inr (hsplicing hs)⟩) (fun _ ↦ .rfl) (fun _ ↦ .rfl) rfl,
    href.inEpoll, ?_, href.pending, href.nodup, href.popped⟩
  refine forall_update s.epoll (fun k' z ↦ ∀ r ∈ z.stage.events, (p r).live = true ∧
    (s.records r).kind = k') (fun r hr ↦ ?_) href.events
  rcases hevents r hr with hr | ⟨hin, hkind⟩
  · exact href.events k r hr
  refine ⟨?_, hkind⟩
  rcases href.inEpoll r hin with hreg | ⟨-, hlive⟩
  · rw [hreg]
    rfl
  · exact hlive

/-- An epoll thread puts a record into the list of its context. -/
lemma Inv.queueSection {events : List ℕ}
    (hstage : (s.epoll k).stage = .locking r events) : (s.queueSection k r events).Inv := by
  rw [Reactor.queueSection]
  split
  · next hud =>
    obtain ⟨hud, hpending⟩ := hud
    obtain ⟨p, hp, href⟩ := h.placed
    have hmem : r ∈ (s.epoll k).stage.events := by rw [hstage]; exact mem_cons_self
    have hkind := (href.events k r hmem).2
    have hreg := (hp.ud r).mp hud
    refine ⟨h.broken, h.calls, p, hp.congr (rel_update (fun _ ↦ .rfl)
      ⟨rfl, rfl, rfl, fun r' ↦ iff_of_false nofun (hstage ▸ nofun), nofun⟩), ?_⟩
    have hnot : r ∉ (s.ctxs (s.records r).ctx).pending k := fun hf ↦
      hpending (href.pending _ k r hf).2.2.2
    refine href.setPending hreg rfl hkind rfl rfl (fun k' ↦ ?_) (fun r' hr' ↦ ?_) ?_
      (fun r' hr' ↦ .inl hr')
    · refine forall_update s.epoll (fun k' z ↦ z.stage.events = (s.epoll k').stage.events) ?_
        (fun _ ↦ rfl) k'
      rw [hstage]
      rfl
    · rcases mem_append.mp hr' with hr' | hr'
      · exact .inl ⟨fun hf ↦ hnot (hf ▸ hr'), hr'⟩
      · exact .inr ⟨mem_singleton.mp hr', rfl⟩
    · exact (href.nodup _ k).append (nodup_singleton r) (disjoint_singleton.mpr hnot)
  · exact h.setStage hstage (fun r' hr' ↦ .inl (mem_cons_of_mem r hr')) nofun nofun nofun

/-- `ctx_thread` takes a record from a list. -/
lemma Inv.pop {rest : List ℕ} (hown : (s.ctxs c).own = true)
    (hlist : (s.ctxs c).pending k = r :: rest) : (s.pop c k r rest).Inv := by
  obtain ⟨p, hp, href⟩ := h.placed
  have hmem : r ∈ (s.ctxs c).pending k := by rw [hlist]; exact mem_cons_self
  obtain ⟨hreg, hctx, hkind, -⟩ := href.pending c k r hmem
  have hnodup := href.nodup c k
  rw [hlist, nodup_cons] at hnodup
  rw [Reactor.pop, touchCtx, if_pos (hp.ctxFrees_of_refs (hp.refs_of_own hown)), touch,
    if_pos (hp.frees_eq_zero hreg nofun)]
  refine ⟨h.broken, h.calls, p, hp.congr, href.setPending hreg hctx hkind rfl rfl
    (fun _ ↦ rfl) (fun r' hr' ↦ .inl ⟨?_, ?_⟩) hnodup.2
    fun r' hr' ↦ .inr (Dispatch.popped.inj hr').symm⟩
  · rintro rfl
    exact hnodup.1 hr'
  · rw [hlist]
    exact mem_cons_of_mem r hr'

lemma Inv.take (c : ℕ) : (s.act (.take c)).Inv := by
  rw [Reactor.act]
  split
  · next hc =>
    split
    · next hlist => exact h.pop hc.1 hlist
    · next hlist => exact h.pop hc.1 hlist
    · exact h
  · exact h

lemma Inv.dispatch (c : ℕ) (toRead toWrite : Bool) :
    (s.act (.dispatch c toRead toWrite)).Inv := by
  rw [Reactor.act]
  split
  · next r hd =>
    obtain ⟨p, hp, href⟩ := h.placed
    have hreg := (href.popped c r hd).1
    have hud := (hp.ud r).mpr hreg
    rw [touch, if_pos (hp.frees_eq_zero hreg nofun)]
    cases (s.records r).kind with
    | timer =>
      rw [if_pos hud]
      exact h.call (by simp) hud
    | md =>
      dsimp only
      split
      · exact h.call (by simp) hud
      · split
        · exact h.call (by simp) hud
        · exact h.setDispatch (by simp)
  · exact h

lemma Inv.ret (c : ℕ) (zero toWrite : Bool) : (s.act (.ret c zero toWrite)).Inv := by
  obtain ⟨p, hp, -⟩ := h.placed
  have hfrees : ∀ r, (s.records r).ud = true → (s.records r).frees = 0 := fun r hud ↦
    hp.frees_eq_zero ((hp.ud r).mp hud) nofun
  rw [Reactor.act]
  split
  · split
    · split
      · next hud =>
        rw [touch, if_pos (hfrees _ hud.2)]
        split
        · exact h.call (by simp) hud.2
        · exact h.setDispatch (by simp)
      · exact h.setDispatch (by simp)
    · split
      · next hud =>
        rw [touch, if_pos (hfrees _ hud.2)]
        exact h.setDispatch (by simp)
      · exact h.setDispatch (by simp)
    · exact h.setDispatch (by simp)
    · exact h
    · exact h
  · exact h

lemma Inv.interest (c r : ℕ) (on : Bool) : (s.act (.interest c r on)).Inv := by
  rw [Reactor.act]
  split
  · next hc =>
    obtain ⟨-, hud, hctx, -⟩ := hc
    obtain ⟨p, hp, href⟩ := h.placed
    have hreg := (hp.ud r).mp hud
    refine ⟨h.broken, h.calls, p, hp.congr, ?_⟩
    refine href.move rfl (update_eq_self c s.ctxs).symm (fun _ _ ↦ rfl) (fun _ ↦ hctx)
      (fun _ ↦ .inl hreg) (fun k r' hr' ↦ ⟨hr', fun hrr ↦ ?_⟩) (fun k r' hr' ↦ ?_) (href.nodup c)
      fun r' hr' ↦ ?_
    · subst hrr
      exact href.events k r' hr'
    · by_cases hrr : r' = r
      · subst hrr
        exact .inr ⟨rfl, href.pending c k r' hr'⟩
      · exact .inl ⟨hrr, hr'⟩
    · by_cases hrr : r' = r
      · exact .inr ⟨hrr, hreg, hctx⟩
      · exact .inl ⟨hrr, hr'⟩
  · exact h

lemma Inv.unregisterCtx (c : ℕ) : (s.act (.unregisterCtx c)).Inv := by
  rw [Reactor.act]
  split
  · obtain ⟨p, hp, href⟩ := h.placed
    exact ⟨h.broken, h.calls, p, hp.congr, href.setCtx rfl (fun _ ↦ id) rfl rfl rfl⟩
  · exact h

/-- The thread of a context gives back the reference of the registration. -/
lemma Inv.letGo (c : ℕ) : (s.act (.letGo c)).Inv := by
  rw [Reactor.act]
  split
  · next hc =>
    obtain ⟨hown, -⟩ := hc
    obtain ⟨p, hp, href⟩ := h.placed
    have hrefs := hp.refs_of_own hown
    have hfrees := hp.ctxFrees_of_refs hrefs
    rw [touchCtx, if_pos hfrees]
    have hctxs : ((s.setCtx c { s.ctxs c with own := false }).contextRelease c).ctxs =
        update s.ctxs c { s.ctxs c with
          own := false, refs := (s.ctxs c).refs - 1
          frees := if (s.ctxs c).refs - 1 = 0 then 1 else 0 } := by
      simp [contextRelease, Reactor.setCtx, hfrees]
    refine ⟨h.broken, h.calls, p, { hp with pushing := ?_, refs := ?_, ctxFrees := ?_ },
      href.setCtx hctxs (fun _ ↦ id) rfl rfl rfl⟩
    · refine hp.pushing.congr (fun _ ↦ rfl) ?_
      rw [hctxs]
      exact update_iff (fun (y : Owner) r ↦ y.pushing = some r) fun _ ↦ by rfl
    · rw [hctxs]
      refine forall_update s.ctxs (fun c' y ↦ y.refs = (if y.own then 1 else 0) + count
        (fun r ↦ (p r).live = true ∧ (s.records r).ctx = c') s.allocated) ?_ hp.refs
      have := hp.refs c
      rw [if_pos hown] at this
      rw [if_neg Bool.false_ne_true]
      dsimp only
      omega
    · rw [hctxs]
      exact forall_update s.ctxs (fun _ y ↦ y.frees = if y.refs = 0 then 1 else 0) rfl hp.ctxFrees
  · exact h

/-- The records are reclaimed as they should be. -/
structure Reclaimed (s : Reactor) : Prop where
  /-- No freed memory has been accessed. -/
  intact : s.broken = false
  once : ∀ r, (s.records r).frees ≤ 1
  /-- An unregistered record that has not been freed is not lost, -/
  kept : ∀ r < s.allocated, (s.records r).ud = false → (s.records r).frees = 0 →
    (s.ctxs (s.records r).ctx).pushing = some r ∨ r ∈ (s.epoll (s.records r).kind).freedList ∨
      r ∈ (s.epoll (s.records r).kind).freedList2 ∨
      (s.epoll (s.records r).kind).stage = .released r
  /-- and it is freed before its thread has been through its loop twice. -/
  soon : ∀ r n, (s.records r).pushed = some n → n + 2 ≤ (s.epoll (s.records r).kind).rounds →
    (s.records r).frees = 1
  /-- Nothing refers to a freed record. -/
  unreferenced : ∀ r, (s.records r).frees ≠ 0 → (s.records r).ud = false ∧
    (∀ k, r ∉ (s.epoll k).stage.events) ∧ ∀ c k, r ∉ (s.ctxs c).pending k
  ctxOnce : ∀ c, (s.ctxs c).frees ≤ 1
  /-- A record is freed before its context is, or the very next thing its thread does is to free
  it. -/
  ctxLast : ∀ r < s.allocated, (s.records r).frees = 0 → (s.ctxs (s.records r).ctx).frees = 0 ∨
    (s.epoll (s.records r).kind).stage = .released r
  /-- Each callback that has been called was one of a registered record. -/
  calls : ∀ call ∈ s.calls, call.2 = true

/-- A new record. -/
lemma Inv.register (c : ℕ) (k : Kind) : (s.act (.register c k)).Inv := by
  rw [Reactor.act]
  split
  · next hruns =>
    obtain ⟨p, hp, href⟩ := h.placed
    have hrefs := hp.refs_of_own hruns.1
    have hnew : p s.allocated = .unused := (hp.unused s.allocated).mp le_rfl
    have hne : ∀ r, p r = .registered → r ≠ s.allocated := by
      rintro r hr rfl
      nomatch hr.symm.trans hnew
    have hrest : ∀ r ≠ s.allocated, update s.records s.allocated
        { kind := k, ctx := c, ud := true, inEpoll := decide (k = .timer) } r = s.records r :=
      fun r hr ↦ update_of_ne hr ..
    refine ⟨h.broken, h.calls, update p s.allocated .registered,
      hp.move rfl rfl (update_eq_self k s.epoll).symm (fun hf ↦ absurd hnew hf) (fun r ↦ ?_)
        (iff_of_true rfl rfl) rfl (hp.pushing.stays hnew) (hp.listed.stays hnew)
        (hp.listed2.stays hnew) (hp.releasing.stays hnew) (hp.nodup k) (hp.splicing k) rfl rfl ?_
        ?_, ?_⟩
    · show s.allocated + 1 ≤ r ↔ _
      by_cases hr : r = s.allocated
      · rw [hr, update_self]
        exact iff_of_false (by omega) nofun
      · rw [update_of_ne hr, ← hp.unused]
        omega
    · -- The new record is the last one that counts.
      have hcount : ∀ c', count (fun r ↦ (update p s.allocated .registered r).live =
            true ∧ (update s.records s.allocated
              { kind := k, ctx := c, ud := true, inEpoll := decide (k = .timer) } r).ctx = c')
          (s.allocated + 1) = count (fun r ↦ (p r).live = true ∧ (s.records r).ctx = c')
            s.allocated + if c = c' then 1 else 0 := fun c' ↦ by
        rw [count_succ, update_self]
        congr 1
        · refine Counting.count_congr fun r hr ↦ ?_
          rw [hrest r (by omega), update_of_ne (by omega)]
        · simp [Spot.live]
      refine (forall_update_iff s.ctxs fun c' y ↦ y.refs = (if y.own then 1 else 0) +
        count (fun r ↦ (update p s.allocated .registered r).live = true ∧
          (update s.records s.allocated _ r).ctx = c') (s.allocated + 1)).mpr
        ⟨?_, fun c' hc' ↦ ?_⟩
      · rw [hcount, if_pos rfl, ← add_assoc, ← hp.refs c]
      · rw [hcount, if_neg (Ne.symm hc'), hp.refs c']
        rfl
    · exact hp.ctxFrees_of_refs hrefs
    · refine href.move rfl rfl (fun r hr ↦ update_of_ne hr ..)
        (hnew ▸ nofun) (fun _ ↦ .inl (update_self ..))
        (fun k' r hr ↦ ⟨hr, fun hrr ↦ ?_⟩)
        (fun k' r hr ↦ .inl ⟨hne r (href.pending c k' r hr).1, hr⟩) (href.nodup c)
        fun r hr ↦ .inl ⟨hne r (href.popped c r hr).1, hr⟩
      have := (href.events k' r hr).1
      rw [hrr, hnew] at this
      nomatch this
  · exact h

/-- A record is unregistered: it is taken from the list of pending ones. -/
lemma Inv.unregister (c r : ℕ) : (s.act (.unregister c r)).Inv := by
  rw [Reactor.act]
  split
  · next hc =>
    obtain ⟨hruns, hud, rfl⟩ := hc
    obtain ⟨p, hp, href⟩ := h.placed
    have hreg := (hp.ud r).mp hud
    rw [touchCtx, if_pos (hp.ctxFrees_of_refs (hp.refs_of_own hruns.1)), touch,
      if_pos (hp.frees_eq_zero hreg nofun)]
    refine ⟨h.broken, h.calls, update p r .pushing,
      hp.move rfl rfl (update_eq_self _ s.epoll).symm (fun _ ↦ ⟨rfl, rfl⟩)
        (hp.unused_move hreg) (iff_of_false nofun nofun) (hp.frees_eq_zero hreg nofun)
        (hp.pushing.enters hreg fun r' ↦ ?_) (hp.listed.stays hreg) (hp.listed2.stays hreg)
        (hp.releasing.stays hreg) (hp.nodup _) (hp.splicing _) rfl ?_
        (hp.refs_move (by rw [hreg]; rfl) rfl rfl rfl ⟨rfl, rfl⟩) (hp.ctxFrees _), ?_⟩
    · rw [hruns.2.2.1]
      exact ⟨fun hf ↦ .inr (Option.some.inj hf).symm, fun hf ↦ by rw [hf.resolve_left nofun]⟩
    · exact (hreg ▸ hp.pushed r :)
    have hlive : (update p r .pushing r).live = true := by
      rw [update_self]
      rfl
    refine href.move rfl rfl (fun r' hr' ↦ update_of_ne hr' ..) (fun _ ↦ rfl)
      (fun hin ↦ .inr ⟨?_, hlive⟩) (fun k r' hr' ↦ ⟨hr', fun hrr ↦ ⟨hlive, ?_⟩⟩)
      (fun k r' hr' ↦ .inl ⟨fun hf ↦ href.unpend.2 (hf ▸ hr'),
        href.unpend.1.subset hr'⟩)
      (fun k ↦ href.unpend.1.nodup (href.nodup _ k))
      fun r' hr' ↦ absurd hr' (hruns.2.2.2 r')
    · -- A handler is removed from the epoll set.
      cases hkind : (s.records r).kind with
      | timer => rfl
      | md =>
        rw [hkind] at hin
        nomatch hin
    · subst hrr
      exact (href.events k r' hr').2
  · exact h

/-- A record is put into `freed_list`. -/
lemma Inv.push (c : ℕ) : (s.act (.push c)).Inv := by
  rw [Reactor.act]
  split
  · exact h
  next r hpushing =>
  obtain ⟨p, hp, href⟩ := h.placed
  obtain ⟨hspot, rfl⟩ := (hp.pushing c r).mp hpushing
  rw [touch, if_pos (hp.frees_eq_zero hspot nofun)]
  refine ⟨h.broken, h.calls, update p r .listed,
    hp.move rfl rfl rfl (fun _ ↦ ⟨rfl, rfl⟩) (hp.unused_move hspot) (hp.ud_move hspot)
      (hp.frees_eq_zero hspot nofun) (.leave fun r' ↦ ?_) (hp.listed.enters hspot fun r' ↦ ?_)
      (hp.listed2.stays hspot) (hp.releasing.stays hspot) ⟨?_, (hp.nodup _).2⟩ (hp.splicing _) rfl
      rfl (hp.refs_move (by rw [hspot]; rfl) rfl rfl rfl ⟨rfl, rfl⟩) (hp.ctxFrees _), ?_⟩
  · rw [hpushing]
    exact iff_of_false nofun fun hf ↦ hf.2 (Option.some.inj hf.1).symm
  · rw [mem_append, mem_singleton]
  · refine (hp.nodup _).1.append (nodup_singleton r) (disjoint_singleton.mpr fun hf ↦ ?_)
    nomatch hspot.symm.trans ((hp.listed _ r).mp hf).1
  refine href.advance rfl rfl hspot (fun hin ↦ ⟨(href.late hin hspot).1, rfl⟩) fun k r' hr' ↦ ?_
  have hr' := (update_iff (fun (z : Epoll) r ↦ r ∈ z.stage.events) (fun _ ↦ by rfl) k r').mp hr'
  refine ⟨hr', fun hrr ↦ ⟨rfl, ?_⟩⟩
  rw [hrr] at hr'
  exact (href.events k r hr').2

/-- An epoll thread takes a record from `freed_list2` and gives back its reference. -/
lemma Inv.release {freed : List ℕ} (hstage : (s.epoll k).stage = .freeing)
    (hlist : (s.epoll k).freedList2 = r :: freed) : (s.next k).Inv := by
  obtain ⟨p, hp, href⟩ := h.placed
  have hmem : r ∈ (s.epoll k).freedList2 := by rw [hlist]; exact mem_cons_self
  obtain ⟨hspot, rfl⟩ := (hp.listed2 k r).mp hmem
  have hlive : (p r).live = true := by rw [hspot]; rfl
  have hrefs := hp.refs_of_live hlive
  have hfrees := hp.ctxFrees_of_refs hrefs
  have hnodup := hp.nodup (s.records r).kind
  rw [hlist, nodup_cons] at hnodup
  let x := s.records r
  have hnext : s.next x.kind =
      { s with
        records := update s.records r { x with
          inEpoll := if x.kind = .timer then false else x.inEpoll }
        epoll := update s.epoll x.kind { s.epoll x.kind with
          freedList2 := freed, stage := .released r }
        ctxs := update s.ctxs x.ctx { s.ctxs x.ctx with
          refs := (s.ctxs x.ctx).refs - 1
          frees := if (s.ctxs x.ctx).refs - 1 = 0 then 1 else 0 } } := by
    simp only [x, Reactor.next, hstage, hlist, touch, touchCtx, contextRelease, setRecord,
      Reactor.setCtx, setEpoll, if_true, if_pos (hp.frees_eq_zero hspot nofun), hfrees, zero_add]
  have hctx : ∀ r', ((s.next (s.records r).kind).records r').ctx = (s.records r').ctx := by
    rw [hnext]
    exact ctx_eq rfl rfl
  rw [hnext] at hctx ⊢
  refine ⟨h.broken, h.calls, update p r .releasing,
    hp.move rfl rfl rfl (fun _ ↦ ⟨rfl, rfl⟩) (hp.unused_move hspot) (hp.ud_move hspot)
      (hp.frees_eq_zero hspot nofun) (hp.pushing.stays hspot) (hp.listed.stays hspot)
      (.leave fun r' ↦ ?_) (hp.releasing.enters hspot fun r' ↦ ?_) ⟨hnodup.1, hnodup.2.2⟩ nofun
      rfl ?_ ?_ rfl, ?_⟩
  · rw [hlist, mem_cons]
    exact ⟨fun hf ↦ ⟨.inr hf, fun hrr ↦ hnodup.2.1 (hrr ▸ hf)⟩, fun hf ↦ hf.1.resolve_left hf.2⟩
  · rw [hstage]
    exact ⟨fun hf ↦ .inr (Stage.released.inj hf).symm, fun hf ↦ by rw [hf.resolve_left nofun]⟩
  · exact (hspot ▸ hp.pushed r :)
  · refine (forall_update_iff s.ctxs fun c' y ↦ y.refs = (if y.own then 1 else 0) +
      count (fun r' ↦ (update p r .releasing r').live = true ∧
        (update s.records r _ r').ctx = c') s.allocated).mpr ⟨?_, fun c' hc' ↦ ?_⟩
    · have hold := hp.refs (s.records r).ctx
      rw [hp.count_release hlive hctx, if_pos rfl] at hold
      exact Nat.sub_eq_of_eq_add hold
    · have hold := hp.refs c'
      rw [hp.count_release hlive hctx, if_neg (Ne.symm hc')] at hold
      exact hold
  · refine href.advance rfl rfl hspot (fun hin ↦ ?_) ?_
    · -- The record is in no epoll set any more.
      split at hin
      · nomatch hin
      · next hk => exact absurd (href.late hin hspot).1 hk
    · refine (forall_update_iff s.epoll fun k' z ↦ ∀ r' ∈ z.stage.events,
        r' ∈ (s.epoll k').stage.events ∧
          (r' = r → Spot.live .releasing = true ∧ (s.records r).kind = k')).mpr
        ⟨nofun, fun k' hk' r' hr' ↦ ⟨hr', fun hrr ↦ absurd ?_ hk'⟩⟩
      rw [hrr] at hr'
      exact (href.events k' r hr').2.symm

/-- An epoll thread frees a record. -/
lemma Inv.free (hstage : (s.epoll k).stage = .released r) : (s.next k).Inv := by
  obtain ⟨p, hp, href⟩ := h.placed
  obtain ⟨hspot, rfl⟩ := (hp.releasing k r).mp hstage
  have hnext : s.next (s.records r).kind =
      { s with
        records := update s.records r { s.records r with frees := 1 }
        epoll := update s.epoll (s.records r).kind
          { s.epoll (s.records r).kind with stage := .freeing } } := by
    simp only [Reactor.next, hstage, setRecord, setEpoll, hp.frees_eq_zero hspot nofun, zero_add]
  rw [hnext]
  refine ⟨h.broken, h.calls, update p r .gone,
    hp.move rfl (update_eq_self _ s.ctxs).symm rfl (fun _ ↦ ⟨rfl, rfl⟩)
      (hp.unused_move hspot) (hp.ud_move hspot) rfl (hp.pushing.stays hspot)
      (hp.listed.stays hspot) (hp.listed2.stays hspot) (.leave fun r' ↦ ?_) (hp.nodup _) nofun rfl
      trivial (hp.refs_move (by rw [hspot]; rfl) rfl
        (update_eq_self (s.records r).ctx s.ctxs).symm rfl ⟨rfl, rfl⟩) (hp.ctxFrees _), ?_⟩
  · rw [hstage]
    exact iff_of_false nofun fun hf ↦ hf.2 (Stage.released.inj hf.1).symm
  refine href.advance rfl (update_eq_self (s.records r).ctx s.ctxs).symm hspot
    (fun hin ↦ nomatch (href.late hin hspot).2) ?_
  refine (forall_update_iff s.epoll fun k' z ↦ ∀ r' ∈ z.stage.events,
    r' ∈ (s.epoll k').stage.events ∧
      (r' = r → Spot.live .gone = true ∧ (s.records r).kind = k')).mpr
    ⟨nofun, fun k' _ r' hr' ↦ ⟨hr', fun hrr ↦ ?_⟩⟩
  have hlive := (href.events k' r' hr').1
  rw [hrr, hspot] at hlive
  nomatch hlive

end

/-- Where the records are when those of `freed_list` have been moved to `freed_list2`. -/
def spliced (s : Reactor) (p : ℕ → Spot) (k : Kind) (r : ℕ) : Spot :=
  if p r = .listed ∧ (s.records r).kind = k then .listed2 else p r

lemma spliced_eq_iff (a : Spot) (ha : a ≠ .listed) (ha' : a ≠ .listed2) :
    spliced s p k r = a ↔ p r = a := by
  rw [spliced]
  split
  · next hr => exact iff_of_false ha'.symm fun hf ↦ ha (hf.symm.trans hr.1)
  · rfl

lemma live_spliced : (spliced s p k r).live = (p r).live := by
  rw [spliced]
  split
  · next hr =>
    rw [hr.1]
    rfl
  · rfl

section

variable (h : s.Inv)

include h

/-- An epoll thread moves the records of `freed_list` to `freed_list2`. -/
lemma Inv.splice (hstage : (s.epoll k).stage = .splicing) : (s.next k).Inv := by
  obtain ⟨p, hp, href⟩ := h.placed
  have hempty := hp.splicing k hstage
  -- No record of this thread is further than `freed_list`, unless it has been freed.
  have hlisted2 : ∀ r, (s.records r).kind = k → p r ≠ .listed2 := fun r hk hf ↦ by
    have hmem : r ∈ (s.epoll k).freedList2 := (hp.listed2 k r).mpr ⟨hf, hk⟩
    rw [hempty] at hmem
    nomatch hmem
  have hreleasing : ∀ r, (s.records r).kind = k → p r ≠ .releasing := fun r hk hf ↦
    nomatch hstage.symm.trans ((hp.releasing k r).mpr ⟨hf, hk⟩)
  have hnext : s.next k =
      { s with
        epoll := update s.epoll k
          { stage := .waiting, freedList := [], freedList2 := (s.epoll k).freedList
            rounds := (s.epoll k).rounds + 1 } } := by
    simp only [Reactor.next, hstage, setEpoll, hempty, append_nil]
  rw [hnext]
  refine ⟨h.broken, h.calls, spliced s p k,
    ⟨fun r ↦ (hp.unused r).trans (spliced_eq_iff .unused nofun nofun).symm,
      fun r ↦ (hp.ud r).trans (spliced_eq_iff .registered nofun nofun).symm, fun r ↦ ?_,
      fun c r ↦ ?_, ?_, ?_, ?_, ?_, ?_, fun r ↦ ?_, fun c ↦ ?_, hp.ctxFrees⟩,
    ⟨fun r hin ↦ ?_, ?_, fun c k' r hr ↦ ?_, href.nodup, fun c r hr ↦ ?_⟩⟩
  · simp only [hp.frees r, spliced_eq_iff .gone nofun nofun]
  · rw [spliced_eq_iff .pushing nofun nofun]
    exact hp.pushing c r
  · refine hp.listed.shift (fun (z : Epoll) r ↦ r ∈ z.freedList) fun r ↦ iff_of_false nofun ?_
    rintro (hf | hf)
    · nomatch hf.1
    · exact hf.1 rfl
  · refine hp.listed2.shift (fun (z : Epoll) r ↦ r ∈ z.freedList2) fun r ↦ (hp.listed k r).trans ?_
    rw [hempty]
    exact ⟨fun hr ↦ .inl ⟨rfl, hr⟩, fun hr ↦ (hr.resolve_right fun hf ↦ nomatch hf.2).2⟩
  · refine hp.releasing.shift (fun (z : Epoll) r ↦ z.stage = .released r) fun r ↦
      iff_of_false nofun ?_
    rintro (hf | hf)
    · nomatch hf.1
    · nomatch hstage.symm.trans hf.2
  · exact forall_update s.epoll (fun _ z ↦ z.freedList.Nodup ∧ z.freedList2.Nodup)
      ⟨nodup_nil, (hp.nodup k).1⟩ hp.nodup
  · exact forall_update s.epoll (fun _ z ↦ z.stage = .splicing → z.freedList2 = []) nofun
      hp.splicing
  · -- A round has passed for the records of this thread.
    have hold := hp.pushed r
    show PushedIn (update s.epoll k _ (s.records r).kind).rounds _ _
    by_cases hk : (s.records r).kind = k
    · rw [hk] at hold
      rw [hk, update_self]
      cases hspot : p r with
      | listed =>
        rw [hspot] at hold
        rw [spliced, if_pos ⟨hspot, hk⟩]
        exact ⟨_, hold, rfl⟩
      | listed2 => exact absurd hspot (hlisted2 r hk)
      | releasing => exact absurd hspot (hreleasing r hk)
      | unused | registered | pushing | gone =>
        rw [hspot] at hold
        rw [spliced, hspot]
        exact hold
    · rw [update_of_ne hk, spliced, if_neg (fun hf ↦ hk hf.2)]
      exact hold
  · simp only [live_spliced]
    exact hp.refs c
  · rw [spliced_eq_iff .registered nofun nofun, live_spliced]
    exact href.inEpoll r hin
  · simp only [live_spliced]
    exact forall_update s.epoll (fun k' z ↦ ∀ r ∈ z.stage.events, (p r).live = true ∧
      (s.records r).kind = k') (nofun) href.events
  · rw [spliced_eq_iff .registered nofun nofun]
    exact href.pending c k' r hr
  · rw [spliced_eq_iff .registered nofun nofun]
    exact href.popped c r hr

lemma Inv.next (k : Kind) : (s.next k).Inv := by
  obtain ⟨p, hp, href⟩ := h.placed
  -- What the thread is processing may be accessed, and so may its context.
  have hevent : ∀ r ∈ (s.epoll k).stage.events, (s.records r).frees = 0 ∧
      (s.ctxs (s.records r).ctx).frees = 0 := fun r hr ↦
    have hlive := (href.events k r hr).1
    ⟨hp.frees_eq_zero rfl (Spot.ne_gone hlive), hp.ctxFrees_of_refs (hp.refs_of_live hlive)⟩
  cases hstage : (s.epoll k).stage with
  | waiting =>
    simp only [Reactor.next, hstage]
    exact h
  | processing events =>
    cases events with
    | nil =>
      simp only [Reactor.next, hstage]
      exact h.setStage hstage nofun nofun nofun nofun
    | cons r events =>
      simp only [Reactor.next, hstage, touch,
        if_pos (hevent r (by rw [hstage]; exact mem_cons_self)).1]
      split
      · exact h.setStage hstage (fun r' hr' ↦ .inl hr') nofun nofun nofun
      · exact h.setStage hstage (fun r' hr' ↦ .inl (mem_cons_of_mem r hr')) nofun nofun nofun
  | locking r events =>
    have hr := hevent r (by rw [hstage]; exact mem_cons_self)
    simp only [Reactor.next, hstage, touch, touchCtx, if_pos hr.1, if_pos hr.2]
    exact h.queueSection hstage
  | signalling r events =>
    have hr := hevent r (by rw [hstage]; exact mem_cons_self)
    simp only [Reactor.next, hstage, touch, touchCtx, if_pos hr.1, if_pos hr.2]
    exact h.setStage hstage (fun r' hr' ↦ .inl (mem_cons_of_mem r hr')) nofun nofun nofun
  | freeing =>
    cases hlist : (s.epoll k).freedList2 with
    | nil =>
      have hnext : s.next k = s.setEpoll k { s.epoll k with stage := .splicing } := by
        simp only [Reactor.next, hstage, hlist]
      rw [hnext]
      exact h.setStage hstage nofun (fun _ ↦ hlist) nofun nofun
    | cons r freed => exact h.release hstage hlist
  | released r => exact h.free hstage
  | splicing => exact h.splice hstage

/-- **What the kernel reports is still in the epoll set**, so that it has not been freed. -/
theorem Inv.collect (k : Kind) (events : List ℕ) : (s.act (.collect k events)).Inv := by
  rw [Reactor.act]
  split
  · next hstage =>
    exact h.setStage hstage (fun r hr ↦ .inr (of_decide_eq_true (mem_filter.mp hr).2)) nofun nofun
      nofun
  · exact h

lemma Inv.act (e : ReactorEvent) : (s.act e).Inv := by
  cases e with
  | register c k => exact h.register c k
  | interest c r on => exact h.interest c r on
  | unregister c r => exact h.unregister c r
  | push c => exact h.push c
  | unregisterCtx c => exact h.unregisterCtx c
  | letGo c => exact h.letGo c
  | take c => exact h.take c
  | dispatch c toRead toWrite => exact h.dispatch c toRead toWrite
  | ret c zero toWrite => exact h.ret c zero toWrite
  | collect k events => exact h.collect k events
  | next k => exact h.next k

lemma Inv.step (e : ReactorEvent) : (s.step e).Inv := by
  rw [Reactor.step, if_neg (by rw [h.broken]; exact Bool.false_ne_true)]
  exact h.act e

/-! ### Whole runs -/

lemma Inv.reclaimed : Reclaimed s := by
  obtain ⟨p, hp, href⟩ := h.placed
  have hgone : ∀ r, (s.records r).frees ≠ 0 → p r = .gone := fun r hr ↦ by
    by_contra hf
    exact hr (hp.frees_eq_zero rfl hf)
  have hlive : ∀ r, (p r).live = true → (s.ctxs (s.records r).ctx).frees = 0 := fun r hr ↦
    hp.ctxFrees_of_refs (hp.refs_of_live hr)
  refine ⟨h.broken, fun r ↦ ?_, fun r hr hud hfrees ↦ ?_, fun r n hn hrounds ↦ ?_,
    fun r hr ↦ ⟨?_, fun k hf ↦ ?_, fun c k hf ↦ ?_⟩, fun c ↦ ?_, fun r hr hfrees ↦ ?_, h.calls⟩
  · rw [hp.frees r]
    split <;> omega
  · cases hspot : p r with
    | unused => exact absurd ((hp.unused r).mpr hspot) (Nat.not_le_of_lt hr)
    | registered => nomatch hud.symm.trans ((hp.ud r).mpr hspot)
    | pushing => exact .inl ((hp.pushing _ r).mpr ⟨hspot, rfl⟩)
    | listed => exact .inr (.inl ((hp.listed _ r).mpr ⟨hspot, rfl⟩))
    | listed2 => exact .inr (.inr (.inl ((hp.listed2 _ r).mpr ⟨hspot, rfl⟩)))
    | releasing => exact .inr (.inr (.inr ((hp.releasing _ r).mpr ⟨hspot, rfl⟩)))
    | gone =>
      rw [hp.frees r, if_pos hspot] at hfrees
      nomatch hfrees
  · -- Wherever else the record were, it would have been put into `freed_list` later.
    have hpushed := hp.pushed r
    rw [hn] at hpushed
    cases hspot : p r <;> rw [hspot] at hpushed
    case unused | registered | pushing => nomatch hpushed
    case listed =>
      have hnow := Option.some.inj hpushed
      omega
    case listed2 | releasing =>
      obtain ⟨m, hm, hnow⟩ := hpushed
      have hmn := Option.some.inj hm
      omega
    case gone => rw [hp.frees r, if_pos hspot]
  · rw [← Bool.not_eq_true, hp.ud r, hgone r hr]
    exact Spot.noConfusion
  · exact Spot.ne_gone (href.events k r hf).1 (hgone r hr)
  · nomatch (href.pending c k r hf).1.symm.trans (hgone r hr)
  · rw [hp.ctxFrees c]
    split <;> omega
  · cases hspot : p r with
    | unused => exact absurd ((hp.unused r).mpr hspot) (Nat.not_le_of_lt hr)
    | registered | pushing | listed | listed2 => exact .inl (hlive r (by rw [hspot]; rfl))
    | releasing => exact .inr ((hp.releasing _ r).mpr ⟨hspot, rfl⟩)
    | gone =>
      rw [hp.frees r, if_pos hspot] at hfrees
      nomatch hfrees

end

/-- **In every interleaving**, each record is freed once, when nothing refers to it any more. -/
theorem always_reclaimed (es : List ReactorEvent) : Always step Reclaimed {} es :=
  fun pre _ ↦ Inv.reclaimed (foldlRecOn pre step inv_init fun _ h e _ ↦ h.step e)

/-- **A context is freed exactly when nothing refers to it**: it has been let go of, and each of its
records has been freed, or is what its thread frees next. -/
theorem always_freed_iff (es : List ReactorEvent) :
    Always step (fun s ↦ ∀ c, (s.ctxs c).frees = 1 ↔ (s.ctxs c).own = false ∧
      ∀ r < s.allocated, (s.records r).ctx = c → (s.records r).frees = 1 ∨
        (s.epoll (s.records r).kind).stage = .released r) {} es := by
  intro pre _ c
  have h : Inv (run step {} pre) := foldlRecOn pre step inv_init fun _ h e _ ↦ h.step e
  obtain ⟨p, hp, -⟩ := h.placed
  have hone {q : Prop} [Decidable q] : (if q then 1 else 0) = 1 ↔ q := by simp
  rw [hp.ctxFrees, hone, hp.refs, Nat.add_eq_zero_iff, count_iff_forall_not]
  refine and_congr (by simp) (forall₂_congr fun r hr ↦ ?_)
  have hreleasing := (hp.releasing _ r).trans (and_iff_left rfl)
  have hused := (hp.unused r).not.mp (Nat.not_le_of_lt hr)
  rw [not_and', hp.frees, hone]
  cases hspot : p r <;> simp_all [Spot.live]

/-- Each record of a context that has been freed has been freed. -/
def FreedFirst (s : Reactor) : Prop :=
  ∀ r < s.allocated, (s.ctxs (s.records r).ctx).frees ≠ 0 → (s.records r).frees ≠ 0

instance (s : Reactor) : Decidable (FreedFirst s) :=
  inferInstanceAs (Decidable (∀ r < s.allocated, _ → _))

/-- A context is unregistered after its only handler, and both are waited for. -/
theorem context_freed_before_record :
    ¬ Always step FreedFirst {} [.register 0 .md, .interest 0 0 true, .unregister 0 0, .push 0,
      .unregisterCtx 0, .letGo 0, .collect .md [], .next .md, .next .md, .next .md,
      .collect .md [], .next .md, .next .md] := fun h ↦ by
  have hlast := h.last
  revert hlast
  decide

end Reactor

end AccelPpp.Triton
