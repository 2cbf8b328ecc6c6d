import AccelPpp.Dhcpv6.Reply

/-!
# The AFTR name of the configuration

`add_aftr_gw` writes the value of `aftr-gw` as the labels of a DNS name, and `insert_oro` puts them
into a reply when the client asks for the AFTR-Name option. `load_config` never empties
`conf_aftr_gw`, so each load adds one more name behind those of the loads before. The option is one
name, and the configured one, exactly when no value has been accepted before and the name has no
empty label and more than one character (`carries_iff`).
-/

open List Memory

namespace AccelPpp.Dhcpv6.Aftr

/-- The value without the dot at its end. -/
def name (val : List UInt8) : List UInt8 :=
  if val.getLast? = some 46 then val.dropLast else val

/-- What the loop of `add_aftr_gw` finds between the dots. -/
def labels (val : List UInt8) : List (List UInt8) :=
  (name val).splitOn 46

/-- What the loop writes. -/
def encode (ls : List (List UInt8)) : List UInt8 :=
  ls.flatMap (fun l ↦ .ofNat l.length :: l) ++ [0]

/-- There is a value, and neither it nor one of its labels is too long. The size `n` covers the
length of the first label and the empty one, which a dot at the end stands for. -/
def Accepted (val : List UInt8) : Prop :=
  val ≠ [] ∧ (name val).length + 2 ≤ 255 ∧ ∀ l ∈ labels val, l.length ≤ 63
deriving Decidable

/-- `load_config`, with the value of `aftr-gw` if there is one, and `add_aftr_gw`; `gw` are the
first `conf_aftr_gw_size` bytes of `conf_aftr_gw`. -/
def loadConfig (gw : List UInt8) : Option (List UInt8) → List UInt8
  | none => gw
  | some val => if Accepted val then gw ++ encode (labels val) else gw

/-- What all the loads have left, the last one at the end. -/
def configured (opts : List (Option (List UInt8))) : List UInt8 :=
  opts.foldl loadConfig []

/-- The labels of a DNS name. -/
def decode : ℕ → List UInt8 → List (List UInt8)
  | fuel + 1, b :: rest =>
    if b = 0 then [] else rest.take b.toNat :: decode fuel (rest.drop b.toNat)
  | _, _ => []

/-- The value `gw` of an option passes the check, and it is the name in `val`. -/
def Carries (gw val : List UInt8) : Prop :=
  validateAftrName gw = true ∧ decode gw.length gw = labels val
deriving Decidable

variable {gw r : List UInt8} {ls : List (List UInt8)} {fuel : ℕ}

/-- The option in the reply has the value that is configured. -/
lemma slice_insertConfigured {env : Env} {code : ℕ} {s t : St}
    (h : insertConfigured env code gw s = (some (), t)) :
    slice t.reply.mem (s.reply.endptr + 4) gw.length = gw := by
  rw [insertConfigured] at h
  split at h
  · by_cases hroom : s.reply.tailroom < 4 + gw.length <;> cases hm : env.malloc s.mallocs <;>
      simp [put, nestedOptionAlloc, hroom, refuse, malloc, hm, bind, pure, Prog.get, Prog.modify,
        Prog.fail] at h
    rw [← h]
    exact slice_write_self ..
  · next hnil =>
    obtain rfl : gw = [] := by simpa using hnil
    rfl

/-- **One name**, with the bytes `r` behind it, in the loop of `validate_aftr_name` and in that of
a reader, by induction on the labels. -/
theorem read_encode (h : ∀ l ∈ ls, l.length ≤ 63) (hfuel : (encode ls ++ r).length ≤ fuel)
    (first : Bool) :
    (aftrLabels fuel first (encode ls ++ r) = true ↔
      (first = true → ls ≠ []) ∧ [] ∉ ls ∧ r = []) ∧
    ([] ∉ ls → decode fuel (encode ls ++ r) = ls) := by
  induction ls generalizing fuel first with
  | nil =>
    obtain ⟨fuel, rfl⟩ := Nat.exists_eq_add_one.mpr (Nat.zero_lt_of_lt hfuel)
    simp [encode, aftrLabels, decode]
  | cons l ls ih =>
    obtain ⟨fuel, rfl⟩ := Nat.exists_eq_add_one.mpr (Nat.zero_lt_of_lt hfuel)
    obtain ⟨hl, hls⟩ := forall_mem_cons.mp h
    have hnat : (UInt8.ofNat l.length).toNat = l.length := Nat.mod_eq_of_lt (by omega)
    have hcons : encode (l :: ls) ++ r = .ofNat l.length :: (l ++ (encode ls ++ r)) := by
      simp [encode]
    rw [hcons, length_cons, length_append] at hfuel
    rw [hcons, aftrLabels, decode]
    generalize UInt8.ofNat l.length = n at hnat
    split
    · next hz =>
      obtain rfl : l = [] := length_eq_zero_iff.mp (hnat.symm.trans (congrArg _ hz))
      simp [encode]
    · next hz =>
      have hne : l ≠ [] := fun hf ↦ hz (UInt8.toNat_inj.mp (hnat.trans (congrArg _ hf)))
      obtain ⟨hcheck, hdecode⟩ := @ih fuel hls (by omega) false
      rw [if_neg, hnat, drop_left, hcheck]
      · simp +contextual [hne.symm, hdecode]
      · simp [UInt8.lt_iff_toNat_lt, hnat, hl]

lemma length_encode (h : ls ≠ []) : (encode ls).length = ([46].intercalate ls).length + 2 := by
  induction ls with
  | nil => exact absurd rfl h
  | cons l ls ih =>
    cases ls with
    | nil => simp [encode]
    | cons l' ls =>
      have := ih nofun
      simp [encode, intercalate, intersperse] at this ⊢
      omega

lemma configured_eq (opts : List (Option (List UInt8))) : configured opts =
    ((opts.filterMap id).filter Accepted).flatMap fun val ↦ encode (labels val) := by
  suffices ∀ gw, opts.foldl loadConfig gw =
      gw ++ ((opts.filterMap id).filter Accepted).flatMap fun val ↦ encode (labels val) from
    (this []).trans (nil_append _)
  induction opts with
  | nil => simp
  | cons opt opts ih =>
    intro gw
    rw [foldl_cons, ih]
    cases opt with
    | none => rfl
    | some val => by_cases h : Accepted val <;> simp [loadConfig, h]

/-- **The AFTR-Name option** that replies have after a load carries the name of this load exactly
when the loads before have left nothing, and the name can be told in such an option. -/
theorem carries_iff (opts : List (Option (List UInt8))) (val : List UInt8) (h : Accepted val) :
    (∀ env s t, insertConfigured env Code.aftrName (configured (opts ++ [some val])) s =
        (some (), t) →
      slice t.reply.mem (s.reply.endptr + 4) (configured (opts ++ [some val])).length =
        configured (opts ++ [some val])) ∧
    (Carries (configured (opts ++ [some val])) val ↔
      (∀ v, some v ∈ opts → ¬ Accepted v) ∧ [] ∉ labels val ∧ 2 ≤ (name val).length) := by
  refine ⟨fun env s t ↦ slice_insertConfigured, ?_⟩
  have hlast : ([some val].filterMap id).filter Accepted = [val] :=
    filter_cons_of_pos (decide_eq_true h)
  rw [configured_eq, filterMap_append, filter_append, hlast, Carries, validateAftrName]
  cases hbefore : (opts.filterMap id).filter Accepted with
  | nil =>
    have hnone : ∀ v, some v ∈ opts → ¬ Accepted v := by simpa using hbefore
    have hlength : (encode (labels val)).length = (name val).length + 2 := by
      rw [labels, length_encode (splitOn_ne_nil _ _), intercalate_splitOn]
    obtain ⟨hcheck, hdecode⟩ := read_encode (r := []) h.2.2 le_rfl true
    rw [append_nil] at hcheck hdecode
    rw [nil_append, flatMap_singleton]
    simp only [Bool.and_eq_true, decide_eq_true_eq, hcheck]
    constructor
    · rintro ⟨⟨⟨hthree, -⟩, -, hne, -⟩, -⟩
      exact ⟨hnone, hne, by omega⟩
    · rintro ⟨-, hne, htwo⟩
      exact ⟨⟨⟨by omega, hlength ▸ h.2.1⟩, fun _ ↦ splitOn_ne_nil _ _, hne, trivial⟩, hdecode hne⟩
  | cons v vs =>
    have hmem : v ∈ (opts.filterMap id).filter Accepted := hbefore ▸ mem_cons_self
    obtain ⟨hv, hacc⟩ : some v ∈ opts ∧ Accepted v := by simpa using hmem
    refine iff_of_false (fun hc ↦ ?_) fun hf ↦ hf.1 v hv hacc
    -- what is behind the first name
    obtain ⟨⟨-, hcheck⟩, -⟩ := hc.imp_left Bool.and_eq_true_iff.mp
    rw [cons_append, flatMap_cons, (read_encode hacc.2.2 le_rfl true).1] at hcheck
    simp [encode] at hcheck

/-- The name `a.b`, loaded once. -/
theorem carries_iff_once : Carries (configured [some [97, 46, 98]]) [97, 46, 98] :=
  (carries_iff [] [97, 46, 98] (by decide)).2.mpr ⟨nofun, by decide, by decide⟩

/-- After a reload the option has the name twice. -/
theorem name_twice : Accepted [97, 46, 98] ∧
    ¬ Carries (configured [some [97, 46, 98], some [97, 46, 98]]) [97, 46, 98] := by
  decide

end AccelPpp.Dhcpv6.Aftr
