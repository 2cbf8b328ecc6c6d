import Mathlib

/-!
# The options of an interface line (`parse_server` in `ctrl/pppoe/pppoe.c`)

A line of the configuration names an interface, or gives a regular expression for its name, and
options for the server behind a comma. Behind a `net` option the loop of `parse_server` does not
move on, so that what follows is ignored; and the VLAN monitor hands over the line from its
beginning, where there is no option (`ignored_options`). All options take effect if nothing else
stands in these places (`options_apply_iff`).
-/

open List

namespace AccelPpp.Pppoe.Interface

/-- `strtol(s, &endptr, 10)`, with the number of bytes before `endptr`. -/
def strtol (s : List Char) : ℤ × ℕ :=
  let t := s.dropWhile ([' ', '\t', '\n', '\x0b', '\x0c', '\r'].contains ·)
  let (sign, u) := match t with
    | '-' :: u => (-1, u)
    | '+' :: u => (1, u)
    | u => (1, u)
  let digits := u.takeWhile Char.isDigit
  if digits = [] then (0, 0)
  else
    let n : ℤ := sign * digits.foldl (fun n d ↦ 10 * n + (d.toNat - 48 : ℤ)) 0
    (max (-2 ^ 63) (min n (2 ^ 63 - 1)), s.length - u.length + digits.length)

variable {Net : Type*}

/-- What a server is started with. -/
structure Conf (Net : Type*) where
  padiLimit : ℤ
  net : Net
deriving DecidableEq

inductive Item (Net : Type*)
  | padiLimit (n : ℤ)
  | net (x : Net)

def Conf.set (c : Conf Net) : Item Net → Conf Net
  | .padiLimit n => { c with padiLimit := n }
  | .net x => { c with net := x }

def Item.isNet : Item Net → Bool
  | .padiLimit _ => false
  | .net _ => true

section

variable (apNetFind : List Char → Option Net)

/-- The option at `opt`, and the number of its bytes. -/
def readOption (opt : List Char) : Option (Item Net × ℕ) :=
  if '=' ∉ opt then none
  else if "padi-limit=".toList <+: opt then
    let (n, k) := strtol (opt.drop 11)
    if opt[11 + k]?.all (· = ',') then some (.padiLimit (n.bmod (2 ^ 32)), 11 + k) else none
  else if "net=".toList <+: opt then
    -- the first byte of the name is not looked at
    let name := (opt.drop 4).take 1 ++ (opt.drop 5).takeWhile (· ≠ ',')
    if 64 ≤ name.length then none else (apNetFind name).map (.net ·, 4 + name.length)
  else none

/-- `parse_server`, with `opt` behind the first `k` bytes. It moves on behind a limit only. -/
def parseServer : ℕ → List Char → Conf Net → Option (Conf Net)
  | _, [], c => some c
  | k + 1, _ :: opt, c => parseServer k opt c
  | 0, b :: opt, c =>
    if b ≠ ',' then some c
    else match readOption apNetFind opt with
      | some (.padiLimit n, k) => parseServer k opt (c.set (.padiLimit n))
      | some (.net x, _) => parseServer 0 opt (c.set (.net x))
      | none => none

/-- All the options that are written there. -/
def options : ℕ → List Char → Option (List (Item Net))
  | _, [] => some []
  | k + 1, _ :: opt => options k opt
  | 0, b :: opt =>
    if b ≠ ',' then some []
    else (readOption apNetFind opt).bind fun (item, k) ↦ (options k opt).map (item :: ·)

/-- What stands behind the first `net` option, and the settings there. -/
def behindNet : ℕ → List Char → Conf Net → Option (List Char × Conf Net)
  | _, [], _ => none
  | k + 1, _ :: opt, c => behindNet k opt c
  | 0, b :: opt, c =>
    if b ≠ ',' then none
    else match readOption apNetFind opt with
      | some (.padiLimit n, k) => behindNet k opt (c.set (.padiLimit n))
      | some (.net x, k) => some (opt.drop k, c.set (.net x))
      | none => none

/-- The settings with all the options. -/
def applied (c : Conf Net) (opt : List Char) : Option (Conf Net) :=
  (options apNetFind 0 opt).map (·.foldl Conf.set c)

/-- Who starts a server. -/
inductive Starter
  | serverStart
  | vlanMonNotify

/-- What `__pppoe_server_start` is given as `opt`. -/
def Starter.opt : Starter → List Char → List Char
  | .serverStart, line =>
    if 3 < line.length ∧ "re:".toList <+: line then line.dropWhile (· ≠ ',')
    else if ',' ∈ line then line.dropWhile (· ≠ ',')
    else line
  | .vlanMonNotify, line => line

/-- All options of the line take effect. -/
def Applies (starter : Starter) (c : Conf Net) (line : List Char) : Prop :=
  parseServer apNetFind 0 (starter.opt line) c = applied apNetFind c (line.dropWhile (· ≠ ','))

/-- Nothing that would change the settings stands where it is ignored. -/
def Heeded (c : Conf Net) (line : List Char) : Starter → Prop
  | .serverStart => ∀ p ∈ behindNet apNetFind 0 (line.dropWhile (· ≠ ',')) c,
      applied apNetFind p.2 p.1 = some p.2
  | .vlanMonNotify => applied apNetFind c (line.dropWhile (· ≠ ',')) = some c

variable {apNetFind} {opt : List Char} {k : ℕ} {x : Net}

/-- Behind a `net` option, `opt` is still at its beginning, which is not a comma. -/
lemma parseServer_of_net (h : readOption apNetFind opt = some (.net x, k)) (c : Conf Net) :
    parseServer apNetFind 0 opt c = some c := by
  unfold readOption at h
  split_ifs at h with heq hlimit hnet
  · dsimp only at h
    split at h <;> nomatch h
  · obtain ⟨rest, rfl⟩ := hnet
    rfl

lemma options_drop : options apNetFind 0 (opt.drop k) = options apNetFind k opt := by
  induction k generalizing opt with
  | zero => rfl
  | succ k ih =>
    cases opt with
    | nil => rfl
    | cons b opt => exact ih

lemma parseServer_eq_iff (c : Conf Net) :
    parseServer apNetFind k opt c = (options apNetFind k opt).map (·.foldl Conf.set c) ↔
      ∀ p ∈ behindNet apNetFind k opt c, applied apNetFind p.2 p.1 = some p.2 := by
  induction opt generalizing k c with
  | nil => exact iff_of_true rfl nofun
  | cons b opt ih =>
    cases k with
    | succ k => exact ih c
    | zero =>
      rw [parseServer, options, behindNet]
      split_ifs with hb
      · exact iff_of_true rfl nofun
      cases hread : readOption apNetFind opt with
      | none => exact iff_of_true rfl nofun
      | some p =>
        obtain ⟨item, k⟩ := p
        have hmap : ((options apNetFind k opt).map (item :: ·)).map (·.foldl Conf.set c) =
            (options apNetFind k opt).map (·.foldl Conf.set (c.set item)) := Option.map_map ..
        rw [Option.bind_some, hmap]
        cases item with
        | padiLimit n => exact ih _
        | net x =>
          dsimp only
          rw [parseServer_of_net hread, ← options_drop, eq_comm]
          simp [applied]

/-- **All options of a line take effect** exactly if nothing that would change the settings stands
behind a `net` option, and on lines for the VLAN monitor nowhere. -/
theorem options_apply_iff (line : List Char) (hname : line.head? ≠ some ',') (c : Conf Net)
    (starter : Starter) :
    (∀ l l' : List (Item Net), l.Perm l' → (l.Pairwise fun a b ↦ a.isNet ≠ b.isNet) →
      l.foldl Conf.set c = l'.foldl Conf.set c) ∧
    (Applies apNetFind starter c line ↔ Heeded apNetFind c line starter) := by
  refine ⟨fun l l' hperm hl ↦ hperm.foldl_eq' (fun a ha b hb c ↦ ?_) c, ?_⟩
  · by_cases hab : a = b
    · rw [hab]
    have : Std.Symm fun a b : Item Net ↦ a.isNet ≠ b.isNet := ⟨fun _ _ ↦ Ne.symm⟩
    have hne := hl.forall ha hb hab
    cases a <;> cases b <;> first | rfl | exact absurd rfl hne
  -- no option stands at the beginning of a line
  have hnone : parseServer apNetFind 0 line c = some c := by
    cases line with
    | nil => rfl
    | cons b line => exact if_pos fun hb ↦ hname (congrArg some hb)
  cases starter with
  | serverStart =>
    have hstart : parseServer apNetFind 0 (Starter.serverStart.opt line) c =
        parseServer apNetFind 0 (line.dropWhile (· ≠ ',')) c := by
      rw [Starter.opt]
      split_ifs with hre hcomma
      · rfl
      · rfl
      · have hnil : line.dropWhile (· ≠ ',') = [] :=
          dropWhile_eq_nil_iff.mpr fun b hb ↦ decide_eq_true fun h ↦ hcomma (h ▸ hb)
        rw [hnone, hnil]
        rfl
    rw [Applies, hstart]
    exact parseServer_eq_iff c
  | vlanMonNotify =>
    rw [Applies, Starter.opt, hnone, eq_comm]
    rfl

end

/-- One network namespace. -/
def onlyA (name : List Char) : Option ℕ :=
  if name = ['a'] then some 1 else none

theorem options_apply_limit_first :
    Applies onlyA .serverStart ⟨0, 0⟩ "eth0,padi-limit=7,net=a".toList :=
  (options_apply_iff _ (by decide) ⟨0, 0⟩ .serverStart).2.mpr (by
    rintro p hp
    obtain rfl : ([], ⟨7, 1⟩) = p := Option.some.inj hp
    rfl)

/-- With the `net` option first the limit is not set, and the VLAN monitor sets nothing. -/
theorem ignored_options :
    parseServer onlyA 0 (Starter.serverStart.opt "eth0,net=a,padi-limit=7".toList) ⟨0, 0⟩ =
      some ⟨0, 1⟩ ∧
    parseServer onlyA 0 (Starter.vlanMonNotify.opt "eth0,padi-limit=7,net=a".toList) ⟨0, 0⟩ =
      some ⟨0, 0⟩ ∧
    applied onlyA ⟨0, 0⟩ ",net=a,padi-limit=7".toList = some ⟨7, 1⟩ ∧
    applied onlyA ⟨0, 0⟩ ",padi-limit=7,net=a".toList = some ⟨7, 1⟩ := by
  decide

end AccelPpp.Pppoe.Interface
