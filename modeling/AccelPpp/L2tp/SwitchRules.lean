import AccelPpp.Lib.Run

/-!
# The rules of the L2TP switch (`l2tp/l2tp_switch_conf.c`)

A rule sends the calls whose AVP has a value, or begins with one, to a target. Rules are added from
the configuration and from the command line, and deleted from the latter.

Before a rule is added, each rule there is for the same AVP is probed with the value of the new one
and the new one with its value (`rulesOverlap`). That the probes find every ambiguity, that is,
every pair of rules with a common match, is `rulesOverlap_iff`.
-/

open List

namespace AccelPpp.L2tp.Switch.Rules

open Transition

/-- The AVPs that rules look at. -/
inductive MatchAttr
  | calledNumber
  | callingNumber
  | subAddress
  | proxyAuthenName
  deriving DecidableEq

/-- `enum l2tp_switch_match_mode` -/
inductive MatchMode
  | matchExact
  | matchPrefix
  deriving DecidableEq

/-- `struct l2tp_switch_rule_t`, with the name of the target. -/
structure Rule where
  attr : MatchAttr
  mode : MatchMode
  val : List UInt8
  target : String
  deriving DecidableEq

/-- `rule_matches_value` -/
def ruleMatchesValue (r : Rule) (val : List UInt8) : Bool :=
  match r.mode with
  | .matchExact => val.length = r.val.length ∧ val = r.val
  | .matchPrefix => r.val.length ≤ val.length ∧ val.take r.val.length = r.val

/-- `rules_overlap` -/
def rulesOverlap (a b : Rule) : Bool := ruleMatchesValue a b.val || ruleMatchesValue b a.val

/-- The rule is one for the attribute, and matches the value. -/
def hits (attr : MatchAttr) (val : List UInt8) (r : Rule) : Bool :=
  r.attr = attr && ruleMatchesValue r val

section

variable (rules : List Rule)

/-- `l2tp_switch_match_locked` -/
def matchLocked (attr : MatchAttr) (val : List UInt8) : Option String :=
  (rules.find? (hits attr val)).map Rule.target

/-- `resolve_match_attr` -/
def resolveMatchAttr (name : String) : Option MatchAttr :=
  match name with
  | "Called-Number" => some .calledNumber
  | "Calling-Number" => some .callingNumber
  | "Sub-Address" => some .subAddress
  | "Proxy-Authen-Name" => some .proxyAuthenName
  | _ => none

/-- `parse_mode` -/
def parseMode (name : String) : Option MatchMode :=
  match name with
  | "exact" => some .matchExact
  | "prefix" => some .matchPrefix
  | _ => none

/-- `l2tp_switch_rule_add`, with the targets there are; `none` when it returns -1. -/
def ruleAdd (targets : List String) (attrName modeName : String) (val : List UInt8)
    (targetName : String) (noMem : Bool) : Option (List Rule) :=
  if targetName ∉ targets then none
  else
    (resolveMatchAttr attrName).bind fun attr ↦ (parseMode modeName).bind fun mode ↦
      let candidate : Rule := ⟨attr, mode, val, targetName⟩
      if noMem then none
      else if rules.any fun existing ↦ existing.attr = attr ∧ rulesOverlap existing candidate then
        none
      else some (rules ++ [candidate])

/-- `l2tp_switch_rule_del`, with `rule_find_exact`. -/
def ruleDel (attrName modeName : String) (val : List UInt8) : Option (List Rule) :=
  (resolveMatchAttr attrName).bind fun attr ↦ (parseMode modeName).bind fun mode ↦
    let found (r : Rule) : Bool := r.attr = attr ∧ r.mode = mode ∧ r.val = val
    if rules.any found then some (rules.eraseP found) else none

/-- What is asked for. -/
inductive Request
  | add (targets : List String) (attrName modeName : String) (val : List UInt8)
      (targetName : String) (noMem : Bool)
  | del (attrName modeName : String) (val : List UInt8)

/-- The answer to a request; `none` when it fails. -/
def answer : Request → Option (List Rule)
  | .add targets attrName modeName val targetName noMem =>
    ruleAdd rules targets attrName modeName val targetName noMem
  | .del attrName modeName val => ruleDel rules attrName modeName val

/-- One request; the rules stay when it fails. -/
def step (q : Request) : List Rule := (answer rules q).getD rules

end

/-! ### Overlap -/

variable {a b r : Rule} {v : List UInt8} {rules rules' : List Rule}

/-- Some byte string is matched by both. -/
def Ambiguous (a b : Rule) : Prop := ∃ v, ruleMatchesValue a v ∧ ruleMatchesValue b v

/-- A rule for single values matches its value, one for prefixes what begins with it. -/
lemma ruleMatchesValue_iff :
    ruleMatchesValue r v ↔ r.val <+: v ∧ (r.mode = .matchExact → v = r.val) := by
  rw [ruleMatchesValue]
  split
  · next hmode =>
    simp only [decide_eq_true_eq, hmode, forall_const]
    exact ⟨fun h ↦ ⟨by rw [h.2], h.2⟩, fun h ↦ ⟨congrArg _ h.2, h.2⟩⟩
  · next hmode =>
    simp only [decide_eq_true_eq, hmode, reduceCtorEq, false_imp_iff, and_true]
    constructor
    · intro h
      rw [← h.2]
      exact take_prefix _ _
    · intro h
      exact ⟨h.length_le, (prefix_iff_eq_take.mp h).symm⟩

lemma matches_own {r : Rule} : ruleMatchesValue r r.val :=
  ruleMatchesValue_iff.mpr ⟨prefix_rfl, fun _ ↦ rfl⟩

/-- Of two prefixes of one value the longer is matched by both rules. -/
lemma matches_longer (h : a.val <+: b.val) (ha : ruleMatchesValue a v)
    (hb : ruleMatchesValue b v) : ruleMatchesValue a b.val := by
  obtain ⟨-, hexact⟩ := ruleMatchesValue_iff.mp ha
  obtain ⟨hpre, -⟩ := ruleMatchesValue_iff.mp hb
  refine ruleMatchesValue_iff.mpr ⟨h, fun hmode ↦ ?_⟩
  -- the value is that of `a`, so that `b.val` lies between `a.val` and itself
  rw [hexact hmode] at hpre
  exact hpre.eq_of_length_le h.length_le

/-- **The probes decide ambiguity**: two rules overlap if and only if some string is matched by
both. -/
theorem rulesOverlap_iff : rulesOverlap a b ↔ Ambiguous a b := by
  rw [rulesOverlap, Bool.or_eq_true]
  constructor
  · rintro (h | h)
    · exact ⟨b.val, h, matches_own⟩
    · exact ⟨a.val, matches_own, h⟩
  · rintro ⟨v, ha, hb⟩
    have hpre := prefix_or_prefix_of_prefix (ruleMatchesValue_iff.mp ha).1
      (ruleMatchesValue_iff.mp hb).1
    exact hpre.imp (matches_longer · ha hb) (matches_longer · hb ha)

/-! ### The list of rules -/

/-- No two rules of an attribute are ambiguous. -/
def Apart (a b : Rule) : Prop := a.attr = b.attr → ¬ Ambiguous a b

instance : Std.Symm Apart :=
  ⟨fun _ _ h hattr ⟨v, hb, ha⟩ ↦ h hattr.symm ⟨v, ha, hb⟩⟩

lemma step_pairwise (h : rules.Pairwise Apart) {q : Request} : (step rules q).Pairwise Apart := by
  cases q with
  | add targets attrName modeName val targetName noMem =>
    rw [step, answer, ruleAdd]
    split
    · exact h
    cases resolveMatchAttr attrName with
    | none => exact h
    | some attr =>
      cases parseMode modeName with
      | none => exact h
      | some mode =>
        dsimp only [Option.bind_some]
        split
        · exact h
        split
        · exact h
        next hany =>
        refine pairwise_append.mpr ⟨h, pairwise_singleton .., fun existing hmem r hr ↦ ?_⟩
        obtain rfl := mem_singleton.mp hr
        refine fun hattr hamb ↦ hany (any_eq_true.mpr ⟨existing, hmem, ?_⟩)
        exact decide_eq_true ⟨hattr, rulesOverlap_iff.mpr hamb⟩
  | del attrName modeName val =>
    rw [step, answer, ruleDel]
    cases resolveMatchAttr attrName with
    | none => exact h
    | some attr =>
      cases parseMode modeName with
      | none => exact h
      | some mode =>
        dsimp only [Option.bind_some]
        split
        · exact h.sublist (eraseP_sublist ..)
        · exact h

lemma run_pairwise (qs : List Request) : (run step [] qs).Pairwise Apart :=
  foldlRecOn qs step .nil fun _ h _ _ ↦ step_pairwise h

lemma Apart.not_both {attr : MatchAttr} (h : Apart a b) (ha : hits attr v a)
    (hb : hits attr v b) : False := by
  simp only [hits, Bool.and_eq_true, decide_eq_true_eq] at ha hb
  exact h (ha.1.trans hb.1.symm) ⟨v, ha.2, hb.2⟩

/-- The lookup does not depend on the order of the rules. -/
lemma matchLocked_perm (h : rules.Pairwise Apart) (hp : rules'.Perm rules) (attr : MatchAttr)
    (v : List UInt8) : matchLocked rules' attr v = matchLocked rules attr v := by
  rw [matchLocked, matchLocked]
  cases hfind : rules.find? (hits attr v) with
  | none =>
    rw [find?_eq_none] at hfind
    rw [find?_eq_none.mpr fun r hr ↦ hfind r (hp.mem_iff.mp hr)]
  | some r =>
    have hmem := mem_of_find?_eq_some hfind
    have hr := find?_some hfind
    obtain ⟨r', hfind'⟩ := Option.isSome_iff_exists.mp
      (find?_isSome.mpr ⟨r, hp.mem_iff.mpr hmem, hr⟩)
    have hmem' := hp.mem_iff.mp (mem_of_find?_eq_some hfind')
    have hsame : r' = r := by_contra fun hne ↦
      (h.forall hmem' hmem hne).not_both (find?_some hfind') hr
    rw [hfind', hsame]

end AccelPpp.L2tp.Switch.Rules
