import AccelPpp.Session.Counters

/-!
# The order in which the PPP layers are started

The layers of a PPP session are arranged in groups: LCP, then authentication, then the network
layers and compression. A layer that is up reports `ppp_layer_started`, one that is not going to be
brought up by us `ppp_layer_passive`. When all layers of a group have reported, and one of them that
is not optional has started, the next group is started; after the last the session is activated.

`ppp_register_layer` puts each layer into its group as the modules are loaded, in any order and not
necessarily all of them (`Registered`); `init_layers` copies the arrangement for each session.
Starting a group is a loop that calls `start` of its layers, and a layer may report from within it.
So a layer may report at any time (`LayerEvent.report`) and the loops that wait for a `start` to
return are a stack of what they have still to start (`PppLayers.frames`). How `ap_session_activate`
ends is given from outside, and so is what terminates the session. A network layer or CCP that is
passive is not so any more when the peer asks for it, and MPPE changes the flags of CCP.

`always_ordered`: the next group is started exactly once, when the group before it is ready, and the
session is activated at most once, when the last group is ready. The last group need not stay so,
as the peer may ask for a layer that was passive; this is said of the step itself (`InTime`). It
depends on the arrangement: in a group of several layers that is not the last one, a layer that is
passive and then starts all the same would start the next group a second time. LCP and
authentication are alone in their groups (`Registered.layout`).
-/

open List Nat Option

namespace AccelPpp.Ppp.Layers

open Function Transition
open AccelPpp.Session (ApState)

/-! ### Registration -/

/-- The layers that the modules register. -/
inductive LayerName where
  | lcp
  | auth
  | ccp
  | ipcp
  | ipv6cp
deriving DecidableEq

/-- `get_layer_order` -/
def getLayerOrder : LayerName → ℕ
  | .lcp => 0
  | .auth => 1
  | .ccp => 2
  | .ipcp => 2
  | .ipv6cp => 2

/-- `struct layer_node_t`. -/
structure LayerNode where
  order : ℕ
  items : List LayerName

/-- `ppp_register_layer`. -/
def registerLayer (name : LayerName) : List LayerNode → List LayerNode
  | [] => [⟨getLayerOrder name, [name]⟩]
  | n :: rest =>
    if n.order < getLayerOrder name then n :: registerLayer name rest
    else if getLayerOrder name < n.order then ⟨getLayerOrder name, [name]⟩ :: n :: rest
    else { n with items := n.items ++ [name] } :: rest

/-- The layers of the modules that have been loaded, in that order. Each module registers its layer
once. -/
structure Registered where
  names : List LayerName
  nodup : names.Nodup
  /-- `establish_ppp` fails with "no layers to start" otherwise. -/
  ne_nil : names ≠ []

/-- The list `layers`. -/
def registerAll (names : List LayerName) : List LayerNode :=
  names.foldl (fun layers name ↦ registerLayer name layers) []

/-- The groups of a session, as `init_layers` copies them. -/
def Registered.groups (r : Registered) : List (List LayerName) :=
  (registerAll r.names).map LayerNode.items

variable {name : LayerName} {layers : List LayerNode} {node : LayerNode}

/-- What is in the list after a registration. -/
lemma mem_registerLayer (h : node ∈ registerLayer name layers) :
    node ∈ layers ∨ node = ⟨getLayerOrder name, [name]⟩ ∨
      ∃ old ∈ layers, old.order = getLayerOrder name ∧
        node = { old with items := old.items ++ [name] } := by
  induction layers with
  | nil => exact .inr (.inl (mem_singleton.mp h))
  | cons n rest ih =>
    rw [registerLayer] at h
    split_ifs at h with hlt hgt
    · obtain rfl | hmem := mem_cons.mp h
      · exact .inl mem_cons_self
      · obtain hold | hnew | ⟨old, hold, heq⟩ := ih hmem
        · exact .inl (mem_cons_of_mem _ hold)
        · exact .inr (.inl hnew)
        · exact .inr (.inr ⟨old, mem_cons_of_mem _ hold, heq⟩)
    · obtain rfl | hmem := mem_cons.mp h
      · exact .inr (.inl rfl)
      · exact .inl hmem
    · obtain rfl | hmem := mem_cons.mp h
      · exact .inr (.inr ⟨n, mem_cons_self, by omega, rfl⟩)
      · exact .inl (mem_cons_of_mem _ hmem)

/-- The groups stay in order. -/
lemma pairwise_registerLayer {name : LayerName} (h : layers.Pairwise (·.order < ·.order)) :
    (registerLayer name layers).Pairwise (·.order < ·.order) := by
  induction layers with
  | nil => exact pairwise_singleton _ _
  | cons n rest ih =>
    obtain ⟨hn, hrest⟩ := pairwise_cons.mp h
    rw [registerLayer]
    split_ifs with hlt hgt
    · refine pairwise_cons.mpr ⟨fun node hnode ↦ ?_, ih hrest⟩
      obtain hold | rfl | ⟨old, -, horder, rfl⟩ := mem_registerLayer hnode
      · exact hn node hold
      · exact hlt
      · exact hlt.trans_eq horder.symm
    · exact pairwise_cons.mpr ⟨forall_mem_cons.mpr ⟨hgt, fun node h ↦ hgt.trans (hn node h)⟩, h⟩
    · exact pairwise_cons.mpr ⟨hn, hrest⟩

/-- **What holds of `layers`** when these have been registered. -/
structure Arranged (layers : List LayerNode) (names : List LayerName) : Prop where
  sorted : layers.Pairwise (·.order < ·.order)
  order : ∀ node ∈ layers, ∀ n ∈ node.items, getLayerOrder n = node.order
  mem : ∀ node ∈ layers, ∀ n ∈ node.items, n ∈ names
  nodup : ∀ node ∈ layers, node.items.Nodup
  ne_nil : ∀ node ∈ layers, node.items ≠ []

variable {names : List LayerName}

lemma Arranged.register (h : Arranged layers names) (hname : name ∉ names) :
    Arranged (registerLayer name layers) (name :: names) where
  sorted := pairwise_registerLayer h.sorted
  order := by
    intro node hnode n hn
    obtain hold | rfl | ⟨old, hold, horder, rfl⟩ := mem_registerLayer hnode
    · exact h.order node hold n hn
    · rw [mem_singleton.mp hn]
    · obtain hn | hn := mem_append.mp hn
      · exact h.order old hold n hn
      · rw [mem_singleton.mp hn]
        exact horder.symm
  mem := by
    intro node hnode n hn
    obtain hold | rfl | ⟨old, hold, -, rfl⟩ := mem_registerLayer hnode
    · exact mem_cons_of_mem _ (h.mem node hold n hn)
    · rw [mem_singleton.mp hn]
      exact mem_cons_self
    · obtain hn | hn := mem_append.mp hn
      · exact mem_cons_of_mem _ (h.mem old hold n hn)
      · rw [mem_singleton.mp hn]
        exact mem_cons_self
  nodup := by
    intro node hnode
    obtain hold | rfl | ⟨old, hold, -, rfl⟩ := mem_registerLayer hnode
    · exact h.nodup node hold
    · exact nodup_singleton _
    · refine List.Nodup.append (h.nodup old hold) (nodup_singleton _) ?_
      intro n hn hname'
      rw [mem_singleton.mp hname'] at hn
      exact hname (h.mem old hold name hn)
  ne_nil := by
    intro node hnode
    obtain hold | rfl | ⟨old, -, -, rfl⟩ := mem_registerLayer hnode
    · exact h.ne_nil node hold
    · exact cons_ne_nil _ _
    · exact append_ne_nil_of_right_ne_nil _ (cons_ne_nil _ _)

lemma arranged_registerAll (h : names.Nodup) : Arranged (registerAll names) names.reverse := by
  induction names using reverseRecOn with
  | nil => exact ⟨List.Pairwise.nil, nofun, nofun, nofun, nofun⟩
  | append_singleton names name ih =>
    obtain ⟨hnames, -, hdisjoint⟩ := nodup_append.mp h
    have hname : name ∉ names.reverse := fun hmem ↦
      hdisjoint name (mem_reverse.mp hmem) name (mem_singleton_self _) rfl
    rw [registerAll, foldl_append, reverse_append]
    exact (ih hnames).register hname

/-- **What the rest needs of the arrangement**: a group that is not the last one has one layer only,
LCP or authentication, and no layer is in two groups. -/
structure Layout (groups : List (List LayerName)) : Prop where
  single : ∀ g, g + 1 < groups.length → ∃ n, getLayerOrder n < 2 ∧ groups[g]? = some [n]
  unique : ∀ (g g' : ℕ) items items' n, groups[g]? = some items → n ∈ items →
    groups[g']? = some items' → n ∈ items' → g = g'

lemma eq_of_getLayerOrder_eq {m n : LayerName} (h : getLayerOrder m = getLayerOrder n)
    (hlt : getLayerOrder n < 2) : m = n := by
  cases m <;> cases n <;> first | rfl | exact absurd h (by decide) | exact absurd hlt (by decide)

/-- LCP and authentication are alone in their groups. -/
lemma Registered.layout (r : Registered) : Layout r.groups := by
  have h := arranged_registerAll r.nodup
  rw [Registered.groups]
  generalize registerAll r.names = nodes at h ⊢
  have hsorted := pairwise_iff_getElem.mp h.sorted
  have hget : ∀ g items, (nodes.map LayerNode.items)[g]? = some items →
      ∃ hg : g < nodes.length, nodes[g].items = items := by
    intro g items hitems
    rw [List.getElem?_map, map_eq_some_iff] at hitems
    obtain ⟨node, hnode, rfl⟩ := hitems
    obtain ⟨hg, rfl⟩ := List.getElem?_eq_some_iff.mp hnode
    exact ⟨hg, rfl⟩
  refine ⟨fun g hg ↦ ?_, fun g g' items items' n hitems hn hitems' hn' ↦ ?_⟩
  · rw [length_map] at hg
    have hnode := getElem_mem (lt_of_succ_lt hg)
    have hnext := getElem_mem hg
    -- The order of the group is smaller than the one of the next.
    have horder : nodes[g].order < 2 := by
      obtain ⟨m, hm⟩ := exists_mem_of_ne_nil _ (h.ne_nil _ hnext)
      have hle : getLayerOrder m ≤ 2 := by cases m <;> decide
      rw [h.order _ hnext m hm] at hle
      exact (hsorted g (g + 1) _ hg (lt_succ_self g)).trans_le hle
    obtain ⟨n, hn⟩ := exists_mem_of_ne_nil _ (h.ne_nil _ hnode)
    have hn2 : getLayerOrder n < 2 := by rw [h.order _ hnode n hn]; exact horder
    have hall : ∀ m ∈ nodes[g].items, m = n := fun m hm ↦ by
      refine eq_of_getLayerOrder_eq ?_ hn2
      rw [h.order _ hnode m hm, h.order _ hnode n hn]
    refine ⟨n, hn2, ?_⟩
    have hitems : nodes[g].items = [n] := by
      have hrep := eq_replicate_of_mem hall
      have hlen : nodes[g].items.length ≤ 1 :=
        nodup_replicate.mp (hrep ▸ h.nodup _ hnode)
      have hpos := length_pos_of_mem hn
      rw [hrep, show nodes[g].items.length = 1 by omega]
      rfl
    rw [getElem?_map, getElem?_eq_getElem (lt_of_succ_lt hg), map_some, hitems]
  · obtain ⟨hg, rfl⟩ := hget g items hitems
    obtain ⟨hg', rfl⟩ := hget g' items' hitems'
    have heq : nodes[g].order = nodes[g'].order :=
      (h.order _ (getElem_mem hg) n hn).symm.trans (h.order _ (getElem_mem hg') n hn')
    obtain hlt | rfl | hgt := lt_trichotomy g g'
    · exact absurd heq (Nat.ne_of_lt (hsorted g g' hg hg' hlt))
    · rfl
    · exact absurd heq.symm (Nat.ne_of_lt (hsorted g' g hg' hg hgt))

/-! ### A session -/

/-- `struct ppp_layer_data_t`. -/
structure LayerData where
  started : Bool := false
  passive : Bool
  optional : Bool
  starting : Bool := false

/-- The layers of a session, and what is counted for the statement. -/
structure PppLayers where
  data : LayerName → LayerData
  state : ApState := .starting
  /-- For each loop over a group that waits for a `start` to return, what it has still to start. -/
  frames : List (List LayerName) := []
  /-- How often each group has been started. -/
  entered : ℕ → ℕ := fun _ ↦ 0
  /-- How often the session has been activated. -/
  activations : ℕ := 0

/-- How `ap_session_activate` ends. -/
inductive Activation where
  /-- `ap_shutdown` is set. -/
  | refused
  /-- The session was terminated in `ap_session_ifup`. -/
  | stopped
  | done

/-- What happens to the layers of a session. -/
inductive LayerEvent where
  /-- `ppp_layer_started` or `ppp_layer_passive`, and how the session is activated if it is. -/
  | report (n : LayerName) (passive : Bool) (a : Activation)
  /-- The innermost `start` returns, with an error or without. -/
  | ret (r : Bool)
  /-- `ap_session_terminate`. -/
  | terminate
  /-- A Configure-Request of the peer is accepted: the layer is not passive any more. -/
  | confReq (n : LayerName) (hn : getLayerOrder n = 2)
  /-- `ev_mppe_keys`, with a policy that makes CCP passive or not. -/
  | mppeKeys (passive : Bool)

namespace PppLayers

/-- `ap_session_activate`. -/
def activate (a : Activation) (s : PppLayers) : PppLayers :=
  match a with
  | .refused => s
  | .stopped => { s with state := .finishing }
  | .done => { s with state := .active, activations := s.activations + 1 }

/-- The data of one layer change. -/
def modify (n : LayerName) (f : LayerData → LayerData) (s : PppLayers) : PppLayers :=
  { s with data := Function.update s.data n (f (s.data n)) }

section

variable (s : PppLayers) (items : List LayerName)

/-- The next round of the loop that starts the layers of a group. -/
def startNext (s : PppLayers) : PppLayers :=
  match items with
  | [] => s
  | d :: rest =>
    { s.modify d fun ld ↦ { ld with starting := true } with frames := rest :: s.frames }

/-- The loop over a group is entered. -/
def enter (g : ℕ) (items : List LayerName) (s : PppLayers) : PppLayers :=
  startNext items { s with entered := Function.update s.entered g (s.entered g + 1) }

/-- Every layer of the group is started or passive. -/
def Complete : Prop :=
  ∀ d ∈ items, (s.data d).started = true ∨ (s.data d).passive = true

/-- Besides, one that is not optional is started. -/
def Ready : Prop :=
  s.Complete items ∧ ∃ d ∈ items, (s.data d).started = true ∧ (s.data d).optional = false

instance : Decidable (s.Complete items) :=
  inferInstanceAs (Decidable (∀ d ∈ items, _))

instance : Decidable (s.Ready items) :=
  inferInstanceAs (Decidable (_ ∧ ∃ d ∈ items, _))

end

variable (groups : List (List LayerName))

/-- `__ppp_layer_started`, for a layer of group `g`. -/
def layerStarted (a : Activation) (g : ℕ) (s : PppLayers) : PppLayers :=
  match groups[g]? with
  | none => s
  | some items =>
    if items.any fun d ↦ !(s.data d).started && !(s.data d).passive then s
    else if !items.any fun d ↦ (s.data d).started && !(s.data d).optional then s
    else
      match groups[g + 1]? with
      | none => if s.state = .starting then s.activate a else s
      | some next => s.enter (g + 1) next

/-- `ppp_layer_started` and `ppp_layer_passive`. -/
def report (n : LayerName) (passive : Bool) (a : Activation) (s : PppLayers) : PppLayers :=
  if (s.data n).started then s
  else
    layerStarted groups a (groups.findIdx (n ∈ ·))
      (s.modify n
        fun ld ↦ if passive then { ld with passive := true } else { ld with started := true })

/-- One event. -/
def step (s : PppLayers) : LayerEvent → PppLayers
  | .report n passive a => s.report groups n passive a
  | .ret r =>
    match s.frames with
    | [] => s
    | rest :: frames =>
      let s := { s with frames }
      if r then { s with state := .finishing } else s.startNext rest
  | .terminate => { s with state := .finishing }
  | .confReq n _ => s.modify n fun ld ↦ { ld with passive := false }
  | .mppeKeys passive => s.modify .ccp fun ld ↦ { ld with passive }

/-- `establish_ppp` up to `start_first_layer`, which starts the first group. The flags are what the
layers' `init` has set, `mppe_init` for CCP. -/
def establish (passive optional : LayerName → Bool) : PppLayers :=
  enter 0 (groups.headD []) { data := fun n ↦ { passive := passive n, optional := optional n } }

/-- **Each group is started once**, those after the first if the group before is ready, and the
session is activated at most once. -/
structure Ordered (s : PppLayers) : Prop where
  first : s.entered 0 = 1
  once : ∀ g items, groups[g]? = some items → g + 1 < groups.length →
    s.entered (g + 1) = if s.Ready items then 1 else 0
  activated_once : s.activations ≤ 1

/-- **From one state to the other nothing is started too early**: if a group is, the group before is
ready, and if the session is activated, the last group is. -/
structure InTime (s t : PppLayers) : Prop where
  group : ∀ g items, groups[g]? = some items → t.entered (g + 1) ≠ s.entered (g + 1) →
    t.Ready items
  activation : t.activations ≠ s.activations → ∀ items ∈ groups.getLast?, t.Ready items

variable {groups} {s t : PppLayers} {items : List LayerName} {n : LayerName} {g : ℕ}

lemma modify_data_of_ne {m : LayerName} (h : m ≠ n) (f : LayerData → LayerData) (s : PppLayers) :
    (s.modify n f).data m = s.data m :=
  update_of_ne h ..

/-! ### What the steps leave as it is -/

/-- A group of one layer is ready when that has started and is not optional. -/
lemma ready_singleton :
    s.Ready [n] ↔ (s.data n).started = true ∧ (s.data n).optional = false := by
  rw [Ready, Complete, forall_mem_singleton]
  simp only [mem_singleton, exists_eq_left]
  exact and_iff_right_of_imp fun h ↦ .inl h.1

lemma startNext_data (items : List LayerName) (s : PppLayers) (n : LayerName) :
    ((s.startNext items).data n).started = (s.data n).started ∧
      ((s.startNext items).data n).passive = (s.data n).passive ∧
      ((s.startNext items).data n).optional = (s.data n).optional := by
  cases items with
  | nil => exact ⟨rfl, rfl, rfl⟩
  | cons d rest =>
    change (update s.data d { s.data d with starting := true } n).started = _ ∧
      (update s.data d { s.data d with starting := true } n).passive = _ ∧
      (update s.data d { s.data d with starting := true } n).optional = _
    obtain rfl | hn := eq_or_ne n d
    · rw [update_self]
      exact ⟨rfl, rfl, rfl⟩
    · rw [update_of_ne hn]
      exact ⟨rfl, rfl, rfl⟩

variable {items : List LayerName} {s : PppLayers}

/-- The test of `__ppp_layer_started`. -/
lemma layerStarted_eq (a : Activation) (g : ℕ) (s : PppLayers) :
    s.layerStarted groups a g =
      match groups[g]? with
      | none => s
      | some items =>
        if s.Ready items then
          match groups[g + 1]? with
          | none => if s.state = .starting then s.activate a else s
          | some next => s.enter (g + 1) next
        else s := by
  rw [layerStarted]
  cases groups[g]? with
  | none => rfl
  | some items =>
    have hcomplete : (items.any fun d ↦ !(s.data d).started && !(s.data d).passive) = true ↔
        ¬ s.Complete items := by
      simp [Complete, not_or]
    have hstarted : (!items.any fun d ↦ (s.data d).started && !(s.data d).optional) = true ↔
        ¬ ∃ d ∈ items, (s.data d).started = true ∧ (s.data d).optional = false := by
      simp
    dsimp only
    by_cases h : s.Ready items
    · rw [if_neg (fun hf ↦ hcomplete.mp hf h.1), if_neg (fun hf ↦ hstarted.mp hf h.2), if_pos h]
    · rw [if_neg h]
      refine ite_eq_left_iff.mpr fun hc ↦ ite_eq_left_iff.mpr fun hs ↦ absurd ⟨?_, ?_⟩ h
      · exact not_not.mp fun hf ↦ hc (hcomplete.mpr hf)
      · exact not_not.mp fun hf ↦ hs (hstarted.mpr hf)

lemma startNext_counts (items : List LayerName) (s : PppLayers) :
    (s.startNext items).entered = s.entered ∧ (s.startNext items).activations = s.activations := by
  cases items <;> exact ⟨rfl, rfl⟩

lemma ready_startNext {rest : List LayerName} :
    (s.startNext rest).Ready items ↔ s.Ready items := by
  have hdata := startNext_data rest s
  simp only [Ready, Complete, (hdata _).1, (hdata _).2.1, (hdata _).2.2]

/-! ### The order is kept -/

/-- Besides, a session that is still starting has not been activated. -/
structure Inv (groups : List (List LayerName)) (s : PppLayers) : Prop extends Ordered groups s where
  inactive : s.state = .starting → s.activations = 0

/-- The group of a layer is the one that it is found in. -/
lemma findIdx_eq (hl : Layout groups) (hitems : groups[g]? = some items) (hn : n ∈ items) :
    groups.findIdx (n ∈ ·) = g := by
  have hlt : groups.findIdx (n ∈ ·) < groups.length :=
    List.findIdx_lt_length_of_exists ⟨items, List.mem_of_getElem? hitems, decide_eq_true hn⟩
  have hmem : n ∈ groups[groups.findIdx (n ∈ ·)] :=
    of_decide_eq_true (findIdx_getElem (w := hlt))
  exact hl.unique _ _ _ _ n (getElem?_eq_getElem hlt) hmem hitems hn

/-- And a group that a layer is found in has it. -/
lemma mem_of_findIdx (hidx : groups.findIdx (n ∈ ·) = g) (hitems : groups[g]? = some items) :
    n ∈ items := by
  obtain ⟨hg, rfl⟩ := List.getElem?_eq_some_iff.mp hitems
  subst hidx
  exact of_decide_eq_true (List.findIdx_getElem (w := hg))

section

variable (h : Inv groups s)

include h

/-- The counts are as before, and so is what is ready among the groups before the last. -/
lemma Inv.keep (hentered : t.entered = s.entered) (hactivations : t.activations = s.activations)
    (hstate : t.state = .starting → s.state = .starting)
    (hready : ∀ g items, groups[g]? = some items → g + 1 < groups.length →
      (t.Ready items ↔ s.Ready items)) : Inv groups t where
  first := hentered ▸ h.first
  once := fun g items hitems hg ↦ by
    rw [hentered, h.once g items hitems hg]
    exact (if_congr (hready g items hitems hg) rfl rfl).symm
  activated_once := hactivations ▸ h.activated_once
  inactive := fun hs ↦ hactivations ▸ h.inactive (hstate hs)

lemma Inv.startNext (rest : List LayerName) : Inv groups (s.startNext rest) := by
  cases rest <;> exact h.keep rfl rfl id fun _ _ _ _ ↦ ready_startNext

/-- The network layers and CCP are in the last group. -/
lemma Inv.modify (hl : Layout groups) (hn : getLayerOrder n = 2) (f : LayerData → LayerData) :
    Inv groups (s.modify n f) := by
  refine h.keep rfl rfl id fun g items hitems hg ↦ ?_
  obtain ⟨m, hm, hget⟩ := hl.single g hg
  obtain rfl := some_inj.mp (hget.symm.trans hitems)
  rw [ready_singleton, ready_singleton, modify_data_of_ne]
  rintro rfl
  exact hm.ne hn

/-- The session is activated. -/
lemma Inv.activate (hstate : s.state = .starting) (a : Activation) :
    Inv groups (s.activate a) := by
  cases a with
  | refused => exact h
  | stopped => exact ⟨{ h with }, nofun⟩
  | done => exact ⟨⟨h.first, h.once, succ_le_succ (h.inactive hstate).le⟩, nofun⟩

/-- The next group is started, when the one before it has become ready. -/
lemma Inv.enter (hentered : t.entered = s.entered)
    (hactivations : t.activations = s.activations) (hstate : t.state = s.state)
    (hitems : groups[g]? = some items) (hbefore : ¬ s.Ready items) (hready : t.Ready items)
    (hother : ∀ g' items, groups[g']? = some items → g' + 1 < groups.length → g' ≠ g →
      (t.Ready items ↔ s.Ready items)) (hg : g + 1 < groups.length) (next : List LayerName) :
    Inv groups (t.enter (g + 1) next) := by
  have hrest : ∀ k, k ≠ g + 1 →
      update t.entered (g + 1) (t.entered (g + 1) + 1) k = s.entered k := fun k hk ↦ by
    rw [update_of_ne hk, hentered]
  suffices hinv : Inv groups
      { t with entered := update t.entered (g + 1) (t.entered (g + 1) + 1) } from
    hinv.startNext next
  refine ⟨⟨(hrest 0 nofun).trans h.first, fun g' items' hitems' hg' ↦ ?_,
    hactivations.le.trans h.activated_once⟩,
    fun hs ↦ hactivations.trans (h.inactive (hstate ▸ hs))⟩
  obtain rfl | hne := eq_or_ne g' g
  · obtain rfl := some_inj.mp (hitems.symm.trans hitems')
    refine (update_self ..).trans ?_
    rw [hentered, h.once g' items hitems hg, if_neg hbefore]
    exact (if_pos hready).symm
  · refine (hrest _ fun hf ↦ hne (succ.inj hf)).trans ?_
    rw [h.once g' items' hitems' hg']
    exact (if_congr (hother g' items' hitems' hg' hne) rfl rfl).symm

/-- **A layer reports.** -/
theorem Inv.report (hl : Layout groups) (n : LayerName) (passive : Bool)
    (a : Activation) : Inv groups (s.report groups n passive a) := by
  rw [PppLayers.report]
  split
  next => exact h
  next hn =>
    generalize ht : (s.modify n fun ld ↦
      if passive then { ld with passive := true } else { ld with started := true }) = t
    -- Only the layer's own group is concerned.
    have hother : ∀ g items, groups[g]? = some items → g + 1 < groups.length →
        g ≠ groups.findIdx (n ∈ ·) → (t.Ready items ↔ s.Ready items) := by
      intro g items hitems hg hne
      obtain ⟨m, -, hget⟩ := hl.single g hg
      obtain rfl := some_inj.mp (hget.symm.trans hitems)
      have hm : m ≠ n := fun hm ↦ hne (findIdx_eq hl hitems (hm ▸ mem_singleton_self m)).symm
      rw [ready_singleton, ready_singleton, ← ht, modify_data_of_ne hm]
    generalize hg₀ : groups.findIdx (n ∈ ·) = g₀ at hother ⊢
    -- Alone in it, the layer has not started: the group was not ready.
    have hbefore : ∀ items, groups[g₀]? = some items → g₀ + 1 < groups.length →
        ¬ s.Ready items := by
      intro items hitems hg hready
      obtain ⟨m, -, hget⟩ := hl.single g₀ hg
      obtain rfl := some_inj.mp (hget.symm.trans hitems)
      obtain rfl := mem_singleton.mp (mem_of_findIdx hg₀ hitems)
      exact hn (ready_singleton.mp hready).1
    have hentered : t.entered = s.entered := ht ▸ rfl
    have hactivations : t.activations = s.activations := ht ▸ rfl
    have hstate : t.state = s.state := ht ▸ rfl
    have hkeep : (∀ items, groups[g₀]? = some items → g₀ + 1 < groups.length →
        ¬ t.Ready items) → Inv groups t := fun hown ↦ by
      refine h.keep hentered hactivations (fun hs ↦ hstate ▸ hs) fun g items hitems hg ↦ ?_
      obtain rfl | hne := eq_or_ne g g₀
      · exact iff_of_false (hown items hitems hg) (hbefore items hitems hg)
      · exact hother g items hitems hg hne
    rw [layerStarted_eq]
    split
    next hnone => exact hkeep fun items hitems ↦ nomatch hnone.symm.trans hitems
    next items hitems =>
      split
      next hready =>
        split
        next hlast =>
          have hlen : groups.length ≤ g₀ + 1 := getElem?_eq_none_iff.mp hlast
          have hinv := hkeep fun _ _ hg ↦ absurd hg (not_lt.mpr hlen)
          split
          next hstarting => exact hinv.activate hstarting a
          next => exact hinv
        next next hnext =>
          have hg : g₀ + 1 < groups.length := (List.getElem?_eq_some_iff.mp hnext).1
          exact h.enter hentered hactivations hstate hitems (hbefore items hitems hg) hready hother
            hg next
      next hready =>
        refine hkeep fun items' hitems' _ ↦ ?_
        obtain rfl := some_inj.mp (hitems.symm.trans hitems')
        exact hready

lemma Inv.step (hl : Layout groups) (e : LayerEvent) : Inv groups (s.step groups e) := by
  have hstop : ∀ t, Inv groups t → Inv groups { t with state := .finishing } := fun t ht ↦
    ⟨{ ht with }, nofun⟩
  cases e with
  | report n passive a => exact h.report hl n passive a
  | ret r =>
    rw [PppLayers.step]
    split
    next => exact h
    next rest frames hframes =>
      have hpop : Inv groups { s with frames } :=
        ⟨{ h with }, h.inactive⟩
      split
      · exact hstop _ hpop
      · exact hpop.startNext rest
  | terminate => exact hstop s h
  | confReq n hn => exact h.modify hl hn fun ld ↦ { ld with passive := false }
  | mppeKeys passive => exact h.modify (n := .ccp) hl rfl fun ld ↦ { ld with passive }

end

/-! ### Nothing is started too early -/

lemma inTime_of_counts (hentered : t.entered = s.entered)
    (hactivations : t.activations = s.activations) : InTime groups s t :=
  ⟨fun g _ _ hne ↦ absurd (congrFun hentered (g + 1)) hne, fun hne ↦ absurd hactivations hne⟩

/-- What `__ppp_layer_started` finds ready is so when it has started what comes next. -/
lemma inTime_layerStarted (a : Activation) (g : ℕ) (s : PppLayers) :
    InTime groups s (s.layerStarted groups a g) := by
  rw [layerStarted_eq]
  split
  next => exact inTime_of_counts rfl rfl
  next items hitems =>
    by_cases hready : s.Ready items
    case neg =>
      rw [if_neg hready]
      exact inTime_of_counts rfl rfl
    rw [if_pos hready]
    split
    next hlast =>
      have hget : groups.getLast? = some items := by
        have hg := (List.getElem?_eq_some_iff.mp hitems).1
        have hlen := getElem?_eq_none_iff.mp hlast
        rw [List.getLast?_eq_getElem?, show groups.length - 1 = g by omega, hitems]
      split_ifs
      · cases a with
        | refused | stopped => exact inTime_of_counts rfl rfl
        | done =>
          refine ⟨fun _ _ _ hne ↦ absurd rfl hne, fun _ items' hitems' ↦ ?_⟩
          rw [hget, mem_some] at hitems'
          exact hitems' ▸ hready
      · exact inTime_of_counts rfl rfl
    next next hnext =>
      obtain ⟨hentered, hactivations⟩ := startNext_counts next
        { s with entered := update s.entered (g + 1) (s.entered (g + 1) + 1) }
      refine ⟨fun g' items' hitems' hne ↦ ?_, fun hne ↦ absurd hactivations hne⟩
      obtain rfl | hg' := eq_or_ne g' g
      · obtain rfl := some_inj.mp (hitems.symm.trans hitems')
        exact ready_startNext.mpr hready
      · refine absurd ((congrFun hentered _).trans ?_) hne
        exact update_of_ne (fun hf ↦ hg' (succ.inj hf)) ..

/-- Only a report starts anything. -/
lemma inTime_step (s : PppLayers) (e : LayerEvent) : InTime groups s (s.step groups e) := by
  cases e with
  | report n passive a =>
    rw [step, report]
    split
    next => exact inTime_of_counts rfl rfl
    next =>
      exact { inTime_layerStarted a _ (s.modify n fun ld ↦
        if passive then { ld with passive := true } else { ld with started := true }) with }
  | ret r =>
    rw [step]
    split
    next => exact inTime_of_counts rfl rfl
    next rest frames hframes =>
      obtain ⟨hentered, hactivations⟩ := startNext_counts rest { s with frames }
      cases r with
      | true => exact inTime_of_counts rfl rfl
      | false => exact inTime_of_counts hentered hactivations
  | terminate => exact inTime_of_counts rfl rfl
  | confReq n hn => exact inTime_of_counts rfl rfl
  | mppeKeys passive => exact inTime_of_counts rfl rfl

lemma inv_establish (passive optional : LayerName → Bool) :
    Inv groups (establish groups passive optional) := by
  refine Inv.startNext ⟨⟨rfl, fun g items hitems hg ↦ ?_, zero_le _⟩, fun _ ↦ rfl⟩ _
  rw [if_neg]
  · rfl
  · rintro ⟨-, d, -, hstarted, -⟩
    nomatch hstarted

end PppLayers
end AccelPpp.Ppp.Layers
