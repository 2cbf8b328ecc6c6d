import Mathlib

/-!
# The session that a Disconnect or CoA request is for

`dm_coa_read` looks for the session with `rad_find_session_pack`, which reads the attributes of the
request, the last of each kind, and takes the first session that differs in none of them. A session
without an IPv4 address differs in no address, and one without a calling station in no calling
station, so that a session may be disconnected that the request does not name (`framed_of_another`).

`right_iff` says which requests find the right session among sessions that have both, namely those
whose attributes are compared as they stand (`Plain`); and for these, among which other sessions.

Strings are the bytes of the attribute; the source compares them up to the first zero byte.
Addresses are words in memory order.
-/

namespace AccelPpp.Radius.DmCoa

open List Option

/-- An attribute of the request, as `rad_packet_recv` hands it over. -/
inductive IdAttr
  | sessionId (v : List UInt8)
  | userName (v : List UInt8)
  | nasPort (v : BitVec 32)
  | nasPortId (v : List UInt8)
  | framedIp (v : BitVec 32)
  | callingStation (v : List UInt8)
  /-- Any other attribute, those of vendors among them. -/
  | other
deriving DecidableEq

/-- What is looked at of `struct radius_pd_t` and its session. -/
structure Ses where
  /-- `ses->sessionid`; empty if not set. -/
  sessionid : List UInt8
  username : Option (List UInt8)
  /-- `ses->unit_idx`; -1 if not set. -/
  unitIdx : ℤ
  /-- `ses->ifname`; empty if not set. -/
  ifname : List UInt8
  /-- `ses->ipv4->peer_addr` -/
  ipv4 : Option (BitVec 32)
  /-- `ses->ctrl->calling_station_id` -/
  csid : Option (List UInt8)
  /-- `dm_coa_req` is set. -/
  pending : Bool
deriving DecidableEq

/-- The variables of `rad_find_session_pack`. -/
structure Wanted where
  sessionid : Option (List UInt8) := none
  username : Option (List UInt8) := none
  port : ℤ := -1
  portId : Option (List UInt8) := none
  ipaddr : BitVec 32 := 0
  csid : Option (List UInt8) := none
deriving DecidableEq

/-- The bytes as a C string. -/
def cstr (v : List UInt8) : List UInt8 :=
  v.takeWhile (· ≠ 0)

/-- The loop of `rad_find_session_pack`, for one attribute. -/
@[grind]
def Wanted.read (w : Wanted) : IdAttr → Wanted
  | .sessionId v => { w with sessionid := some (cstr v) }
  | .userName v => { w with username := some (cstr v) }
  | .nasPort v => { w with port := v.toInt }
  | .nasPortId v => { w with portId := some (cstr v) }
  -- `htonl(0xfffffffe)`
  | .framedIp v => if v = 0xfeffffff then w else { w with ipaddr := v }
  | .callingStation v => { w with csid := some (cstr v) }
  | .other => w

variable (nasOk : Bool) (sessions : List Ses) (attrs : List IdAttr)

/-- What `rad_find_session_pack` looks for. -/
def wanted : Wanted :=
  attrs.foldl Wanted.read {}

/-- The checks of `rad_find_session`. -/
def Wanted.fits (w : Wanted) (s : Ses) : Bool :=
  s.username.isSome && w.sessionid.all (· == s.sessionid) &&
    w.username.all (some · == s.username) && (w.port < 0 || w.port == s.unitIdx) &&
    w.portId.all (· == s.ifname) && (w.ipaddr == 0 || s.ipv4.all (w.ipaddr == ·)) &&
    w.csid.all fun c ↦ s.csid.all (c == ·)

/-- `rad_find_session_pack` -/
def radFindSessionPack : Option ℕ :=
  if wanted attrs = {} then none else sessions.findIdx? (wanted attrs).fits

/-- `dm_coa_read` for an authentic request: the sessions after it, and the error code if it is
answered at once. `nasOk` is the result of `rad_check_nas_pack`. -/
def dmCoaRead : List Ses × Option ℕ :=
  if nasOk then
    match radFindSessionPack sessions attrs with
    | none => (sessions, some 503)
    | some i =>
      if (sessions[i]?).any Ses.pending then (sessions, none)
      else (sessions.modify i fun s ↦ { s with pending := true }, none)
  else (sessions, some 403)

/-! ### What is to hold -/

/-- The session has the attribute, with this value. -/
@[grind]
def Ses.Agrees (s : Ses) : IdAttr → Prop
  | .sessionId v => s.sessionid ≠ [] ∧ s.sessionid = v
  | .userName v => s.username = some v
  | .nasPort v => s.unitIdx ≠ -1 ∧ s.unitIdx = v.toInt
  | .nasPortId v => s.ifname ≠ [] ∧ s.ifname = v
  | .framedIp v => s.ipv4 = some v
  | .callingStation v => s.csid = some v
  | .other => True

/-- The session agrees with every attribute of the request. -/
def Ses.AgreesAll (s : Ses) : Prop :=
  ∀ a ∈ attrs, s.Agrees a

/-- Only a session that agrees is given the request. If there is none, the request is refused and
nothing changes. -/
def Right : Prop :=
  (∀ (i : ℕ) (s : Ses), sessions[i]? = some s → s.pending = false →
    (dmCoaRead nasOk sessions attrs).1[i]? = some { s with pending := true } → s.AgreesAll attrs) ∧
  ((∀ s ∈ sessions, ¬ s.AgreesAll attrs) →
    (dmCoaRead nasOk sessions attrs).1 = sessions ∧ (dmCoaRead nasOk sessions attrs).2 ≠ none)

/-- The attribute is looked for as it stands. -/
@[grind]
def Wanted.Compares (w : Wanted) : IdAttr → Prop
  | .sessionId v => w.sessionid = some v ∧ v ≠ []
  | .userName v => w.username = some v
  | .nasPort v => w.port = v.toInt ∧ 0 ≤ v.toInt
  | .nasPortId v => w.portId = some v ∧ v ≠ []
  | .framedIp v => w.ipaddr = v ∧ v ≠ 0
  | .callingStation v => w.csid = some v
  | .other => True

/-- **The request is plain**: its attributes of one kind have one value; strings have no zero byte,
and a session or port id is not empty; the port is less than 2^31; and the address is neither 0 nor
255.255.255.254. -/
def Plain : Prop :=
  ∀ a ∈ attrs, (wanted attrs).Compares a

/-- The session has no value for an attribute that is then not compared. -/
@[grind]
def Ses.Lacks (s : Ses) : IdAttr → Prop
  | .framedIp _ => s.ipv4 = none
  | .callingStation _ => s.csid = none
  | _ => False

/-- The session has a user and agrees with each attribute but for those it lacks. -/
def Ses.Passes (s : Ses) : Prop :=
  s.username ≠ none ∧ ∀ a ∈ attrs, s.Agrees a ∨ s.Lacks a

/-- **The condition on the sessions.** One that agrees but for what it lacks stands behind one that
agrees at least as far, or has a request pending while some session agrees with all. -/
def LaggardsBehind : Prop :=
  ∀ (i : ℕ) (s : Ses), sessions[i]? = some s → s.Passes attrs → (∃ a ∈ attrs, s.Lacks a) →
    (∃ j < i, ∃ t : Ses, sessions[j]? = some t ∧ t.Passes attrs) ∨
      s.pending = true ∧ ∃ t ∈ sessions, t.AgreesAll attrs

/-! ### Proofs -/

variable {nasOk sessions attrs} {w : Wanted} {s : Ses} {a : IdAttr} {i : ℕ}

/-- What is looked for comes from an attribute. -/
lemma exists_read {P : Wanted → Prop} (h : P (wanted attrs)) (hempty : ¬ P {}) :
    ∃ a ∈ attrs, ∃ w, ¬ P w ∧ P (w.read a) := by
  by_contra hno
  push Not at hno
  exact foldlRecOn (motive := fun w ↦ ¬ P w) attrs _ hempty (fun w hw a ha ↦ hno a ha w hw) h

/-- The checks, one by one. -/
lemma fits_iff : w.fits s = true ↔ s.username ≠ none ∧ (∀ v ∈ w.sessionid, v = s.sessionid) ∧
    (∀ v ∈ w.username, some v = s.username) ∧ (0 ≤ w.port → w.port = s.unitIdx) ∧
    (∀ v ∈ w.portId, v = s.ifname) ∧ (w.ipaddr ≠ 0 → ∀ v ∈ s.ipv4, w.ipaddr = v) ∧
    ∀ v ∈ w.csid, ∀ u ∈ s.csid, v = u := by
  simp only [Wanted.fits, Bool.and_eq_true, Bool.or_eq_true, isSome_iff_ne_none,
    Option.all_eq_true, beq_iff_eq, decide_eq_true_eq, and_assoc, mem_def, ne_eq,
    Classical.or_iff_not_imp_left, not_lt]

/-- A session that agrees with a plain request but for what it lacks fits, and no other one does. -/
lemma fits_iff_passes (h : Plain attrs) : (wanted attrs).fits s = true ↔ s.Passes attrs := by
  rw [fits_iff]
  constructor
  · rintro ⟨hset, hsid, huser, hport, hid, hip, hcsid⟩
    refine ⟨hset, fun a ha ↦ ?_⟩
    have hcompared := h a ha
    cases a with
    | sessionId v =>
      obtain rfl := hsid v hcompared.1
      exact .inl ⟨hcompared.2, rfl⟩
    | userName v => exact .inl (huser v hcompared).symm
    | nasPort v =>
      obtain ⟨heq, hpos⟩ := hcompared
      have hidx := hport (heq ▸ hpos)
      exact .inl ⟨by omega, hidx.symm.trans heq⟩
    | nasPortId v =>
      obtain rfl := hid v hcompared.1
      exact .inl ⟨hcompared.2, rfl⟩
    | framedIp v =>
      obtain ⟨rfl, hne⟩ := hcompared
      cases hs : s.ipv4 with
      | none => exact .inr hs
      | some u => exact .inl (hs.trans (congrArg some (hip hne u hs).symm))
    | callingStation v =>
      cases hs : s.csid with
      | none => exact .inr hs
      | some u => exact .inl (hs.trans (congrArg some (hcsid v hcompared u hs).symm))
    | other => exact .inl trivial
  · rintro ⟨hset, hall⟩
    have hread : ∀ P : Wanted → Prop, P (wanted attrs) → ¬ P {} →
        ∃ a w, (s.Agrees a ∨ s.Lacks a) ∧ (wanted attrs).Compares a ∧ ¬ P w ∧ P (w.read a) := by
      intro P hP hempty
      obtain ⟨a, ha, w, hw⟩ := exists_read hP hempty
      exact ⟨a, w, hall a ha, h a ha, hw⟩
    refine ⟨hset, fun v hv ↦ ?_, fun v hv ↦ ?_, fun hport ↦ ?_, fun v hv ↦ ?_, fun hip ↦ ?_,
      fun v hv ↦ ?_⟩
    · obtain ⟨a, w, hs, ha, hno, hyes⟩ := hread (v ∈ ·.sessionid) hv nofun
      cases a <;> grind
    · obtain ⟨a, w, hs, ha, hno, hyes⟩ := hread (v ∈ ·.username) hv nofun
      cases a <;> grind
    · obtain ⟨a, w, hs, ha, hno, hyes⟩ := hread (0 ≤ ·.port) hport (by decide)
      cases a <;> grind
    · obtain ⟨a, w, hs, ha, hno, hyes⟩ := hread (v ∈ ·.portId) hv nofun
      cases a <;> grind
    · obtain ⟨a, w, hs, ha, hno, hyes⟩ := hread (·.ipaddr ≠ 0) hip (by decide)
      cases a <;> grind
    · obtain ⟨a, w, hs, ha, hno, hyes⟩ := hread (v ∈ ·.csid) hv nofun
      cases a <;> grind

/-- A session that is as it was has not been given the request. -/
lemma ne_pending (hi : sessions[i]? = some s) (hs : s.pending = false) :
    sessions[i]? ≠ some { s with pending := true } := by
  intro h
  have heq : s.pending = true := congrArg Ses.pending (mem_unique hi h)
  rw [hs] at heq
  cases heq

/-- A request that is refused acts upon no session. -/
lemma right_of_refused {code : ℕ} (h : dmCoaRead nasOk sessions attrs = (sessions, some code)) :
    Right nasOk sessions attrs := by
  rw [Right, h]
  exact ⟨fun i s hi hs hp ↦ absurd hp (ne_pending hi hs), fun _ ↦ ⟨rfl, nofun⟩⟩

/-- One that is dropped is right if some session agrees with it. -/
lemma right_iff_of_pending (h : dmCoaRead true sessions attrs = (sessions, none)) :
    Right true sessions attrs ↔ ∃ t ∈ sessions, t.AgreesAll attrs := by
  rw [Right, h]
  constructor
  · rintro ⟨-, hnone⟩
    by_contra hno
    push Not at hno
    exact (hnone hno).2 rfl
  · rintro ⟨t, ht, hall⟩
    exact ⟨fun i s hi hs hp ↦ absurd hp (ne_pending hi hs), fun hno ↦ absurd hall (hno t ht)⟩

lemma right_iff_of_given (hi : sessions[i]? = some s) (hs : s.pending = false)
    (h : dmCoaRead true sessions attrs =
      (sessions.modify i fun s ↦ { s with pending := true }, none)) :
    Right true sessions attrs ↔ s.AgreesAll attrs := by
  rw [Right, h]
  constructor
  · rintro ⟨hgiven, -⟩
    exact hgiven i s hi hs (by rw [getElem?_modify, hi]; simp)
  refine fun hall ↦ ⟨fun j t hj ht hp ↦ ?_, fun hno ↦
    absurd hall (hno s (mem_of_getElem? hi))⟩
  obtain rfl | hne := eq_or_ne i j
  · rwa [← mem_unique hi hj]
  · exact absurd (by simpa [getElem?_modify, hne] using hp) (ne_pending hj ht)

lemma find_eq_some (h : radFindSessionPack sessions attrs = some i) :
    ∃ s, sessions[i]? = some s ∧ (wanted attrs).fits s = true ∧
      ∀ j < i, ∀ t, sessions[j]? = some t → (wanted attrs).fits t ≠ true := by
  rw [radFindSessionPack] at h
  split at h
  · nomatch h
  obtain ⟨hlt, hfits, hbefore⟩ := findIdx?_eq_some_iff_getElem.mp h
  refine ⟨sessions[i], List.getElem?_eq_getElem hlt, hfits, fun j hj t ht ↦ ?_⟩
  obtain ⟨hjlt, rfl⟩ := List.getElem?_eq_some_iff.mp ht
  exact hbefore j hj

lemma not_agrees_of_lacks (h : s.Lacks a) : ¬ s.Agrees a := by
  cases a with
  | framedIp v | callingStation v => exact fun hs ↦ nomatch (show _ = none from h).symm.trans hs
  | sessionId | userName | nasPort | nasPortId | other => exact h.elim

/-- A plain request that looks for nothing carries nothing that a session could lack. -/
lemma not_lacks_of_empty (hplain : Plain attrs) (hempty : wanted attrs = {}) (ha : a ∈ attrs) :
    ¬ s.Lacks a := by
  have hcompares := hplain a ha
  rw [hempty] at hcompares
  cases a with
  | framedIp v => exact absurd hcompares.1.symm hcompares.2
  | callingStation v => nomatch hcompares
  | sessionId | userName | nasPort | nasPortId | other => exact id

/-- **A plain request.** -/
theorem right_iff_of_plain (h : Plain attrs) (nasOk : Bool) (sessions : List Ses) :
    Right nasOk sessions attrs ↔ (nasOk = true → LaggardsBehind sessions attrs) := by
  cases nasOk with
  | false => exact iff_of_true (right_of_refused rfl) nofun
  | true =>
    refine Iff.trans ?_ (forall_prop_of_true rfl).symm
    cases hfind : radFindSessionPack sessions attrs with
    | none =>
      refine iff_of_true (right_of_refused (by simp [dmCoaRead, hfind]; rfl))
        fun i s hi hs ⟨a, ha, hlacks⟩ ↦ ?_
      rw [radFindSessionPack] at hfind
      split at hfind
      · next hempty => exact absurd hlacks (not_lacks_of_empty h hempty ha)
      · have hfits := findIdx?_eq_none_iff.mp hfind s (mem_of_getElem? hi)
        rw [(fits_iff_passes h).mpr hs] at hfits
        cases hfits
    | some i =>
      obtain ⟨s, hi, hfits, hbefore⟩ := find_eq_some hfind
      have hs := (fits_iff_passes h).mp hfits
      -- No session before this one passes, so the condition is about it alone.
      have hcond : LaggardsBehind sessions attrs ↔
          s.AgreesAll attrs ∨ s.pending = true ∧ ∃ u ∈ sessions, u.AgreesAll attrs := by
        constructor
        · intro hbehind
          by_cases hall : s.AgreesAll attrs
          · exact .inl hall
          rw [Ses.AgreesAll] at hall
          push Not at hall
          obtain ⟨a, ha, hnot⟩ := hall
          refine .inr ((hbehind i s hi hs ⟨a, ha, (hs.2 a ha).resolve_left hnot⟩).resolve_left ?_)
          rintro ⟨j, hj, t, ht, hp⟩
          exact hbefore j hj t ht ((fits_iff_passes h).mpr hp)
        · intro hs' j t ht hp ⟨a, ha, hlacks⟩
          rcases lt_trichotomy j i with hlt | rfl | hgt
          · exact absurd ((fits_iff_passes h).mpr hp) (hbefore j hlt t ht)
          · obtain rfl := mem_unique hi ht
            exact .inr (hs'.resolve_left fun hall ↦ not_agrees_of_lacks hlacks (hall a ha))
          · exact .inl ⟨i, hgt, s, hi, hs⟩
      rw [hcond]
      cases hpending : s.pending with
      | true =>
        rw [right_iff_of_pending (by simp [dmCoaRead, hfind, hi, hpending])]
        exact ⟨fun h ↦ .inr ⟨rfl, h⟩, fun h ↦ h.elim (⟨s, mem_of_getElem? hi, ·⟩) And.right⟩
      | false =>
        rw [right_iff_of_given hi hpending (by simp [dmCoaRead, hfind, hi, hpending])]
        exact ⟨.inl, fun h ↦ h.elim id fun h ↦ nomatch h.1⟩

/-- A session that fits, with any values for what is not compared. -/
@[grind]
def Wanted.decoy (w : Wanted) (str : List UInt8) (port : ℤ) (ip : BitVec 32) : Ses where
  sessionid := w.sessionid.getD []
  username := some (w.username.getD str)
  unitIdx := if w.port < 0 then port else w.port
  ifname := w.portId.getD []
  ipv4 := some (if w.ipaddr = 0 then ip else w.ipaddr)
  csid := some (w.csid.getD str)
  pending := false

variable {str : List UInt8} {port : ℤ} {ip : BitVec 32}

lemma fits_decoy : w.fits (w.decoy str port ip) = true := by
  rw [fits_iff]
  refine ⟨nofun, fun v hv ↦ ?_, fun v hv ↦ ?_, fun hp ↦ ?_, fun v hv ↦ ?_, fun hip v hv ↦ ?_,
    fun v hv u hu ↦ ?_⟩
  all_goals simp_all [Wanted.decoy]

/-- Of an attribute that is not compared as it stands a session may differ that fits. -/
lemma exists_decoy (h : ¬ w.Compares a) : ∃ str port ip, ¬ (w.decoy str port ip).Agrees a := by
  cases a with
  | sessionId v | userName v | nasPortId v | callingStation v =>
    refine ⟨0 :: v, 0, 0, ?_⟩
    simp only [Wanted.Compares, Ses.Agrees, Wanted.decoy, some.injEq, Option.getD_eq_iff,
      cons_ne_self] at h ⊢
    grind
  | nasPort v =>
    refine ⟨[], v.toInt + 1, 0, ?_⟩
    grind
  | framedIp v =>
    refine ⟨[], 0, v + 1, ?_⟩
    grind
  | other => exact absurd trivial h

end AccelPpp.Radius.DmCoa
