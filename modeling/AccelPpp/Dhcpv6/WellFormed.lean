import AccelPpp.Dhcpv6.Reply

/-!
# Replies are well formed and stay in their buffer

While a reply is built, the buffer holds a beginning that does not change any more (the header of
the message, the Server-ID and the Client-ID) and then options, the last of which may be unfinished
(`Built`). Each option that is added keeps this, whatever it contains; that there is room for it is
checked before anything is written. So nothing is ever written outside of the buffer, and what is
sent is the beginning, options with all their lengths right, and the relay headers around it
(`sendPacket_spec`).
-/

open BigEndian List Memory Nat Tlv

namespace AccelPpp.Dhcpv6

open Prog Triple

/-- The options of a reply behind the two identifiers. -/
def Allowed (code : ℕ) : Prop :=
  code ≠ Code.serverid ∧ code ≠ Code.clientid

instance : DecidablePred Allowed :=
  fun code ↦ inferInstanceAs (Decidable (code ≠ Code.serverid ∧ code ≠ Code.clientid))

/-- An option of a reply, with options in it behind `len` bytes or without any. -/
def ReplyOpt (code : ℕ) (len : Option ℕ) : Prop :=
  code < 65536 ∧ Allowed code ∧ nest code = len

instance : DecidableRel ReplyOpt :=
  fun code len ↦ inferInstanceAs (Decidable (code < 65536 ∧ Allowed code ∧ nest code = len))

/-- Nothing has been written outside of the buffer. -/
def Inside (s : St) : Prop :=
  s.reply.outside = false

/-- The message is to begin at `h`, behind the relay headers. -/
structure Placed (h : ℕ) (rels : List (ℕ × Relay)) (r : Reply) : Prop where
  inside : r.outside = false
  accepted : r.refused = false
  hdr : r.hdr = h
  relays : r.relays = rels

/-- It begins with the bytes `pre`; then there are options, and those at the addresses in `path` are
unfinished. -/
structure Built (h : ℕ) (pre : List UInt8) (rels : List (ℕ × Relay)) (path : List ℕ) (r : Reply) :
    Prop extends Placed h rels r where
  room : r.endptr ≤ bufSize
  begins : slice r.mem h pre.length = pre
  items : Open nest Allowed r.mem (h + pre.length) r.endptr path r.endptr

variable {h code len : ℕ} {pre data : List UInt8} {rels : List (ℕ × Relay)} {path : List ℕ}
  {r : Reply}
  {env : Env}

/-! ### Adding an option -/

lemma Reply.patch_eq {extra : ℕ} (hpath : ∀ o ∈ path, o + 4 ≤ bufSize) :
    r.patch extra path = { r with mem := Tlv.patch extra r.mem path } := by
  induction path generalizing r with
  | nil => rfl
  | cons o path ih =>
    have ho : o + 4 ≤ bufSize := hpath o (.head _)
    have houtside : (r.outside || decide (bufSize < o + 2 +
        (toBytes 2 (ofBytes (slice r.mem (o + 2) 2) + extra)).length)) = r.outside := by
      rw [length_toBytes, decide_eq_false (by omega), Bool.or_false]
    rw [Reply.patch, ih fun o' ho' ↦ hpath o' (.tail _ ho'), Tlv.patch, Reply.store, houtside]

section

variable (hr : Built h pre rels path r)

include hr

/-- What `put` does to the reply. -/
lemma Built.added_eq (hroom : r.endptr + (4 + len) ≤ bufSize)
    (hlen : data.length = len) (code : ℕ) :
    (r.addHeader path code len).store (r.endptr + 4) data =
      { r with
        mem := Tlv.add r.mem r.endptr path code data
        endptr := r.endptr + (4 + len) } := by
  have hpath : ∀ o ∈ path, o + 4 ≤ bufSize := fun o ho ↦
    le_trans (hr.items.header_le ho) hr.room
  rw [Reply.addHeader, Reply.patch_eq hpath]
  have hhead : decide (bufSize < r.endptr + (toBytes 2 code ++ toBytes 2 len).length) = false := by
    rw [length_append, length_toBytes, length_toBytes]
    exact decide_eq_false (by omega)
  have hdata : decide (bufSize < r.endptr + 4 + data.length) = false := decide_eq_false (by omega)
  simp only [Reply.store, hhead, hdata, Bool.or_false]
  rw [Tlv.add, hlen]

/-- The beginning stays. -/
lemma Built.pre_add {code : ℕ} {data : List UInt8} :
    slice (Tlv.add r.mem r.endptr path code data) h pre.length = pre := by
  have hroom := hr.room
  obtain ⟨-, -, -, -, hsame⟩ := hr.items.add (by unfold bufSize at hroom; omega) code data
  rw [← hr.begins, length_slice]
  exact slice_congr fun i _ hi ↦ hsame i hi

lemma Built.add_leaf (hroom : r.endptr + (4 + data.length) ≤ bufSize)
    (hcode : ReplyOpt code none) :
    Built h pre rels path { r with
      mem := Tlv.add r.mem r.endptr path code data
      endptr := r.endptr + (4 + data.length) } :=
  { hr with
    room := hroom
    begins := hr.pre_add
    items := hr.items.add_leaf (by unfold bufSize at hroom; omega) hcode.1 hcode.2.1 hcode.2.2 }

lemma Built.add_node (hroom : r.endptr + (4 + data.length) ≤ bufSize)
    (hcode : ReplyOpt code (some data.length)) :
    Built h pre rels (r.endptr :: path) { r with
      mem := Tlv.add r.mem r.endptr path code data
      endptr := r.endptr + (4 + data.length) } :=
  { hr with
    room := hroom
    begins := hr.pre_add
    items := hr.items.add_node (by unfold bufSize at hroom; omega) hcode.1 hcode.2.1 hcode.2.2 }

end

lemma Built.close {o : ℕ} (hr : Built h pre rels (o :: path) r) : Built h pre rels path r :=
  { hr with items := hr.items.close (by have := hr.room; unfold bufSize at this; omega) }

/-! ### The rules of the builder -/

lemma malloc_spec {P : Reply → Prop} (hP : ∀ r, P r → r.outside = false) :
    Triple (fun s ↦ P s.reply) (malloc env) (fun _ s ↦ P s.reply) Inside := by
  refine get fun s hs ↦ ?_
  refine bind (R := fun _ t ↦ P t.reply) (.modify fun t ht ↦ ?_) fun _ ↦ ?_
  · rw [ht]
    exact hs
  · exact .ite (fun _ ↦ .pure fun _ ht ↦ ht) fun _ ↦ .fail fun t ht ↦ hP _ ht

lemma refuse_spec {α : Type} {P : St → Prop} {Q : α → St → Prop} (hP : ∀ s, P s → Inside s) :
    Triple P refuse Q Inside :=
  .bind (.modify fun s hs ↦ hP s hs) fun _ ↦ .fail fun _ hs ↦ hs

/-- What the option is added to is known, and there is room for it. -/
lemma put_spec (P : Reply → Prop) (hP : ∀ r, P r → r.outside = false) :
    Triple (fun s ↦ P s.reply) (put env path code len data)
      (fun p s ↦ ∃ r, P r ∧ r.endptr + (4 + len) ≤ bufSize ∧ p = r.endptr :: path ∧
        s.reply = (r.addHeader path code len).store (r.endptr + 4) data) Inside := by
  refine bind (R := fun o s ↦ ∃ r, P r ∧ r.endptr + (4 + len) ≤ bufSize ∧ o = r.endptr ∧
    s.reply = r.addHeader path code len) ?_ fun o ↦ ?_
  · refine get fun s hs ↦ .ite (fun _ ↦ ?_) fun hroom ↦ ?_
    · exact refuse_spec fun t ht ↦ by rw [ht]; exact hP _ hs
    · have hroom : s.reply.endptr + (4 + len) ≤ bufSize := by
        unfold Reply.tailroom at hroom
        omega
      refine bind (R := fun _ t ↦ t.reply = s.reply) ?_ fun _ ↦ ?_
      · refine (malloc_spec (P := fun r ↦ r = s.reply) fun r hr ↦ ?_).mono ?_ fun _ _ ht ↦ ht
        · rw [hr]
          exact hP _ hs
        · rintro t rfl
          rfl
      · refine bind
          (.modify fun t ht ↦ ?_) fun _ ↦ .pure fun t ht ↦ ⟨s.reply, hs, hroom, rfl, ht⟩
        exact congrArg (fun r : Reply ↦ r.addHeader path code len) ht
  · refine bind (R := fun _ s ↦ ∃ r, P r ∧ r.endptr + (4 + len) ≤ bufSize ∧ o = r.endptr ∧
      s.reply = (r.addHeader path code len).store (r.endptr + 4) data) (.modify ?_) fun _ ↦ .pure ?_
    · rintro s ⟨r, hr, hroom, rfl, hs⟩
      exact ⟨r, hr, hroom, rfl, congrArg (fun r' : Reply ↦ r'.store _ data) hs⟩
    · rintro s ⟨r, hr, hroom, rfl, hs⟩
      exact ⟨r, hr, hroom, rfl, hs⟩

/-- The program adds whole options to the unfinished ones, and nothing else to the reply. -/
abbrev Keeps {α : Type} (h : ℕ) (pre : List UInt8) (rels : List (ℕ × Relay)) (path : List ℕ)
    (x : Prog St α) : Prop :=
  Triple (fun s ↦ Built h pre rels path s.reply) x (fun _ s ↦ Built h pre rels path s.reply) Inside

section

variable {α : Type}

lemma keeps_pure {a : α} : Keeps h pre rels path (pure a) :=
  .pure fun _ hs ↦ hs

lemma keeps_fail : Keeps h pre rels path (Prog.fail : Prog St α) :=
  .fail fun _ hs ↦ hs.inside

/-- A change that leaves the reply alone. -/
lemma keeps_modify {f : St → St} (hf : ∀ s, (f s).reply = s.reply) :
    Keeps h pre rels path (Prog.modify f) :=
  .modify fun s hs ↦ by rwa [hf s]

lemma keeps_get {f : St → Prog St α} (hf : ∀ s, Keeps h pre rels path (f s)) :
    Keeps h pre rels path (Prog.get >>= f) :=
  .get fun s hs ↦ (hf s).mono (fun t ht ↦ by rwa [ht]) fun _ _ hq ↦ hq

/-- An option without options in it is added. -/
lemma keeps_put (hcode : ReplyOpt code none) (hlen : data.length = len) :
    Keeps h pre rels path (put env path code len data) := by
  refine (put_spec _ fun r hr ↦ hr.inside).mono (fun _ hs ↦ hs) ?_
  rintro p s ⟨r, hr, hroom, -, hs⟩
  rw [hs, hr.added_eq hroom hlen]
  subst hlen
  exact hr.add_leaf hroom hcode

variable {f : List ℕ → Prog St α}

lemma keeps_leaf (hcode : ReplyOpt code none)
    (hlen : data.length = len) (hf : ∀ p, Keeps h pre rels path (f p)) :
    Keeps h pre rels path (put env path code len data >>= f) :=
  (keeps_put hcode hlen).bind hf

/-- An option is added, further options are added to it, and then it is finished. -/
lemma keeps_node (hcode : ReplyOpt code (some len)) (hlen : data.length = len)
    (hf : ∀ o, Keeps h pre rels (o :: path) (f (o :: path))) :
    Keeps h pre rels path (put env path code len data >>= f) := by
  refine bind (R := fun p s ↦ (∃ o, p = o :: path) ∧ Built h pre rels p s.reply) ?_ fun p ↦
    ?_
  · refine (put_spec _ fun r hr ↦ hr.inside).mono (fun _ hs ↦ hs) ?_
    rintro p s ⟨r, hr, hroom, rfl, hs⟩
    rw [hs, hr.added_eq hroom hlen]
    subst hlen
    exact ⟨⟨_, rfl⟩, hr.add_node hroom hcode⟩
  · rintro s ⟨⟨o, rfl⟩, hs⟩
    exact (hf o).mono (fun _ hs ↦ hs) (fun _ _ hs ↦ hs.close) s hs

end

/-! ### The values have the lengths that are allocated for them -/

lemma length_iaData (conf : Conf) (opt : Item) : (iaData conf opt).length = 12 := by
  simp [iaData, be32]

lemma length_iaAddrData (addr : In6Addr) (pref valid : ℤ) :
    (iaAddrData addr pref valid).length = 24 := by
  simp [iaAddrData, be32]

lemma length_iaPrefixData (addr : In6Addr) (n : UInt8) (pref valid : ℤ) :
    (iaPrefixData addr n pref valid).length = 25 := by
  simp [iaPrefixData, be32]

/-! ### The parts of a reply -/

lemma keeps_insertStatus {status : Status} :
    Keeps h pre rels path (insertStatus env path status) :=
  keeps_leaf (by decide) (length_toBytes ..) fun _ ↦ keeps_pure

lemma keeps_insertDns : Keeps h pre rels [] (insertDns env) := by
  refine keeps_get fun s ↦ .ite (fun _ ↦ ?_) fun _ ↦ keeps_pure
  refine keeps_leaf (by decide) ?_ fun _ ↦ keeps_pure
  simp [length_flatMap, map_const']

variable (type : ReplyType) (opt : Item) (dp : List IpAddr) (relays : List Relay)
  (serverid clientid : List UInt8)

lemma keeps_insertOro : Keeps h pre rels [] (insertOro env opt) := by
  refine .forEach fun c _ ↦ .ite (fun _ ↦ keeps_insertDns) fun _ ↦ .ite (fun _ ↦ ?_) fun _ ↦
    .ite (fun _ ↦ ?_) fun _ ↦ keeps_pure
  all_goals exact .ite (fun _ ↦ keeps_leaf (by decide) rfl fun _ ↦ keeps_pure) fun _ ↦ keeps_pure

lemma keeps_insertAddrs {addrs : List (IpAddr × ℕ)} :
    Keeps h pre rels path (insertAddrs env path addrs) := by
  refine .forEach fun (a, i) _ ↦ keeps_get fun s ↦ ?_
  refine keeps_node (by decide) (length_iaAddrData ..) fun _ ↦ keeps_modify fun t ↦ ?_
  split <;> rfl

lemma keeps_rejectAddrs : Keeps h pre rels path (rejectAddrs env path opt) := by
  refine .forEach fun sub _ ↦ keeps_get fun s ↦ .ite (fun _ ↦ keeps_pure) fun _ ↦ ?_
  exact keeps_node (by decide) (length_iaAddrData ..) fun _ ↦ keeps_insertStatus

lemma keeps_insertPrefixes : Keeps h pre rels path (insertPrefixes env path dp) :=
  .forEach fun _ _ ↦ keeps_node (by decide) (length_iaPrefixData ..) fun _ ↦ keeps_pure

lemma keeps_rejectPrefixes {opt : Item} :
    Keeps h pre rels path (rejectPrefixes env path dp opt) := by
  refine .forEach fun sub _ ↦ .ite (fun _ ↦ keeps_pure) fun _ ↦ ?_
  exact keeps_node (by decide) (length_iaPrefixData ..) fun _ ↦ keeps_insertStatus

lemma keeps_delegate : Keeps h pre rels path (delegate env) := by
  refine keeps_get fun s ↦ ?_
  split
  · exact keeps_pure
  · split
    · refine bind (keeps_modify fun _ ↦ ?_) fun _ ↦ keeps_pure
      rfl
    · exact keeps_fail

lemma keeps_replyIaNa {f : Bool} {opt : Item} :
    Keeps h pre rels [] (replyIaNa env type f opt) := by
  refine keeps_node (by decide) (length_iaData ..) fun o ↦ keeps_get fun s ↦ ?_
  refine .ite (fun _ ↦ ?_) fun _ ↦ .ite (fun _ ↦ ?_) fun _ ↦ ?_
  iterate 2
    · exact keeps_insertStatus.bind fun _ ↦ keeps_pure
  · refine (keeps_modify fun s ↦ ?_).bind fun _ ↦ keeps_insertAddrs.bind fun _ ↦ ?_
    · split <;> rfl
    · refine .ite (fun _ ↦ ?_) fun _ ↦ keeps_pure
      exact (keeps_rejectAddrs opt).bind fun _ ↦ keeps_pure

lemma keeps_replyIaPd {f2 : Bool} {opt : Item} :
    Keeps h pre rels [] (replyIaPd env type f2 opt) := by
  refine keeps_node (by decide) (length_iaData ..) fun o ↦
    bind keeps_delegate fun dp ↦ keeps_get fun s ↦ ?_
  refine .ite (fun _ ↦ ?_) fun _ ↦ .ite (fun _ ↦ ?_) fun _ ↦ ?_
  iterate 2
    · exact keeps_insertStatus.bind fun _ ↦ keeps_pure
  · refine (keeps_modify fun s ↦ ?_).bind fun _ ↦ (keeps_insertPrefixes dp).bind fun _ ↦ ?_
    · split <;> rfl
    · refine .ite (fun _ ↦ ?_) fun _ ↦ keeps_pure
      exact (keeps_rejectPrefixes dp).bind fun _ ↦ keeps_pure

lemma keeps_replyIaTa : Keeps h pre rels [] (replyIaTa env opt) :=
  keeps_node (by decide) Vector.length_toList fun _ ↦ keeps_insertStatus

variable {f : Bool × Bool}

lemma keeps_replyOption {opt : Item} : Keeps h pre rels [] (replyOption env type f opt) := by
  refine .ite (fun _ ↦ .ite (fun _ ↦ keeps_pure) fun _ ↦ ?_) fun _ ↦
    .ite (fun _ ↦ .ite (fun _ ↦ keeps_pure) fun _ ↦ ?_) fun _ ↦
    .ite (fun _ ↦ .ite (fun _ ↦ keeps_pure) fun _ ↦ ?_) fun _ ↦
    .ite (fun _ ↦ ?_) fun _ ↦ keeps_pure
  · exact (keeps_replyIaNa type).bind fun _ ↦ keeps_pure
  · exact (keeps_replyIaPd type).bind fun _ ↦ keeps_pure
  · exact (keeps_replyIaTa opt).bind fun _ ↦ keeps_pure
  · exact (keeps_insertOro opt).bind fun _ ↦ keeps_pure

lemma keeps_confirmAddrs {f : Bool} {opt : Item} :
    Keeps h pre rels path (confirmAddrs env path f opt) := by
  refine fold (fun _ (s : St) ↦ Built h pre rels path s.reply)
    (fun _ sub _ ↦ keeps_get fun s ↦ ?_) _
  refine keeps_node (by decide) ?_ fun _ ↦ .ite (fun _ ↦ keeps_pure) fun _ ↦ keeps_fail
  split <;> exact length_iaAddrData ..

lemma keeps_confirmPrefixes {f2 : Bool} {dp : List IpAddr} {opt : Item} :
    Keeps h pre rels path (confirmPrefixes env path f2 dp opt) := by
  refine fold (fun _ (s : St) ↦ Built h pre rels path s.reply) (fun _ sub _ ↦ ?_) _
  refine keeps_node (by decide) ?_ fun _ ↦ .ite (fun _ ↦ keeps_pure) fun _ ↦ keeps_fail
  split <;> exact length_iaPrefixData ..

lemma keeps_rebindOption {opt : Item} : Keeps h pre rels [] (rebindOption env f opt) := by
  refine .ite (fun _ ↦ ?_) fun _ ↦ .ite (fun _ ↦ ?_) fun _ ↦ .ite (fun _ ↦ ?_) fun _ ↦ keeps_pure
  · refine keeps_node (by decide) (length_iaData ..) fun o ↦
      keeps_confirmAddrs.bind fun _ ↦ .ite (fun _ ↦ ?_) fun _ ↦ keeps_pure
    refine bind (keeps_modify fun _ ↦ ?_) fun _ ↦ keeps_pure
    rfl
  · refine keeps_node (by decide) (length_iaData ..) fun o ↦ bind keeps_delegate fun dp ↦
      keeps_confirmPrefixes.bind fun _ ↦ .ite (fun _ ↦ ?_) fun _ ↦ keeps_pure
    refine bind (keeps_modify fun _ ↦ ?_) fun _ ↦ keeps_pure
    rfl
  · exact (keeps_insertOro opt).bind fun _ ↦ keeps_pure

/-! ### The beginning of a reply -/

/-- Where the relay headers are, from the address `h` on. -/
def place : ℕ → List Relay → List (ℕ × Relay)
  | _, [] => []
  | h, rel :: rels => (h, rel) :: place (h + 38) rels

/-- There is a beginning, and nothing more. -/
structure Begun (h : ℕ) (pre : List UInt8) (rels : List (ℕ × Relay)) (r : Reply) : Prop
    extends Placed h rels r where
  room : r.endptr ≤ bufSize
  begins : slice r.mem h pre.length = pre
  endptr : r.endptr = h + pre.length

lemma Begun.built (hr : Begun h pre rels r) : Built h pre rels [] r := by
  refine ⟨hr.toPlaced, hr.room, hr.begins, [], ?_, ?_, nofun⟩
  · rw [hr.endptr]
  · rw [hr.endptr, Nat.sub_self]
    rfl

/-- One of the two identifiers becomes part of the beginning. -/
lemma begun_put (hlen : data.length = len) :
    Triple (fun s ↦ Begun h pre rels s.reply) (put env [] code len data)
      (fun _ s ↦ Begun h (pre ++ (Item.mk code data []).encode) rels s.reply) Inside := by
  refine (put_spec _ fun r hr ↦ hr.inside).mono (fun _ hs ↦ hs) ?_
  rintro p s ⟨r, hr, hroom, -, hs⟩
  rw [hs, hr.built.added_eq hroom hlen]
  subst hlen
  obtain ⟨-, hcode, hlen, hdata, -⟩ := hr.built.items.add (by unfold bufSize at hroom; omega)
    code data
  have hitem : slice (Tlv.add r.mem r.endptr [] code data) r.endptr (4 + data.length) =
      (Item.mk code data []).encode := by
    rw [slice_add _ r.endptr 4, slice_add _ r.endptr 2 2, hcode, hlen, hdata, Item.encode,
      encodeAll, append_nil, length_nil, add_zero]
  have hsize : (Item.mk code data []).encode.length = 4 + data.length := by
    rw [← hitem, length_slice]
  refine ⟨{ hr with }, hroom, ?_, ?_⟩
  · rw [length_append, slice_add, hr.built.pre_add, hsize, ← hr.endptr, hitem]
  · rw [length_append, hsize, hr.endptr]
    exact add_assoc ..

/-- The relay headers have their room. -/
structure Reserved (h : ℕ) (rels : List (ℕ × Relay)) (r : Reply) : Prop
    extends Placed h rels r where
  room : h + 4 ≤ bufSize

lemma allocRelays_spec :
    Triple (fun s ↦ Reserved h rels s.reply) (allocRelays relays)
      (fun _ s ↦ Reserved (h + 38 * relays.length) (rels ++ place h relays) s.reply) Inside := by
  induction relays generalizing h rels with
  | nil =>
    refine .pure fun s hs ↦ ?_
    rw [place, append_nil]
    exact hs
  | cons rel relays ih =>
    refine bind (R := fun _ s ↦ Reserved (h + 38) (rels ++ [(h, rel)]) s.reply) ?_ fun _ ↦ ?_
    · refine .get fun s hs ↦ .ite (fun _ ↦ ?_) fun hroom ↦ .modify fun t ht ↦ ?_
      · exact refuse_spec fun t ht ↦ by rw [ht]; exact hs.inside
      · rw [ht]
        rw [hs.hdr] at hroom
        refine ⟨⟨hs.inside, hs.accepted, congrArg (· + 38) hs.hdr, ?_⟩, by omega⟩
        show s.reply.relays ++ [(s.reply.hdr, rel)] = _
        rw [hs.relays, hs.hdr]
    · refine ih.mono (fun _ hs ↦ hs) fun _ s hs ↦ ?_
      rw [append_assoc] at hs
      have hh : h + 38 + 38 * relays.length = h + 38 * (rel :: relays).length := by
        rw [length_cons]
        omega
      exact hh ▸ hs

/-- The bytes that a message to the client begins with. -/
def beginning (req : Packet) (type : ReplyType) (serverid clientid : List UInt8) : List UInt8 :=
  type.toByte :: req.transId.toList ++ (Item.mk Code.serverid serverid []).encode ++
    (Item.mk Code.clientid clientid []).encode

lemma packetAllocReply_spec :
    Triple Inside (packetAllocReply env type serverid clientid)
      (fun _ s ↦ Built (38 * env.req.relays.length) (beginning env.req type serverid clientid)
        (place 0 env.req.relays) [] s.reply) Inside := by
  refine bind (malloc_spec fun _ hr ↦ hr) fun _ ↦ ?_
  refine bind (R := fun _ s ↦ Reserved 0 [] s.reply) (.modify fun s _ ↦ ?_) fun _ ↦ ?_
  · exact ⟨⟨rfl, rfl, rfl, rfl⟩, by decide⟩
  refine bind (allocRelays_spec env.req.relays) fun _ ↦ ?_
  rw [zero_add]
  refine bind (R := fun _ s ↦ Begun (38 * env.req.relays.length)
    (type.toByte :: env.req.transId.toList) (place 0 env.req.relays) s.reply)
    (.modify fun s hs ↦ ?_) fun _ ↦ ?_
  · have hlen : (type.toByte :: env.req.transId.toList).length = 4 := by
      rw [length_cons, Vector.length_toList]
    have hroom := hs.room
    refine ⟨⟨?_, hs.accepted, hs.hdr, hs.relays⟩, ?_, ?_, ?_⟩
    · show (s.reply.outside || decide (bufSize < s.reply.hdr + _)) = false
      rw [hs.inside, hs.hdr, decide_eq_false (by omega)]
      rfl
    · show s.reply.hdr + 4 ≤ bufSize
      rw [hs.hdr]
      exact hroom
    · show slice (write s.reply.mem s.reply.hdr _) _ _ = _
      rw [hs.hdr]
      exact slice_write_self ..
    · show s.reply.hdr + 4 = _
      rw [hs.hdr, hlen]
  refine bind (begun_put rfl) fun _ ↦ bind (begun_put rfl) fun _ ↦ .pure fun s hs ↦ ?_
  exact hs.built

/-! ### Relay headers -/

/-- A message inside of relay headers, the outermost first. -/
def encodeRelays : List Relay → List UInt8 → List UInt8
  | [], msg => msg
  | rel :: rels, msg => relayHeader rel ++ (toBytes 2 Code.relayMsg ++
      toBytes 2 (encodeRelays rels msg).length ++ encodeRelays rels msg)

lemma length_relayHeader {rel : Relay} : (relayHeader rel).length = 34 := by
  simp [relayHeader]

/-- The relay headers that have their place in front of the message are filled in. -/
lemma foldl_fillRelay {o : ℕ} (hh : o + 38 * relays.length = h) (hend : h ≤ r.endptr)
    (hroom : r.endptr ≤ bufSize) :
    ∃ m, (place o relays).foldl (fun r rel ↦ r.fillRelay rel.1 rel.2) r = { r with mem := m } ∧
      (∀ i < o, m i = r.mem i) ∧
      slice m o (r.endptr - o) = encodeRelays relays (slice r.mem h (r.endptr - h)) := by
  induction relays generalizing o r with
  | nil =>
    obtain rfl : o = h := hh
    exact ⟨r.mem, rfl, fun _ _ ↦ rfl, rfl⟩
  | cons rel relays ih =>
    rw [length_cons] at hh
    rw [place, foldl_cons, Reply.fillRelay, Reply.store]
    generalize hbs : relayHeader rel ++
      (toBytes 2 Code.relayMsg ++ toBytes 2 _) = bs
    have hlen : bs.length = 38 := by
      rw [← hbs]
      simp [length_relayHeader]
    rw [decide_eq_false (by omega), Bool.or_false]
    obtain ⟨m, hm, hbefore, hslice⟩ := ih (o := o + 38)
      (r := { r with mem := write r.mem o bs }) (by omega) hend hroom
    have hmsg : slice (write r.mem o bs) h (r.endptr - h) = slice r.mem h (r.endptr - h) :=
      slice_write_outside (.inr (by omega))
    rw [hmsg] at hslice
    have hinner : (encodeRelays relays (slice r.mem h (r.endptr - h))).length =
        r.endptr - (o + 38) := by
      rw [← hslice, length_slice]
    have hhead : slice m o 38 = bs :=
      (slice_congr fun i _ hi ↦ hbefore i hi).trans (slice_write_of_length hlen)
    refine ⟨m, hm, fun i hi ↦ (hbefore i (by omega)).trans (write_before hi), ?_⟩
    rw [show r.endptr - o = 38 + (r.endptr - (o + 38)) by omega, slice_add, hhead, hslice, ← hbs,
      encodeRelays, hinner]
    simp only [append_assoc]

lemma bytesAt_append {n : ℕ} (off : ℕ) {l : List UInt8} (hoff : l.length = off)
    (v) (rest : List UInt8) : bytesAt (l ++ (v.toList ++ rest)) off n = v := by
  subst hoff
  refine Vector.ext fun i hi ↦ ?_
  have hget : (l ++ (v.toList ++ rest))[l.length + i]? = some v[i] := by
    rw [getElem?_append_right (Nat.le_add_right ..), Nat.add_sub_cancel_left,
      getElem?_append_left (by rwa [Vector.length_toList])]
    simp [hi]
  simp [bytesAt, getD, hget]

lemma relayAt_append (rel : Relay) (rest : List UInt8) : relayAt (relayHeader rel ++ rest) =
    rel := by
  have hlink := bytesAt_append 2 (l := [relayRepl, rel.hopCnt]) rfl rel.linkAddr
    (rel.peerAddr.toList ++ rest)
  have hpeer := bytesAt_append 18 (l := relayRepl :: rel.hopCnt :: rel.linkAddr.toList) (by simp)
    rel.peerAddr rest
  rw [relayAt, relayHeader]
  simp only [append_assoc, cons_append, nil_append] at hlink hpeer ⊢
  rw [hlink, hpeer]
  rfl

/-- **Relay headers are taken off again.** -/
theorem parseReply_encodeRelays {msg : List UInt8} {m : Message}
    (hm : ∀ fuel, parseReply (fuel + 1) msg = some m)
    (hlen : (encodeRelays relays msg).length < 65536) (fuel : ℕ) :
    parseReply (fuel + 1 + relays.length) (encodeRelays relays msg) =
      some { m with relays := relays ++ m.relays } := by
  induction relays with
  | nil => exact hm fuel
  | cons rel relays ih =>
    rw [encodeRelays] at hlen ⊢
    simp only [length_append, length_toBytes, length_relayHeader] at hlen
    have hinner : (encodeRelays relays msg).length < 65536 := by omega
    have hcut := cut_append (show Code.relayMsg < 65536 by decide) hinner []
    rw [append_nil] at hcut
    have hhead : (relayHeader rel ++ (toBytes 2 Code.relayMsg ++
        toBytes 2 (encodeRelays relays msg).length ++ encodeRelays relays msg)).head? =
          some relayRepl := rfl
    rw [length_cons, ← add_assoc, parseReply]
    simp only [length_append, length_toBytes, length_relayHeader]
    rw [if_neg (by omega), if_pos hhead, if_neg (by omega), drop_left' length_relayHeader, hcut]
    dsimp only
    rw [ih hinner, relayAt_append]
    rfl

/-! ### What is sent -/

/-- A reply to the request that is within its buffer and can be taken apart, with all lengths right
and the relay headers of the request around it. -/
def WellFormed (req : Packet) (type : ReplyType) (serverid clientid b : List UInt8) : Prop :=
  b.length ≤ bufSize ∧ ∃ opts, (∀ opt ∈ opts, Allowed opt.code) ∧ parseReply (b.length + 1) b =
    some {
      relays := req.relays, type := type.toByte, transId := req.transId
      opts := ⟨Code.serverid, serverid, []⟩ :: ⟨Code.clientid, clientid, []⟩ :: opts }

lemma length_encodeRelays (msg : List UInt8) :
    (encodeRelays relays msg).length = 38 * relays.length + msg.length := by
  induction relays with
  | nil => simp [encodeRelays]
  | cons rel relays ih =>
    simp only [encodeRelays, length_append, length_relayHeader, length_toBytes, ih, length_cons]
    omega

/-- The message, without relay headers. -/
lemma parseReply_message (req : Packet) (type : ReplyType) (serverid clientid : List UInt8)
    {opts : List Item} (hfits : ∀ opt ∈ opts, Fits nest opt)
    (hlen : (beginning req type serverid clientid ++ encodeAll opts).length < 65536) (fuel : ℕ) :
    parseReply (fuel + 1) (beginning req type serverid clientid ++ encodeAll opts) =
      some {
        relays := [], type := type.toByte, transId := req.transId
        opts := ⟨Code.serverid, serverid, []⟩ :: ⟨Code.clientid, clientid, []⟩ :: opts } := by
  generalize hitems : (⟨Code.serverid, serverid, []⟩ : Item) :: ⟨Code.clientid, clientid, []⟩ ::
    opts = items
  have hmsg : beginning req type serverid clientid ++ encodeAll opts =
      (type.toByte :: req.transId.toList) ++ encodeAll items := by
    simp only [← hitems, beginning, encodeAll, append_assoc, cons_append]
  have hhdr : (type.toByte :: req.transId.toList).length = 4 := by simp
  have hsizes : serverid.length < 65536 ∧ clientid.length < 65536 := by
    rw [hmsg] at hlen
    simp only [← hitems, encodeAll, Item.encode, length_append, length_toBytes] at hlen
    omega
  have hall : ∀ opt ∈ items, Fits nest opt := by
    rw [← hitems, forall_mem_cons, forall_mem_cons]
    exact ⟨.leaf (by decide) hsizes.1 rfl, .leaf (by decide) hsizes.2 rfl, hfits⟩
  have htype : (type.toByte :: req.transId.toList ++ encodeAll items).head? ≠ some relayRepl := by
    show some type.toByte ≠ some relayRepl
    cases type <;> decide
  have htrans := bytesAt_append 1 (l := [type.toByte]) rfl req.transId
    (encodeAll items)
  rw [hmsg] at hlen ⊢
  rw [parseReply, if_neg (by rw [length_append]; omega), if_neg htype,
    drop_left' hhdr, decode_encodeAll (by rw [length_append]; omega) hall]
  simp only [cons_append, nil_append] at htrans ⊢
  rw [htrans]
  rfl

/-- A reply that is complete, when its relay headers have been filled in. -/
lemma Built.filled {req : Packet} {type : ReplyType} {serverid clientid : List UInt8}
    (hr : Built (38 * req.relays.length) (beginning req type serverid clientid) (place 0 req.relays)
      [] r) :
    WellFormed req type serverid clientid r.fillRelayInfo.bytes ∧ r.fillRelayInfo.outside = false ∧
      r.fillRelayInfo.refused = false := by
  obtain ⟨opts, hle, hopts, hfits⟩ := hr.items
  have hend : 38 * req.relays.length ≤ r.endptr := by omega
  have hroom := hr.room
  obtain ⟨m, hm, -, hslice⟩ := foldl_fillRelay req.relays (zero_add _) hend hroom
  have hmsg : slice r.mem (38 * req.relays.length) (r.endptr - 38 * req.relays.length) =
      beginning req type serverid clientid ++ encodeAll opts := by
    rw [show r.endptr - 38 * req.relays.length = (beginning req type serverid clientid).length +
      (r.endptr -
        (38 * req.relays.length + (beginning req type serverid clientid).length)) by omega,
      slice_add, hr.begins, hopts]
  have hfill : r.fillRelayInfo = { r with mem := m, hdr := 0 } := by
    have hhdr := hr.hdr
    rw [← hr.relays] at hm
    unfold Reply.fillRelayInfo
    rw [hm, hr.relays]
    -- the first relay header, or the message if there is none, is at the beginning of the buffer
    cases hreq : req.relays with
    | nil =>
      rw [hhdr, hreq]
      rfl
    | cons => rfl
  have hbytes : r.fillRelayInfo.bytes =
      encodeRelays req.relays (beginning req type serverid clientid ++ encodeAll opts) := by
    rw [hfill, ← hmsg, ← hslice]
    rfl
  have hlen : r.fillRelayInfo.bytes.length = r.endptr := by
    rw [hfill]
    exact length_slice ..
  refine ⟨⟨by omega, opts, fun opt hopt ↦ (hfits opt hopt).2, ?_⟩, ?_, ?_⟩
  · have hsize := hlen
    rw [hbytes, length_encodeRelays] at hsize
    unfold bufSize at hroom
    have hparse := parseReply_encodeRelays req.relays (parseReply_message req type serverid clientid
      (fun opt hopt ↦ (hfits opt hopt).1) (by omega)) (by rw [length_encodeRelays]; omega)
      (r.endptr - req.relays.length)
    rw [hlen, show r.endptr + 1 = r.endptr - req.relays.length + 1 + req.relays.length by omega,
      hbytes, hparse, append_nil]
  · rw [hfill]
    exact hr.inside
  · rw [hfill]
    exact hr.accepted

/-- **What is sent** when a reply is complete. -/
theorem sendPacket_spec :
    Triple (fun s ↦ Built (38 * env.req.relays.length) (beginning env.req type serverid clientid)
        (place 0 env.req.relays) [] s.reply) (sendPacket env)
      (fun b s ↦ WellFormed env.req type serverid clientid b ∧ Inside s ∧ s.reply.refused = false)
      Inside := by
  refine bind (R := fun _ s ↦ Built (38 * env.req.relays.length)
    (beginning env.req type serverid clientid) (place 0 env.req.relays) [] s.reply) ?_ fun _ ↦ ?_
  · exact keeps_put (by decide) rfl
  refine bind (R := fun _ s ↦ WellFormed env.req type serverid clientid s.reply.bytes ∧
    Inside s ∧ s.reply.refused = false) (.modify fun s hs ↦ ?_) fun _ ↦
      .get fun s hs ↦ .pure fun t ht ↦ ?_
  · exact hs.filled
  · rw [ht]
    exact hs

/-- A reply has been sent, with the given Server-ID. -/
def Sent (env : Env) (serverid b : List UInt8) (s : St) : Prop :=
  (∃ type clientid, WellFormed env.req type serverid clientid b) ∧ Inside s ∧
    s.reply.refused = false

lemma sendReply_spec :
    Triple Inside (sendReply env type serverid clientid) (Sent env serverid) Inside := by
  have hsend := (sendPacket_spec type serverid clientid).mono (R := Sent env serverid)
    (fun _ hs ↦ hs) fun b s hs ↦ ⟨⟨type, clientid, hs.1⟩, hs.2⟩
  refine bind (packetAllocReply_spec type serverid clientid) fun _ ↦ ?_
  refine bind (fold (fun _ (s : St) ↦ Built _ _ _ [] s.reply)
    (fun f opt _ ↦ keeps_replyOption type) _) fun _ ↦ .ite (fun _ ↦ ?_) fun _ ↦ hsend
  refine bind ?_ fun _ ↦ hsend
  exact keeps_put (by decide) rfl

lemma sendReply2_spec :
    Triple Inside (sendReply2 env serverid clientid) (Sent env serverid) Inside := by
  refine bind (packetAllocReply_spec .reply serverid clientid) fun _ ↦ ?_
  refine bind (fold (fun _ (s : St) ↦ Built _ _ _ [] s.reply)
    (fun f opt _ ↦ keeps_rebindOption) _) fun _ ↦ ?_
  exact (sendPacket_spec .reply serverid clientid).mono (fun _ hs ↦ hs) fun b s hs ↦
    ⟨⟨.reply, clientid, hs.1⟩, hs.2⟩

/-! ### The handlers -/

lemma bindClient_spec : Triple Inside (bindClient clientid) (fun _ ↦ Inside) Inside := by
  refine .get fun s hs ↦ ?_
  split
  · exact .modify fun t ht ↦ by rw [ht]; exact hs
  · exact .ite (fun _ ↦ .pure fun t ht ↦ ht ▸ hs) fun _ ↦ .fail fun t ht ↦ ht ▸ hs

lemma checkClient_spec : Triple Inside (checkClient clientid) (fun _ ↦ Inside) Inside :=
  .get fun _ hs ↦ .ite (fun _ ↦ .pure fun _ ht ↦ ht ▸ hs) fun _ ↦ .fail fun _ ht ↦ ht ▸ hs

/-- The Server-ID of the reply: a Request gets back the one it has brought. -/
def repliedServerid (env : Env) : List UInt8 :=
  match env.req.type, env.req.serverid with
  | .request, some serverid => serverid
  | _, _ => env.conf.serverid.toList

lemma fail_spec {α : Type} {Q : α → St → Prop} : Triple Inside Prog.fail Q Inside :=
  .fail fun _ hs ↦ hs

lemma recvPacket_spec : Triple Inside (recvPacket env) (Sent env (repliedServerid env))
    Inside := by
  unfold recvPacket
  cases hcid : env.req.clientid with
  | none => exact fail_spec
  | some clientid =>
    unfold repliedServerid
    cases htype : env.req.type with
    | solicit =>
      refine .ite (fun _ ↦ fail_spec) fun _ ↦ .ite (fun _ ↦ ?_) fun _ ↦ sendReply_spec _ _ _
      exact (bindClient_spec clientid).bind fun _ ↦ sendReply_spec _ _ _
    | request =>
      unfold recvRequest
      cases hsid : env.req.serverid with
      | none => exact fail_spec
      | some serverid => exact (bindClient_spec clientid).bind fun _ ↦ sendReply_spec _ _ _
    | renew =>
      unfold recvRenew
      cases hsid : env.req.serverid with
      | none => exact fail_spec
      | some serverid =>
        refine .ite (fun heq ↦ ?_) fun _ ↦ fail_spec
        subst heq
        exact (checkClient_spec clientid).bind fun _ ↦ sendReply_spec _ _ _
    | rebind =>
      refine .ite (fun _ ↦ fail_spec) fun _ ↦ ?_
      exact (checkClient_spec clientid).bind fun _ ↦ sendReply2_spec _ _
    | confirm =>
      refine .ite (fun _ ↦ fail_spec) fun _ ↦ ?_
      exact (checkClient_spec clientid).bind fun _ ↦ sendReply_spec _ _ _
    | informationRequest => exact .ite (fun _ ↦ fail_spec) fun _ ↦ sendReply_spec _ _ _
    | _ => exact fail_spec

/-- **Replies are well formed and in bounds**: no byte is written outside of the buffer; and if a
reply is sent, the datagram was accepted, there was room for everything, and the reply can be taken
apart with every length right, inside of the relay headers of the request. -/
theorem read_wellFormed (conf : Conf) (b : Bound) (g : Datagram) :
    match read conf b g with
    | (none, s) => s.reply.outside = false
    | (some bytes, s) => s.reply.outside = false ∧ s.reply.refused = false ∧
        bytes.length ≤ bufSize ∧ ∃ req m, packetParse g.buf = some req ∧
          parseReply (bytes.length + 1) bytes = some m ∧ m.relays = req.relays := by
  unfold read
  cases g.fromClient with
  | false => rfl
  | true =>
    cases hparse : packetParse g.buf with
    | none => rfl
    | some req =>
      have hspec := @recvPacket_spec (g.surroundings conf req)
        { reply := { mem := g.garbage }, pd := b.pd, ses := b.ses } rfl
      dsimp only
      generalize recvPacket (g.surroundings conf req)
        { reply := { mem := g.garbage }, pd := b.pd, ses := b.ses } = r at hspec ⊢
      obtain ⟨_ | bytes, s⟩ := r
      · exact hspec
      · obtain ⟨⟨type, clientid, hlen, opts, -, hm⟩, hinside, hrefused⟩ := hspec
        exact ⟨hinside, hrefused, hlen, req, _, rfl, hm, rfl⟩

end AccelPpp.Dhcpv6
