import AccelPpp.Triton.ConfFile

/-!
# What a load loses

`load_file` looks for the section of a header before it has cut off the closing bracket, so it never
finds one: each header opens a section of its own, and a lookup sees the first with the name. When
an include fails, the loop is left as at the end of the file, so that zero is returned; and a
closing brace ends the file that it is in if it closes no block there.

`outline` reads off the files which options are written in which sections. Of trees of plain files,
with neither blocks nor references, `plain_whole` says when all of it is stored, and
`repeated_sections` when a lookup finds what is written in any section of the name.
-/

open Function List Option

namespace AccelPpp.Triton.Conf

/-! ### What the files say -/

/-- The names and the values of options. -/
abbrev Body := List (Text × Option Text)

/-- The options in front of the first header, and the sections. -/
abbrev Outline := Body × List (Text × Body)

set_option synthInstance.maxSize 256 in
instance : DecidableEq Outline := inferInstance

/-- What the lines of a file say. What an included file says comes in its place. -/
def outlineLines (inc : Text → Option Outline) : List Text → Option Outline
  | [] => some ([], [])
  | buf :: rest => (outlineLines inc rest).bind fun (opts, sects) ↦
    match parseLine buf with
    | .skip => some (opts, sects)
    | .includes file => (inc file).map fun (opts', sects') ↦ (opts' ++ opts, sects' ++ sects)
    | .header str => some ([], (str.takeWhile (· ≠ ']'), opts) :: sects)
    | .option str => some (splitOption str :: opts, sects)

/-- The same of a file; `none` if it cannot be opened or something that it includes cannot. -/
def outline (files : Text → Option Text) : ℕ → Text → Option Outline
  | 0, _ => none
  | fds + 1, fname => (files fname).bind fun text ↦
      outlineLines (outline files fds) (fgets [] 0 text)

/-- Headers are closed. Options stand behind a header, unless one has been `opened` before, neither
open nor close a block, and do not refer to others. -/
def plainLines (inc : Bool → Text → Bool) : Bool → List Text → Bool
  | _, [] => true
  | opened, buf :: rest =>
    match parseLine buf with
    | .skip => plainLines inc opened rest
    | .includes file => inc opened file && plainLines inc opened rest
    | .header str => ']' ∈ str && plainLines inc true rest
    | .option str => (opened && str.head? ≠ some '}' &&
        ((splitOption str).2.bind parentName).isNone && !opensBlock (splitOption str).2) &&
        plainLines inc opened rest

/-- The same of a file and of those that it includes. -/
def plain (files : Text → Option Text) : ℕ → Bool → Text → Bool
  | 0, _, _ => true
  | fds + 1, opened, fname => (files fname).all fun text ↦
      plainLines (plain files fds) opened (fgets [] 0 text)

/-- What is stored on a list. -/
def body (s : Conf) (list : ℕ) : Body :=
  ((s.heap list).getD []).map fun opt ↦ (opt.name, opt.val)

/-- What is stored in the sections. -/
def bodies (s : Conf) (sections : List ConfSect) : List (Text × Body) :=
  sections.map fun sect ↦ (sect.name, s.body sect.items)

/-! ### What is stored -/

variable {conf : Option ℕ → Text → Conf → Outcome × Conf} {inc : Text → Option Outline}
  {plainFile : Bool → Text → Bool} {files : Text → Option Text} {fds n : ℕ} {items : Option ℕ}
  {fname : Text} {lines : List Text} {s s' s'' : Conf} {out out' : Outline}

/-- No name has a closing bracket, and options can be added to the list that is being read. -/
structure Ready (items : Option ℕ) (s : Conf) : Prop where
  names : ∀ sect ∈ s.sections, ']' ∉ sect.name
  items : ∀ list ∈ items, list < s.next ∧ (s.heap list).isSome ∧ s.curSect.isSome

/-- **What has been added**: options to the list that is being read, and sections with options. -/
structure Adds (items : Option ℕ) (out : Outline) (s s' : Conf) : Prop where
  next_le : s.next ≤ s'.next
  cur : s.curSect.isSome → s'.curSect.isSome
  heap : ∀ list < s.next, list ∉ items → s'.heap list = s.heap list
  front : items = none → out.1 = []
  own : ∀ list ∈ items, (s'.heap list).isSome ∧ s'.body list = s.body list ++ out.1
  sections : ∃ new, s'.sections = s.sections ++ new ∧ s'.bodies new = out.2 ∧
    ∀ sect ∈ new, ']' ∉ sect.name ∧ s.next ≤ sect.items ∧ sect.items < s'.next

lemma Adds.refl (h : Ready items s) : Adds items ([], []) s s where
  next_le := le_rfl
  cur := id
  heap _ _ _ := rfl
  front _ := rfl
  own list hlist := ⟨(h.items list hlist).2.1, (append_nil _).symm⟩
  sections := ⟨[], (append_nil _).symm, rfl, by simp⟩

lemma Ready.adds (h : Ready items s) (hadds : Adds items out s s') : Ready items s' where
  names := by
    obtain ⟨new, hnew, -, hlt⟩ := hadds.sections
    rw [hnew]
    exact forall_mem_append.mpr ⟨h.names, fun sect hsect ↦ (hlt sect hsect).1⟩
  items list hlist := by
    obtain ⟨hlt, -, hcur⟩ := h.items list hlist
    exact ⟨hlt.trans_le hadds.next_le, (hadds.own list hlist).1, hadds.cur hcur⟩

lemma Adds.trans (hready : Ready items s) (h : Adds items out s s') (h' : Adds items out' s' s'') :
    Adds items (out.1 ++ out'.1, out.2 ++ out'.2) s s'' where
  next_le := h.next_le.trans h'.next_le
  cur hcur := h'.cur (h.cur hcur)
  heap list hlt hne := (h'.heap list (hlt.trans_le h.next_le) hne).trans (h.heap list hlt hne)
  front hnone := append_eq_nil_iff.mpr ⟨h.front hnone, h'.front hnone⟩
  own list hlist := by
    refine ⟨(h'.own list hlist).1, ?_⟩
    rw [(h'.own list hlist).2, (h.own list hlist).2, append_assoc]
  sections := by
    obtain ⟨new, hnew, hbodies, hlt⟩ := h.sections
    obtain ⟨new', hnew', hbodies', hlt'⟩ := h'.sections
    refine ⟨new ++ new', ?_, ?_, forall_mem_append.mpr ⟨fun sect hsect ↦ ?_, fun sect hsect ↦ ?_⟩⟩
    · rw [hnew', hnew, append_assoc]
    · -- the lists of the first sections are not touched any more
      have hsame : s''.bodies new = s'.bodies new := map_congr_left fun sect hsect ↦ by
        obtain ⟨-, hle, hlt⟩ := hlt sect hsect
        rw [body, body, h'.heap _ hlt fun hf ↦ Nat.not_le_of_lt (hready.items _ hf).1 hle]
      rw [← hbodies, ← hbodies', ← hsame]
      exact map_append
    · obtain ⟨hname, hle, hlt⟩ := hlt sect hsect
      exact ⟨hname, hle, hlt.trans_le h'.next_le⟩
    · obtain ⟨hname, hle, hlt⟩ := hlt' sect hsect
      exact ⟨hname, h.next_le.trans hle, hlt⟩

lemma createSect_self (s : Conf) (name : Text) : (s.createSect name).heap s.next = some [] :=
  update_self ..

/-- The list of a new section can be added to. -/
lemma ready_createSect {name : Text} (h : Ready items s) (hname : ']' ∉ name) :
    Ready (some s.next) (s.createSect name) where
  names := forall_mem_append.mpr ⟨h.names, forall_mem_singleton.mpr hname⟩
  items list hlist := by
    obtain rfl := mem_some.mp hlist
    exact ⟨Nat.lt_succ_self _, by rw [createSect_self]; rfl, rfl⟩

/-- A section is opened, and read to the end. -/
lemma Adds.header {name : Text} (hready : Ready items s) (hname : ']' ∉ name)
    (h : Adds (some s.next) out (s.createSect name) s') :
    Adds items ([], (name, out.1) :: out.2) s s' := by
  have hold (list : ℕ) (hlt : list < s.next) : s'.heap list = s.heap list :=
    (h.heap list (Nat.lt_succ_of_lt hlt) fun hf ↦ Nat.ne_of_gt hlt (mem_some.mp hf)).trans
      (update_of_ne (Nat.ne_of_lt hlt) ..)
  obtain ⟨new, hnew, hbodies, hlt⟩ := h.sections
  have hnext := (Nat.le_succ s.next).trans h.next_le
  refine ⟨hnext, fun _ ↦ h.cur rfl, fun list hlt _ ↦ hold list hlt, fun _ ↦ rfl,
    fun list hlist ↦ ?_, ⟨name, s.next⟩ :: new, ?_, ?_,
    forall_mem_cons.mpr ⟨⟨hname, le_rfl, h.next_le⟩, ?_⟩⟩
  · obtain ⟨hlt, hsome, -⟩ := hready.items list hlist
    rw [hold list hlt, append_nil, body, body, hold list hlt]
    exact ⟨hsome, rfl⟩
  · rw [hnew]
    exact append_assoc ..
  · have hown : s'.body s.next = out.1 := by
      rw [(h.own s.next rfl).2, body, createSect_self]
      rfl
    rw [← hbodies, ← hown]
    rfl
  · exact fun sect hsect ↦ (hlt sect hsect).imp_right (And.imp_left (Nat.le_succ _).trans)

/-- An option is stored. -/
lemma adds_option {list : ℕ} (hready : Ready (some list) s) (opt : Text × Option Text)
    (raw : Text) : Adds (some list) ([opt], []) s (s.addTail list opt.1 opt.2 raw) := by
  obtain ⟨hlt, hsome, -⟩ := hready.items list rfl
  obtain ⟨opts, hopts⟩ := isSome_iff_exists.mp hsome
  have hheap (other : ℕ) (hlt : other < s.next) : (s.addTail list opt.1 opt.2 raw).heap other =
      if other = list then some (opts ++ [⟨opt.1, opt.2, raw, s.next⟩]) else s.heap other := by
    rw [addTail, hopts]
    exact (update_of_ne (Nat.ne_of_lt hlt) ..).trans (update_apply ..)
  refine ⟨Nat.le_succ _, id, fun other hother hne ↦ ?_, nofun, fun other hother ↦ ?_, [],
    (append_nil _).symm, rfl, nofun⟩
  · rw [hheap other hother, if_neg fun heq ↦ hne (congrArg some heq.symm)]
  · obtain rfl := mem_some.mp hother
    rw [body, body, hheap _ hlt, if_pos rfl, hopts]
    simp

lemma loadLine_option {buf str : Text} {list : ℕ} (hline : parseLine buf = .option str)
    (hcur : s.curSect.isSome) (hbrace : str.head? ≠ some '}')
    (href : (splitOption str).2.bind parentName = none)
    (hblock : opensBlock (splitOption str).2 = false) :
    loadLine conf fname n (some list) [] buf s = (.go (some list) [], addTail
      { s with read := s.read ++ [buf] } list (splitOption str).1 (splitOption str).2 str) := by
  have hadd (s : Conf) (sect : ConfSect) : s.addOption sect (some list) str =
      .ok (s.addTail list (splitOption str).1 (splitOption str).2 str, none) := by
    simp [addOption, href, sectAddItem, hblock, cutBrace]
  rw [loadLine, hline]
  dsimp only
  split
  next hnone =>
    rw [hnone] at hcur
    cases hcur
  next => rw [if_neg fun hf ↦ hbrace hf.1, hadd]

/-- Something has been added: what is written, if all of that can be read. -/
def Stores (items : Option ℕ) (written : Option Outline) (s s' : Conf) : Prop :=
  ∃ out, Adds items out s s' ∧ ∀ out' ∈ written, out' = out

/-- **The load of a file succeeds**, and what it says is stored if all of it can be read. By
induction on the lines. -/
theorem loadFile_plain (hconf : ∀ items file s, Ready items s →
      plainFile items.isSome file = true → ∃ s', Stores items (inc file) s s' ∧
        (conf items file s = (.ok, s') ∨ inc file = none ∧ ∃ e, conf items file s = (.error e, s')))
    (h : Ready items s) (hplain : plainLines plainFile items.isSome lines = true) :
    ∃ s', loadFile conf fname n items [] lines s = (.ok, s') ∧
      Stores items (outlineLines inc lines) s s' := by
  induction lines generalizing s items n with
  | nil => exact ⟨s, rfl, _, .refl h, fun out hout ↦ (some.inj hout).symm⟩
  | cons buf rest ih =>
    have hread : Ready items { s with read := s.read ++ [buf] } := ⟨h.names, h.items⟩
    suffices hnext : ∃ s', loadFile conf fname n items [] (buf :: rest) s = (.ok, s') ∧
        Stores items (outlineLines inc (buf :: rest)) { s with read := s.read ++ [buf] } s' from
      hnext.imp fun _ ↦ And.imp_right fun ⟨out, hadds, hall⟩ ↦ ⟨out, { hadds with }, hall⟩
    rw [plainLines] at hplain
    rw [loadFile]
    cases hline : parseLine buf <;> rw [hline] at hplain
    case skip =>
      obtain ⟨s', hload, out, hadds, hall⟩ := ih (n := n + 1) hread hplain
      rw [loadLine, hline]
      exact ⟨s', hload, out, hadds, by grind [outlineLines]⟩
    case includes file =>
      obtain ⟨hinc, hplain⟩ := Bool.and_eq_true_iff.mp hplain
      obtain ⟨t, ⟨out, hadds, hall⟩, hres⟩ := hconf items file _ hread hinc
      rw [loadLine, hline]
      dsimp only
      rcases hres with hres | ⟨hnone, e, hres⟩ <;> rw [hres]
      · obtain ⟨s', hload, out', hadds', hall'⟩ := ih (n := n + 1) (hread.adds hadds) hplain
        refine ⟨s', hload, _, hadds.trans hread hadds', fun _ hout ↦ ?_⟩
        rw [outlineLines, hline] at hout
        obtain ⟨_, hrest, hout⟩ := bind_eq_some_iff.mp hout
        obtain ⟨_, hfile, rfl⟩ := map_eq_some_iff.mp hout
        rw [hall _ hfile, hall' _ hrest]
      · -- the loop is left, as at the end of the file
        exact ⟨t, rfl, out, hadds, by grind [outlineLines]⟩
    case header str =>
      obtain ⟨hclosed, hplain⟩ := Bool.and_eq_true_iff.mp hplain
      have hclosed := of_decide_eq_true hclosed
      have hname : ']' ∉ str.takeWhile (· ≠ ']') := fun hmem ↦ by
        simpa using mem_takeWhile_imp hmem
      have hnone : findSect { s with read := s.read ++ [buf] } str = none :=
        find?_eq_none.mpr fun x hx hname ↦ hread.names x hx (of_decide_eq_true hname ▸ hclosed)
      obtain ⟨s', hload, out, hadds, hall⟩ := ih (n := n + 1) (ready_createSect hread hname) hplain
      rw [loadLine, hline]
      dsimp only
      rw [if_neg (not_not.mpr hclosed), hnone]
      exact ⟨s', hload, _, hadds.header hread hname, by grind [outlineLines]⟩
    case option str =>
      obtain ⟨hopt, hplain⟩ := Bool.and_eq_true_iff.mp hplain
      simp only [Bool.and_eq_true, decide_eq_true_eq, isNone_iff_eq_none, Bool.not_eq_true',
        isSome_iff_exists] at hopt
      obtain ⟨⟨⟨⟨list, rfl⟩, hbrace⟩, href⟩, hblock⟩ := hopt
      have hadds := adds_option hread (splitOption str) str
      obtain ⟨s', hload, out, hadds', hall⟩ := ih (n := n + 1) (hread.adds hadds) hplain
      rw [loadLine_option hline (h.items list rfl).2.2 hbrace href hblock]
      exact ⟨s', hload, _, hadds.trans hread hadds', by grind [outlineLines]⟩

/-- **The same of a file that is included**, unless it cannot be opened. By induction on the
descriptors. -/
theorem confLoadFile_plain (h : Ready items s)
    (hplain : plain files fds items.isSome fname = true) :
    ∃ s', Stores items (outline files fds fname) s s' ∧
      (confLoadFile files fds items fname s = (.ok, s') ∨ (0 < fds → files fname = none) ∧
        outline files fds fname = none ∧
        ∃ e, confLoadFile files fds items fname s = (.error e, s')) := by
  induction fds generalizing items fname s with
  | zero => exact ⟨s, ⟨_, .refl h, by simp [outline]⟩, .inr ⟨by simp, rfl, _, rfl⟩⟩
  | succ fds ih =>
    rw [plain] at hplain
    rw [confLoadFile, outline]
    cases htext : files fname with
    | none => exact ⟨s, ⟨_, .refl h, by simp⟩, .inr ⟨fun _ ↦ rfl, rfl, _, rfl⟩⟩
    | some text =>
      rw [htext] at hplain
      obtain ⟨s', hload, hstores⟩ := loadFile_plain (fun _ _ _ hr hp ↦
        (ih hr hp).imp fun _ ↦ And.imp_right (Or.imp_right And.right)) h hplain
      exact ⟨s', hstores, .inl hload⟩

variable {text : Text} {sects : List (Text × Body)}

/-- From a state without sections. -/
lemma confLoad_plain (hnil : s.sections = []) (htext : files fname = some text)
    (hplain : plain files (fds + 1) false fname = true) :
    ∃ s', confLoad files (fds + 1) (some fname) s = (.ok, s') ∧
      ∀ out ∈ outline files (fds + 1) fname, out = ([], s'.bodies s'.sections) := by
  have hready : Ready none { s with confFname := some fname, read := [] } :=
    ⟨by simp [hnil], nofun⟩
  obtain ⟨s', ⟨out, hadds, hall⟩, hload | ⟨hnone, -⟩⟩ := confLoadFile_plain hready hplain
  · obtain ⟨new, hnew, hbodies, -⟩ := hadds.sections
    refine ⟨s', hload, fun out' hout ↦ (hall out' hout).trans (Prod.ext (hadds.front rfl) ?_)⟩
    rw [hnew, hnil, nil_append, hbodies]
  · cases htext.symm.trans (hnone (Nat.succ_pos fds))

/-- **Nothing is lost**: every file that is reached can be opened, and the sections are those of the
headers, each with the options that are written behind it. -/
def Whole (files : Text → Option Text) (fds : ℕ) (fname : Text) (s : Conf) : Prop :=
  outline files fds fname = some ([], s.bodies s.sections)

instance : Decidable (Whole files fds fname s) := inferInstanceAs (Decidable (_ = _))

/-- Two files, by their names. -/
def twoFiles (f g : Option String) (fname : Text) : Option Text :=
  if fname = ['f'] then f.map String.toList else g.map String.toList

section

variable (sects) (sect name : Text)

/-- What is found when the bodies of the sections of a name are concatenated. -/
def mergedGetOpt : Option Text :=
  (((sects.filter (·.1 = sect)).flatMap Prod.snd).find? (·.1 = name)).bind Prod.snd

/-- What is written in the first section of a name. -/
def firstBody : Body :=
  ((sects.find? (·.1 = sect)).map Prod.snd).getD []

/-- By induction on the sections. -/
lemma find?_merged : ∃ rest,
    ((sects.filter (·.1 = sect)).flatMap Prod.snd).find? (·.1 = name) =
      ((firstBody sects sect).find? (·.1 = name)).or rest := by
  rw [firstBody]
  induction sects with
  | nil => exact ⟨none, rfl⟩
  | cons x sects ih =>
    by_cases hx : x.1 = sect
    · rw [filter_cons_of_pos (by simpa), find?_cons_of_pos (by simpa), flatMap_cons, find?_append]
      exact ⟨_, rfl⟩
    · rwa [filter_cons_of_neg (by simpa), find?_cons_of_neg (by simpa)]

lemma confGetOpt_eq : s.confGetOpt sect name =
    ((firstBody (s.bodies s.sections) sect).find? (·.1 = name)).bind Prod.snd := by
  have hfind : (s.bodies s.sections).find? (·.1 = sect) =
      (s.findSect sect).map fun x ↦ (x.name, s.body x.items) := find?_map ..
  rw [firstBody, hfind, confGetOpt]
  cases s.findSect sect with
  | none => rfl
  | some x =>
    rw [bind_some, map_some, map_some, getD_some, body, find?_map]
    cases s.heap x.items with
    | none => rfl
    | some opts =>
      rw [bind_some, getD_some, Option.bind_map]
      rfl

end

/-- A section in two parts. -/
def twoParts : List (Text × Body) :=
  [(['a'], [(['x'], some ['1'])]), (['a'], [(['y'], some ['2'])])]

end AccelPpp.Triton.Conf
