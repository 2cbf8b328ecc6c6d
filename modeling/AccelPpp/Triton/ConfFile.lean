import Mathlib

/-!
# The configuration file

`conf_load` reads a file line by line into a list of sections, each with a list of options. An
option whose value ends with an opening brace has a list of options of its own, which is read up to
the closing brace; `$include` reads another file in between. `conf_reload` puts the current sections
aside, loads the file anew and, when that fails, puts them back.

Lists of options are list heads in memory, since `ctx->items` and the static `cur_sect` point at
them and an include may leave `cur_sect` in another section than the one whose options are being
read. A list head is a number; `Conf.heap` says which options hang on it, or that it has been freed.
Using a freed list, or adding an option before the first header of a load (where `ctx->items` is
`NULL`), is the outcome `crash`. `load_file` calls itself for the options within braces, with the
same open file; the calls that wait for such an inner one are the list `saved`, of what `ctx->items`
is to be set back to. Files are given by a function from names, which does not change during a load.
As many may be open at a time as there are descriptors, which makes a circle of includes end.

When a reload fails, `list_splice` puts the old sections back in front of those that the failed load
has created, so a section that only the new file has is found from then on. Nothing else changes
(`failed_reload_visible_iff`).
-/

open Function List Nat Option

namespace AccelPpp.Triton

/-- A C string. -/
abbrev Text := List Char

/-! ### Lines -/

def isBlank (c : Char) : Bool :=
  c = ' ' ∨ c = '\t'

def skipSpace (str : Text) : Text :=
  str.dropWhile isBlank

/-- What `skip_word` skips. -/
def word (str : Text) : Text :=
  str.takeWhile fun c ↦ !isBlank c && c != '='

/-- What successive calls of `fgets(buf, 1024, file)` return: up to 1023 characters, up to the end
of the line. `cur` is what has been read of the current one, in reverse, and `len` its length. -/
def fgets (cur : Text) (len : ℕ) : Text → List Text
  | [] => if cur.isEmpty then [] else [cur.reverse]
  | c :: rest =>
    if c = '\n' ∨ len = 1022 then (c :: cur).reverse :: fgets [] 0 rest
    else fgets (c :: cur) (len + 1) rest

/-- The text of a line: up to a NUL, without the newline and without blanks around it. -/
def trim (buf : Text) : Text :=
  let str := buf.takeWhile (· ≠ '\x00')
  let str := if str.getLast? = some '\n' then str.dropLast else str
  skipSpace (str.rdropWhile isBlank)

/-- What `load_file` tells apart. -/
inductive Line where
  /-- An empty line or a comment. -/
  | skip
  | includes (fname : Text)
  /-- A section header, with all that follows the bracket. -/
  | header (str : Text)
  | option (str : Text)

def parseLine (buf : Text) : Line :=
  let str := trim buf
  match str with
  | [] => .skip
  | '#' :: _ => .skip
  | '[' :: rest => .header rest
  | _ =>
    if ['$', 'i', 'n', 'c', 'l', 'u', 'd', 'e'].isPrefixOf str then
      .includes (skipSpace (str.drop (word str).length))
    else .option str

/-- The name of the section that a header line opens. -/
def headerName (buf : Text) : Option Text :=
  match parseLine buf with
  | .header str => if ']' ∈ str then some (str.takeWhile (· ≠ ']')) else none
  | _ => none

/-- The name and the value of an option. A space that ends the name is overwritten, a tab is not, so
that it stays part of the name, as does everything after it if there is no `=`. -/
def splitOption (str : Text) : Text × Option Text :=
  let value : Text → Option Text
    | c :: rest => if c = '=' ∨ c = ',' then some (skipSpace rest) else none
    | [] => none
  match str.drop (word str).length with
  | ' ' :: rest => (word str, value (skipSpace rest))
  | rest =>
    match value (skipSpace rest) with
    | some val => (word str ++ rest.takeWhile isBlank, some val)
    | none => (str, none)

/-- The name of the option that a value refers to. Without the closing brace it is the value itself.
-/
def parentName (val : Text) : Option Text :=
  match val with
  | '$' :: '{' :: rest => some (if '}' ∈ rest then rest.takeWhile (· ≠ '}') else val)
  | _ => none

/-! ### Sections and options -/

/-- `struct conf_option_t`. -/
structure ConfOption where
  name : Text
  val : Option Text
  raw : Text
  /-- Its own list of options. -/
  items : ℕ
deriving DecidableEq

/-- `struct conf_sect_t`. -/
structure ConfSect where
  name : Text
  items : ℕ
deriving DecidableEq

/-- The variables of `conf_file.c`. -/
structure Conf where
  sections : List ConfSect := []
  confFname : Option Text := none
  curSect : Option ConfSect := none
  /-- The options on each list head; `none` where there is none, or none any more. -/
  heap : ℕ → Option (List ConfOption) := fun _ ↦ none
  /-- The number of list heads that have been allocated so far. -/
  next : ℕ := 0
  /-- The lines that `fgets` has returned during the last load. -/
  read : List Text := []

/-- What is reported on `stderr`. -/
inductive ErrorKind where
  | notOpened
  | sintaxError
  | sectionInsideOption
  | noSectionOpened
  | parentOptionNotFound
deriving DecidableEq

structure ConfError where
  fname : Text
  line : ℕ
  kind : ErrorKind
deriving DecidableEq

inductive Outcome where
  | ok
  | error (e : ConfError)
  | crash
deriving DecidableEq

namespace Conf

section

variable (s : Conf)

def findSect (name : Text) : Option ConfSect :=
  s.sections.find? (·.name = name)

def createSect (name : Text) : Conf :=
  { s with
    sections := s.sections ++ [⟨name, s.next⟩]
    curSect := some ⟨name, s.next⟩
    heap := Function.update s.heap s.next (some [])
    next := s.next + 1 }

/-- Cut the last character off the value of the first option with this name, in its place. -/
def cutVal (list : ℕ) (name : Text) : Conf :=
  { s with
    heap := Function.update s.heap list ((s.heap list).map fun opts ↦
      opts.modify (opts.findIdx (·.name = name)) fun opt ↦
        { opt with val := opt.val.map dropLast }) }

/-- `list_add_tail(&opt->entry, list)`, of a new option. -/
def addTail (list : ℕ) (name : Text) (val : Option Text) (raw : Text) : Conf :=
  { s with
    heap := Function.update
      (Function.update s.heap list ((s.heap list).map (· ++ [⟨name, val, raw, s.next⟩])))
      s.next (some [])
    next := s.next + 1 }

/-- The value ends with the brace that opens a list of options. -/
def opensBlock (val : Option Text) : Bool :=
  val.any (·.getLast? = some '{')

/-- The brace is cut off where the value is stored: in the line that was read, or in the option that
the value was taken from. -/
def cutBrace (val : Option Text) : Option (ℕ × Text) → Conf
  | none => s
  | some (list, name) => if opensBlock val then s.cutVal list name else s

/-- `sect_add_item` up to the call of `load_file`, with the list of the new option if it is to be
read; `none` where it crashes. `parent` is the option that the value was taken from, if any. -/
def sectAddItem (items : Option ℕ) (name : Text) (val : Option Text) (raw : Text)
    (parent : Option (ℕ × Text)) : Option (Conf × Option ℕ) :=
  let block := opensBlock val
  let s := s.cutBrace val parent
  items.map fun list ↦
    (s.addTail list name (if block then val.map dropLast else val) raw,
      if block then some s.next else none)

/-- What follows `raw = _strdup(str)` in `load_file`: the outcome, and as for `sect_add_item` the
list that is to be read. -/
def addOption (sect : ConfSect) (items : Option ℕ) (str : Text) : Except (Option ErrorKind)
    (Conf × Option ℕ) :=
  let (name, val) := splitOption str
  let added : Option (Conf × Option ℕ) → Except (Option ErrorKind) (Conf × Option ℕ)
    | some result => .ok result
    | none => .error none
  match val.bind parentName with
  | none => added (s.sectAddItem items name val str none)
  | some key =>
    match s.heap sect.items with
    | none => .error none
    | some opts =>
      match opts.find? (·.name = key) with
      | none => .error (some .parentOptionNotFound)
      | some opt => added (s.sectAddItem items name opt.val str (some (sect.items, key)))

/-- How `load_file` goes on after a line: with other values of `ctx->items` and of those that the
waiting calls set it back to, or not at all. -/
inductive Next where
  | go (items : Option ℕ) (saved : List ℕ)
  | done (r : Outcome)

/-- The innermost call of `load_file` returns zero. -/
def leave : List ℕ → Next
  | [] => .done .ok
  | list :: saved => .go (some list) saved

/-- The body of the loop of `load_file`. `conf` is the call of `__conf_load` for an include, `items`
is `ctx->items` and `saved` what the waiting calls set it back to. -/
def loadLine (conf : Option ℕ → Text → Conf → Outcome × Conf) (fname : Text) (line : ℕ)
    (items : Option ℕ) (saved : List ℕ) (buf : Text) (s : Conf) : Next × Conf :=
  let s := { s with read := s.read ++ [buf] }
  let error (kind : ErrorKind) : Next := .done (.error ⟨fname, line, kind⟩)
  match parseLine buf with
  | .skip => (.go items saved, s)
  | .includes file =>
    match conf items file s with
    | (.ok, s) => (.go items saved, s)
    | (.error _, s) => (leave saved, s)
    | (.crash, s) => (.done .crash, s)
  | .header str =>
    if ']' ∉ str then (error .sintaxError, s)
    else
      -- The closing bracket is overwritten only after the search.
      match s.findSect str with
      | some sect =>
        let s := { s with curSect := some sect }
        if items ≠ some sect.items then (error .sectionInsideOption, s)
        else (.go (some sect.items) saved, s)
      | none => (.go (some s.next) saved, s.createSect (str.takeWhile (· ≠ ']')))
  | .option str =>
    match s.curSect with
    | none => (error .noSectionOpened, s)
    | some sect =>
      if str.head? = some '}' ∧ items ≠ some sect.items then (leave saved, s)
      else
        match s.addOption sect items str with
        | .error none => (.done .crash, s)
        | .error (some kind) => (error kind, s)
        | .ok (s, none) => (.go items saved, s)
        | .ok (s, some list) => (.go (some list) (items.toList ++ saved), s)

/-- `load_file`, from the `line`-th line on. -/
def loadFile (conf : Option ℕ → Text → Conf → Outcome × Conf) (fname : Text) :
    ℕ → Option ℕ → List ℕ → List Text → Conf → Outcome × Conf
  | _, _, _, [], s => (.ok, s)
  | line, items, saved, buf :: rest, s =>
    match loadLine conf fname line items saved buf s with
    | (.go items saved, s) => loadFile conf fname (line + 1) items saved rest s
    | (.done r, s) => (r, s)

/-- `__conf_load`, with a number of descriptors left and the files. -/
def confLoadFile (files : Text → Option Text) : ℕ → Option ℕ → Text → Conf → Outcome × Conf
  | 0, _, fname, s => (.error ⟨fname, 0, .notOpened⟩, s)
  | fds + 1, items, fname, s =>
    match files fname with
    | none => (.error ⟨fname, 0, .notOpened⟩, s)
    | some text => loadFile (confLoadFile files fds) fname 1 items [] (fgets [] 0 text) s

/-- `conf_load`. Without a name it is the one given last. -/
def confLoad (files : Text → Option Text) (fds : ℕ) (fname : Option Text) (s : Conf) :
    Outcome × Conf :=
  match fname <|> s.confFname with
  | none => (.crash, s)
  | some name => confLoadFile files fds none name { s with confFname := some name, read := [] }

/-- `free_items`, to a depth of nesting that is never exceeded. -/
def freeItems : ℕ → (ℕ → Option (List ConfOption)) → ℕ → ℕ → Option (List ConfOption)
  | 0, heap, _ => heap
  | depth + 1, heap, list =>
    match heap list with
    | none => heap
    | some opts =>
      Function.update (opts.foldl (fun heap opt ↦ freeItems depth heap opt.items) heap) list none

/-- `conf_reload`. -/
def confReload (files : Text → Option Text) (fds : ℕ) (fname : Option Text) (s : Conf) :
    Outcome × Conf :=
  match confLoad files fds fname { s with sections := [] } with
  | (.ok, s') =>
    (.ok, { s' with
      heap := s.sections.foldl (fun heap sect ↦ freeItems s.next heap sect.items) s'.heap })
  | (.error e, s') => (.error e, { s' with sections := s.sections ++ s'.sections })
  | (.crash, s') => (.crash, s')

/-- `conf_get_opt`. -/
def confGetOpt (sect name : Text) : Option Text :=
  (s.findSect sect).bind fun sect ↦ (s.heap sect.items).bind fun opts ↦
    (opts.find? (·.name = name)).bind ConfOption.val

/-! ### What is visible -/

/-- The options that are reached from a list by a path of positions. -/
def itemsAt (s : Conf) : ℕ → List ℕ → Option (List ConfOption)
  | list, [] => s.heap list
  | list, k :: path =>
    (s.heap list).bind fun opts ↦ opts[k]?.bind fun opt ↦ s.itemsAt opt.items path

/-- **What can be seen of the configuration**: for each name of a section whether it is found, and
if so, at each path into it the names, values and texts of the options. -/
def visible (name : Text) : Option (List ℕ → Option (List (Text × Option Text × Text))) :=
  (s.findSect name).map fun sect path ↦
    (s.itemsAt sect.items path).map (·.map fun opt ↦ (opt.name, opt.val, opt.raw))

end

/-! ### A load leaves the old lists alone -/

/-- The memory of a load that began in `s₀`: the old lists are as they were, and the lists of all
options have been allocated. -/
structure Extends (s₀ : Conf) (heap : ℕ → Option (List ConfOption)) (next : ℕ) : Prop where
  frame : ∀ list < s₀.next, heap list = s₀.heap list
  next_le : s₀.next ≤ next
  closed : ∀ list, ∀ opts ∈ heap list, ∀ opt ∈ opts, opt.items < next

/-- **During a load**: besides, the sections are those of the headers that have been read. -/
structure Loading (s₀ s : Conf) : Prop where
  store : Extends s₀ s.heap s.next
  sections_lt : ∀ sect ∈ s.sections, sect.items < s.next
  names : s.sections.map ConfSect.name = s.read.filterMap headerName

/-- The current section is one that this load has created. -/
def CurNew (s₀ s : Conf) : Prop :=
  ∀ sect ∈ s.curSect, s₀.next ≤ sect.items

/-- What holds of the variables of `load_file`: it adds to new lists only. -/
structure Reading (s₀ : Conf) (items : Option ℕ) (saved : List ℕ) (s : Conf) : Prop where
  loading : Loading s₀ s
  items_new : ∀ list ∈ items, s₀.next ≤ list
  saved_new : ∀ list ∈ saved, s₀.next ≤ list
  saved_some : saved ≠ [] → items.isSome
  cur_new : items.isSome → CurNew s₀ s

variable {s₀ s : Conf} {items : Option ℕ} {saved : List ℕ} {list : ℕ} {buf name : Text} {s' : Conf}

/-- One of the new lists is changed. -/
lemma Extends.update {heap : ℕ → Option (List ConfOption)} {next next' : ℕ}
    (h : Extends s₀ heap next) (hlist : s₀.next ≤ list) (hnext : next ≤ next')
    {opts : Option (List ConfOption)} (hopts : ∀ os ∈ opts, ∀ opt ∈ os, opt.items < next') :
    Extends s₀ (update heap list opts) next' where
  frame := fun other hother ↦ by
    rw [update_of_ne (Nat.ne_of_lt (hother.trans_le hlist)), h.frame other hother]
  next_le := h.next_le.trans hnext
  closed := (forall_update_iff heap fun _ os ↦ ∀ o ∈ os, ∀ opt ∈ o, opt.items < next').mpr
    ⟨hopts, fun other _ os hos opt hopt ↦ (h.closed other os hos opt hopt).trans_le hnext⟩

lemma not_mem_headerName (h : headerName buf = some name) : ']' ∉ name := by
  rw [headerName] at h
  split at h
  · split at h
    · rw [some_inj] at h
      rw [← h]
      intro hmem
      have hne := mem_takeWhile_imp hmem
      exact of_decide_eq_true hne rfl
    · nomatch h
  · nomatch h

/-- The innermost call of `load_file` returns. -/
lemma Reading.pop (h : Reading s₀ items (list :: saved) s) : Reading s₀ (some list) saved s where
  loading := h.loading
  items_new := fun other hother ↦ by
    rw [← mem_some.mp hother]
    exact h.saved_new list mem_cons_self
  saved_new := fun other hother ↦ h.saved_new other (mem_cons_of_mem _ hother)
  saved_some := fun _ ↦ rfl
  cur_new := fun _ ↦ h.cur_new (h.saved_some (cons_ne_nil _ _))

section

variable (h : Loading s₀ s)

include h

lemma Loading.logged (hbuf : headerName buf = none) :
    Loading s₀ { s with read := s.read ++ [buf] } where
  store := h.store
  sections_lt := h.sections_lt
  names := by
    rw [filterMap_append, filterMap_cons_none hbuf, filterMap_nil, append_nil]
    exact h.names

lemma Loading.createSect (hbuf : headerName buf = some name) :
    Loading s₀ (Conf.createSect { s with read := s.read ++ [buf] } name) where
  store := h.store.update h.store.next_le (le_succ _) (by simp)
  sections_lt := by
    intro sect hsect
    obtain hold | hnew := mem_append.mp hsect
    · exact (h.sections_lt sect hold).trans (lt_succ_self _)
    · rw [mem_singleton.mp hnew]
      exact lt_succ_self _
  names := by
    change (s.sections ++ [_]).map ConfSect.name = (s.read ++ [buf]).filterMap headerName
    rw [map_append, filterMap_append, filterMap_cons_some hbuf, h.names]
    rfl

lemma Loading.cutVal (hlist : s₀.next ≤ list) {name : Text} :
    Loading s₀ (s.cutVal list name) where
  store := by
    refine h.store.update hlist le_rfl fun os hos opt hopt ↦ ?_
    obtain ⟨opts, hopts, rfl⟩ := map_eq_some_iff.mp hos
    -- Only the value is another.
    obtain ⟨k, hk, rfl⟩ := mem_iff_getElem.mp hopt
    rw [getElem_modify]
    rw [length_modify] at hk
    have hold := h.store.closed list opts hopts opts[k] (getElem_mem hk)
    split <;> exact hold
  sections_lt := h.sections_lt
  names := h.names

lemma Loading.addTail (hlist : s₀.next ≤ list) {name : Text}
    {val : Option Text} {raw : Text} : Loading s₀ (s.addTail list name val raw) where
  store := by
    refine (h.store.update hlist (le_succ _) fun os hos opt hopt ↦ ?_).update
      h.store.next_le le_rfl (by simp)
    obtain ⟨opts, hopts, rfl⟩ := map_eq_some_iff.mp hos
    obtain hold | hnew := mem_append.mp hopt
    · exact (h.store.closed list opts hopts opt hold).trans (lt_succ_self _)
    · rw [mem_singleton.mp hnew]
      exact lt_succ_self _
  sections_lt := fun sect hsect ↦ (h.sections_lt sect hsect).trans (lt_succ_self _)
  names := h.names

/-- The name in a header has no closing bracket, so the rest of a line is never found. -/
lemma Loading.findSect_eq_none {str : Text} (hstr : ']' ∈ str) : s.findSect str = none := by
  refine find?_eq_none.mpr fun sect hsect hname ↦ ?_
  have hmem : sect.name ∈ s.read.filterMap headerName :=
    h.names ▸ mem_map_of_mem hsect
  obtain ⟨buf, -, hbuf⟩ := mem_filterMap.mp hmem
  exact not_mem_headerName hbuf (of_decide_eq_true hname ▸ hstr)

lemma Loading.cutBrace {val : Option Text} {parent : Option (ℕ × Text)}
    (hparent : ∀ p ∈ parent, s₀.next ≤ p.1) : Loading s₀ (s.cutBrace val parent) := by
  cases parent with
  | none => exact h
  | some p =>
    rw [Conf.cutBrace]
    split
    · exact h.cutVal (hparent p rfl)
    · exact h

end

lemma curSect_cutBrace (s : Conf) (val : Option Text) (parent : Option (ℕ × Text)) :
    (s.cutBrace val parent).curSect = s.curSect := by
  cases parent with
  | none => rfl
  | some p =>
    rw [Conf.cutBrace]
    split <;> rfl

/-- After `sect_add_item` either the same list is added to, or the list of the new option. -/
lemma Reading.sectAddItem (h : Reading s₀ items saved s) {val : Option Text} {raw : Text}
    {parent : Option (ℕ × Text)} {sub : Option ℕ}
    (hparent : items.isSome → ∀ p ∈ parent, s₀.next ≤ p.1)
    (hadd : s.sectAddItem items name val raw parent = some (s', sub)) :
    Reading s₀ items saved s' ∧
      ∀ list ∈ sub, Reading s₀ (some list) (items.toList ++ saved) s' := by
  obtain ⟨list, rfl, heq⟩ := map_eq_some_iff.mp hadd
  obtain ⟨rfl, rfl⟩ := Prod.mk.inj heq
  have hcut : Loading s₀ (s.cutBrace val parent) := h.loading.cutBrace (hparent rfl)
  have hnew : s₀.next ≤ list := h.items_new list rfl
  have hcur : CurNew s₀ (s.cutBrace val parent) := by
    rw [CurNew, curSect_cutBrace]
    exact h.cur_new rfl
  refine ⟨{ h with loading := hcut.addTail hnew, cur_new := fun _ ↦ hcur }, fun sub hsub ↦ ?_⟩
  refine ⟨hcut.addTail hnew, fun other hother ↦ ?_, fun other hother ↦ ?_, fun _ ↦ rfl,
    fun _ ↦ hcur⟩
  · rw [← mem_some.mp hother]
    split at hsub
    · rw [← mem_some.mp hsub]
      exact hcut.store.next_le
    · nomatch hsub
  · obtain rfl | hold := mem_cons.mp hother
    · exact hnew
    · exact h.saved_new other hold

lemma Reading.addOption (h : Reading s₀ items saved s) {sect : ConfSect} {str : Text}
    {sub : Option ℕ} (hsect : s.curSect = some sect)
    (hadd : s.addOption sect items str = .ok (s', sub)) :
    Reading s₀ items saved s' ∧
      ∀ list ∈ sub, Reading s₀ (some list) (items.toList ++ saved) s' := by
  rw [Conf.addOption] at hadd
  dsimp only at hadd
  split at hadd
  · split at hadd
    next result hresult =>
      obtain rfl := Except.ok.inj hadd
      refine h.sectAddItem (fun _ p hp ↦ ?_) hresult
      nomatch hp
    next => nomatch hadd
  · split at hadd
    next => nomatch hadd
    next opts hopts =>
      split at hadd
      next => nomatch hadd
      next opt hopt =>
        split at hadd
        next result hresult =>
          obtain rfl := Except.ok.inj hadd
          refine h.sectAddItem (fun hsome p hp ↦ ?_) hresult
          rw [← mem_some.mp hp]
          exact h.cur_new hsome sect hsect
        next => nomatch hadd

/-! ### The load -/

/-- What is known when a call that began with `items` has returned. -/
def After (s₀ : Conf) (items : Option ℕ) (result : Outcome × Conf) : Prop :=
  result.1 ≠ .crash → Loading s₀ result.2 ∧ (items.isSome → CurNew s₀ result.2)

lemma After.mono {items' : Option ℕ} {result : Outcome × Conf} (h : After s₀ items' result)
    (himp : items.isSome → items'.isSome) : After s₀ items result :=
  fun hr ↦ ⟨(h hr).1, fun hsome ↦ (h hr).2 (himp hsome)⟩

section

variable (h : Reading s₀ items saved s)

include h

lemma Reading.after (r : Outcome) : After s₀ items (r, s) :=
  fun _ ↦ ⟨h.loading, h.cur_new⟩

lemma Reading.logged (hbuf : headerName buf = none) :
    Reading s₀ items saved { s with read := s.read ++ [buf] } where
  loading := h.loading.logged hbuf
  items_new := h.items_new
  saved_new := h.saved_new
  saved_some := h.saved_some
  cur_new := h.cur_new

/-- A section is opened. -/
lemma Reading.createSect (hbuf : headerName buf = some name) :
    Reading s₀ (some s.next) saved (Conf.createSect { s with read := s.read ++ [buf] } name) where
  loading := h.loading.createSect hbuf
  items_new := fun list hlist ↦ mem_some.mp hlist ▸ h.loading.store.next_le
  saved_new := h.saved_new
  saved_some := fun _ ↦ rfl
  cur_new := fun _ sect hsect ↦ by
    rw [← mem_some.mp hsect]
    exact h.loading.store.next_le

/-- What one line leads to. -/
def NextOk (s₀ : Conf) (items : Option ℕ) : Next × Conf → Prop
  | (.go items' saved', s') => Reading s₀ items' saved' s' ∧ (items.isSome → items'.isSome)
  | (.done r, s') => After s₀ items (r, s')

lemma Reading.leave : NextOk s₀ items (Conf.leave saved, s) := by
  cases saved with
  | nil => exact h.after _
  | cons list saved => exact ⟨h.pop, fun _ ↦ rfl⟩

end

variable {conf : Option ℕ → Text → Conf → Outcome × Conf}

section

variable (hconf : ∀ items file s, Reading s₀ items [] s → After s₀ items (conf items file s))
  (h : Reading s₀ items saved s)

include hconf h

/-- **One line**: new lists only are added to. -/
theorem Reading.loadLine (fname : Text) (line : ℕ) (buf : Text) :
    NextOk s₀ items (Conf.loadLine conf fname line items saved buf s) := by
  rw [Conf.loadLine]
  cases hline : parseLine buf with
  | skip =>
    have hbuf : headerName buf = none := by rw [headerName, hline]
    exact ⟨h.logged hbuf, id⟩
  | includes file =>
    have hbuf : headerName buf = none := by rw [headerName, hline]
    have hlog := h.logged hbuf
    dsimp only
    have hinc := hconf items file _ { hlog with saved_new := nofun, saved_some := nofun }
    split
    next t ht =>
      rw [ht] at hinc
      obtain ⟨hload, hcur⟩ := hinc nofun
      exact ⟨{ h with loading := hload, cur_new := hcur }, id⟩
    next e t ht =>
      rw [ht] at hinc
      obtain ⟨hload, hcur⟩ := hinc nofun
      exact Reading.leave { h with loading := hload, cur_new := hcur }
    next t ht => exact fun hr ↦ absurd rfl hr
  | header str =>
    dsimp only
    split
    next hopen =>
      have hbuf : headerName buf = none := by rw [headerName, hline]; exact if_neg hopen
      exact (h.logged hbuf).after _
    next hclosed =>
      have hbuf : headerName buf = some (str.takeWhile (· ≠ ']')) := by
        rw [headerName, hline]
        exact if_pos (not_not.mp hclosed)
      have hnone : Conf.findSect { s with read := s.read ++ [buf] } str = none :=
        h.loading.findSect_eq_none (not_not.mp hclosed)
      rw [hnone]
      exact ⟨h.createSect hbuf, fun _ ↦ rfl⟩
  | option str =>
    have hbuf : headerName buf = none := by rw [headerName, hline]
    have hlog := h.logged hbuf
    dsimp only
    split
    next => exact hlog.after _
    next sect hsect =>
      split
      next => exact hlog.leave
      next =>
        split
        next => exact fun hr ↦ absurd rfl hr
        next => exact hlog.after _
        next t hadd => exact ⟨(hlog.addOption hsect hadd).1, id⟩
        next t list hadd => exact ⟨(hlog.addOption hsect hadd).2 list rfl, fun _ ↦ rfl⟩

/-- **A file is read to its end, or to an error.** By induction on the lines. -/
theorem Reading.loadFile (fname : Text) {lines : List Text} (line : ℕ) :
    After s₀ items (Conf.loadFile conf fname line items saved lines s) := by
  induction lines generalizing line items saved s with
  | nil => exact h.after _
  | cons buf rest ih =>
    have hnext := h.loadLine hconf fname line buf
    rw [Conf.loadFile]
    generalize Conf.loadLine conf fname line items saved buf s = next at hnext ⊢
    match next, hnext with
    | (.go items' saved', s'), hnext => exact (ih hnext.1 (line + 1)).mono hnext.2
    | (.done r, s'), hnext => exact hnext

end

/-- **A file with all it includes.** By induction on the number of descriptors left. -/
theorem Reading.confLoadFile (files : Text → Option Text) (fds : ℕ) (fname : Text)
    (h : Reading s₀ items [] s) : After s₀ items (Conf.confLoadFile files fds items fname s) := by
  induction fds generalizing items fname s with
  | zero => exact h.after _
  | succ fds ih =>
    rw [Conf.confLoadFile]
    split
    · exact h.after _
    · exact h.loadFile (fun _ file _ hr ↦ ih file hr) fname 1

/-! ### Reloading -/

/-- Every list that is in use has been allocated. -/
structure Wf (s : Conf) : Prop where
  sections_lt : ∀ sect ∈ s.sections, sect.items < s.next
  closed : ∀ list, ∀ opts ∈ s.heap list, ∀ opt ∈ opts, opt.items < s.next

/-- A load from a state without sections. -/
lemma Wf.confLoad (h : s.Wf) (hnil : s.sections = []) (files : Text → Option Text) (fds : ℕ)
    (fname : Option Text) (hr : (Conf.confLoad files fds fname s).1 ≠ .crash) :
    Loading s (Conf.confLoad files fds fname s).2 := by
  rw [Conf.confLoad] at hr ⊢
  split at hr
  next => exact absurd rfl hr
  next name hname =>
    have hload : Loading s { s with confFname := some name, read := [] } :=
      ⟨⟨fun _ _ ↦ rfl, le_rfl, h.closed⟩, h.sections_lt, by rw [hnil]; rfl⟩
    have hstart : Reading s none [] { s with confFname := some name, read := [] } :=
      ⟨hload, nofun, nofun, nofun, nofun⟩
    exact (hstart.confLoadFile files fds name hr).1

/-- What is on a list after `free_items` was on it before. -/
lemma mem_of_mem_freeItems {depth other : ℕ} {heap : ℕ → Option (List ConfOption)}
    {opts : List ConfOption} (h : opts ∈ freeItems depth heap list other) : opts ∈ heap other := by
  induction depth generalizing heap list other opts with
  | zero => exact h
  | succ depth ih =>
    rw [freeItems] at h
    cases hos : heap list with
    | none =>
      rw [hos] at h
      exact h
    | some os =>
      rw [hos] at h
      dsimp only at h
      by_cases hother : other = list
      · rw [hother, update_self] at h
        nomatch h
      · rw [update_of_ne hother] at h
        exact os.foldlRecOn (fun heap opt ↦ freeItems depth heap opt.items)
          (motive := (opts ∈ · other → opts ∈ heap other)) id (fun _ hr _ _ h ↦ hr (ih h)) h

lemma Wf.confReload (h : s.Wf) (files : Text → Option Text) (fds : ℕ) (fname : Option Text)
    (hr : (Conf.confReload files fds fname s).1 ≠ .crash) :
    (Conf.confReload files fds fname s).2.Wf := by
  have hbak : Wf { s with sections := [] } := ⟨nofun, h.closed⟩
  have hload := hbak.confLoad rfl files fds fname
  rw [Conf.confReload] at hr ⊢
  generalize Conf.confLoad files fds fname { s with sections := [] } = result at hload hr ⊢
  obtain ⟨r, s'⟩ := result
  cases r with
  | crash => exact absurd rfl hr
  | error e =>
    obtain ⟨hstore, hsections, -⟩ := hload nofun
    refine ⟨fun sect hsect ↦ ?_, hstore.closed⟩
    obtain hold | hnew := mem_append.mp hsect
    · exact (h.sections_lt sect hold).trans_le hstore.next_le
    · exact hsections sect hnew
  | ok =>
    obtain ⟨hstore, hsections, -⟩ := hload nofun
    refine ⟨hsections, fun list opts hopts ↦ hstore.closed list opts ?_⟩
    exact s.sections.foldlRecOn (fun heap sect ↦ freeItems s.next heap sect.items)
      (motive := (opts ∈ · list → opts ∈ _)) id (fun _ hr _ _ h ↦ hr (mem_of_mem_freeItems h)) hopts

/-- **The configurations that can be the current one**: loaded at the start, and then reloaded, with
whatever files and with or without success. -/
inductive Loaded : Conf → Prop
  | load (files : Text → Option Text) (fds : ℕ) (fname : Text) {s : Conf}
    (h : confLoad files fds (some fname) {} = (.ok, s)) : Loaded s
  | reload (files : Text → Option Text) (fds : ℕ) (fname : Option Text) {s s' : Conf} {r : Outcome}
    (hs : Loaded s) (h : confReload files fds fname s = (r, s')) (hr : r ≠ .crash) : Loaded s'

lemma Loaded.wf (hs : Loaded s) : s.Wf := by
  induction hs with
  | load files fds fname h =>
    have hempty : Wf {} := ⟨nofun, nofun⟩
    have hload := hempty.confLoad rfl files fds (some fname) (by rw [h]; nofun)
    rw [h] at hload
    exact ⟨hload.sections_lt, hload.store.closed⟩
  | reload files fds fname hs h hr ih =>
    have hwf := ih.confReload files fds fname (by rw [h]; exact hr)
    rwa [h] at hwf

/-- An old list, with all that hangs on it, looks as before. -/
lemma itemsAt_eq (hs : s.Wf) (hstore : Extends s s'.heap s'.next) (hlist : list < s.next)
    (path : List ℕ) : s'.itemsAt list path = s.itemsAt list path := by
  induction path generalizing list with
  | nil => exact hstore.frame list hlist
  | cons k path ih =>
    rw [itemsAt, hstore.frame list hlist]
    refine bind_congr fun opts hopts ↦ bind_congr fun opt hopt ↦ ih ?_
    exact hs.closed list opts hopts opt (mem_of_getElem? hopt)

/-- **What is visible after a failed reload is what was visible before, if and only if every header
that was read up to the error names a section that was there.** -/
theorem failed_reload_visible_iff (files : Text → Option Text) (fds : ℕ) (fname : Option Text)
    {s s' : Conf} {e : ConfError} (hs : Loaded s)
    (h : confReload files fds fname s = (.error e, s')) :
    s'.visible = s.visible ↔
      ∀ buf ∈ s'.read, ∀ name ∈ headerName buf, (s.findSect name).isSome := by
  have hwf := hs.wf
  have hbak : Wf { s with sections := [] } := ⟨nofun, hwf.closed⟩
  have hload := hbak.confLoad rfl files fds fname
  rw [confReload] at h
  generalize confLoad files fds fname { s with sections := [] } = result at hload h
  obtain ⟨r, t⟩ := result
  cases r with
  | ok | crash => nomatch h
  | error e' =>
    obtain ⟨-, rfl⟩ := Prod.mk.inj h
    obtain ⟨hstore, -, hnames⟩ := hload nofun
    have hext : Extends s ({ t with sections := s.sections ++ t.sections } : Conf).heap t.next :=
      { hstore with }
    -- The old sections come first in the search.
    have hfind : ∀ name, Conf.findSect { t with sections := s.sections ++ t.sections } name =
        (s.findSect name).or (t.findSect name) := fun name ↦ find?_append
    constructor
    · intro heq buf hbuf name hname
      have hmem : name ∈ t.sections.map ConfSect.name :=
        hnames ▸ mem_filterMap.mpr ⟨buf, hbuf, hname⟩
      obtain ⟨sect, hsect, rfl⟩ := mem_map.mp hmem
      have hsome : (t.findSect sect.name).isSome :=
        find?_isSome.mpr ⟨sect, hsect, decide_eq_true rfl⟩
      have hvisible := congrArg isSome (congrFun heq sect.name)
      rw [visible, visible, isSome_map, isSome_map, hfind, isSome_or, hsome,
        Bool.or_true] at hvisible
      exact hvisible.symm
    · intro hheaders
      funext name
      rw [visible, visible, hfind]
      cases hsearch : s.findSect name with
      | some sect =>
        rw [some_or, map_some, map_some, some_inj]
        funext path
        rw [itemsAt_eq hwf hext (hwf.sections_lt sect (mem_of_find?_eq_some hsearch))]
      | none =>
        have hnone : t.findSect name = none := by
          refine find?_eq_none.mpr fun sect hsect hname ↦ ?_
          have hmem : sect.name ∈ t.read.filterMap headerName :=
            hnames ▸ mem_map_of_mem hsect
          obtain ⟨buf, hbuf, hhead⟩ := mem_filterMap.mp hmem
          have hfound := hheaders buf hbuf sect.name hhead
          rw [of_decide_eq_true hname, hsearch] at hfound
          nomatch hfound
        rw [hnone]
        rfl

/-- The file of one section that the following two cases start from. -/
def sectionA : Text := ['[', 'a', ']', '\n', 'x', '=', '1', '\n']

/-- A reload that fails at its second header, after the header of the section that is there already
and an option: nothing changes. -/
theorem failed_reload_visible_same :
    let s := (confLoad (fun _ ↦ some sectionA) 4 (some ['f']) {}).2
    let text := ['[', 'a', ']', '\n', 'y', '=', '2', '\n', '[', 'c']
    let result := confReload (fun _ ↦ some text) 4 none s
    Loaded s ∧ result.1 = .error ⟨['f'], 3, .sintaxError⟩ ∧ result.2.visible = s.visible := by
  intro s text result
  have hs : Loaded s := .load (fun _ ↦ some sectionA) 4 ['f'] rfl
  have hresult : confReload (fun _ ↦ some text) 4 none s =
      (.error ⟨['f'], 3, .sintaxError⟩, result.2) := by rfl
  refine ⟨hs, by decide, (failed_reload_visible_iff _ _ _ hs hresult).mpr ?_⟩
  decide

/-- **A section of a file that could not be loaded becomes visible.** The reload fails at its second
header; the section of the first one, and its option, are found afterwards. -/
theorem failed_reload_adds_section :
    let s := (confLoad (fun _ ↦ some sectionA) 4 (some ['f']) {}).2
    let text := ['[', 'b', ']', '\n', 'x', '=', '1', '\n', '[', 'c']
    let result := confReload (fun _ ↦ some text) 4 none s
    Loaded s ∧ result.1 = .error ⟨['f'], 3, .sintaxError⟩ ∧
      s.confGetOpt ['b'] ['x'] = none ∧ result.2.confGetOpt ['b'] ['x'] = some ['1'] ∧
      (s.visible ['b']).isSome = false ∧ (result.2.visible ['b']).isSome = true := by
  exact ⟨.load (fun _ ↦ some sectionA) 4 ['f'] rfl, by decide, by decide, by decide, by decide,
    by decide⟩

end Conf
end AccelPpp.Triton
